import ParityBridge.Grandpa.Digest

/-! # Digest proofs — where the relay and the pallet read the same change

    Both readers are searches over the digest with `List.findSome?`; they
    differ in where the kind of the log is tested.  The pallet tests it
    inside the search, the relay after it.  So whenever the relay finds a
    scheduled change the pallet finds the same one
    (`findScheduledChange_of_findAuthoritiesChange`), and when every GRANDPA
    log of the digest is a scheduled change the two agree
    (`findAuthoritiesChange_eq_of_all_scheduled`); a GRANDPA log of another
    kind before the change makes the relay miss it. -/

namespace ParityBridge

namespace Grandpa

variable {A H : Type} (decode : List UInt8 → Option (ConsensusLog A))

/-- The scheduled change a log is, if it is one. -/
def scheduledChangeOf : ConsensusLog A → Option (ScheduledChange A)
  | .scheduledChange change => some change
  | _ => none

/-- The GRANDPA log an item carries, as the relay decodes it. -/
def grandpaLog (item : DigestItem) : Option (ConsensusLog A) :=
  item.consensusTryTo decode grandpaEngineId

theorem findScheduledChange_eq (header : Header H) :
    findScheduledChange decode header =
      header.digest.findSome? fun item => (grandpaLog decode item).bind scheduledChangeOf := by
  unfold findScheduledChange convertFirst grandpaLog
  dsimp only
  congr 1
  funext item
  rw [DigestItem.tryTo_consensus]
  congr 1

theorem findAuthoritiesChange_eq (digest : List DigestItem) :
    findAuthoritiesChange decode digest =
      (digest.findSome? (grandpaLog decode)).bind scheduledChangeOf := by
  unfold findAuthoritiesChange convertFirst grandpaLog
  congr 1

/-- A search that stops at the first hit of `f` and then filters finds
    nothing the filtering search does not find first. -/
theorem findSome?_bind_of_eq_some {β γ : Type} (f : DigestItem → Option β) (g : β → Option γ)
    (digest : List DigestItem) {c : γ} (h : (digest.findSome? f).bind g = some c) :
    digest.findSome? (fun item => (f item).bind g) = some c := by
  induction digest with
  | nil => exact nomatch h
  | cons item rest ih =>
      rw [List.findSome?_cons] at h ⊢
      cases hf : f item with
      | none =>
          simp only [hf] at h
          simp only [Option.bind_none]
          exact ih h
      | some b =>
          simp only [hf, Option.bind_some] at h ⊢
          rw [h]

/-- When every hit of `f` passes the filter, stopping at the first hit and
    then filtering is filtering inside the search. -/
theorem findSome?_bind_eq_of_all {β γ : Type} (f : DigestItem → Option β) (g : β → Option γ)
    (digest : List DigestItem) (hall : ∀ item ∈ digest, ∀ b, f item = some b → (g b).isSome) :
    (digest.findSome? f).bind g = digest.findSome? (fun item => (f item).bind g) := by
  induction digest with
  | nil => rfl
  | cons item rest ih =>
      rw [List.findSome?_cons, List.findSome?_cons]
      cases hf : f item with
      | none =>
          simp only [Option.bind_none]
          exact ih fun i hi => hall i (List.mem_cons_of_mem _ hi)
      | some b =>
          -- the first hit passes the filter, so both searches stop at it
          obtain ⟨c, hc⟩ := Option.isSome_iff_exists.mp (hall item (List.mem_cons_self ..) b hf)
          simp only [Option.bind_some, hc]

/-- **RELAY ⇒ PALLET**: a change the relay reads off a digest is the one the
    pallet enacts. -/
theorem findScheduledChange_of_findAuthoritiesChange (header : Header H) {c : ScheduledChange A}
    (h : findAuthoritiesChange decode header.digest = some c) :
    findScheduledChange decode header = some c := by
  rw [findAuthoritiesChange_eq] at h
  rw [findScheduledChange_eq]
  exact findSome?_bind_of_eq_some _ _ _ h

/-- When every GRANDPA log of the digest is a scheduled change, the relay
    and the pallet read the same change. -/
theorem findAuthoritiesChange_eq_of_all_scheduled (header : Header H)
    (hall : ∀ item ∈ header.digest, ∀ log, grandpaLog decode item = some log →
      (scheduledChangeOf log).isSome) :
    findAuthoritiesChange decode header.digest = findScheduledChange decode header := by
  rw [findAuthoritiesChange_eq, findScheduledChange_eq]
  exact findSome?_bind_eq_of_all _ _ _ hall

/-- **MANDATORY DIGEST MISSED**: a GRANDPA log of another kind before a
    scheduled change hides the change from the relay, which then neither
    treats the header as mandatory nor counts the change into the initial
    set id, while the pallet enacts it. -/
theorem relay_misses_change_after_other_grandpa_log (p₁ p₂ : List UInt8) (i : ℕ)
    (c : ScheduledChange A) (h₁ : decode p₁ = some (.onDisabled i))
    (h₂ : decode p₂ = some (.scheduledChange c)) (header : Header H)
    (hd : header.digest = [.consensus grandpaEngineId p₁, .consensus grandpaEngineId p₂])
    (authorities : List (A × ℕ)) (setId : ℕ) :
    findAuthoritiesChange decode header.digest = none ∧
    findScheduledChange decode header = some c ∧
    isMandatory decode header = false ∧
    (prepareInitializationData decode header authorities setId).map (·.setId) = some setId := by
  have hlog₁ : grandpaLog decode (.consensus grandpaEngineId p₁) = some (.onDisabled i) := by
    simp [grandpaLog, DigestItem.consensusTryTo, h₁]
  have hlog₂ : grandpaLog decode (.consensus grandpaEngineId p₂) = some (.scheduledChange c) := by
    simp [grandpaLog, DigestItem.consensusTryTo, h₂]
  have hrelay : findAuthoritiesChange decode header.digest = none := by
    rw [findAuthoritiesChange_eq, hd, List.findSome?_cons, hlog₁]
    rfl
  refine ⟨hrelay, ?_, ?_, ?_⟩
  · rw [findScheduledChange_eq, hd, List.findSome?_cons, hlog₁, List.findSome?_cons, hlog₂]
    rfl
  · simp [isMandatory, schedulesAuthoritiesChange, hrelay]
  · simp [prepareInitializationData, hrelay]

/-- A lookup decoder with the SCALE decodings of the two payloads: index `3`
    with a zero `u64` is `OnDisabled(0)`, index `1` with an empty authority
    list and a zero `u32` delay is `ScheduledChange { [], 0 }`. -/
def scaleDecodeExample (p : List UInt8) : Option (ConsensusLog ℕ) :=
  if p = [3, 0, 0, 0, 0, 0, 0, 0, 0] then some (.onDisabled 0)
  else if p = [1, 0, 0, 0, 0, 0] then some (.scheduledChange ⟨[], 0⟩)
  else none

/-- A header whose digest holds a GRANDPA `OnDisabled(0)` log and then a
    GRANDPA `ScheduledChange { [], 0 }` log, SCALE-encoded. -/
def onDisabledThenChange : Header ℕ :=
  ⟨0, 1, 0, [.consensus grandpaEngineId [3, 0, 0, 0, 0, 0, 0, 0, 0],
    .consensus grandpaEngineId [1, 0, 0, 0, 0, 0]]⟩

theorem relay_reader_misses_scheduled_change :
    findAuthoritiesChange scaleDecodeExample onDisabledThenChange.digest = none ∧
    findScheduledChange scaleDecodeExample onDisabledThenChange = some ⟨[], 0⟩ ∧
    isMandatory scaleDecodeExample onDisabledThenChange = false ∧
    (prepareInitializationData scaleDecodeExample onDisabledThenChange [] 0).map (·.setId) =
      some 0 :=
  relay_misses_change_after_other_grandpa_log scaleDecodeExample
    [3, 0, 0, 0, 0, 0, 0, 0, 0] [1, 0, 0, 0, 0, 0] 0 ⟨[], 0⟩ (by decide) (by decide)
    onDisabledThenChange rfl [] 0

end Grandpa

end ParityBridge
