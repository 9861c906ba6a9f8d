import ParityBridge.Lib.Reach
import ParityBridge.Lib.RingBuffer
import ParityBridge.Parachains.Pallet

/-! # Parachains pallet proofs — every parachain keeps a ring of its heads

    Each parachain's `ImportedParaHashes` row, ring position and
    `ImportedParaHeads` row form a ring buffer of `RingBuffer`, and an
    accepted head is a push onto it (`updateEntry_cases`).  So what the
    library proves of rings holds of every parachain: whatever heads are
    submitted, the position stays below `HeadsToKeep`, a stored head sits in
    a slot and at most `HeadsToKeep` heads are stored
    (`parachain_rings_bounded`); while no head hash of a parachain comes
    back, the ring holds exactly its last `HeadsToKeep` heads, the best
    among them (`parachain_heads_tracked`).  Whatever is submitted, a
    parachain's best head is only ever replaced by one read at a newer
    relay block (`best_heads_never_go_back`).

    A head hash that comes back when its old slot is reused is pruned by
    the very update that stores it (`best_head_pruned_of_reused_slot`):
    the best head is then missing. -/

namespace ParityBridge

namespace Parachains

open Grandpa RingBuffer

variable {P PH RH Pf : Type} [DecidableEq P] [DecidableEq PH]

/-- The ring of a parachain: its `ImportedParaHashes` row, its ring
    position, and its `ImportedParaHeads` row. -/
def ParachainsStorage.ring (s : ParachainsStorage P PH) (p : P) : Ring PH ParaStoredHeaderData :=
  ⟨s.importedParaHashes p, ((s.parasInfo p).map (·.nextImportedHashPosition)).getD 0,
    s.importedParaHeads p⟩

omit [DecidableEq P] [DecidableEq PH] in
/-- The ring position of a parachain is the one in its `ParasInfo`. -/
theorem ring_pointer_of_parasInfo {s : ParachainsStorage P PH} {p : P} {info : ParaInfo PH}
    (hinfo : s.parasInfo p = some info) : (s.ring p).pointer = info.nextImportedHashPosition := by
  simp [ParachainsStorage.ring, hinfo]

/-- The rows of `p` after a push of `h` with data `d` onto its ring. -/
def ParachainsStorage.pushRows (K : ℕ) (s : ParachainsStorage P PH) (p : P) (h : PH)
    (d : ParaStoredHeaderData) : ParachainsStorage P PH :=
  let r := push K (s.ring p) h d
  { s with
    importedParaHashes := Function.update s.importedParaHashes p r.slots
    importedParaHeads := Function.update s.importedParaHeads p r.store }

/-- The storage after the head `h` of `p`, read at relay block `n`, is
    accepted: the pushed rows, and the new best head. -/
def ParachainsStorage.pushHead (K : ℕ) (s : ParachainsStorage P PH) (p : P) (n : ℕ) (h : PH)
    (d : ParaStoredHeaderData) : ParachainsStorage P PH :=
  { s.pushRows K p h d with
    parasInfo := Function.update s.parasInfo p (some ⟨⟨n, h⟩, ((s.ring p).pointer + 1) % K⟩) }

section PushHead

variable {K : ℕ} {s : ParachainsStorage P PH} {p q : P} {n : ℕ} {h : PH}
  {d : ParaStoredHeaderData}

@[simp] theorem ring_pushHead_self : (s.pushHead K p n h d).ring p = push K (s.ring p) h d := by
  simp only [ParachainsStorage.ring, ParachainsStorage.pushHead, ParachainsStorage.pushRows,
    Function.update_self, Option.map_some, Option.getD_some]
  rfl

@[simp] theorem parasInfo_pushHead_self :
    (s.pushHead K p n h d).parasInfo p = some ⟨⟨n, h⟩, ((s.ring p).pointer + 1) % K⟩ :=
  Function.update_self ..

theorem ring_pushHead_of_ne (hq : q ≠ p) : (s.pushHead K p n h d).ring q = s.ring q := by
  simp only [ParachainsStorage.ring, ParachainsStorage.pushHead, ParachainsStorage.pushRows,
    Function.update_of_ne hq]

theorem parasInfo_pushHead_of_ne (hq : q ≠ p) : (s.pushHead K p n h d).parasInfo q = s.parasInfo q :=
  Function.update_of_ne hq ..

end PushHead

section Cases

variable (cfg : ParachainsConfig P PH)

/-- `update_parachain_head` either refuses without a write, or pushes the
    head onto the ring of the parachain. -/
theorem updateParachainHead_cases (s : ParachainsStorage P PH) (p : P) (n : ℕ)
    (d : ParaStoredHeaderData) (h : PH) :
    updateParachainHead cfg s p (s.parasInfo p) n d h = (.error (), s) ∨
    (isObsolete s ⟨n, p, h⟩ = false ∧ ∃ pruneHappened,
      updateParachainHead cfg s p (s.parasInfo p) n d h =
        (.ok ⟨⟨⟨n, h⟩, ((s.ring p).pointer + 1) % cfg.headsToKeep⟩, pruneHappened⟩,
          s.pushRows cfg.headsToKeep p h d)) := by
  unfold updateParachainHead
  by_cases hobs : isObsolete s ⟨n, p, h⟩ = true
  · exact .inl (if_pos hobs)
  rw [if_neg hobs]
  by_cases hsize : d.encodedSize > cfg.maxParaHeadDataSize
  · exact .inl (if_pos hsize)
  rw [if_neg hsize]
  refine .inr ⟨by simpa using hobs, ?_⟩
  unfold ParachainsStorage.pushRows push ParachainsStorage.ring
  dsimp only
  -- the slot under the pointer: its head is pruned after the insert
  cases s.importedParaHashes p (((s.parasInfo p).map (·.nextImportedHashPosition)).getD 0) with
  | none => exact ⟨false, rfl⟩
  | some pruned =>
      refine ⟨true, ?_⟩
      simp only [Function.update_idem, Function.update_self]

/-- One entry of the loop either leaves the storage as it is, or its head
    is accepted and pushed. -/
theorem updateEntry_cases (storage : StorageProofChecker P) (n : ℕ) (s : ParachainsStorage P PH)
    (e : P × PH) :
    updateEntry cfg storage n s e = (none, s) ∨
    ∃ d, isObsolete s ⟨n, e.1, e.2⟩ = false ∧
      updateEntry cfg storage n s e = (some (e.1, e.2, d), s.pushHead cfg.headsToKeep e.1 n e.2 d) := by
  obtain ⟨p, h⟩ := e
  unfold updateEntry
  dsimp only
  split
  · rename_i head _
    split
    · exact .inl rfl
    · split
      · exact .inl rfl
      · rename_i d _
        rcases updateParachainHead_cases cfg s p n d h with hupd | ⟨hnew, pruneHappened, hupd⟩
        · rw [hupd]
          exact .inl rfl
        · rw [hupd]
          exact .inr ⟨d, hnew, rfl⟩
  · exact .inl rfl

/-- `submit_parachain_heads` either fails without a write, or runs its loop
    to the end over the storage proof opened at a relay state root. -/
theorem submitParachainHeads_cases (relayHeaders : RH → Option (StoredHeaderData RH))
    (newChecker : RH → Pf → Except StorageProofError (StorageProofChecker P))
    (s : ParachainsStorage P PH) (atRelayBlock : ℕ × RH) (parachains : List (P × PH))
    (parachainHeadsProof : Pf) :
    (∃ e, submitParachainHeads cfg relayHeaders newChecker s atRelayBlock parachains
      parachainHeadsProof = (.error e, s)) ∨
    ∃ root storage, newChecker root parachainHeadsProof = .ok storage ∧
      submitParachainHeads cfg relayHeaders newChecker s atRelayBlock parachains
        parachainHeadsProof = (.ok (headsLoop cfg storage atRelayBlock.1 parachains s).1,
          (headsLoop cfg storage atRelayBlock.1 parachains s).2) := by
  unfold submitParachainHeads
  split
  · exact .inl ⟨_, rfl⟩
  dsimp only
  split
  · exact .inl ⟨_, rfl⟩
  split
  · exact .inl ⟨_, rfl⟩
  split
  · exact .inl ⟨_, rfl⟩
  rename_i storage hstorage
  split
  · exact .inl ⟨_, rfl⟩
  · exact .inr ⟨_, storage, hstorage, rfl⟩

omit [DecidableEq P] in
/-- A head that is not obsolete was read at a newer relay block than the
    best one, and has another hash. -/
theorem lt_of_isObsolete_eq_false {s : ParachainsStorage P PH} {n : ℕ} {p : P} {h : PH}
    (hnew : isObsolete s ⟨n, p, h⟩ = false) :
    ∀ info ∈ s.parasInfo p, info.bestHeadHash.atRelayBlockNumber < n ∧ info.bestHeadHash.headHash ≠ h := by
  intro info hinfo
  rw [Option.mem_def] at hinfo
  unfold isObsolete at hnew
  dsimp only at hnew
  rw [hinfo] at hnew
  dsimp only at hnew
  split at hnew
  · exact nomatch hnew
  · split at hnew
    · exact nomatch hnew
    · rename_i hle hne
      exact ⟨Nat.lt_of_not_le hle, hne⟩

end Cases

/-! ## One parachain, over the loop and over runs

    A property of one parachain's best head, ring and imported heads that
    an accepted head of that parachain keeps holds after every call
    (`ParachainsChain.step_invariant`) and so in every reachable state
    (`ParachainsChain.reachable_invariant`): the other parachains' entries,
    the refused ones and the failed calls leave it alone. -/

section Rules

variable (cfg : ParachainsConfig P PH) (p : P)
  (Inv : Option (ParaInfo PH) → Ring PH ParaStoredHeaderData → List (PH × ParaStoredHeaderData) → Prop)
  (hpush : ∀ (s : ParachainsStorage P PH) (n : ℕ) (h : PH) (d : ParaStoredHeaderData) w,
    isObsolete s ⟨n, p, h⟩ = false → Inv (s.parasInfo p) (s.ring p) w →
    Inv (some ⟨⟨n, h⟩, ((s.ring p).pointer + 1) % cfg.headsToKeep⟩)
      (push cfg.headsToKeep (s.ring p) h d) (w ++ [(h, d)]))

include hpush

/-- **LOOP RULE**: the property holds after the loop, with the loop's heads
    of the parachain recorded. -/
theorem headsLoop_invariant (storage : StorageProofChecker P) (n : ℕ) :
    ∀ (entries : List (P × PH)) (s : ParachainsStorage P PH) w,
      Inv (s.parasInfo p) (s.ring p) w →
      Inv ((headsLoop cfg storage n entries s).2.parasInfo p)
        ((headsLoop cfg storage n entries s).2.ring p)
        (w ++ (((headsLoop cfg storage n entries s).1.filter fun u => u.1 = p).map Prod.snd)) := by
  intro entries
  induction entries with
  | nil =>
      intro s w hinv
      simpa [headsLoop] using hinv
  | cons e rest ih =>
      intro s w hinv
      obtain ⟨q, h⟩ := e
      rcases updateEntry_cases cfg storage n s (q, h) with hnone | ⟨d, hnew, hsome⟩
      · -- a skipped or refused entry
        simp only [headsLoop, hnone, Option.toList_none, List.nil_append]
        exact ih s w hinv
      simp only [headsLoop, hsome, Option.toList_some, List.singleton_append, List.filter_cons]
      by_cases hq : q = p
      · -- a head of `p`: one push, recorded before the rest
        subst hq
        have hstep : Inv ((s.pushHead cfg.headsToKeep q n h d).parasInfo q)
            ((s.pushHead cfg.headsToKeep q n h d).ring q) (w ++ [(h, d)]) := by
          rw [ring_pushHead_self, parasInfo_pushHead_self]
          exact hpush s n h d w hnew hinv
        simpa using ih _ _ hstep
      · -- a head of another parachain leaves `p` alone
        have hframe : Inv ((s.pushHead cfg.headsToKeep q n h d).parasInfo p)
            ((s.pushHead cfg.headsToKeep q n h d).ring p) w := by
          rw [ring_pushHead_of_ne (Ne.symm hq), parasInfo_pushHead_of_ne (Ne.symm hq)]
          exact hinv
        simpa [hq] using ih _ _ hframe

/-- **STEP RULE**: every call keeps the property. -/
theorem ParachainsChain.step_invariant
    (newChecker : RH → Pf → Except StorageProofError (StorageProofChecker P))
    (c : ParachainsChain P PH)
    (input : (RH → Option (StoredHeaderData RH)) × Call P PH RH Pf)
    (hinv : Inv (c.storage.parasInfo p) (c.storage.ring p) (c.imported p)) :
    Inv ((ParachainsChain.step cfg newChecker c input).storage.parasInfo p)
      ((ParachainsChain.step cfg newChecker c input).storage.ring p)
      ((ParachainsChain.step cfg newChecker c input).imported p) := by
  obtain ⟨relayHeaders, call⟩ := input
  cases call with
  | submitParachainHeads atRelayBlock parachains parachainHeadsProof =>
      rcases submitParachainHeads_cases cfg relayHeaders newChecker c.storage atRelayBlock
          parachains parachainHeadsProof with ⟨e, hres⟩ | ⟨-, storage, -, hres⟩
      · simp only [ParachainsChain.step, hres]
        exact hinv
      · simp only [ParachainsChain.step, hres, ParachainsChain.record]
        exact headsLoop_invariant cfg p Inv hpush storage atRelayBlock.1 parachains c.storage
          (c.imported p) hinv
  | setOperatingMode operatingMode => exact hinv

/-- **RUN RULE**: a property that holds of a parachain with nothing
    imported holds in every reachable state. -/
theorem ParachainsChain.reachable_invariant
    (newChecker : RH → Pf → Except StorageProofError (StorageProofChecker P))
    (operatingMode : BasicOperatingMode) (h0 : Inv none empty []) {c : ParachainsChain P PH}
    (hc : Reach.Reachable (ParachainsChain.step cfg newChecker)
      (ParachainsChain.genesis operatingMode) c) :
    Inv (c.storage.parasInfo p) (c.storage.ring p) (c.imported p) :=
  hc.invariant (fun c => Inv (c.storage.parasInfo p) (c.storage.ring p) (c.imported p)) h0
    fun c input _ hinv => ParachainsChain.step_invariant cfg p Inv hpush newChecker c input hinv

end Rules

/-! ## What every run keeps -/

section Runs

variable {cfg : ParachainsConfig P PH}
  {newChecker : RH → Pf → Except StorageProofError (StorageProofChecker P)}
  {operatingMode : BasicOperatingMode}

/-- **BOUNDED RINGS**: whatever heads are submitted, every parachain's ring
    position stays below `HeadsToKeep`, every stored head sits in one of
    its first `HeadsToKeep` slots, and at most `HeadsToKeep` heads are
    stored. -/
theorem parachain_rings_bounded (hK : 0 < cfg.headsToKeep) {c : ParachainsChain P PH}
    (hc : Reach.Reachable (ParachainsChain.step cfg newChecker)
      (ParachainsChain.genesis operatingMode) c) (p : P) :
    (∀ info ∈ c.storage.parasInfo p, info.nextImportedHashPosition < cfg.headsToKeep) ∧
    (∀ h, (c.storage.importedParaHeads p h).isSome →
      ∃ i < cfg.headsToKeep, c.storage.importedParaHashes p i = some h) ∧
    ∃ hs : Finset PH, hs.card ≤ cfg.headsToKeep ∧
      ∀ h, (c.storage.importedParaHeads p h).isSome ↔ h ∈ hs := by
  have hb : Bounded cfg.headsToKeep (c.storage.ring p) :=
    ParachainsChain.reachable_invariant cfg p (fun _ r _ => Bounded cfg.headsToKeep r)
      (fun _ _ h d _ _ hb => hb.push h d) newChecker operatingMode (bounded_empty hK) hc
  refine ⟨?_, ?_, hb.card_stored_le⟩
  · intro info hinfo
    rw [← ring_pointer_of_parasInfo hinfo]
    exact hb.pointer_lt
  · intro h hh
    obtain ⟨i, hi⟩ := hb.stored_slot h hh
    exact ⟨i, hb.slot_lt hi, hi⟩

/-- **BEST HEAD ADVANCES**: a call either leaves a parachain's best head as
    it is, or replaces it by one read at a strictly newer relay block; a
    call that fails leaves the storage unchanged. -/
theorem best_head_advances (c : ParachainsChain P PH)
    (input : (RH → Option (StoredHeaderData RH)) × Call P PH RH Pf) (p : P) :
    ((ParachainsChain.step cfg newChecker c input).storage.parasInfo p = c.storage.parasInfo p ∨
      ∃ info', (ParachainsChain.step cfg newChecker c input).storage.parasInfo p = some info' ∧
        ∀ info ∈ c.storage.parasInfo p,
          info.bestHeadHash.atRelayBlockNumber < info'.bestHeadHash.atRelayBlockNumber) := by
  -- the best head of `p` is the one before the call, or a newer one
  let Newer : Option (ParaInfo PH) → Ring PH ParaStoredHeaderData →
      List (PH × ParaStoredHeaderData) → Prop := fun i _ _ =>
    i = c.storage.parasInfo p ∨ ∃ info', i = some info' ∧ ∀ info ∈ c.storage.parasInfo p,
      info.bestHeadHash.atRelayBlockNumber < info'.bestHeadHash.atRelayBlockNumber
  have hpush : ∀ (s : ParachainsStorage P PH) (n : ℕ) (h : PH) (d : ParaStoredHeaderData) w,
      isObsolete s ⟨n, p, h⟩ = false → Newer (s.parasInfo p) (s.ring p) w →
      Newer (some ⟨⟨n, h⟩, ((s.ring p).pointer + 1) % cfg.headsToKeep⟩)
        (push cfg.headsToKeep (s.ring p) h d) (w ++ [(h, d)]) := by
    intro s n h d w hnew hprev
    have hlt := lt_of_isObsolete_eq_false hnew
    refine .inr ⟨_, rfl, fun info hinfo => ?_⟩
    rcases hprev with hsame | ⟨info', hinfo', hlt'⟩
    · rw [← hsame] at hinfo
      exact (hlt info hinfo).1
    · exact (hlt' info hinfo).trans (hlt info' hinfo').1
  exact ParachainsChain.step_invariant cfg p Newer hpush newChecker c input (.inl rfl)

/-- **BEST HEADS NEVER GO BACK**: over any run of calls, from any state, a
    parachain's best head stays as it was or is replaced by one read at a
    relay block strictly newer than the one it had. -/
theorem best_heads_never_go_back (c : ParachainsChain P PH)
    (inputs : List ((RH → Option (StoredHeaderData RH)) × Call P PH RH Pf)) (p : P) :
    let c' := inputs.foldl (ParachainsChain.step cfg newChecker) c
    c'.storage.parasInfo p = c.storage.parasInfo p ∨
      ∃ info', c'.storage.parasInfo p = some info' ∧ ∀ info ∈ c.storage.parasInfo p,
        info.bestHeadHash.atRelayBlockNumber < info'.bestHeadHash.atRelayBlockNumber := by
  -- the best head at each point of the run is `c`'s or a newer one
  refine Reach.foldl_invariant (fun d : ParachainsChain P PH =>
      d.storage.parasInfo p = c.storage.parasInfo p ∨
        ∃ info', d.storage.parasInfo p = some info' ∧ ∀ info ∈ c.storage.parasInfo p,
          info.bestHeadHash.atRelayBlockNumber < info'.bestHeadHash.atRelayBlockNumber)
    (fun _ => True) ?_ inputs c (fun _ _ => trivial) (.inl rfl)
  intro d input _ hd
  obtain hsame | ⟨info', hinfo', hnewer⟩ :
      (ParachainsChain.step cfg newChecker d input).storage.parasInfo p = d.storage.parasInfo p ∨ _ :=
    best_head_advances d input p
  · rw [hsame]
    exact hd
  refine .inr ⟨info', hinfo', fun info hinfo => ?_⟩
  rcases hd with hd | ⟨info'', hinfo'', hlt⟩
  · -- `d` still had `c`'s best head
    rw [← hd] at hinfo
    exact hnewer info hinfo
  · exact (hlt info hinfo).trans (hnewer info'' hinfo'')

/-- Where a parachain's heads are while no head hash of it comes back: the
    ring holds exactly its last `K` heads, and the best head is the last
    one. -/
structure HeadsTracked (K : ℕ) (info : Option (ParaInfo PH)) (r : Ring PH ParaStoredHeaderData)
    (w : List (PH × ParaStoredHeaderData)) : Prop where
  tracks : Tracks K r w
  best : info.map (·.bestHeadHash.headHash) = w.getLast?.map Prod.fst

/-- An accepted head with a hash new to its parachain keeps its heads
    tracked. -/
theorem HeadsTracked.push {K : ℕ} (hK : 0 < K) {info : Option (ParaInfo PH)}
    {r : Ring PH ParaStoredHeaderData} {w : List (PH × ParaStoredHeaderData)}
    (hprev : (w.map Prod.fst).Nodup → HeadsTracked K info r w) (n : ℕ) (h : PH)
    (d : ParaStoredHeaderData) :
    ((w ++ [(h, d)]).map Prod.fst).Nodup →
      HeadsTracked K (some ⟨⟨n, h⟩, (r.pointer + 1) % K⟩) (RingBuffer.push K r h d) (w ++ [(h, d)]) := by
  intro hnd
  rw [List.map_append, List.nodup_append] at hnd
  obtain ⟨hnd, -, hfresh⟩ := hnd
  have hnotin : h ∉ w.map Prod.fst := fun hmem => hfresh h hmem h (by simp) rfl
  exact ⟨(hprev hnd).tracks.push hK hnd hnotin d, by simp⟩

/-- **TRACKED HEADS**: as long as the heads imported for a parachain have
    pairwise distinct hashes, it has a best head exactly when it has
    imported one, the best head is stored, the stored heads are exactly
    those in its ring's slots, and each of its last `HeadsToKeep` heads is
    stored with its data. -/
theorem parachain_heads_tracked (hK : 0 < cfg.headsToKeep) {c : ParachainsChain P PH}
    (hc : Reach.Reachable (ParachainsChain.step cfg newChecker)
      (ParachainsChain.genesis operatingMode) c) (p : P)
    (hnd : ((c.imported p).map Prod.fst).Nodup) :
    (c.storage.parasInfo p = none ↔ c.imported p = []) ∧
    (∀ info ∈ c.storage.parasInfo p, (bestParachainHead c.storage p).isSome) ∧
    (∀ h, (c.storage.importedParaHeads p h).isSome ↔ ∃ i, c.storage.importedParaHashes p i = some h) ∧
    ∀ m (hm : m < (c.imported p).length), (c.imported p).length - cfg.headsToKeep ≤ m →
      c.storage.importedParaHeads p (c.imported p)[m].1 = some (c.imported p)[m].2 := by
  have ht : HeadsTracked cfg.headsToKeep (c.storage.parasInfo p) (c.storage.ring p) (c.imported p) :=
    ParachainsChain.reachable_invariant cfg p
      (fun info r w => (w.map Prod.fst).Nodup → HeadsTracked cfg.headsToKeep info r w)
      (fun _ n h d _ _ hprev => HeadsTracked.push hK hprev n h d) newChecker operatingMode
      (fun _ => ⟨tracks_empty _, rfl⟩) hc hnd
  refine ⟨?_, ?_, ht.tracks.stored_iff_slot hK, fun m hm hlow => ht.tracks.store_retained hm hlow⟩
  · -- no best head exactly when no last head
    have hbest := ht.best
    constructor
    · intro hnone
      rw [hnone, Option.map_none] at hbest
      exact List.getLast?_eq_none_iff.mp (Option.map_eq_none_iff.mp hbest.symm)
    · intro hnil
      rw [hnil] at hbest
      exact Option.map_eq_none_iff.mp hbest
  · -- the best head is the last imported one, which is stored
    intro info hinfo
    rw [Option.mem_def] at hinfo
    have hbest := ht.best
    rw [hinfo, Option.map_some] at hbest
    obtain ⟨last, hlast, hhash⟩ := Option.map_eq_some_iff.mp hbest.symm
    have hstored := ht.tracks.store_getLast hK hlast
    simp only [bestParachainHead, hinfo, Option.bind_some]
    rw [← hhash]
    exact Option.isSome_iff_exists.mpr ⟨_, hstored⟩

end Runs

/-! ## A head hash that comes back -/

/-- **BEST HEAD PRUNED**: when the slot an accepted head goes into holds
    the head's own hash, `update_parachain_head` inserts the head and then
    prunes it: the parachain has a best head that is not stored, and its
    ring keeps a hash whose head is gone. -/
theorem best_head_pruned_of_reused_slot (cfg : ParachainsConfig P PH)
    (storage : StorageProofChecker P) (n : ℕ) (s s' : ParachainsStorage P PH) (p : P) (h : PH)
    (d : ParaStoredHeaderData) (hslot : s.importedParaHashes p (s.ring p).pointer = some h)
    (hupd : updateEntry cfg storage n s (p, h) = (some (p, h, d), s')) :
    (s'.parasInfo p).isSome ∧ bestParachainHead s' p = none ∧
    s'.importedParaHashes p (s.ring p).pointer = some h ∧ s'.importedParaHeads p h = none := by
  rcases updateEntry_cases cfg storage n s (p, h) with hnone | ⟨d', -, hsome⟩
  · rw [hnone] at hupd
    exact nomatch hupd
  rw [hsome, Prod.mk.injEq] at hupd
  obtain ⟨-, rfl⟩ := hupd
  -- the head is stored and pruned by the one push
  have hpruned : (s.pushHead cfg.headsToKeep p n h d').importedParaHeads p h = none := by
    show ((s.pushHead cfg.headsToKeep p n h d').ring p).store h = none
    rw [ring_pushHead_self, push_store_self]
    exact if_pos hslot
  refine ⟨by rw [parasInfo_pushHead_self]; rfl, ?_, ?_, hpruned⟩
  · simp only [bestParachainHead, parasInfo_pushHead_self, Option.bind_some]
    exact hpruned
  · show ((s.pushHead cfg.headsToKeep p n h d').ring p).slots (s.ring p).pointer = some h
    rw [ring_pushHead_self]
    exact Function.update_self ..

/-- Two kept heads, heads of up to 100 bytes stored as they are, and the
    first byte of a head as its hash. -/
def twoHeadsConfig : ParachainsConfig ℕ ℕ :=
  ⟨2, 100, fun _ head => some ⟨head⟩, fun head => (head.headD 0).toNat⟩

/-- A storage proof that holds the listed heads, with no unused nodes. -/
def listedHeadsChecker (_ : ℕ) (proof : List (ℕ × ParaHead)) :
    Except StorageProofError (StorageProofChecker ℕ) :=
  .ok ⟨fun parachain => .ok (proof.lookup parachain), fun _ => .ok ()⟩

/-- Relay block `b` imported with number `b`. -/
def relayBlocksImported (b : ℕ) : Option (StoredHeaderData ℕ) := some ⟨b, 0⟩

/-- Parachain `0` reports head `[1]` at relay block 1, head `[2]` at relay
    block 2, and head `[1]` again at relay block 3. -/
def headReturnsRun : List ((ℕ → Option (StoredHeaderData ℕ)) × Call ℕ ℕ ℕ (List (ℕ × ParaHead))) :=
  [(relayBlocksImported, .submitParachainHeads (1, 1) [(0, 1)] [(0, [1])]),
    (relayBlocksImported, .submitParachainHeads (2, 2) [(0, 2)] [(0, [2])]),
    (relayBlocksImported, .submitParachainHeads (3, 3) [(0, 1)] [(0, [1])])]

theorem best_head_missing_after_hash_returns :
    (headReturnsRun.foldl (ParachainsChain.step twoHeadsConfig listedHeadsChecker)
      (ParachainsChain.genesis .normal)).storage.parasInfo 0 = some ⟨⟨3, 1⟩, 1⟩ ∧
    bestParachainHead (headReturnsRun.foldl (ParachainsChain.step twoHeadsConfig listedHeadsChecker)
      (ParachainsChain.genesis .normal)).storage 0 = none ∧
    (headReturnsRun.foldl (ParachainsChain.step twoHeadsConfig listedHeadsChecker)
      (ParachainsChain.genesis .normal)).storage.importedParaHashes 0 0 = some 1 ∧
    (headReturnsRun.foldl (ParachainsChain.step twoHeadsConfig listedHeadsChecker)
      (ParachainsChain.genesis .normal)).storage.importedParaHeads 0 1 = none := by
  decide

end Parachains

end ParityBridge
