import ParityBridge.Grandpa.DigestProofs
import ParityBridge.Grandpa.Pallet

/-! # GRANDPA pallet proofs — the ring of headers and the authority set

    One inversion lemma per call (`submitFinalityProof_cases`,
    `tryEnactAuthorityChange_cases`, `initializeCall_cases`) says everything
    the call can do, errors included; both invariants below are case
    analyses over them.

    `RingInvariant` ties the three ring items to the list of inserted
    headers through `RingBuffer.Tracks`: `insert_header` is a push onto the
    ring (`ring_insertHeader`), and since every accepted header is newer
    than the best one, a hasher that tells header numbers apart makes every
    pushed hash fresh.  `AuthorityInvariant` says which authority set is
    current: the one of the last header whose *first* scheduled change was
    enacted, with one set id per such header. -/

namespace ParityBridge

namespace Grandpa

variable {H A J : Type}

/-- The ring buffer formed by `ImportedHashes`, `ImportedHashesPointer` and
    `ImportedHeaders`. -/
def GrandpaStorage.ring (s : GrandpaStorage H A) : RingBuffer.Ring H (StoredHeaderData H) :=
  ⟨s.importedHashes, s.importedHashesPointer, s.importedHeaders⟩

/-! ## What each call can do -/

section Cases

variable (cfg : GrandpaConfig)

/-- Everything `try_enact_authority_change` can do: refuse a forced change,
    a delayed change or too many authorities and change nothing, find no
    change, or enact the header's first scheduled change. -/
theorem tryEnactAuthorityChange_cases (decode : List UInt8 → Option (ConsensusLog A))
    (s : GrandpaStorage H A) (header : Header H) (currentSetId : ℕ) :
    (∃ e, tryEnactAuthorityChange cfg decode s header currentSetId = (.error e, s)) ∨
    (findForcedChange decode header = none ∧ findScheduledChange decode header = none ∧
      tryEnactAuthorityChange cfg decode s header currentSetId = (.ok false, s)) ∨
    (∃ change, findForcedChange decode header = none ∧
      findScheduledChange decode header = some change ∧ change.delay = 0 ∧
      change.nextAuthorities.length ≤ cfg.maxAuthoritiesCount ∧
      tryEnactAuthorityChange cfg decode s header currentSetId =
        (.ok true, { s with currentAuthoritySet := ⟨change.nextAuthorities, currentSetId + 1⟩ })) := by
  unfold tryEnactAuthorityChange
  by_cases hforced : (findForcedChange decode header).isSome
  · exact .inl ⟨_, if_pos hforced⟩
  rw [if_neg hforced]
  have hnone : findForcedChange decode header = none := Option.not_isSome_iff_eq_none.mp hforced
  cases hsched : findScheduledChange decode header with
  | none => exact .inr (.inl ⟨hnone, rfl, rfl⟩)
  | some change =>
      dsimp only
      by_cases hdelay : change.delay ≠ 0
      · exact .inl ⟨_, if_pos hdelay⟩
      rw [if_neg hdelay]
      by_cases hmany : change.nextAuthorities.length > cfg.maxAuthoritiesCount
      · exact .inl ⟨_, if_pos hmany⟩
      rw [if_neg hmany]
      exact .inr (.inr ⟨change, hnone, rfl, by omega, by omega, rfl⟩)

/-- An enactment that succeeds saw no forced change, and changes at most
    the authority set: to the header's first scheduled change, checked. -/
theorem tryEnactAuthorityChange_ok {decode : List UInt8 → Option (ConsensusLog A)}
    {s s' : GrandpaStorage H A} {header : Header H} {currentSetId : ℕ} {enacted : Bool}
    (h : tryEnactAuthorityChange cfg decode s header currentSetId = (.ok enacted, s')) :
    findForcedChange decode header = none ∧
    ((findScheduledChange decode header = none ∧ s' = s) ∨
      ∃ change, findScheduledChange decode header = some change ∧ change.delay = 0 ∧
        change.nextAuthorities.length ≤ cfg.maxAuthoritiesCount ∧
        s' = { s with currentAuthoritySet := ⟨change.nextAuthorities, currentSetId + 1⟩ }) := by
  rcases tryEnactAuthorityChange_cases cfg decode s header currentSetId with
      ⟨e, he⟩ | ⟨hforced, hsched, he⟩ | ⟨change, hforced, hsched, hdelay, hcount, he⟩
  · rw [h] at he
    exact nomatch he
  · rw [h, Prod.mk.injEq] at he
    exact ⟨hforced, .inl ⟨hsched, he.2⟩⟩
  · rw [h, Prod.mk.injEq] at he
    exact ⟨hforced, .inr ⟨change, hsched, hdelay, hcount, he.2⟩⟩

variable [DecidableEq H]

section Insert

variable (s : GrandpaStorage H A) (header : Header H) (hash : H)

/-- `insert_header` pushes the header onto the ring. -/
theorem ring_insertHeader :
    (insertHeader cfg s header hash).ring =
      RingBuffer.push cfg.headersToKeep s.ring hash header.build := by
  unfold insertHeader RingBuffer.push GrandpaStorage.ring
  dsimp only
  -- both sides branch on the slot under the pointer
  cases s.importedHashes s.importedHashesPointer <;> rfl

@[simp] theorem insertHeader_bestFinalized :
    (insertHeader cfg s header hash).bestFinalized = some (header.number, hash) := by
  unfold insertHeader
  dsimp only
  split <;> rfl

@[simp] theorem insertHeader_requestCount :
    (insertHeader cfg s header hash).requestCount = s.requestCount := by
  unfold insertHeader
  dsimp only
  split <;> rfl

@[simp] theorem insertHeader_currentAuthoritySet :
    (insertHeader cfg s header hash).currentAuthoritySet = s.currentAuthoritySet := by
  unfold insertHeader
  dsimp only
  split <;> rfl

end Insert

/-- Everything `submit_finality_proof` can do: fail and change nothing, or
    accept a header newer than the best one whose justification verifies
    against the current set, enact its change, count the request and insert
    the header. -/
theorem submitFinalityProof_cases (hasher : Header H → H)
    (decode : List UInt8 → Option (ConsensusLog A))
    (verifyJustification : J → H → ℕ → StoredAuthoritySet A → Except GrandpaError Unit)
    (s : GrandpaStorage H A) (header : Header H) (justification : J) :
    (∃ e, submitFinalityProof cfg hasher decode verifyJustification s header justification =
      (.error e, s)) ∨
    (∃ bestNumber bestHash enacted s', s.requestCount < cfg.maxRequests ∧
      s.bestFinalized = some (bestNumber, bestHash) ∧ bestNumber < header.number ∧
      verifyJustification justification (hasher header) header.number s.currentAuthoritySet =
        .ok () ∧
      tryEnactAuthorityChange cfg decode s header s.currentAuthoritySet.setId = (.ok enacted, s') ∧
      submitFinalityProof cfg hasher decode verifyJustification s header justification =
        (.ok enacted,
          insertHeader cfg { s' with requestCount := s'.requestCount + 1 } header (hasher header))) := by
  unfold submitFinalityProof
  by_cases hhalted : s.palletOperatingMode = .halted
  · exact .inl ⟨_, if_pos hhalted⟩
  rw [if_neg hhalted]
  by_cases hreq : ¬ s.requestCount < cfg.maxRequests
  · exact .inl ⟨_, if_pos hreq⟩
  rw [if_neg hreq]
  dsimp only
  -- `check_obsolete`: the pallet is initialized and the header is newer
  cases hbest : s.bestFinalized with
  | none =>
      have hobs : checkObsolete s header.number = .error .notInitialized := by
        simp [checkObsolete, hbest]
      rw [hobs]
      exact .inl ⟨_, rfl⟩
  | some best =>
      obtain ⟨bestNumber, bestHash⟩ := best
      by_cases hold : bestNumber ≥ header.number
      · have hobs : checkObsolete s header.number = .error .oldHeader := by
          simp [checkObsolete, hbest, hold]
        rw [hobs]
        exact .inl ⟨_, rfl⟩
      have hobs : checkObsolete s header.number = .ok () := by
        simp [checkObsolete, hbest, hold]
      rw [hobs]
      dsimp only
      cases hverify : verifyJustification justification (hasher header) header.number
          s.currentAuthoritySet with
      | error e => exact .inl ⟨e, rfl⟩
      | ok u =>
          dsimp only
          rcases tryEnactAuthorityChange_cases cfg decode s header s.currentAuthoritySet.setId with
            ⟨e, henact⟩ | ⟨-, -, henact⟩ | ⟨change, -, -, -, -, henact⟩
          · rw [henact]
            exact .inl ⟨e, rfl⟩
          · rw [henact]
            exact .inr ⟨bestNumber, bestHash, false, s, by omega, rfl, by omega, rfl, rfl, rfl⟩
          · rw [henact]
            exact .inr ⟨bestNumber, bestHash, true, _, by omega, rfl, by omega, rfl, rfl, rfl⟩

/-- **ERROR MEANS NO WRITE**: a call of `submit_finality_proof` either fails
    and changes nothing, or moves the best finalized number up to the
    header's. -/
theorem submitFinalityProof_outcome (hasher : Header H → H)
    (decode : List UInt8 → Option (ConsensusLog A))
    (verifyJustification : J → H → ℕ → StoredAuthoritySet A → Except GrandpaError Unit)
    (s : GrandpaStorage H A) (header : Header H) (justification : J) :
    (∀ e, (submitFinalityProof cfg hasher decode verifyJustification s header justification).1 =
        .error e →
      (submitFinalityProof cfg hasher decode verifyJustification s header justification).2 = s) ∧
    (∀ enacted, (submitFinalityProof cfg hasher decode verifyJustification s header
        justification).1 = .ok enacted →
      ∃ bestNumber bestHash, s.bestFinalized = some (bestNumber, bestHash) ∧
        (submitFinalityProof cfg hasher decode verifyJustification s header
          justification).2.bestFinalized = some (header.number, hasher header) ∧
        bestNumber < header.number) := by
  rcases submitFinalityProof_cases cfg hasher decode verifyJustification s header
      justification with ⟨e, hres⟩ | ⟨bestNumber, bestHash, enacted, s', -, hbest, hnew, -, -, hres⟩
  · rw [hres]
    exact ⟨fun _ _ => rfl, fun _ hok => nomatch hok⟩
  · rw [hres]
    exact ⟨fun _ herr => (nomatch herr),
      fun _ _ => ⟨bestNumber, bestHash, hbest, insertHeader_bestFinalized .., hnew⟩⟩

/-- Everything `initialize` can do: fail and change nothing, or, on a pallet
    not yet initialized, insert the initial header and set the authority
    set and the operating mode. -/
theorem initializeCall_cases (hasher : Header H → H) (s : GrandpaStorage H A)
    (initData : InitializationData H A) :
    (∃ e, initializeCall cfg hasher s initData = (.error e, s)) ∨
    (s.bestFinalized = none ∧ initData.authorityList.length ≤ cfg.maxAuthoritiesCount ∧
      initializeCall cfg hasher s initData =
        (.ok (), { insertHeader cfg
            { s with initialHash := some (hasher initData.header), importedHashesPointer := 0 }
            initData.header (hasher initData.header) with
          currentAuthoritySet := ⟨initData.authorityList, initData.setId⟩
          palletOperatingMode := initData.operatingMode })) := by
  unfold initializeCall initializeBridge
  by_cases hinit : s.bestFinalized.isSome
  · exact .inl ⟨_, if_pos hinit⟩
  rw [if_neg hinit]
  by_cases hmany : initData.authorityList.length > cfg.maxAuthoritiesCount
  · exact .inl ⟨_, if_pos hmany⟩
  rw [if_neg hmany]
  exact .inr ⟨Option.not_isSome_iff_eq_none.mp hinit, by omega, rfl⟩

end Cases

/-! ## Steps of the chain -/

section Steps

variable [DecidableEq H] (cfg : GrandpaConfig) (hasher : Header H → H)
  (decode : List UInt8 → Option (ConsensusLog A))
  (verifyJustification : J → H → ℕ → StoredAuthoritySet A → Except GrandpaError Unit)

/-- A call that fails leaves the chain as it was. -/
theorem step_submitFinalityProof_of_error {c : GrandpaChain H A} {header : Header H}
    {justification : J} {e : GrandpaError}
    (h : submitFinalityProof cfg hasher decode verifyJustification c.storage header justification =
      (.error e, c.storage)) :
    GrandpaChain.step cfg hasher decode verifyJustification c
      (.submitFinalityProof header justification) = c := by
  rw [GrandpaChain.step, h]
  rfl

/-- An accepted header is inserted, and recorded. -/
theorem step_submitFinalityProof_of_ok {c : GrandpaChain H A} {header : Header H}
    {justification : J} {enacted : Bool} {s' : GrandpaStorage H A}
    (h : submitFinalityProof cfg hasher decode verifyJustification c.storage header justification =
      (.ok enacted, s')) :
    GrandpaChain.step cfg hasher decode verifyJustification c
      (.submitFinalityProof header justification) = ⟨s', c.imported ++ [header]⟩ := by
  rw [GrandpaChain.step, h]
  rfl

theorem step_initializeCall_of_error {c : GrandpaChain H A} {initData : InitializationData H A}
    {e : GrandpaError} (h : initializeCall cfg hasher c.storage initData = (.error e, c.storage)) :
    GrandpaChain.step cfg hasher decode verifyJustification c (.initializeCall initData) = c := by
  rw [GrandpaChain.step, h]
  rfl

end Steps

/-! ## The ring of imported headers -/

/-- In a list of headers of increasing numbers the last has the largest. -/
theorem number_le_of_getLast? {l : List (Header H)}
    (hinc : l.Pairwise fun a b => a.number < b.number) {z : Header H}
    (hz : l.getLast? = some z) {h : Header H} (hh : h ∈ l) : h.number ≤ z.number := by
  obtain ⟨ys, rfl⟩ := List.getLast?_eq_some_iff.mp hz
  rw [List.pairwise_append] at hinc
  rcases List.mem_append.mp hh with hys | hlast
  · exact (hinc.2.2 h hys z (List.mem_singleton_self z)).le
  · rw [List.mem_singleton] at hlast
    rw [hlast]

section Fresh

variable {hasher : Header H → H}
variable (hhash : ∀ h₁ h₂, hasher h₁ = hasher h₂ → h₁.number = h₂.number)
include hhash

/-- Headers of increasing numbers have distinct hashes. -/
theorem nodup_hashes {l : List (Header H)} (hinc : l.Pairwise fun a b => a.number < b.number) :
    ((l.map fun h => (hasher h, h.build)).map Prod.fst).Nodup := by
  rw [List.map_map]
  apply List.Pairwise.map _ _ hinc
  intro a b hlt heq
  have := hhash a b heq
  omega

/-- A header newer than the last one has a hash no earlier header has. -/
theorem hash_not_mem {l : List (Header H)} (hinc : l.Pairwise fun a b => a.number < b.number)
    {z : Header H} (hz : l.getLast? = some z) {header : Header H} (hnew : z.number < header.number) :
    hasher header ∉ (l.map fun h => (hasher h, h.build)).map Prod.fst := by
  rw [List.map_map, List.mem_map]
  rintro ⟨h, hh, heq⟩
  have hnum := hhash h header heq
  have hle := number_le_of_getLast? hinc hz hh
  omega

end Fresh

section Ring

variable [DecidableEq H] (cfg : GrandpaConfig) (hasher : Header H → H)
  (decode : List UInt8 → Option (ConsensusLog A))
  (verifyJustification : J → H → ℕ → StoredAuthoritySet A → Except GrandpaError Unit)

/-- What every chain reachable from an initialized pallet keeps of its
    ring, its best header and its request budget. -/
structure RingInvariant (c : GrandpaChain H A) : Prop where
  tracks : RingBuffer.Tracks cfg.headersToKeep c.storage.ring
    (c.imported.map fun h => (hasher h, h.build))
  increasing : c.imported.Pairwise fun a b => a.number < b.number
  best : c.storage.bestFinalized = c.imported.getLast?.map fun h => (h.number, hasher h)
  nonempty : c.imported ≠ []
  requests : c.storage.requestCount ≤ cfg.maxRequests

variable {cfg hasher}

theorem ringInvariant_initialized (hK : 0 < cfg.headersToKeep) {initData : InitializationData H A}
    (hinit : (initializeCall cfg hasher .empty initData).1 = .ok ()) :
    RingInvariant cfg hasher (GrandpaChain.initialized cfg hasher initData) := by
  rcases initializeCall_cases cfg hasher .empty initData with ⟨e, h⟩ | ⟨-, -, h⟩
  · rw [h] at hinit
    exact nomatch hinit
  unfold GrandpaChain.initialized
  rw [h]
  refine ⟨?_, List.pairwise_singleton _ _, ?_, List.cons_ne_nil _ _, Nat.zero_le _⟩
  · -- the initial header is the first push onto the empty ring
    show RingBuffer.Tracks _ (insertHeader cfg _ _ _).ring _
    rw [ring_insertHeader]
    exact (RingBuffer.tracks_empty cfg.headersToKeep).push hK List.nodup_nil List.not_mem_nil _
  · show (insertHeader cfg _ _ _).bestFinalized = _
    rw [insertHeader_bestFinalized]
    rfl

omit [DecidableEq H] in
/-- Each of the last `HeadersToKeep` inserted headers is stored. -/
theorem RingInvariant.store_retained {c : GrandpaChain H A} (h : RingInvariant cfg hasher c)
    {m : ℕ} (hm : m < c.imported.length) (hlow : c.imported.length - cfg.headersToKeep ≤ m) :
    c.storage.importedHeaders (hasher c.imported[m]) = some c.imported[m].build := by
  have hm' : m < (c.imported.map fun h => (hasher h, h.build)).length := by
    rw [List.length_map]
    exact hm
  have := h.tracks.store_retained hm' (by rw [List.length_map]; exact hlow)
  rw [List.getElem_map] at this
  exact this

omit [DecidableEq H] in
/-- The best finalized header is the last inserted one, and it is stored. -/
theorem RingInvariant.best_stored (hK : 0 < cfg.headersToKeep) {c : GrandpaChain H A}
    (h : RingInvariant cfg hasher c) :
    ∃ best, c.imported.getLast? = some best ∧
      c.storage.bestFinalized = some (best.number, hasher best) ∧
      c.storage.importedHeaders (hasher best) = some best.build := by
  obtain ⟨z, hz⟩ : ∃ z, c.imported.getLast? = some z :=
    ⟨_, List.getLast?_eq_some_getLast h.nonempty⟩
  refine ⟨z, hz, ?_, ?_⟩
  · rw [h.best, hz]
    rfl
  · have hlast : (c.imported.map fun h => (hasher h, h.build)).getLast? =
        some (hasher z, z.build) := by
      rw [List.getLast?_map, hz]
      rfl
    exact h.tracks.store_getLast hK hlast

variable (hK : 0 < cfg.headersToKeep)
  (hhash : ∀ h₁ h₂, hasher h₁ = hasher h₂ → h₁.number = h₂.number)
include hK hhash

/-- An accepted header keeps the ring invariant: it is newer than every
    inserted header, so its hash is fresh, and its insertion is a push. -/
theorem RingInvariant.submit {c : GrandpaChain H A} (h : RingInvariant cfg hasher c)
    (header : Header H) (justification : J) :
    RingInvariant cfg hasher
      (GrandpaChain.step cfg hasher decode verifyJustification c
        (.submitFinalityProof header justification)) := by
  rcases submitFinalityProof_cases cfg hasher decode verifyJustification c.storage header
      justification with ⟨e, hres⟩ | ⟨bestNumber, bestHash, enacted, s', hreq, hbest, hnew, -, henact, hres⟩
  · rw [step_submitFinalityProof_of_error cfg hasher decode verifyJustification hres]
    exact h
  rw [step_submitFinalityProof_of_ok cfg hasher decode verifyJustification hres]
  -- the last inserted header is the best one, older than `header`
  obtain ⟨z, hz⟩ : ∃ z, c.imported.getLast? = some z :=
    ⟨_, List.getLast?_eq_some_getLast h.nonempty⟩
  have hzbest : z.number = bestNumber := by
    have := h.best
    rw [hbest, hz] at this
    simp only [Option.map_some, Option.some.injEq, Prod.mk.injEq] at this
    exact this.1.symm
  -- enacting a change touches only the authority set
  have hring : s'.ring = c.storage.ring ∧ s'.requestCount = c.storage.requestCount := by
    rcases (tryEnactAuthorityChange_ok cfg henact).2 with ⟨-, rfl⟩ | ⟨change, -, -, -, rfl⟩
    · exact ⟨rfl, rfl⟩
    · exact ⟨rfl, rfl⟩
  refine ⟨?_, ?_, ?_, ?_, ?_⟩
  · show RingBuffer.Tracks _ (insertHeader cfg _ header (hasher header)).ring _
    rw [ring_insertHeader, List.map_append, List.map_singleton]
    show RingBuffer.Tracks _ (RingBuffer.push _ s'.ring _ _) _
    rw [hring.1]
    exact h.tracks.push hK (nodup_hashes hhash h.increasing)
      (hash_not_mem hhash h.increasing hz (by omega)) header.build
  · rw [List.pairwise_append]
    refine ⟨h.increasing, List.pairwise_singleton _ _, ?_⟩
    intro a ha b hb
    rw [List.mem_singleton] at hb
    subst hb
    have := number_le_of_getLast? h.increasing hz ha
    omega
  · show (insertHeader cfg _ header (hasher header)).bestFinalized = _
    rw [insertHeader_bestFinalized, List.getLast?_concat]
    rfl
  · exact List.append_ne_nil_of_left_ne_nil h.nonempty _
  · show (insertHeader cfg _ header (hasher header)).requestCount ≤ _
    rw [insertHeader_requestCount]
    show s'.requestCount + 1 ≤ _
    omega

/-- Every call keeps the ring invariant. -/
theorem RingInvariant.step {c : GrandpaChain H A} (h : RingInvariant cfg hasher c)
    (call : Call H A J) :
    RingInvariant cfg hasher (GrandpaChain.step cfg hasher decode verifyJustification c call) := by
  cases call with
  | submitFinalityProof header justification =>
      exact h.submit decode verifyJustification hK hhash header justification
  | initializeCall initData =>
      -- the pallet is initialized, so `initialize` fails
      rcases initializeCall_cases cfg hasher c.storage initData with ⟨e, hres⟩ | ⟨hnone, -, -⟩
      · rw [step_initializeCall_of_error cfg hasher decode verifyJustification hres]
        exact h
      · have := h.best
        rw [hnone] at this
        exact absurd (Option.map_eq_none_iff.mp this.symm) (mt List.getLast?_eq_none_iff.mp h.nonempty)
  | setOperatingMode operatingMode =>
      exact ⟨h.tracks, h.increasing, h.best, h.nonempty, h.requests⟩
  | onInitialize =>
      refine ⟨h.tracks, h.increasing, h.best, h.nonempty, ?_⟩
      show c.storage.requestCount - 1 ≤ cfg.maxRequests
      have := h.requests
      omega

/-- **RING OF HEADERS**: on a pallet initialized with a ring of at least one
    slot, and a hasher that never gives headers of different numbers one
    hash, every reachable state keeps the pointer in the ring, stores exactly
    the headers whose hashes the ring holds, at most `HeadersToKeep` of them
    and among them the last `HeadersToKeep` inserted, the best one included;
    the request count stays within its budget; and a call of
    `submit_finality_proof` either fails and changes nothing, or moves the
    best finalized number up. -/
theorem imported_headers_ring_invariant {initData : InitializationData H A}
    (hinit : (initializeCall cfg hasher .empty initData).1 = .ok ()) {c : GrandpaChain H A}
    (hc : Reach.Reachable (GrandpaChain.step cfg hasher decode verifyJustification)
      (GrandpaChain.initialized cfg hasher initData) c) :
    c.storage.importedHashesPointer < cfg.headersToKeep ∧
    (∀ hash, (c.storage.importedHeaders hash).isSome ↔ ∃ i, c.storage.importedHashes i = some hash) ∧
    (∃ S : Finset H, S.card ≤ cfg.headersToKeep ∧
      ∀ hash, (c.storage.importedHeaders hash).isSome ↔ hash ∈ S) ∧
    (∀ m (hm : m < c.imported.length), c.imported.length - cfg.headersToKeep ≤ m →
      c.storage.importedHeaders (hasher c.imported[m]) = some c.imported[m].build) ∧
    (∃ best, c.imported.getLast? = some best ∧
      c.storage.bestFinalized = some (best.number, hasher best) ∧
      c.storage.importedHeaders (hasher best) = some best.build) ∧
    c.storage.requestCount ≤ cfg.maxRequests ∧
    ∀ (header : Header H) (justification : J),
      (∀ e, (submitFinalityProof cfg hasher decode verifyJustification c.storage header
          justification).1 = .error e →
        (submitFinalityProof cfg hasher decode verifyJustification c.storage header
          justification).2 = c.storage) ∧
      (∀ enacted, (submitFinalityProof cfg hasher decode verifyJustification c.storage header
          justification).1 = .ok enacted →
        ∃ bestNumber bestHash, c.storage.bestFinalized = some (bestNumber, bestHash) ∧
          (submitFinalityProof cfg hasher decode verifyJustification c.storage header
            justification).2.bestFinalized = some (header.number, hasher header) ∧
          bestNumber < header.number) := by
  have h : RingInvariant cfg hasher c :=
    hc.invariant _ (ringInvariant_initialized hK hinit)
      (fun _ call _ hs => hs.step decode verifyJustification hK hhash call)
  exact ⟨h.tracks.pointer_lt hK, h.tracks.stored_iff_slot hK, (h.tracks.bounded hK).card_stored_le,
    fun _ hm hlow => h.store_retained hm hlow, h.best_stored hK, h.requests,
    submitFinalityProof_outcome cfg hasher decode verifyJustification c.storage⟩

end Ring

/-! ## The authority set -/

section Authorities

variable [DecidableEq H] (cfg : GrandpaConfig) (hasher : Header H → H)
  (decode : List UInt8 → Option (ConsensusLog A))
  (verifyJustification : J → H → ℕ → StoredAuthoritySet A → Except GrandpaError Unit)

/-- Which authority set is current on an initialized pallet: the set id has
    moved once for each inserted header with a scheduled change, the
    authorities are those of the last such change, and no inserted header
    has a forced change or a first scheduled change the pallet refuses. -/
structure AuthorityInvariant (initData : InitializationData H A) (c : GrandpaChain H A) : Prop where
  head : c.imported.head? = some initData.header
  initialized : c.storage.bestFinalized.isSome
  setId : c.storage.currentAuthoritySet.setId =
    initData.setId + (c.imported.tail.filter fun h => (findScheduledChange decode h).isSome).length
  authorities : c.storage.currentAuthoritySet.authorities =
    ((c.imported.tail.filterMap (findScheduledChange decode)).getLast?.map
      (·.nextAuthorities)).getD initData.authorityList
  supported : ∀ h ∈ c.imported.tail, findForcedChange decode h = none ∧
    ∀ change ∈ findScheduledChange decode h,
      change.delay = 0 ∧ change.nextAuthorities.length ≤ cfg.maxAuthoritiesCount

variable {cfg hasher decode}

theorem authorityInvariant_initialized {initData : InitializationData H A}
    (hinit : (initializeCall cfg hasher .empty initData).1 = .ok ()) :
    AuthorityInvariant cfg decode initData (GrandpaChain.initialized cfg hasher initData) := by
  rcases initializeCall_cases cfg hasher .empty initData with ⟨e, h⟩ | ⟨-, -, h⟩
  · rw [h] at hinit
    exact nomatch hinit
  unfold GrandpaChain.initialized
  rw [h]
  refine ⟨rfl, ?_, rfl, rfl, fun _ h => (nomatch h)⟩
  show (insertHeader cfg _ _ _).bestFinalized.isSome
  rw [insertHeader_bestFinalized]
  rfl

/-- An accepted header keeps the authority invariant: the pallet enacts its
    first scheduled change, if any, after checking it. -/
theorem AuthorityInvariant.submit {initData : InitializationData H A} {c : GrandpaChain H A}
    (h : AuthorityInvariant cfg decode initData c) (header : Header H) (justification : J) :
    AuthorityInvariant cfg decode initData
      (GrandpaChain.step cfg hasher decode verifyJustification c
        (.submitFinalityProof header justification)) := by
  rcases submitFinalityProof_cases cfg hasher decode verifyJustification c.storage header
      justification with ⟨e, hres⟩ | ⟨-, -, enacted, s', -, -, -, -, henact, hres⟩
  · rw [step_submitFinalityProof_of_error cfg hasher decode verifyJustification hres]
    exact h
  rw [step_submitFinalityProof_of_ok cfg hasher decode verifyJustification hres]
  have hne : c.imported ≠ [] := by
    intro hnil
    have := h.head
    rw [hnil] at this
    exact nomatch this
  have htail : (c.imported ++ [header]).tail = c.imported.tail ++ [header] :=
    List.tail_append_of_ne_nil hne
  have hset : (insertHeader cfg { s' with requestCount := s'.requestCount + 1 } header
      (hasher header)).currentAuthoritySet = s'.currentAuthoritySet := insertHeader_currentAuthoritySet ..
  have hbest : (insertHeader cfg { s' with requestCount := s'.requestCount + 1 } header
      (hasher header)).bestFinalized.isSome := by
    rw [insertHeader_bestFinalized]
    rfl
  have hhead : (c.imported ++ [header]).head? = some initData.header := by
    rw [List.head?_append, h.head]
    rfl
  -- the inserted headers stay supported once the new one is
  have hsupported : findForcedChange decode header = none →
      (∀ change ∈ findScheduledChange decode header,
        change.delay = 0 ∧ change.nextAuthorities.length ≤ cfg.maxAuthoritiesCount) →
      ∀ x ∈ (c.imported ++ [header]).tail, findForcedChange decode x = none ∧
        ∀ change ∈ findScheduledChange decode x,
          change.delay = 0 ∧ change.nextAuthorities.length ≤ cfg.maxAuthoritiesCount := by
    intro hforced hnew x hx
    rw [htail, List.mem_append, List.mem_singleton] at hx
    rcases hx with hx | rfl
    · exact h.supported x hx
    · exact ⟨hforced, hnew⟩
  obtain ⟨hforced, ⟨hsched, rfl⟩ | ⟨change, hsched, hdelay, hcount, rfl⟩⟩ :=
    tryEnactAuthorityChange_ok cfg henact
  · -- no change: the set stays, and the header adds no change to count
    refine ⟨hhead, hbest, ?_, ?_, hsupported hforced fun change hc => ?_⟩
    · rw [hset, htail, List.filter_append, List.length_append, h.setId]
      simp [hsched]
    · rw [hset, htail, List.filterMap_append, h.authorities]
      simp [hsched]
    · rw [hsched] at hc
      exact nomatch hc
  · -- the first scheduled change is enacted
    refine ⟨hhead, hbest, ?_, ?_, hsupported hforced fun change' hc => ?_⟩
    · rw [hset, htail, List.filter_append, List.length_append]
      show c.storage.currentAuthoritySet.setId + 1 = _
      rw [h.setId]
      simp [hsched]
      omega
    · rw [hset, htail, List.filterMap_append]
      simp [hsched]
    · rw [hsched, Option.mem_some_iff] at hc
      subst hc
      exact ⟨hdelay, hcount⟩

/-- Every call keeps the authority invariant. -/
theorem AuthorityInvariant.step {initData : InitializationData H A} {c : GrandpaChain H A}
    (h : AuthorityInvariant cfg decode initData c) (call : Call H A J) :
    AuthorityInvariant cfg decode initData
      (GrandpaChain.step cfg hasher decode verifyJustification c call) := by
  cases call with
  | submitFinalityProof header justification =>
      exact h.submit verifyJustification header justification
  | initializeCall d =>
      -- the pallet is initialized, so `initialize` fails
      rcases initializeCall_cases cfg hasher c.storage d with ⟨e, hres⟩ | ⟨hnone, -, -⟩
      · rw [step_initializeCall_of_error cfg hasher decode verifyJustification hres]
        exact h
      · have := h.initialized
        rw [hnone] at this
        exact nomatch this
  | setOperatingMode operatingMode =>
      exact ⟨h.head, h.initialized, h.setId, h.authorities, h.supported⟩
  | onInitialize =>
      exact ⟨h.head, h.initialized, h.setId, h.authorities, h.supported⟩

/-- **AUTHORITY SET**: on an initialized pallet, the current set has moved
    once for every imported header with a scheduled change, to the
    authorities of the first scheduled change of the last such header; no
    imported header has a forced change, or a first scheduled change with a
    delay or with too many authorities; and a header is accepted only with a
    justification that verifies against the current set. -/
theorem authority_set_follows_first_scheduled_changes {initData : InitializationData H A}
    (hinit : (initializeCall cfg hasher .empty initData).1 = .ok ()) {c : GrandpaChain H A}
    (hc : Reach.Reachable (GrandpaChain.step cfg hasher decode verifyJustification)
      (GrandpaChain.initialized cfg hasher initData) c) :
    c.imported.head? = some initData.header ∧
    c.storage.currentAuthoritySet.setId =
      initData.setId + (c.imported.tail.filter fun h => (findScheduledChange decode h).isSome).length ∧
    c.storage.currentAuthoritySet.authorities =
      ((c.imported.tail.filterMap (findScheduledChange decode)).getLast?.map
        (·.nextAuthorities)).getD initData.authorityList ∧
    (∀ h ∈ c.imported.tail, findForcedChange decode h = none ∧
      ∀ change ∈ findScheduledChange decode h,
        change.delay = 0 ∧ change.nextAuthorities.length ≤ cfg.maxAuthoritiesCount) ∧
    ∀ (header : Header H) (justification : J) (enacted : Bool),
      (submitFinalityProof cfg hasher decode verifyJustification c.storage header
        justification).1 = .ok enacted →
      verifyJustification justification (hasher header) header.number
        c.storage.currentAuthoritySet = .ok () := by
  have h : AuthorityInvariant cfg decode initData c :=
    hc.invariant _ (authorityInvariant_initialized hinit)
      (fun _ call _ hs => hs.step verifyJustification call)
  refine ⟨h.head, h.setId, h.authorities, h.supported, ?_⟩
  intro header justification enacted hok
  rcases submitFinalityProof_cases cfg hasher decode verifyJustification c.storage header
      justification with ⟨e, hres⟩ | ⟨-, -, -, -, -, -, -, hverify, -, -⟩
  · rw [hres] at hok
    exact nomatch hok
  · exact hverify

end Authorities

/-! ## A run on a small pallet -/

/-- Two kept headers, ten requests, five authorities. -/
def smallConfig : GrandpaConfig := ⟨10, 2, 5⟩

/-- A genesis-like initial header with one authority in set `0`. -/
def smallInitData : InitializationData ℕ ℕ := ⟨⟨0, 0, 0, []⟩, [(1, 1)], 0, .normal⟩

/-- A header whose digest holds a GRANDPA scheduled change without delay
    and then one with a delay of one block, SCALE-encoded. -/
def twoChangesHeader : Header ℕ :=
  ⟨0, 1, 0, [.consensus grandpaEngineId [1, 0, 0, 0, 0, 0],
    .consensus grandpaEngineId [1, 0, 1, 0, 0, 0]]⟩

/-- A lookup decoder with the SCALE decodings of the two logs. -/
def twoChangesDecode (p : List UInt8) : Option (ConsensusLog ℕ) :=
  if p = [1, 0, 0, 0, 0, 0] then some (.scheduledChange ⟨[], 0⟩)
  else if p = [1, 0, 1, 0, 0, 0] then some (.scheduledChange ⟨[], 1⟩)
  else none

/-- A justification check that accepts every justification, as one signed
    by the current authorities is accepted. -/
def acceptJustification (_ : Unit) (_ : ℕ) (_ : ℕ) (_ : StoredAuthoritySet ℕ) :
    Except GrandpaError Unit :=
  .ok ()

/-- The header with two changes, then a block. -/
def twoChangesRun : List (Call ℕ ℕ Unit) :=
  [.submitFinalityProof twoChangesHeader (), .onInitialize]

theorem imported_headers_ring_invariant_on_two_changes_run :
    Reach.Reachable (GrandpaChain.step smallConfig Header.number twoChangesDecode acceptJustification)
      (GrandpaChain.initialized smallConfig Header.number smallInitData)
      (twoChangesRun.foldl (GrandpaChain.step smallConfig Header.number twoChangesDecode
        acceptJustification) (GrandpaChain.initialized smallConfig Header.number smallInitData)) ∧
    (twoChangesRun.foldl (GrandpaChain.step smallConfig Header.number twoChangesDecode
        acceptJustification) (GrandpaChain.initialized smallConfig Header.number smallInitData)
      ).storage.importedHashesPointer < smallConfig.headersToKeep :=
  have hr := @Reach.reachable_foldl _ _ (GrandpaChain.step smallConfig Header.number
    twoChangesDecode acceptJustification)
    (GrandpaChain.initialized smallConfig Header.number smallInitData) twoChangesRun
  ⟨hr, (imported_headers_ring_invariant twoChangesDecode (acceptJustification) (by decide)
    (fun _ _ h => h) rfl hr).1⟩

theorem authority_set_follows_first_scheduled_changes_on_two_changes_run :
    Reach.Reachable (GrandpaChain.step smallConfig Header.number twoChangesDecode acceptJustification)
      (GrandpaChain.initialized smallConfig Header.number smallInitData)
      (twoChangesRun.foldl (GrandpaChain.step smallConfig Header.number twoChangesDecode
        acceptJustification) (GrandpaChain.initialized smallConfig Header.number smallInitData)) ∧
    (twoChangesRun.foldl (GrandpaChain.step smallConfig Header.number twoChangesDecode
        acceptJustification) (GrandpaChain.initialized smallConfig Header.number smallInitData)
      ).storage.currentAuthoritySet.setId =
    smallInitData.setId + ((twoChangesRun.foldl (GrandpaChain.step smallConfig Header.number
        twoChangesDecode acceptJustification)
        (GrandpaChain.initialized smallConfig Header.number smallInitData)).imported.tail.filter
      fun h => (findScheduledChange twoChangesDecode h).isSome).length :=
  have hr := @Reach.reachable_foldl _ _ (GrandpaChain.step smallConfig Header.number
    twoChangesDecode acceptJustification)
    (GrandpaChain.initialized smallConfig Header.number smallInitData) twoChangesRun
  ⟨hr, (authority_set_follows_first_scheduled_changes acceptJustification (by decide) hr).2.1⟩

/-- The pallet imports the header with two scheduled changes, although its
    second one has a delay of one block. -/
theorem header_with_delayed_second_change_imported :
    twoChangesHeader ∈ (twoChangesRun.foldl (GrandpaChain.step smallConfig Header.number
      twoChangesDecode acceptJustification)
      (GrandpaChain.initialized smallConfig Header.number smallInitData)).imported ∧
    DigestItem.consensus grandpaEngineId [1, 0, 1, 0, 0, 0] ∈ twoChangesHeader.digest ∧
    grandpaLog twoChangesDecode (.consensus grandpaEngineId [1, 0, 1, 0, 0, 0]) =
      some (.scheduledChange ⟨[], 1⟩) := by
  decide

end Grandpa

end ParityBridge
