import Mathlib.Data.Nat.Pairing
import ParityBridge.Lib.Reach
import ParityBridge.Lib.RingBuffer
import ParityBridge.Beefy.Pallet

/-! # BEEFY pallet proofs — the ring of commitments, and what a leaf is checked against

    One inversion lemma, `submitCommitment_cases`, says everything
    `submit_commitment` can do: every check comes before the first write, so
    a failed call returns the storage it was given; an accepted one counts
    the request, may move the authority set on to one of a greater id, and
    pushes the commitment onto the ring (`ring_importCommitment`).

    `BeefyInvariant` ties the ring items to the list of imported commitments
    through `RingBuffer.Tracks`.  Block numbers are the ring's keys, and every
    accepted commitment is for a block newer than the best one, so every key
    pushed is fresh; no hypothesis on hashing is needed, unlike the GRANDPA
    pallet's ring of header hashes.

    What the MMR leaf is checked against is the MMR root the commitment
    carries, and nothing else: a leaf of any block the MMR holds passes,
    whatever block the commitment is for (`submitCommitment_of_leaf_in_mmr`). -/

namespace ParityBridge

namespace Beefy

variable {Au Sig Pl H M X Pr : Type}

/-- The ring buffer formed by `ImportedBlockNumbers`, the
    `next_block_number_index` of `ImportedCommitmentsInfo` and
    `ImportedCommitments`. -/
def BeefyStorage.ring (s : BeefyStorage H M) : RingBuffer.Ring ℕ (ImportedCommitment H M) :=
  ⟨s.importedBlockNumbers, (s.importedCommitmentsInfo.map (·.nextBlockNumberIndex)).getD 0,
    s.importedCommitments⟩

/-! ## What each call can do -/

section Import

variable (cfg : BeefyConfig) (s : BeefyStorage H M) (commitmentsInfo : ImportedCommitmentsInfoData)
  (blockNumber : ℕ) (importedCommitment : ImportedCommitment H M)

/-- The import pushes the commitment onto the ring. -/
theorem ring_importCommitment (h : s.importedCommitmentsInfo = some commitmentsInfo) :
    (importCommitment cfg s commitmentsInfo blockNumber importedCommitment).ring =
      RingBuffer.push cfg.commitmentsToKeep s.ring blockNumber importedCommitment := by
  simp only [importCommitment, RingBuffer.push, BeefyStorage.ring, h, Option.map_some,
    Option.getD_some]
  -- both sides branch on the slot under the pointer
  cases s.importedBlockNumbers commitmentsInfo.nextBlockNumberIndex <;> rfl

@[simp] theorem importCommitment_importedCommitmentsInfo :
    (importCommitment cfg s commitmentsInfo blockNumber importedCommitment).importedCommitmentsInfo =
      some ⟨blockNumber, (commitmentsInfo.nextBlockNumberIndex + 1) % cfg.commitmentsToKeep⟩ := by
  simp only [importCommitment]
  split <;> rfl

@[simp] theorem importCommitment_requestCount :
    (importCommitment cfg s commitmentsInfo blockNumber importedCommitment).requestCount =
      s.requestCount := by
  simp only [importCommitment]
  split <;> rfl

@[simp] theorem importCommitment_currentAuthoritySetInfo :
    (importCommitment cfg s commitmentsInfo blockNumber importedCommitment).currentAuthoritySetInfo =
      s.currentAuthoritySetInfo := by
  simp only [importCommitment]
  split <;> rfl

end Import

/-- `initialize` on a pallet that has been initialized fails. -/
theorem initializeCall_of_initialized {s : BeefyStorage H M} {commitmentsInfo : ImportedCommitmentsInfoData}
    (h : s.importedCommitmentsInfo = some commitmentsInfo) (initData : InitializationData M) :
    initializeCall s initData = (.error .alreadyInitialized, s) := by
  rw [initializeCall, h]
  rfl

section Verify

variable [DecidableEq M] (crypto : BeefyCrypto Au Sig Pl H M X Pr)

/-- A commitment that verifies is signed under the current set id, with one
    signature slot per validator of the current set, by the validators whose
    merkle root the set holds; its MMR root is the one in its payload. -/
theorem verifyCommitment_ok {commitment : SignedCommitment Pl Sig}
    {authoritySetInfo : BeefyAuthoritySetInfo M} {authoritySet : ValidatorSet Au} {mmrRoot : M}
    (h : verifyCommitment crypto commitment authoritySetInfo authoritySet = .ok mmrRoot) :
    commitment.commitment.validatorSetId = authoritySetInfo.id ∧
    commitment.signatures.length = authoritySetInfo.len ∧
    verifyAuthoritySet crypto.merkleRoot authoritySetInfo authoritySet = .ok () ∧
    verifySignatures crypto.verify commitment authoritySet = .ok () ∧
    crypto.extractMmrRoot commitment.commitment.payload = some mmrRoot := by
  rw [verifyCommitment] at h
  by_cases hid : commitment.commitment.validatorSetId = authoritySetInfo.id
  swap
  · rw [if_pos hid] at h
    exact nomatch h
  by_cases hlen : commitment.signatures.length = authoritySetInfo.len
  swap
  · rw [if_neg (not_not_intro hid), if_pos hlen] at h
    exact nomatch h
  rw [if_neg (not_not_intro hid), if_neg (not_not_intro hlen)] at h
  -- the three checks of the `do` block, in order
  cases hset : verifyAuthoritySet crypto.merkleRoot authoritySetInfo authoritySet with
  | error e =>
      rw [hset] at h
      exact nomatch h
  | ok u =>
      cases hsig : verifySignatures crypto.verify commitment authoritySet with
      | error e =>
          rw [hset, hsig] at h
          exact nomatch h
      | ok u' =>
          rw [hset, hsig] at h
          refine ⟨hid, hlen, rfl, rfl, ?_⟩
          cases hroot : crypto.extractMmrRoot commitment.commitment.payload with
          | none =>
              simp only [extractMmrRoot, hroot] at h
              exact nomatch h
          | some root =>
              simp only [extractMmrRoot, hroot] at h
              cases h
              rfl

/-! ### The commitment check against its specification -/

/-- The signature slots that carry a signature verifying against the
    validator of their position. -/
def countValidSignatures (verify : Au → Sig → Bool) (slots : List (Au × Option Sig)) : ℕ :=
  (slots.filter fun slot => (slot.2.map (verify slot.1)).getD false).length

omit [DecidableEq M] in
/-- The countdown of `verify_signatures` is the required count less the valid
    signatures: the loop's early exit happens only once the countdown is
    zero, where the difference is zero as well. -/
theorem missingSignaturesLoop_eq (verify : Au → Sig → Bool) :
    ∀ (slots : List (Au × Option Sig)) (missingSignatures : ℕ),
      missingSignaturesLoop verify missingSignatures slots =
        missingSignatures - countValidSignatures verify slots := by
  intro slots
  induction slots with
  | nil => intro m; rfl
  | cons slot rest ih =>
      intro m
      obtain ⟨authority, maybeSig⟩ := slot
      cases maybeSig with
      | none =>
          rw [missingSignaturesLoop, ih]
          simp [countValidSignatures]
      | some sig =>
          by_cases hverify : verify authority sig = true
          · have hcount : countValidSignatures verify ((authority, some sig) :: rest) =
                countValidSignatures verify rest + 1 := by
              simp [countValidSignatures, hverify]
            rw [missingSignaturesLoop, if_pos hverify, hcount]
            dsimp only
            split
            · -- the countdown reached zero: the loop breaks
              omega
            · rw [ih]
              omega
          · rw [missingSignaturesLoop, if_neg hverify, ih]
            simp [countValidSignatures, hverify]

omit [DecidableEq M] in
/-- `signatures_required n` is the least count above two thirds of `n`. -/
theorem signaturesRequired_spec {n : ℕ} (hn : 1 ≤ n) :
    2 * n < 3 * signaturesRequired n ∧ ∀ k, 2 * n < 3 * k → signaturesRequired n ≤ k := by
  rw [signaturesRequired]
  refine ⟨by omega, ?_⟩
  intro k hk
  omega

theorem verifyAuthoritySet_eq_ok_iff (authoritySetInfo : BeefyAuthoritySetInfo M)
    (authoritySet : ValidatorSet Au) :
    verifyAuthoritySet crypto.merkleRoot authoritySetInfo authoritySet = .ok () ↔
      authoritySet.id = authoritySetInfo.id ∧
        authoritySet.validators.length = authoritySetInfo.len ∧
        crypto.merkleRoot authoritySet.validators = authoritySetInfo.root := by
  rw [verifyAuthoritySet]
  by_cases hid : authoritySet.id = authoritySetInfo.id
  · by_cases hlen : authoritySet.validators.length = authoritySetInfo.len
    · by_cases hroot : crypto.merkleRoot authoritySet.validators = authoritySetInfo.root
      · rw [if_neg (not_not_intro hid), if_neg (not_not_intro hlen), if_neg (not_not_intro hroot)]
        exact ⟨fun _ => ⟨hid, hlen, hroot⟩, fun _ => rfl⟩
      · rw [if_neg (not_not_intro hid), if_neg (not_not_intro hlen), if_pos hroot]
        exact ⟨fun h => (nomatch h), fun h => absurd h.2.2 hroot⟩
    · rw [if_neg (not_not_intro hid), if_pos hlen]
      exact ⟨fun h => (nomatch h), fun h => absurd h.2.1 hlen⟩
  · rw [if_pos hid]
    exact ⟨fun h => (nomatch h), fun h => absurd h.1 hid⟩

omit [DecidableEq M] in
theorem verifySignatures_eq_ok_iff (commitment : SignedCommitment Pl Sig)
    (authoritySet : ValidatorSet Au) :
    verifySignatures crypto.verify commitment authoritySet = .ok () ↔
      commitment.signatures.length = authoritySet.validators.length ∧
        signaturesRequired authoritySet.validators.length ≤
          countValidSignatures (fun authority sig => crypto.verify authority sig commitment.commitment)
            (authoritySet.validators.zip commitment.signatures) := by
  rw [verifySignatures]
  by_cases hlen : commitment.signatures.length = authoritySet.validators.length
  · rw [if_neg (not_not_intro hlen)]
    dsimp only
    rw [missingSignaturesLoop_eq]
    by_cases henough : signaturesRequired authoritySet.validators.length ≤
        countValidSignatures (fun authority sig => crypto.verify authority sig commitment.commitment)
          (authoritySet.validators.zip commitment.signatures)
    · rw [if_neg (by omega)]
      exact ⟨fun _ => ⟨hlen, henough⟩, fun _ => rfl⟩
    · rw [if_pos (by omega)]
      exact ⟨fun h => (nomatch h), fun h => absurd h.2 henough⟩
  · rw [if_pos hlen]
    exact ⟨fun h => (nomatch h), fun h => absurd h.1 hlen⟩

/-- **COMMITMENT CHECK**: `verify_commitment` accepts a commitment with the
    MMR root `root` exactly when the commitment names the stored set id, the
    given validator set has the stored id, length and merkle root, there is
    one signature slot per validator, at least `signatures_required n` slots
    verify against the validator of their position, and the payload decodes
    to `root`; `signatures_required n` is the least count above two thirds of
    `n`, and the early-exit countdown of `verify_signatures` is the required
    count less the valid signatures. -/
theorem verify_commitment_matches_count_spec (commitment : SignedCommitment Pl Sig)
    (authoritySetInfo : BeefyAuthoritySetInfo M) (authoritySet : ValidatorSet Au) (root : M) :
    (verifyCommitment crypto commitment authoritySetInfo authoritySet = .ok root ↔
      commitment.commitment.validatorSetId = authoritySetInfo.id ∧
        authoritySet.id = authoritySetInfo.id ∧
        authoritySet.validators.length = authoritySetInfo.len ∧
        crypto.merkleRoot authoritySet.validators = authoritySetInfo.root ∧
        commitment.signatures.length = authoritySet.validators.length ∧
        signaturesRequired authoritySet.validators.length ≤
          countValidSignatures (fun authority sig => crypto.verify authority sig commitment.commitment)
            (authoritySet.validators.zip commitment.signatures) ∧
        crypto.extractMmrRoot commitment.commitment.payload = some root) ∧
    (1 ≤ authoritySet.validators.length →
      2 * authoritySet.validators.length < 3 * signaturesRequired authoritySet.validators.length ∧
      ∀ k, 2 * authoritySet.validators.length < 3 * k →
        signaturesRequired authoritySet.validators.length ≤ k) ∧
    ∀ missingSignatures, missingSignaturesLoop
        (fun authority sig => crypto.verify authority sig commitment.commitment) missingSignatures
        (authoritySet.validators.zip commitment.signatures) =
      missingSignatures - countValidSignatures
        (fun authority sig => crypto.verify authority sig commitment.commitment)
        (authoritySet.validators.zip commitment.signatures) := by
  refine ⟨⟨fun h => ?_, fun h => ?_⟩, signaturesRequired_spec, missingSignaturesLoop_eq _ _⟩
  · obtain ⟨hid, -, hset, hsig, hroot⟩ := verifyCommitment_ok crypto h
    obtain ⟨hsetId, hlen, hmerkle⟩ := (verifyAuthoritySet_eq_ok_iff crypto _ _).mp hset
    obtain ⟨hslots, henough⟩ := (verifySignatures_eq_ok_iff crypto _ _).mp hsig
    exact ⟨hid, hsetId, hlen, hmerkle, hslots, henough, hroot⟩
  · obtain ⟨hid, hsetId, hlen, hmerkle, hslots, henough, hroot⟩ := h
    have hset := (verifyAuthoritySet_eq_ok_iff crypto authoritySetInfo authoritySet).mpr
      ⟨hsetId, hlen, hmerkle⟩
    have hsig := (verifySignatures_eq_ok_iff crypto commitment authoritySet).mpr ⟨hslots, henough⟩
    -- both length checks of `verify_commitment` pass, then the three `do` steps
    rw [verifyCommitment, if_neg (not_not_intro hid), if_neg (not_not_intro (hslots.trans hlen)),
      hset, hsig]
    show extractMmrRoot crypto.extractMmrRoot commitment = .ok root
    rw [extractMmrRoot, hroot]

end Verify

section Cases

variable (cfg : BeefyConfig) [DecidableEq M] (crypto : BeefyCrypto Au Sig Pl H M X Pr)

/-- **SUBMIT CASES**: everything `submit_commitment` can do.  It fails and
    leaves the storage as it was; or every check passes (not halted, budget
    left, initialized, a newer block, a commitment of the current set, a leaf
    in its MMR), and the storage is the commitment's import into a storage
    `s'` that differs from the given one only by the counted request and the
    authority set, moved on when the leaf's next set has a greater id. -/
theorem submitCommitment_cases (s : BeefyStorage H M) (commitment : SignedCommitment Pl Sig)
    (validatorSet : ValidatorSet Au) (mmrLeaf : BeefyMmrLeaf H M X) (mmrProof : Pr) :
    (∃ e, submitCommitment cfg crypto s commitment validatorSet mmrLeaf mmrProof = (.error e, s)) ∨
    ∃ commitmentsInfo mmrRoot s',
      s.palletOperatingMode ≠ .halted ∧ s.requestCount < cfg.maxRequests ∧
      s.importedCommitmentsInfo = some commitmentsInfo ∧
      commitmentsInfo.bestBlockNumber < commitment.commitment.blockNumber ∧
      verifyCommitment crypto commitment s.currentAuthoritySetInfo validatorSet = .ok mmrRoot ∧
      verifyBeefyMmrLeaf crypto mmrLeaf mmrProof mmrRoot = .ok () ∧
      s'.ring = s.ring ∧ s'.importedCommitmentsInfo = s.importedCommitmentsInfo ∧
      s'.requestCount = s.requestCount + 1 ∧
      s'.currentAuthoritySetInfo =
        (if mmrLeaf.beefyNextAuthoritySet.id > s.currentAuthoritySetInfo.id then
          mmrLeaf.beefyNextAuthoritySet else s.currentAuthoritySetInfo) ∧
      submitCommitment cfg crypto s commitment validatorSet mmrLeaf mmrProof =
        (.ok (), importCommitment cfg s' commitmentsInfo commitment.commitment.blockNumber
          ⟨mmrLeaf.parentNumberAndHash, mmrRoot⟩) := by
  rw [submitCommitment]
  by_cases hhalt : s.palletOperatingMode = .halted
  · exact .inl ⟨.halted, by rw [if_pos hhalt]⟩
  rw [if_neg hhalt]
  by_cases hreq : s.requestCount < cfg.maxRequests
  swap
  · exact .inl ⟨.tooManyRequests, by rw [if_pos hreq]⟩
  rw [if_neg (not_not_intro hreq)]
  cases hinfo : s.importedCommitmentsInfo with
  | none => exact .inl ⟨.notInitialized, rfl⟩
  | some commitmentsInfo =>
      dsimp only
      by_cases hold : commitmentsInfo.bestBlockNumber < commitment.commitment.blockNumber
      swap
      · exact .inl ⟨.oldCommitment, by rw [if_pos hold]⟩
      rw [if_neg (not_not_intro hold)]
      cases hverify : verifyCommitment crypto commitment s.currentAuthoritySetInfo validatorSet with
      | error e => exact .inl ⟨e, rfl⟩
      | ok mmrRoot =>
          dsimp only
          cases hleaf : verifyBeefyMmrLeaf crypto mmrLeaf mmrProof mmrRoot with
          | error e => exact .inl ⟨e, rfl⟩
          | ok u =>
              cases u
              refine .inr ⟨commitmentsInfo, mmrRoot,
                { s with
                  requestCount := s.requestCount + 1
                  currentAuthoritySetInfo :=
                    if mmrLeaf.beefyNextAuthoritySet.id > s.currentAuthoritySetInfo.id then
                      mmrLeaf.beefyNextAuthoritySet else s.currentAuthoritySetInfo },
                hhalt, hreq, rfl, hold, rfl, hleaf, rfl, hinfo, rfl, rfl, ?_⟩
              -- the authority set written in place, or the storage kept
              by_cases hnext : mmrLeaf.beefyNextAuthoritySet.id > s.currentAuthoritySetInfo.id
              · rw [if_pos hnext, if_pos hnext, hinfo]
              · rw [if_neg hnext, if_neg hnext, hinfo]

/-- A call all of whose checks pass is accepted. -/
theorem submitCommitment_ok_of_checks {s : BeefyStorage H M} {commitment : SignedCommitment Pl Sig}
    {validatorSet : ValidatorSet Au} {mmrLeaf : BeefyMmrLeaf H M X} {mmrProof : Pr}
    {commitmentsInfo : ImportedCommitmentsInfoData} {mmrRoot : M}
    (hhalt : s.palletOperatingMode ≠ .halted) (hreq : s.requestCount < cfg.maxRequests)
    (hinfo : s.importedCommitmentsInfo = some commitmentsInfo)
    (hnew : commitmentsInfo.bestBlockNumber < commitment.commitment.blockNumber)
    (hverify : verifyCommitment crypto commitment s.currentAuthoritySetInfo validatorSet = .ok mmrRoot)
    (hleaf : verifyBeefyMmrLeaf crypto mmrLeaf mmrProof mmrRoot = .ok ()) :
    (submitCommitment cfg crypto s commitment validatorSet mmrLeaf mmrProof).1 = .ok () := by
  rw [submitCommitment, if_neg hhalt, if_neg (not_not_intro hreq), hinfo]
  dsimp only
  rw [if_neg (not_not_intro hnew), hverify]
  dsimp only
  rw [hleaf]

/-- **OUTCOME**: a call of `submit_commitment` fails and changes nothing, or
    is accepted and moves the best block number up to the commitment's. -/
theorem submitCommitment_outcome (s : BeefyStorage H M) (commitment : SignedCommitment Pl Sig)
    (validatorSet : ValidatorSet Au) (mmrLeaf : BeefyMmrLeaf H M X) (mmrProof : Pr) :
    (∀ e, (submitCommitment cfg crypto s commitment validatorSet mmrLeaf mmrProof).1 = .error e →
      (submitCommitment cfg crypto s commitment validatorSet mmrLeaf mmrProof).2 = s) ∧
    ((submitCommitment cfg crypto s commitment validatorSet mmrLeaf mmrProof).1 = .ok () →
      ∃ commitmentsInfo, s.importedCommitmentsInfo = some commitmentsInfo ∧
        commitmentsInfo.bestBlockNumber < commitment.commitment.blockNumber ∧
        (submitCommitment cfg crypto s commitment validatorSet mmrLeaf mmrProof).2.importedCommitmentsInfo.map
          (·.bestBlockNumber) = some commitment.commitment.blockNumber) := by
  rcases submitCommitment_cases cfg crypto s commitment validatorSet mmrLeaf mmrProof with
    ⟨e, hres⟩ | ⟨commitmentsInfo, mmrRoot, s', -, -, hinfo, hnew, -, -, -, -, -, -, hres⟩
  · rw [hres]
    exact ⟨fun _ _ => rfl, fun hok => nomatch hok⟩
  · rw [hres]
    refine ⟨fun _ herr => (nomatch herr), fun _ => ⟨commitmentsInfo, hinfo, hnew, ?_⟩⟩
    show (importCommitment cfg s' _ _ _).importedCommitmentsInfo.map _ = _
    rw [importCommitment_importedCommitmentsInfo]
    rfl

/-- What an accepted call imports is the commitment's block number with the
    leaf's parent and the MMR root the commitment verified with. -/
theorem importedEntry_of_verifyCommitment {commitment : SignedCommitment Pl Sig}
    {authoritySetInfo : BeefyAuthoritySetInfo M} {validatorSet : ValidatorSet Au} {mmrRoot : M}
    (h : verifyCommitment crypto commitment authoritySetInfo validatorSet = .ok mmrRoot)
    (mmrLeaf : BeefyMmrLeaf H M X) :
    importedEntry crypto commitment mmrLeaf =
      [(commitment.commitment.blockNumber, ⟨mmrLeaf.parentNumberAndHash, mmrRoot⟩)] := by
  rw [importedEntry, (verifyCommitment_ok crypto h).2.2.2.2]

end Cases

/-! ## Steps of the chain -/

section Steps

variable (cfg : BeefyConfig) [DecidableEq M] (crypto : BeefyCrypto Au Sig Pl H M X Pr)
  {c : BeefyChain H M} {commitment : SignedCommitment Pl Sig} {validatorSet : ValidatorSet Au}
  {mmrLeaf : BeefyMmrLeaf H M X} {mmrProof : Pr}

theorem step_submitCommitment_of_error {e : BeefyError}
    (h : submitCommitment cfg crypto c.storage commitment validatorSet mmrLeaf mmrProof =
      (.error e, c.storage)) :
    BeefyChain.step cfg crypto c (.submitCommitment commitment validatorSet mmrLeaf mmrProof) = c := by
  rw [BeefyChain.step, h]
  rfl

theorem step_submitCommitment_of_ok {s' : BeefyStorage H M}
    (h : submitCommitment cfg crypto c.storage commitment validatorSet mmrLeaf mmrProof =
      (.ok (), s')) :
    BeefyChain.step cfg crypto c (.submitCommitment commitment validatorSet mmrLeaf mmrProof) =
      ⟨s', c.imported ++ importedEntry crypto commitment mmrLeaf⟩ := by
  rw [BeefyChain.step, h]
  rfl

end Steps

/-! ## The ring of commitments -/

section Ring

variable (cfg : BeefyConfig)

/-- What every chain reachable from an initialized pallet keeps of its
    ring, its best block number and its request budget. -/
structure BeefyInvariant (c : BeefyChain H M) : Prop where
  tracks : RingBuffer.Tracks cfg.commitmentsToKeep c.storage.ring c.imported
  increasing : (c.imported.map Prod.fst).Pairwise (· < ·)
  best : ∃ commitmentsInfo, c.storage.importedCommitmentsInfo = some commitmentsInfo ∧
    (∀ p ∈ c.imported, p.1 ≤ commitmentsInfo.bestBlockNumber) ∧
    ∀ p ∈ c.imported.getLast?, p.1 = commitmentsInfo.bestBlockNumber
  requests : c.storage.requestCount ≤ cfg.maxRequests

variable {cfg}

/-- `initialize` with a non-empty authority set on empty storage sets the
    authority set, the operating mode and the best block number, and leaves
    the ring empty. -/
theorem initialized_storage [Inhabited M] {initData : InitializationData M}
    (hlen : 0 < initData.authoritySet.len) :
    (BeefyChain.initialized initData : BeefyChain H M).storage =
      { BeefyStorage.empty with
        currentAuthoritySetInfo := initData.authoritySet
        palletOperatingMode := initData.operatingMode
        importedCommitmentsInfo := some ⟨initData.bestBlockNumber, 0⟩ } := by
  show (initializeCall .empty initData).2 = _
  -- the storage holds no commitments info, so `initialize` runs
  rw [initializeCall, initializePallet, if_neg (Nat.pos_iff_ne_zero.mp hlen)]
  rfl

theorem beefyInvariant_initialized [Inhabited M] {initData : InitializationData M}
    (hlen : 0 < initData.authoritySet.len) :
    BeefyInvariant cfg (BeefyChain.initialized initData : BeefyChain H M) := by
  have hs := initialized_storage (H := H) hlen
  refine ⟨?_, List.Pairwise.nil, ⟨⟨initData.bestBlockNumber, 0⟩, by rw [hs],
    fun _ hp => absurd hp List.not_mem_nil, fun _ hp => absurd hp (Option.not_mem_none _)⟩, ?_⟩
  · -- the ring of the initialized pallet is the empty ring
    have hring : (BeefyChain.initialized initData : BeefyChain H M).storage.ring = RingBuffer.empty := by
      rw [hs]
      rfl
    rw [hring]
    exact RingBuffer.tracks_empty _
  · rw [hs]
    exact Nat.zero_le _

variable [DecidableEq M] (crypto : BeefyCrypto Au Sig Pl H M X Pr)

/-- The pallet is initialized, so `initialize` fails and changes nothing. -/
theorem BeefyInvariant.step_initializeCall {c : BeefyChain H M} (h : BeefyInvariant cfg c)
    (initData : InitializationData M) :
    BeefyChain.step cfg crypto c (.initializeCall initData : Call Au Sig Pl H M X Pr) = c := by
  obtain ⟨info, hinfo, -⟩ := h.best
  rw [BeefyChain.step, initializeCall_of_initialized hinfo]

/-- No call moves the authority set back to a smaller id: an accepted
    commitment replaces the set only by one of a greater id, and
    `initialize` fails on an initialized pallet. -/
theorem BeefyInvariant.id_le_step {c : BeefyChain H M} (h : BeefyInvariant cfg c)
    (call : Call Au Sig Pl H M X Pr) :
    c.storage.currentAuthoritySetInfo.id ≤
      (BeefyChain.step cfg crypto c call).storage.currentAuthoritySetInfo.id := by
  cases call with
  | submitCommitment commitment validatorSet mmrLeaf mmrProof =>
      rcases submitCommitment_cases cfg crypto c.storage commitment validatorSet mmrLeaf mmrProof with
        ⟨e, hres⟩ | ⟨commitmentsInfo, mmrRoot, s', -, -, -, -, -, -, -, -, -, hset, hres⟩
      · rw [step_submitCommitment_of_error cfg crypto hres]
      · rw [step_submitCommitment_of_ok cfg crypto hres]
        show _ ≤ (importCommitment cfg s' _ _ _).currentAuthoritySetInfo.id
        rw [importCommitment_currentAuthoritySetInfo, hset]
        split
        · next hgt => exact hgt.le
        · exact le_refl _
  | initializeCall initData => rw [h.step_initializeCall crypto initData]
  | setOperatingMode operatingMode => exact le_refl _
  | onInitialize => exact le_refl _

variable (hK : 0 < cfg.commitmentsToKeep)
include hK

/-- An accepted commitment keeps the ring invariant: it is for a block
    newer than the best one, hence newer than every imported one, so its
    block number is a fresh key, and its import is a push. -/
theorem BeefyInvariant.submit {c : BeefyChain H M} (h : BeefyInvariant cfg c)
    (commitment : SignedCommitment Pl Sig) (validatorSet : ValidatorSet Au)
    (mmrLeaf : BeefyMmrLeaf H M X) (mmrProof : Pr) :
    BeefyInvariant cfg
      (BeefyChain.step cfg crypto c (.submitCommitment commitment validatorSet mmrLeaf mmrProof)) := by
  rcases submitCommitment_cases cfg crypto c.storage commitment validatorSet mmrLeaf mmrProof with
    ⟨e, hres⟩ | ⟨commitmentsInfo, mmrRoot, s', -, hreq, hinfo, hnew, hverify, -, hring, hinfo', hcount,
      -, hres⟩
  · rw [step_submitCommitment_of_error cfg crypto hres]
    exact h
  rw [step_submitCommitment_of_ok cfg crypto hres, importedEntry_of_verifyCommitment crypto hverify]
  obtain ⟨info, hinfo₀, hle, -⟩ := h.best
  rw [hinfo₀, Option.some.injEq] at hinfo
  subst hinfo
  set b := commitment.commitment.blockNumber
  -- every imported block number is at most the best one, below `b`
  have hlt : ∀ p ∈ c.imported, p.1 < b := fun p hp => lt_of_le_of_lt (hle p hp) hnew
  refine ⟨?_, ?_, ⟨_, importCommitment_importedCommitmentsInfo .., ?_, ?_⟩, ?_⟩
  · show RingBuffer.Tracks _ (importCommitment cfg s' info b _).ring _
    rw [ring_importCommitment cfg s' info b _ (hinfo'.trans hinfo₀), hring]
    have hfresh : b ∉ c.imported.map Prod.fst := by
      rw [List.mem_map]
      rintro ⟨p, hp, hpb⟩
      exact absurd hpb (hlt p hp).ne
    exact h.tracks.push hK (h.increasing.imp ne_of_lt) hfresh _
  · rw [List.map_append, List.map_singleton, List.pairwise_append]
    refine ⟨h.increasing, List.pairwise_singleton _ _, ?_⟩
    intro a ha b' hb'
    rw [List.mem_singleton] at hb'
    obtain ⟨p, hp, rfl⟩ := List.mem_map.mp ha
    rw [hb']
    exact hlt p hp
  · intro p hp
    rcases List.mem_append.mp hp with hp | hp
    · exact (hlt p hp).le
    · rw [List.mem_singleton] at hp
      rw [hp]
  · intro p hp
    rw [List.getLast?_concat, Option.mem_some_iff] at hp
    rw [← hp]
  · show (importCommitment cfg s' info b _).requestCount ≤ _
    rw [importCommitment_requestCount, hcount]
    exact hreq

/-- Every call keeps the ring invariant. -/
theorem BeefyInvariant.step {c : BeefyChain H M} (h : BeefyInvariant cfg c)
    (call : Call Au Sig Pl H M X Pr) :
    BeefyInvariant cfg (BeefyChain.step cfg crypto c call) := by
  cases call with
  | submitCommitment commitment validatorSet mmrLeaf mmrProof =>
      exact h.submit crypto hK commitment validatorSet mmrLeaf mmrProof
  | initializeCall initData =>
      rw [h.step_initializeCall crypto initData]
      exact h
  | setOperatingMode operatingMode =>
      exact ⟨h.tracks, h.increasing, h.best, h.requests⟩
  | onInitialize =>
      refine ⟨h.tracks, h.increasing, h.best, ?_⟩
      show c.storage.requestCount - 1 ≤ cfg.maxRequests
      have := h.requests
      omega

/-- **STORAGE INVARIANT**: on a pallet initialized with a non-empty
    authority set and a ring of at least one slot, every reachable state
    keeps the ring's head below `CommitmentsToKeep`, stores a commitment
    exactly under the block numbers the ring holds, at most
    `CommitmentsToKeep` of them and among them the last `CommitmentsToKeep`
    imported, the best one included; the request count stays within its
    budget; no call moves the authority set id down; and a call of
    `submit_commitment` either fails and changes nothing, or moves the best
    block number up to the commitment's. -/
theorem beefy_storage_invariant [Inhabited M] {initData : InitializationData M}
    (hlen : 0 < initData.authoritySet.len) {c : BeefyChain H M}
    (hc : Reach.Reachable (BeefyChain.step cfg crypto) (BeefyChain.initialized initData) c) :
    (∃ commitmentsInfo, c.storage.importedCommitmentsInfo = some commitmentsInfo ∧
      commitmentsInfo.nextBlockNumberIndex < cfg.commitmentsToKeep) ∧
    (∀ n, (c.storage.importedCommitments n).isSome ↔ ∃ i, c.storage.importedBlockNumbers i = some n) ∧
    (∃ S : Finset ℕ, S.card ≤ cfg.commitmentsToKeep ∧
      ∀ n, (c.storage.importedCommitments n).isSome ↔ n ∈ S) ∧
    (∀ m (hm : m < c.imported.length), c.imported.length - cfg.commitmentsToKeep ≤ m →
      c.storage.importedCommitments c.imported[m].1 = some c.imported[m].2) ∧
    (∀ last ∈ c.imported.getLast?, ∃ commitmentsInfo,
      c.storage.importedCommitmentsInfo = some commitmentsInfo ∧
      commitmentsInfo.bestBlockNumber = last.1 ∧ c.storage.importedCommitments last.1 = some last.2) ∧
    c.storage.requestCount ≤ cfg.maxRequests ∧
    (∀ call, c.storage.currentAuthoritySetInfo.id ≤
      (BeefyChain.step cfg crypto c call).storage.currentAuthoritySetInfo.id) ∧
    ∀ (commitment : SignedCommitment Pl Sig) (validatorSet : ValidatorSet Au)
      (mmrLeaf : BeefyMmrLeaf H M X) (mmrProof : Pr),
      (∀ e, (submitCommitment cfg crypto c.storage commitment validatorSet mmrLeaf mmrProof).1 =
          .error e →
        (submitCommitment cfg crypto c.storage commitment validatorSet mmrLeaf mmrProof).2 =
          c.storage) ∧
      ((submitCommitment cfg crypto c.storage commitment validatorSet mmrLeaf mmrProof).1 = .ok () →
        ∃ commitmentsInfo, c.storage.importedCommitmentsInfo = some commitmentsInfo ∧
          commitmentsInfo.bestBlockNumber < commitment.commitment.blockNumber ∧
          (submitCommitment cfg crypto c.storage commitment validatorSet mmrLeaf
            mmrProof).2.importedCommitmentsInfo.map (·.bestBlockNumber) =
            some commitment.commitment.blockNumber) := by
  have h : BeefyInvariant cfg c :=
    hc.invariant _ (beefyInvariant_initialized hlen) (fun _ call _ hs => hs.step crypto hK call)
  obtain ⟨commitmentsInfo, hinfo, -, hlast⟩ := h.best
  -- the ring's pointer is the head kept in `ImportedCommitmentsInfo`
  have hpointer : c.storage.ring.pointer = commitmentsInfo.nextBlockNumberIndex := by
    show (c.storage.importedCommitmentsInfo.map _).getD 0 = _
    rw [hinfo]
    rfl
  refine ⟨⟨commitmentsInfo, hinfo, hpointer ▸ h.tracks.pointer_lt hK⟩, h.tracks.stored_iff_slot hK,
    (h.tracks.bounded hK).card_stored_le, fun _ hm hlow => h.tracks.store_retained hm hlow, ?_,
    h.requests, h.id_le_step crypto, submitCommitment_outcome cfg crypto c.storage⟩
  intro last hl
  exact ⟨commitmentsInfo, hinfo, (hlast last hl).symm, h.tracks.store_getLast hK hl⟩

end Ring

/-! ## A small bridged chain -/

/-- The hash of a leaf of the small chain: an injective encoding of its
    fields into a number. -/
def pairLeafHash (leaf : BeefyMmrLeaf ℕ ℕ Unit) : ℕ :=
  Nat.pair leaf.version <| Nat.pair
    (Nat.pair leaf.parentNumberAndHash.1 leaf.parentNumberAndHash.2)
    (Nat.pair leaf.beefyNextAuthoritySet.id
      (Nat.pair leaf.beefyNextAuthoritySet.len leaf.beefyNextAuthoritySet.root))

theorem pairLeafHash_injective : Function.Injective pairLeafHash := by
  rintro ⟨v, ⟨p, ph⟩, ⟨i, l, r⟩, ⟨⟩⟩ ⟨v', ⟨p', ph'⟩, ⟨i', l', r'⟩, ⟨⟩⟩ h
  simp only [pairLeafHash, Nat.pair_eq_pair] at h
  obtain ⟨rfl, ⟨rfl, rfl⟩, rfl, rfl, rfl⟩ := h
  rfl

/-- The leaf of block `n`: its parent is block `n - 1`, whose hash is its
    number, and the next authority set is set `1` of the one validator `8`. -/
def smallLeaf (n : ℕ) : BeefyMmrLeaf ℕ ℕ Unit := ⟨0, (n - 1, n - 1), ⟨1, 1, 8⟩, ()⟩

/-- The small chain's cryptography: the root of a validator list is the sum
    of its ids, a validator's signature is its id, the payload is the MMR
    root, and the MMR of root `b` holds the leaves of blocks `1 ..= b`. -/
def smallCrypto : BeefyCrypto ℕ ℕ ℕ ℕ ℕ Unit Unit where
  merkleRoot validators := validators.foldl (· + ·) 0
  verify authority sig _ := decide (authority = sig)
  extractMmrRoot mmrRoot := some mmrRoot
  hashLeaf := pairLeafHash
  verifyMmrLeavesProof mmrRoot leafHashes _ := leafHashes.all fun leafHash =>
    (List.range' 1 mmrRoot).any fun n => decide (pairLeafHash (smallLeaf n) = leafHash)

/-- Ten requests, three kept commitments. -/
def smallConfig : BeefyConfig := ⟨10, 3⟩

/-- Set `0` of the one validator `7`, best block `0`. -/
def smallInitData : InitializationData ℕ := ⟨.normal, 0, ⟨0, 1, 7⟩⟩

def smallValidators : ValidatorSet ℕ := ⟨[7], 0⟩

/-- A commitment of set `0` for block `10`, signed by validator `7`, that
    carries the MMR root of block `10`. -/
def tenCommitment : SignedCommitment ℕ ℕ := ⟨⟨10, 10, 0⟩, [some 7]⟩

/-- The commitment for block `10` with the leaf of block `10`, then a block. -/
def smallRun : List (Call ℕ ℕ ℕ ℕ ℕ Unit Unit) :=
  [.submitCommitment tenCommitment smallValidators (smallLeaf 10) (), .onInitialize]

theorem beefy_storage_invariant_on_small_run :
    0 < smallConfig.commitmentsToKeep ∧ 0 < smallInitData.authoritySet.len ∧
    Reach.Reachable (BeefyChain.step smallConfig smallCrypto) (BeefyChain.initialized smallInitData)
      (smallRun.foldl (BeefyChain.step smallConfig smallCrypto)
        (BeefyChain.initialized smallInitData)) ∧
    ∃ commitmentsInfo, (smallRun.foldl (BeefyChain.step smallConfig smallCrypto)
        (BeefyChain.initialized smallInitData)).storage.importedCommitmentsInfo =
          some commitmentsInfo ∧
      commitmentsInfo.nextBlockNumberIndex < smallConfig.commitmentsToKeep :=
  have hr := @Reach.reachable_foldl _ _ (BeefyChain.step smallConfig smallCrypto)
    (BeefyChain.initialized smallInitData) smallRun
  ⟨by decide, by decide, hr, (beefy_storage_invariant smallCrypto (by decide) (by decide) hr).1⟩

/-! ## What the MMR leaf is checked against -/

section Leaves

/-- The bridged chain's MMR as an honest chain builds it, for the leaves
    `leafAt n` of its blocks and the roots `rootAt b` its honest commitments
    carry: the leaf of block `n` names block `n - 1` as its parent, and a
    proof of a leaf verifies against the root of block `b` exactly when the
    leaf is the leaf of one of the blocks `1 ..= b`. -/
structure HonestMmr (crypto : BeefyCrypto Au Sig Pl H M X Pr) (rootAt : ℕ → M)
    (leafAt : ℕ → BeefyMmrLeaf H M X) : Prop where
  parent_leafAt : ∀ n, (leafAt n).parentNumberAndHash.1 = n - 1
  verify_iff : ∀ b leaf mmrProof,
    crypto.verifyMmrLeavesProof (rootAt b) [crypto.hashLeaf leaf] mmrProof = true ↔
      ∃ n, 0 < n ∧ n ≤ b ∧ leaf = leafAt n

variable {crypto : BeefyCrypto Au Sig Pl H M X Pr} {rootAt : ℕ → M}
  {leafAt : ℕ → BeefyMmrLeaf H M X}

/-- The leaf of every block `1 ..= b` passes `verify_beefy_mmr_leaf`
    against the root of block `b`. -/
theorem HonestMmr.verifyBeefyMmrLeaf_leafAt (hmmr : HonestMmr crypto rootAt leafAt) {n b : ℕ}
    (hn : 0 < n) (hnb : n ≤ b) (mmrProof : Pr) :
    verifyBeefyMmrLeaf crypto (leafAt n) mmrProof (rootAt b) = .ok () := by
  rw [verifyBeefyMmrLeaf, if_pos ((hmmr.verify_iff b (leafAt n) mmrProof).mpr ⟨n, hn, hnb, rfl⟩)]

variable (cfg : BeefyConfig) [DecidableEq M]

/-- **ANY LEAF OF THE MMR**: on a pallet in the ring invariant, a commitment
    for block `b` that verifies with the honest root of block `b` is
    accepted together with the leaf of any block `n ≤ b`, and the parent
    stored for block `b` is then block `n - 1`: nothing ties the leaf to the
    committed block. -/
theorem submitCommitment_of_leaf_in_mmr (hK : 0 < cfg.commitmentsToKeep)
    (hmmr : HonestMmr crypto rootAt leafAt) {c : BeefyChain H M} (h : BeefyInvariant cfg c)
    {commitment : SignedCommitment Pl Sig} {validatorSet : ValidatorSet Au}
    {commitmentsInfo : ImportedCommitmentsInfoData}
    (hhalt : c.storage.palletOperatingMode ≠ .halted) (hreq : c.storage.requestCount < cfg.maxRequests)
    (hinfo : c.storage.importedCommitmentsInfo = some commitmentsInfo)
    (hnew : commitmentsInfo.bestBlockNumber < commitment.commitment.blockNumber)
    (hverify : verifyCommitment crypto commitment c.storage.currentAuthoritySetInfo validatorSet =
      .ok (rootAt commitment.commitment.blockNumber))
    {n : ℕ} (hn : 0 < n) (hnb : n ≤ commitment.commitment.blockNumber) (mmrProof : Pr) :
    (submitCommitment cfg crypto c.storage commitment validatorSet (leafAt n) mmrProof).1 = .ok () ∧
    ((submitCommitment cfg crypto c.storage commitment validatorSet (leafAt n)
      mmrProof).2.importedCommitments commitment.commitment.blockNumber).map
        (·.parentNumberAndHash.1) = some (n - 1) := by
  have hok := submitCommitment_ok_of_checks cfg crypto hhalt hreq hinfo hnew hverify
    (hmmr.verifyBeefyMmrLeaf_leafAt hn hnb mmrProof)
  refine ⟨hok, ?_⟩
  -- the chain after the call keeps the invariant, and its last import is this one
  have hstep := h.submit crypto hK commitment validatorSet (leafAt n) mmrProof
  have hres := (submitCommitment cfg crypto c.storage commitment validatorSet (leafAt n)
    mmrProof).eta.symm
  rw [hok] at hres
  rw [step_submitCommitment_of_ok cfg crypto hres, importedEntry_of_verifyCommitment crypto hverify]
    at hstep
  have hstored := hstep.tracks.store_getLast hK (List.getLast?_concat ..)
  show Option.map _ ((submitCommitment cfg crypto c.storage commitment validatorSet (leafAt n)
    mmrProof).2.ring.store _) = _
  rw [hstored, Option.map_some, hmmr.parent_leafAt]

/-- The small chain's MMR is honest. -/
theorem honestMmr_small : HonestMmr smallCrypto id smallLeaf where
  parent_leafAt _ := rfl
  verify_iff b leaf _ := by
    simp only [smallCrypto, List.all_cons, List.all_nil, Bool.and_true, List.any_eq_true,
      List.mem_range'_1, decide_eq_true_eq, id]
    constructor
    · rintro ⟨n, ⟨hn, hnb⟩, heq⟩
      exact ⟨n, hn, by omega, (pairLeafHash_injective heq).symm⟩
    · rintro ⟨n, hn, hnb, rfl⟩
      exact ⟨n, ⟨hn, by omega⟩, rfl⟩

theorem older_leaf_commitment_stores_wrong_parent :
    HonestMmr smallCrypto id smallLeaf ∧
    (submitCommitment smallConfig smallCrypto (BeefyChain.initialized smallInitData).storage
      tenCommitment smallValidators (smallLeaf 5) ()).1 = .ok () ∧
    ((submitCommitment smallConfig smallCrypto (BeefyChain.initialized smallInitData).storage
      tenCommitment smallValidators (smallLeaf 5) ()).2.importedCommitments 10).map
        (·.parentNumberAndHash.1) = some 4 :=
  ⟨honestMmr_small, submitCommitment_of_leaf_in_mmr smallConfig (by decide) honestMmr_small
    (beefyInvariant_initialized (by decide)) (by decide) (by decide) rfl (by decide) rfl
    (n := 5) (by decide) (by decide) ()⟩

end Leaves

end Beefy

end ParityBridge
