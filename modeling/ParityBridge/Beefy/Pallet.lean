import ParityBridge.Grandpa.Digest

/-! # The BEEFY light client pallet — `submit_commitment`, `initialize`, `on_initialize`

    The pallet keeps the current BEEFY authority set (its id, its length and
    the merkle root of its validators), the best block number a commitment
    was imported for, and a ring of the last `CommitmentsToKeep` imported
    commitments (`ImportedBlockNumbers` at `next_block_number_index`,
    `ImportedCommitments` by block number).  `submit_commitment` checks the
    operating mode, the request budget, that the commitment is for a newer
    block, that it is signed by the current set (`utils::verify_commitment`)
    and that the MMR leaf is in the MMR whose root the commitment carries
    (`utils::verify_beefy_mmr_leaf`); it then counts the request, takes the
    leaf's next authority set when its id is greater, and imports the
    commitment.

    Each call returns its result together with the storage as the code
    leaves it, errors included.  The cryptography of the bridged chain is
    the parameter `BeefyCrypto`: the merkle root of a list of validator ids,
    signature verification of a commitment, the MMR root in a payload, the
    hash of a leaf and `verify_mmr_leaves_proof`.  The origin checks fail
    before any write and are left out, as are `PalletOwner`, the weights and
    the logs.  `(index + 1) % CommitmentsToKeep` panics for a zero
    `CommitmentsToKeep`, which every result here excludes. -/

namespace ParityBridge

namespace Beefy

/-- `BeefyAuthoritySet` of `sp_beefy::mmr`, the pallet's
    `BridgedBeefyAuthoritySetInfo`: the set id, the number of validators and
    the merkle root of their ids. -/
structure BeefyAuthoritySetInfo (M : Type) where
  id : ℕ
  len : ℕ
  root : M
deriving DecidableEq, Repr

/-- `MmrLeaf` of `sp_beefy::mmr`: the leaf the bridged chain appends to its
    MMR for each block. -/
structure BeefyMmrLeaf (H M X : Type) where
  version : ℕ
  parentNumberAndHash : ℕ × H
  beefyNextAuthoritySet : BeefyAuthoritySetInfo M
  leafExtra : X
deriving DecidableEq, Repr

/-- `Commitment` of `sp_beefy`: the payload, the block it finalizes and the
    id of the validator set that signs it. -/
structure Commitment (Pl : Type) where
  payload : Pl
  blockNumber : ℕ
  validatorSetId : ℕ
deriving DecidableEq, Repr

/-- `SignedCommitment`: one optional signature per validator. -/
structure SignedCommitment (Pl Sig : Type) where
  commitment : Commitment Pl
  signatures : List (Option Sig)
deriving DecidableEq, Repr

/-- `ValidatorSet` of `sp_beefy`: the validator ids and the set id. -/
structure ValidatorSet (Au : Type) where
  validators : List Au
  id : ℕ
deriving DecidableEq, Repr

/-- `ImportedCommitment`: the parent of the committed block as the MMR leaf
    names it, and the MMR root the commitment carries. -/
structure ImportedCommitment (H M : Type) where
  parentNumberAndHash : ℕ × H
  mmrRoot : M
deriving DecidableEq, Repr

/-- `ImportedCommitmentsInfoData`: the best block number a commitment was
    imported for, and the head of the `ImportedBlockNumbers` ring. -/
structure ImportedCommitmentsInfoData where
  bestBlockNumber : ℕ
  nextBlockNumberIndex : ℕ
deriving DecidableEq, Repr

/-- `InitializationData` of the pallet. -/
structure InitializationData (M : Type) where
  operatingMode : Grandpa.BasicOperatingMode
  bestBlockNumber : ℕ
  authoritySet : BeefyAuthoritySetInfo M
deriving DecidableEq, Repr

/-- `Error` of the pallet; `halted` is `BridgeModule(Halted)`. -/
inductive BeefyError where
  | notInitialized
  | alreadyInitialized
  | invalidInitialAuthoritySet
  | tooManyRequests
  | oldCommitment
  | invalidCommitmentValidatorSetId
  | invalidValidatorSetId
  | invalidCommitmentSignaturesLen
  | invalidValidatorSetLen
  | notEnoughCorrectSignatures
  | mmrRootMissingFromCommitment
  | mmrProofVerificationFailed
  | invalidValidatorSetRoot
  | halted
deriving DecidableEq, Repr

/-- `MaxRequests` and `CommitmentsToKeep`. -/
structure BeefyConfig where
  maxRequests : ℕ
  commitmentsToKeep : ℕ

/-- The bridged chain's cryptography as the pallet uses it:
    `get_authorities_mmr_root`, `BeefyAuthorityId::verify` of a signature
    over the encoded commitment, `Payload::get_decoded(MMR_ROOT_PAYLOAD_ID)`,
    the MMR hashing of an encoded leaf, and `verify_mmr_leaves_proof`
    succeeding. -/
structure BeefyCrypto (Au Sig Pl H M X Pr : Type) where
  merkleRoot : List Au → M
  verify : Au → Sig → Commitment Pl → Bool
  extractMmrRoot : Pl → Option M
  hashLeaf : BeefyMmrLeaf H M X → M
  verifyMmrLeavesProof : M → List M → Pr → Bool

/-- The storage items of the pallet. -/
structure BeefyStorage (H M : Type) where
  requestCount : ℕ
  importedCommitmentsInfo : Option ImportedCommitmentsInfoData
  importedBlockNumbers : ℕ → Option ℕ
  importedCommitments : ℕ → Option (ImportedCommitment H M)
  currentAuthoritySetInfo : BeefyAuthoritySetInfo M
  palletOperatingMode : Grandpa.BasicOperatingMode

variable {Au Sig Pl H M X Pr : Type}

/-- Storage before `initialize`: every `ValueQuery` item at its default. -/
def BeefyStorage.empty [Inhabited M] : BeefyStorage H M :=
  ⟨0, none, fun _ => none, fun _ => none, ⟨0, 0, default⟩, .normal⟩

/-! ## `utils`: checking a commitment and a leaf -/

/-- `signatures_required`: `2/3 + 1` of the validators. -/
def signaturesRequired (validatorsLen : ℕ) : ℕ :=
  validatorsLen - (validatorsLen - 1) / 3

/-- `verify_authority_set`: the validator set given with the call is the
    current one, by id, length and merkle root. -/
def verifyAuthoritySet [DecidableEq M] (merkleRoot : List Au → M)
    (authoritySetInfo : BeefyAuthoritySetInfo M) (authoritySet : ValidatorSet Au) :
    Except BeefyError Unit :=
  if authoritySet.id ≠ authoritySetInfo.id then .error .invalidValidatorSetId
  else if authoritySet.validators.length ≠ authoritySetInfo.len then .error .invalidValidatorSetLen
  else if merkleRoot authoritySet.validators ≠ authoritySetInfo.root then
    .error .invalidValidatorSetRoot
  else .ok ()

/-- The loop of `verify_signatures` over the validators paired with their
    signatures: the signatures still missing, the loop breaking as soon as
    none is. -/
def missingSignaturesLoop (verify : Au → Sig → Bool) : ℕ → List (Au × Option Sig) → ℕ
  | missingSignatures, [] => missingSignatures
  | missingSignatures, (authority, maybeSig) :: rest =>
      match maybeSig with
      | some sig =>
          if verify authority sig then
            let missingSignatures := missingSignatures - 1
            if missingSignatures = 0 then missingSignatures
            else missingSignaturesLoop verify missingSignatures rest
          else missingSignaturesLoop verify missingSignatures rest
      | none => missingSignaturesLoop verify missingSignatures rest

/-- `verify_signatures`: one signature slot per validator, and enough of
    them verify over the commitment. -/
def verifySignatures (verify : Au → Sig → Commitment Pl → Bool)
    (commitment : SignedCommitment Pl Sig) (authoritySet : ValidatorSet Au) :
    Except BeefyError Unit :=
  if commitment.signatures.length ≠ authoritySet.validators.length then
    .error .invalidCommitmentSignaturesLen
  else
    let msg := commitment.commitment
    let missingSignatures :=
      missingSignaturesLoop (fun authority sig => verify authority sig msg)
        (signaturesRequired authoritySet.validators.length)
        (authoritySet.validators.zip commitment.signatures)
    if missingSignatures ≠ 0 then .error .notEnoughCorrectSignatures else .ok ()

/-- `extract_mmr_root`. -/
def extractMmrRoot (extract : Pl → Option M) (commitment : SignedCommitment Pl Sig) :
    Except BeefyError M :=
  match extract commitment.commitment.payload with
  | some mmrRoot => .ok mmrRoot
  | none => .error .mmrRootMissingFromCommitment

/-- `verify_commitment`: the commitment is signed by the current set, whose
    validators are given with the call; its MMR root. -/
def verifyCommitment [DecidableEq M] (crypto : BeefyCrypto Au Sig Pl H M X Pr)
    (commitment : SignedCommitment Pl Sig) (authoritySetInfo : BeefyAuthoritySetInfo M)
    (authoritySet : ValidatorSet Au) : Except BeefyError M :=
  if commitment.commitment.validatorSetId ≠ authoritySetInfo.id then
    .error .invalidCommitmentValidatorSetId
  else if commitment.signatures.length ≠ authoritySetInfo.len then
    .error .invalidCommitmentSignaturesLen
  else do
    verifyAuthoritySet crypto.merkleRoot authoritySetInfo authoritySet
    verifySignatures crypto.verify commitment authoritySet
    extractMmrRoot crypto.extractMmrRoot commitment

/-- `verify_beefy_mmr_leaf`: the proof shows the leaf's hash in the MMR of
    the given root. -/
def verifyBeefyMmrLeaf (crypto : BeefyCrypto Au Sig Pl H M X Pr) (mmrLeaf : BeefyMmrLeaf H M X)
    (mmrProof : Pr) (mmrRoot : M) : Except BeefyError Unit :=
  if crypto.verifyMmrLeavesProof mmrRoot [crypto.hashLeaf mmrLeaf] mmrProof then .ok ()
  else .error .mmrProofVerificationFailed

/-! ## The calls -/

section Calls

variable (cfg : BeefyConfig)

/-- The import at the end of `submit_commitment`: the commitment is stored
    under its block number, which takes the ring slot at
    `next_block_number_index`; the block number the slot held is pruned
    after the insertion. -/
def importCommitment (s : BeefyStorage H M) (commitmentsInfo : ImportedCommitmentsInfoData)
    (blockNumber : ℕ) (importedCommitment : ImportedCommitment H M) : BeefyStorage H M :=
  let blockNumberIndex := commitmentsInfo.nextBlockNumberIndex
  let toPrune := s.importedBlockNumbers blockNumberIndex
  let s := { s with
    importedCommitments := Function.update s.importedCommitments blockNumber (some importedCommitment) }
  let s := { s with
    importedBlockNumbers := Function.update s.importedBlockNumbers blockNumberIndex (some blockNumber) }
  let s := { s with
    importedCommitmentsInfo :=
      some ⟨blockNumber, (blockNumberIndex + 1) % cfg.commitmentsToKeep⟩ }
  match toPrune with
  | some oldBlockNumber =>
      { s with importedCommitments := Function.update s.importedCommitments oldBlockNumber none }
  | none => s

variable [DecidableEq M] (crypto : BeefyCrypto Au Sig Pl H M X Pr)

/-- `Pallet::submit_commitment`, for a signed origin. -/
def submitCommitment (s : BeefyStorage H M) (commitment : SignedCommitment Pl Sig)
    (validatorSet : ValidatorSet Au) (mmrLeaf : BeefyMmrLeaf H M X) (mmrProof : Pr) :
    Except BeefyError Unit × BeefyStorage H M :=
  if s.palletOperatingMode = .halted then (.error .halted, s)
  else if ¬ s.requestCount < cfg.maxRequests then (.error .tooManyRequests, s)
  else
    match s.importedCommitmentsInfo with
    | none => (.error .notInitialized, s)
    | some commitmentsInfo =>
        if ¬ commitment.commitment.blockNumber > commitmentsInfo.bestBlockNumber then
          (.error .oldCommitment, s)
        else
          let currentAuthoritySetInfo := s.currentAuthoritySetInfo
          match verifyCommitment crypto commitment currentAuthoritySetInfo validatorSet with
          | .error e => (.error e, s)
          | .ok mmrRoot =>
              match verifyBeefyMmrLeaf crypto mmrLeaf mmrProof mmrRoot with
              | .error e => (.error e, s)
              | .ok () =>
                  let s := { s with requestCount := s.requestCount + 1 }
                  -- the authority set moves on only to a set of a greater id
                  let s :=
                    if mmrLeaf.beefyNextAuthoritySet.id > currentAuthoritySetInfo.id then
                      { s with currentAuthoritySetInfo := mmrLeaf.beefyNextAuthoritySet }
                    else s
                  (.ok (), importCommitment cfg s commitmentsInfo commitment.commitment.blockNumber
                    ⟨mmrLeaf.parentNumberAndHash, mmrRoot⟩)

end Calls

/-- `initialize` (a Lean keyword, hence the name): the initial authority set
    must not be empty. -/
def initializePallet (s : BeefyStorage H M) (initData : InitializationData M) :
    Except BeefyError Unit × BeefyStorage H M :=
  if initData.authoritySet.len = 0 then (.error .invalidInitialAuthoritySet, s)
  else
    (.ok (), { s with
      currentAuthoritySetInfo := initData.authoritySet
      palletOperatingMode := initData.operatingMode
      importedCommitmentsInfo := some ⟨initData.bestBlockNumber, 0⟩ })

/-- `Pallet::initialize`, for an origin that passes the owner check. -/
def initializeCall (s : BeefyStorage H M) (initData : InitializationData M) :
    Except BeefyError Unit × BeefyStorage H M :=
  if s.importedCommitmentsInfo.isSome then (.error .alreadyInitialized, s)
  else initializePallet s initData

/-- The `on_initialize` hook: one request of budget comes back. -/
def onInitialize (s : BeefyStorage H M) : BeefyStorage H M :=
  { s with requestCount := s.requestCount - 1 }

/-- `Pallet::set_operating_mode`, for an origin that passes the owner check. -/
def setOperatingMode (s : BeefyStorage H M) (operatingMode : Grandpa.BasicOperatingMode) :
    BeefyStorage H M :=
  { s with palletOperatingMode := operatingMode }

/-- The calls and hooks of the pallet, with their arguments. -/
inductive Call (Au Sig Pl H M X Pr : Type) where
  | submitCommitment (commitment : SignedCommitment Pl Sig) (validatorSet : ValidatorSet Au)
      (mmrLeaf : BeefyMmrLeaf H M X) (mmrProof : Pr)
  | initializeCall (initData : InitializationData M)
  | setOperatingMode (operatingMode : Grandpa.BasicOperatingMode)
  | onInitialize

/-- The pallet's storage, and the commitments it has imported, oldest first:
    each block number with what was stored for it. -/
structure BeefyChain (H M : Type) where
  storage : BeefyStorage H M
  imported : List (ℕ × ImportedCommitment H M)

/-- What `submit_commitment` imports when it accepts: the committed block
    number, the leaf's parent and the payload's MMR root. -/
def importedEntry (crypto : BeefyCrypto Au Sig Pl H M X Pr) (commitment : SignedCommitment Pl Sig)
    (mmrLeaf : BeefyMmrLeaf H M X) : List (ℕ × ImportedCommitment H M) :=
  match crypto.extractMmrRoot commitment.commitment.payload with
  | some mmrRoot => [(commitment.commitment.blockNumber, ⟨mmrLeaf.parentNumberAndHash, mmrRoot⟩)]
  | none => []

namespace BeefyChain

variable (cfg : BeefyConfig) [DecidableEq M] (crypto : BeefyCrypto Au Sig Pl H M X Pr)

/-- The chain right after `initialize(init_data)` on empty storage. -/
def initialized [Inhabited M] (initData : InitializationData M) : BeefyChain H M :=
  ⟨(initializeCall .empty initData).2, []⟩

/-- One call: the storage the call leaves, and the commitment it imported. -/
def step (c : BeefyChain H M) : Call Au Sig Pl H M X Pr → BeefyChain H M
  | .submitCommitment commitment validatorSet mmrLeaf mmrProof =>
      let out := submitCommitment cfg crypto c.storage commitment validatorSet mmrLeaf mmrProof
      ⟨out.2, if out.1.isOk then c.imported ++ importedEntry crypto commitment mmrLeaf
        else c.imported⟩
  | .initializeCall initData => ⟨(initializeCall c.storage initData).2, c.imported⟩
  | .setOperatingMode operatingMode => ⟨setOperatingMode c.storage operatingMode, c.imported⟩
  | .onInitialize => ⟨onInitialize c.storage, c.imported⟩

end BeefyChain

end Beefy

end ParityBridge
