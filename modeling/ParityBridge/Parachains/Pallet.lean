import Mathlib.Data.Nat.Log
import ParityBridge.Grandpa.Pallet

/-! # The parachains pallet — `submit_parachain_heads` and `update_parachain_head`

    For each tracked parachain the pallet keeps its best head (`ParasInfo`:
    the relay block it was read at and its hash, and the ring position) and
    a ring of the last `HeadsToKeep` imported heads (`ImportedParaHashes` by
    position, `ImportedParaHeads` by hash).  `submit_parachain_heads` reads
    heads from a storage proof taken at a relay block the GRANDPA pallet has
    imported, and hands every head it can read, whose hash is the declared
    one and which the pallet tracks, to `update_parachain_head`.

    The calls are modelled as the code runs them on storage, returning the
    storage as they leave it; the call is transactional, so its errors
    revert its writes.  The storage-proof trie is abstract: opening a proof
    at a state root (`StorageProofChecker::new`) is the parameter
    `newChecker`, and an opened proof answers the reads of heads and the
    final unused-nodes check.  Head hashing and `try_build` are parameters
    of the configuration.  The weights are not modelled: where the code
    folds each entry's `update_result` into the refunded weight, the model
    returns the list of heads the call updated.  Events, `PalletOwner` and
    the origin checks are left out. -/

namespace ParityBridge

namespace Parachains

open Grandpa

/-- `ParaHead`: the encoded head of a parachain. -/
abbrev ParaHead := List UInt8

/-- `ParaStoredHeaderData`: what the pallet keeps of a head. -/
structure ParaStoredHeaderData where
  data : List UInt8
deriving DecidableEq, Repr

/-- The length of the SCALE compact encoding of `n`. -/
def compactLen (n : ℕ) : ℕ :=
  if n < 2 ^ 6 then 1
  else if n < 2 ^ 14 then 2
  else if n < 2 ^ 30 then 4
  else 1 + (Nat.log 256 n + 1)

/-- `encoded_size` of the stored data: the compact length, then the bytes. -/
def ParaStoredHeaderData.encodedSize (d : ParaStoredHeaderData) : ℕ :=
  compactLen d.data.length + d.data.length

/-- `BestParaHeadHash`. -/
structure BestParaHeadHash (PH : Type) where
  atRelayBlockNumber : ℕ
  headHash : PH
deriving DecidableEq, Repr

/-- `ParaInfo`. -/
structure ParaInfo (PH : Type) where
  bestHeadHash : BestParaHeadHash PH
  nextImportedHashPosition : ℕ
deriving DecidableEq, Repr

/-- `UpdateParachainHeadArtifacts`. -/
structure UpdateParachainHeadArtifacts (PH : Type) where
  bestHead : ParaInfo PH
  pruneHappened : Bool

/-- `HeadsToKeep`, `MaxParaHeadDataSize`, `ParaStoredHeaderDataBuilder::try_build`
    and the hashing of heads. -/
structure ParachainsConfig (P PH : Type) where
  headsToKeep : ℕ
  maxParaHeadDataSize : ℕ
  tryBuild : P → ParaHead → Option ParaStoredHeaderData
  hash : ParaHead → PH

/-- `Error` of the pallet; `halted` is `BridgeModule(Halted)`. -/
inductive ParachainsError where
  | unknownRelayChainBlock
  | invalidRelayChainBlockNumber
  | invalidStorageProof
  | unknownParaHead
  | storageRootMismatch
  | failedToExtractStateRoot
  | halted
deriving DecidableEq, Repr

/-- `bp_runtime::StorageProofError`. -/
inductive StorageProofError where
  | duplicateNodesInProof
  | unusedNodesInTheProof
  | storageRootMismatch
  | storageValueUnavailable
  | storageValueDecodeFailed
deriving DecidableEq, Repr

/-- An opened storage proof: the head of a parachain it holds
    (`read_parachain_head`), and `ensure_no_unused_nodes` once the heads of
    the given parachains have been read. -/
structure StorageProofChecker (P : Type) where
  readParachainHead : P → Except StorageProofError (Option ParaHead)
  ensureNoUnusedNodes : List P → Except StorageProofError Unit

/-- The storage items of the pallet. -/
structure ParachainsStorage (P PH : Type) where
  palletOperatingMode : BasicOperatingMode
  parasInfo : P → Option (ParaInfo PH)
  importedParaHashes : P → ℕ → Option PH
  importedParaHeads : P → PH → Option ParaStoredHeaderData

variable {P PH RH Pf : Type}

/-- Storage at genesis, in the given operating mode. -/
def ParachainsStorage.empty (operatingMode : BasicOperatingMode) : ParachainsStorage P PH :=
  ⟨operatingMode, fun _ => none, fun _ _ => none, fun _ _ => none⟩

/-- `SubmitParachainHeadsInfo`: one parachain head of a call. -/
structure SubmitParachainHeadsInfo (P PH : Type) where
  atRelayBlockNumber : ℕ
  paraId : P
  paraHeadHash : PH

section Calls

variable [DecidableEq P] [DecidableEq PH] (cfg : ParachainsConfig P PH)

/-- `Pallet::best_parachain_head`. -/
def bestParachainHead (s : ParachainsStorage P PH) (parachain : P) :
    Option ParaStoredHeaderData :=
  (s.parasInfo parachain).bind fun info => s.importedParaHeads parachain info.bestHeadHash.headHash

/-- `Pallet::best_parachain_head_id`: the `HeaderId` of the best head, its
    number read from the stored data by `decode_parachain_head_data`;
    nothing when the parachain has no best head or its data is not stored. -/
def bestParachainHeadId (decodeParachainHeadData : ParaStoredHeaderData → Option ℕ)
    (s : ParachainsStorage P PH) (parachain : P) : Except Unit (Option (ℕ × PH)) :=
  match s.parasInfo parachain with
  | none => .ok none
  | some info =>
      match s.importedParaHeads parachain info.bestHeadHash.headHash with
      | none => .ok none
      | some encodedHead =>
          match decodeParachainHeadData encodedHead with
          | some number => .ok (some (number, info.bestHeadHash.headHash))
          | none => .error ()

/-- `SubmitParachainHeadsHelper::is_obsolete`: the stored head was read at
    a relay block at least as new, or has the same hash. -/
def isObsolete (s : ParachainsStorage P PH) (update : SubmitParachainHeadsInfo P PH) : Bool :=
  match s.parasInfo update.paraId with
  | none => false
  | some storedBestHead =>
      if storedBestHead.bestHeadHash.atRelayBlockNumber ≥ update.atRelayBlockNumber then true
      else if storedBestHead.bestHeadHash.headHash = update.paraHeadHash then true
      else false

/-- `SubmitParachainHeadsHelper::was_successful`. -/
def wasSuccessful (s : ParachainsStorage P PH) (update : SubmitParachainHeadsInfo P PH) : Bool :=
  match s.parasInfo update.paraId with
  | some storedBestHead =>
      storedBestHead.bestHeadHash = ⟨update.atRelayBlockNumber, update.paraHeadHash⟩
  | none => false

/-- `Pallet::update_parachain_head`: the new head is inserted into the ring
    before the head at the reused position is pruned. -/
def updateParachainHead (s : ParachainsStorage P PH) (parachain : P)
    (storedBestHead : Option (ParaInfo PH)) (newAtRelayBlockNumber : ℕ)
    (newHeadData : ParaStoredHeaderData) (newHeadHash : PH) :
    Except Unit (UpdateParachainHeadArtifacts PH) × ParachainsStorage P PH :=
  if isObsolete s ⟨newAtRelayBlockNumber, parachain, newHeadHash⟩ then (.error (), s)
  -- `StoredParaHeadDataOf::try_from_inner`
  else if newHeadData.encodedSize > cfg.maxParaHeadDataSize then (.error (), s)
  else
    let nextImportedHashPosition := (storedBestHead.map (·.nextImportedHashPosition)).getD 0
    let headHashToPrune := s.importedParaHashes parachain nextImportedHashPosition
    let updatedBestParaHead : ParaInfo PH :=
      ⟨⟨newAtRelayBlockNumber, newHeadHash⟩, (nextImportedHashPosition + 1) % cfg.headsToKeep⟩
    -- `ImportedParaHashes::insert`, then `ImportedParaHeads::insert`
    let hashes := Function.update (s.importedParaHashes parachain) nextImportedHashPosition
      (some newHeadHash)
    let s := { s with importedParaHashes := Function.update s.importedParaHashes parachain hashes }
    let heads := Function.update (s.importedParaHeads parachain) newHeadHash (some newHeadData)
    let s := { s with importedParaHeads := Function.update s.importedParaHeads parachain heads }
    match headHashToPrune with
    | some pruned =>
        let heads := Function.update (s.importedParaHeads parachain) pruned none
        (.ok ⟨updatedBestParaHead, true⟩,
          { s with importedParaHeads := Function.update s.importedParaHeads parachain heads })
    | none => (.ok ⟨updatedBestParaHead, false⟩, s)

/-- One entry `(parachain, parachain_head_hash)` of the loop of
    `submit_parachain_heads`: a head missing from the proof, with another
    hash, or of an untracked parachain is skipped; otherwise
    `ParasInfo::try_mutate` runs `update_parachain_head` and stores the new
    best head when it succeeds.  Returns the updated head, if any. -/
def updateEntry (storage : StorageProofChecker P) (relayBlockNumber : ℕ)
    (s : ParachainsStorage P PH) (entry : P × PH) :
    Option (P × PH × ParaStoredHeaderData) × ParachainsStorage P PH :=
  let (parachain, parachainHeadHash) := entry
  match storage.readParachainHead parachain with
  | .ok (some parachainHead) =>
      if parachainHeadHash ≠ cfg.hash parachainHead then (none, s)
      else
        match cfg.tryBuild parachain parachainHead with
        | none => (none, s)
        | some parachainHeadData =>
            match updateParachainHead cfg s parachain (s.parasInfo parachain) relayBlockNumber
                parachainHeadData parachainHeadHash with
            | (.error (), s) => (none, s)
            | (.ok artifacts, s) =>
                (some (parachain, parachainHeadHash, parachainHeadData),
                  { s with parasInfo := Function.update s.parasInfo parachain (some artifacts.bestHead) })
  | _ => (none, s)

/-- The loop of `submit_parachain_heads` over its entries, in order. -/
def headsLoop (storage : StorageProofChecker P) (relayBlockNumber : ℕ) :
    List (P × PH) → ParachainsStorage P PH →
      List (P × PH × ParaStoredHeaderData) × ParachainsStorage P PH
  | [], s => ([], s)
  | entry :: rest, s =>
      let out := updateEntry cfg storage relayBlockNumber s entry
      let outRest := headsLoop storage relayBlockNumber rest out.2
      (out.1.toList ++ outRest.1, outRest.2)

/-- `Pallet::submit_parachain_heads`: the heads it updated. -/
def submitParachainHeads (relayHeaders : RH → Option (StoredHeaderData RH))
    (newChecker : RH → Pf → Except StorageProofError (StorageProofChecker P))
    (s : ParachainsStorage P PH) (atRelayBlock : ℕ × RH) (parachains : List (P × PH))
    (parachainHeadsProof : Pf) :
    Except ParachainsError (List (P × PH × ParaStoredHeaderData)) × ParachainsStorage P PH :=
  if s.palletOperatingMode = .halted then (.error .halted, s)
  else
    let relayBlockNumber := atRelayBlock.1
    -- `pallet_bridge_grandpa::ImportedHeaders`
    match relayHeaders atRelayBlock.2 with
    | none => (.error .unknownRelayChainBlock, s)
    | some relayBlock =>
        if relayBlock.number ≠ relayBlockNumber then (.error .invalidRelayChainBlockNumber, s)
        else
          -- `parse_finalized_storage_proof`
          match newChecker relayBlock.stateRoot parachainHeadsProof with
          | .error _ => (.error .invalidStorageProof, s)
          | .ok storage =>
              let out := headsLoop cfg storage relayBlockNumber parachains s
              match storage.ensureNoUnusedNodes (parachains.map Prod.fst) with
              | .error _ => (.error .invalidStorageProof, s)
              | .ok () => (.ok out.1, out.2)

end Calls

/-- `Pallet::set_operating_mode`, for an origin that passes the owner check. -/
def setOperatingMode (s : ParachainsStorage P PH) (operatingMode : BasicOperatingMode) :
    ParachainsStorage P PH :=
  { s with palletOperatingMode := operatingMode }

/-- The calls of the pallet, with their arguments. -/
inductive Call (P PH RH Pf : Type) where
  | submitParachainHeads (atRelayBlock : ℕ × RH) (parachains : List (P × PH))
      (parachainHeadsProof : Pf)
  | setOperatingMode (operatingMode : BasicOperatingMode)

/-- The pallet's storage, and for each parachain the heads it has
    imported, oldest first. -/
structure ParachainsChain (P PH : Type) where
  storage : ParachainsStorage P PH
  imported : P → List (PH × ParaStoredHeaderData)

namespace ParachainsChain

variable [DecidableEq P] [DecidableEq PH] (cfg : ParachainsConfig P PH)
  (newChecker : RH → Pf → Except StorageProofError (StorageProofChecker P))

/-- The chain at genesis, in the given operating mode: nothing imported. -/
def genesis (operatingMode : BasicOperatingMode) : ParachainsChain P PH :=
  ⟨.empty operatingMode, fun _ => []⟩

/-- The imported heads, with a call's updates appended to their parachains. -/
def record (imported : P → List (PH × ParaStoredHeaderData))
    (updated : List (P × PH × ParaStoredHeaderData)) : P → List (PH × ParaStoredHeaderData) :=
  fun p => imported p ++ ((updated.filter fun u => u.1 = p).map Prod.snd)

/-- One call, against the relay headers the GRANDPA pallet holds at that
    time. -/
def step (c : ParachainsChain P PH) :
    (RH → Option (StoredHeaderData RH)) × Call P PH RH Pf → ParachainsChain P PH
  | (relayHeaders, .submitParachainHeads atRelayBlock parachains parachainHeadsProof) =>
      let out := submitParachainHeads cfg relayHeaders newChecker c.storage atRelayBlock
        parachains parachainHeadsProof
      ⟨out.2, match out.1 with
        | .ok updated => record c.imported updated
        | .error _ => c.imported⟩
  | (_, .setOperatingMode operatingMode) => ⟨setOperatingMode c.storage operatingMode, c.imported⟩

end ParachainsChain

end Parachains

end ParityBridge
