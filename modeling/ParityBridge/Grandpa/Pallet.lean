import ParityBridge.Lib.Reach
import ParityBridge.Lib.RingBuffer
import ParityBridge.Grandpa.Digest

/-! # The GRANDPA light client pallet — `submit_finality_proof`, `initialize`, `on_initialize`

    The pallet keeps the best finalized header, the current authority set
    and a ring of the last `HeadersToKeep` imported headers
    (`ImportedHashes` at `ImportedHashesPointer`, `ImportedHeaders` by hash).
    `submit_finality_proof` checks the operating mode, the request budget,
    that the header is newer than the best one and that the justification
    verifies against the current set, enacts a scheduled change of the
    header, and inserts it.

    Each call is modelled as the code runs it on storage: it returns its
    result together with the storage as the code leaves it, errors
    included.  The justification check (`VoterSet::new` and
    `bp_header_chain::justification::verify_justification`) is the
    parameter `verifyJustification`, the header hasher the parameter
    `hasher`, the log decoder the parameter `decode` of `Grandpa.Digest`.
    The origin checks of `initialize` and `set_operating_mode` fail before
    any write and are left out; `PalletOwner` and the weights are not
    modelled.  `(index + 1) % HeadersToKeep` panics for a zero
    `HeadersToKeep`, which every result here excludes. -/

namespace ParityBridge

namespace Grandpa

variable {H A J : Type}

/-- `StoredHeaderData`: what the pallet keeps of an imported header. -/
structure StoredHeaderData (H : Type) where
  number : ℕ
  stateRoot : H
deriving DecidableEq, Repr

/-- `StoredHeaderDataBuilder::build`. -/
def Header.build (header : Header H) : StoredHeaderData H :=
  ⟨header.number, header.stateRoot⟩

/-- `StoredAuthoritySet`: the authorities with their weights, and the set id. -/
structure StoredAuthoritySet (A : Type) where
  authorities : List (A × ℕ)
  setId : ℕ
deriving DecidableEq, Repr

/-- `Error` of the pallet; `halted` is `BridgeModule(Halted)`. -/
inductive GrandpaError where
  | invalidJustification
  | invalidAuthoritySet
  | tooManyRequests
  | oldHeader
  | unsupportedScheduledChange
  | notInitialized
  | alreadyInitialized
  | tooManyAuthoritiesInSet
  | halted
deriving DecidableEq, Repr

/-- `MaxRequests`, `HeadersToKeep` and `BridgedChain::MAX_AUTHORITIES_COUNT`. -/
structure GrandpaConfig where
  maxRequests : ℕ
  headersToKeep : ℕ
  maxAuthoritiesCount : ℕ

/-- The storage items of the pallet. -/
structure GrandpaStorage (H A : Type) where
  requestCount : ℕ
  initialHash : Option H
  bestFinalized : Option (ℕ × H)
  importedHashes : ℕ → Option H
  importedHashesPointer : ℕ
  importedHeaders : H → Option (StoredHeaderData H)
  currentAuthoritySet : StoredAuthoritySet A
  palletOperatingMode : BasicOperatingMode

/-- Storage before `initialize`: every `ValueQuery` item at its default. -/
def GrandpaStorage.empty : GrandpaStorage H A :=
  ⟨0, none, none, fun _ => none, 0, fun _ => none, ⟨[], 0⟩, .normal⟩

section Calls

variable (cfg : GrandpaConfig) [DecidableEq H]

/-- `insert_header`: the header becomes the best finalized one and enters
    the ring, whose oldest header is pruned once the ring is full. -/
def insertHeader (s : GrandpaStorage H A) (header : Header H) (hash : H) : GrandpaStorage H A :=
  let index := s.importedHashesPointer
  let pruning := s.importedHashes index
  let s := { s with bestFinalized := some (header.number, hash) }
  let s := { s with importedHeaders := Function.update s.importedHeaders hash (some header.build) }
  let s := { s with importedHashes := Function.update s.importedHashes index (some hash) }
  let s := { s with importedHashesPointer := (index + 1) % cfg.headersToKeep }
  match pruning with
  | some pruned => { s with importedHeaders := Function.update s.importedHeaders pruned none }
  | none => s

/-- `initialize_bridge`. -/
def initializeBridge (hasher : Header H → H) (s : GrandpaStorage H A)
    (initParams : InitializationData H A) : Except GrandpaError Unit × GrandpaStorage H A :=
  if initParams.authorityList.length > cfg.maxAuthoritiesCount then
    (.error .tooManyAuthoritiesInSet, s)
  else
    let authoritySet : StoredAuthoritySet A := ⟨initParams.authorityList, initParams.setId⟩
    let initialHash := hasher initParams.header
    let s := { s with initialHash := some initialHash, importedHashesPointer := 0 }
    let s := insertHeader cfg s initParams.header initialHash
    (.ok (), { s with
      currentAuthoritySet := authoritySet
      palletOperatingMode := initParams.operatingMode })

/-- `Pallet::initialize`, for an origin that passes the owner check. -/
def initializeCall (hasher : Header H → H) (s : GrandpaStorage H A)
    (initData : InitializationData H A) : Except GrandpaError Unit × GrandpaStorage H A :=
  if s.bestFinalized.isSome then (.error .alreadyInitialized, s)
  else initializeBridge cfg hasher s initData

/-- `SubmitFinalityProofHelper::check_obsolete`. -/
def checkObsolete (s : GrandpaStorage H A) (finalityTarget : ℕ) : Except GrandpaError Unit :=
  match s.bestFinalized with
  | none => .error .notInitialized
  | some (bestNumber, _) => if bestNumber ≥ finalityTarget then .error .oldHeader else .ok ()

/-- `SubmitFinalityProofHelper::was_successful`: the best finalized header
    is the finality target. -/
def wasSuccessful (s : GrandpaStorage H A) (finalityTarget : ℕ) : Bool :=
  match s.bestFinalized with
  | some (bestNumber, _) => bestNumber == finalityTarget
  | none => false

/-- `try_enact_authority_change`: whether a change was enacted. -/
def tryEnactAuthorityChange (decode : List UInt8 → Option (ConsensusLog A))
    (s : GrandpaStorage H A) (header : Header H) (currentSetId : ℕ) :
    Except GrandpaError Bool × GrandpaStorage H A :=
  -- forced changes need governance
  if (findForcedChange decode header).isSome then (.error .unsupportedScheduledChange, s)
  else
    match findScheduledChange decode header with
    | some change =>
        if change.delay ≠ 0 then (.error .unsupportedScheduledChange, s)
        else if change.nextAuthorities.length > cfg.maxAuthoritiesCount then
          (.error .tooManyAuthoritiesInSet, s)
        else (.ok true, { s with currentAuthoritySet := ⟨change.nextAuthorities, currentSetId + 1⟩ })
    | none => (.ok false, s)

/-- `Pallet::submit_finality_proof`: whether an authority set change was
    enacted, which the call's fee refund is computed from. -/
def submitFinalityProof (hasher : Header H → H) (decode : List UInt8 → Option (ConsensusLog A))
    (verifyJustification : J → H → ℕ → StoredAuthoritySet A → Except GrandpaError Unit)
    (s : GrandpaStorage H A) (finalityTarget : Header H) (justification : J) :
    Except GrandpaError Bool × GrandpaStorage H A :=
  if s.palletOperatingMode = .halted then (.error .halted, s)
  else if ¬ s.requestCount < cfg.maxRequests then (.error .tooManyRequests, s)
  else
    let hash := hasher finalityTarget
    let number := finalityTarget.number
    match checkObsolete s number with
    | .error e => (.error e, s)
    | .ok () =>
        let authoritySet := s.currentAuthoritySet
        let setId := authoritySet.setId
        match verifyJustification justification hash number authoritySet with
        | .error e => (.error e, s)
        | .ok () =>
            match tryEnactAuthorityChange cfg decode s finalityTarget setId with
            | (.error e, s) => (.error e, s)
            | (.ok isAuthoritiesChangeEnacted, s) =>
                let s := { s with requestCount := s.requestCount + 1 }
                (.ok isAuthoritiesChangeEnacted, insertHeader cfg s finalityTarget hash)

end Calls

/-- The `on_initialize` hook: one request of budget comes back. -/
def onInitialize (s : GrandpaStorage H A) : GrandpaStorage H A :=
  { s with requestCount := s.requestCount - 1 }

/-- `Pallet::set_operating_mode`, for an origin that passes the owner check. -/
def setOperatingMode (s : GrandpaStorage H A) (operatingMode : BasicOperatingMode) :
    GrandpaStorage H A :=
  { s with palletOperatingMode := operatingMode }

/-- The calls and hooks of the pallet, with their arguments. -/
inductive Call (H A J : Type) where
  | submitFinalityProof (finalityTarget : Header H) (justification : J)
  | initializeCall (initData : InitializationData H A)
  | setOperatingMode (operatingMode : BasicOperatingMode)
  | onInitialize

/-- The pallet's storage, and the headers it has inserted, oldest first. -/
structure GrandpaChain (H A : Type) where
  storage : GrandpaStorage H A
  imported : List (Header H)

namespace GrandpaChain

variable (cfg : GrandpaConfig) [DecidableEq H] (hasher : Header H → H)
  (decode : List UInt8 → Option (ConsensusLog A))
  (verifyJustification : J → H → ℕ → StoredAuthoritySet A → Except GrandpaError Unit)

/-- The chain right after `initialize(init_data)` on empty storage. -/
def initialized (initData : InitializationData H A) : GrandpaChain H A :=
  ⟨(initializeCall cfg hasher .empty initData).2, [initData.header]⟩

/-- One call: the storage the call leaves, and the header it inserted. -/
def step (c : GrandpaChain H A) : Call H A J → GrandpaChain H A
  | .submitFinalityProof header justification =>
      let out := submitFinalityProof cfg hasher decode verifyJustification c.storage header
        justification
      ⟨out.2, if out.1.isOk then c.imported ++ [header] else c.imported⟩
  | .initializeCall initData =>
      let out := initializeCall cfg hasher c.storage initData
      ⟨out.2, if out.1.isOk then c.imported ++ [initData.header] else c.imported⟩
  | .setOperatingMode operatingMode => ⟨setOperatingMode c.storage operatingMode, c.imported⟩
  | .onInitialize => ⟨onInitialize c.storage, c.imported⟩

end GrandpaChain

end Grandpa

end ParityBridge
