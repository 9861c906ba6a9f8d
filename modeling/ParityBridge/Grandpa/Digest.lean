import Mathlib.Data.Vector.Basic

/-! # Headers and their GRANDPA digests — what the pallet and the relay read

    A bridged header carries a digest: a list of items, of which the
    consensus items of the GRANDPA engine (`*b"FRNK"`) hold SCALE-encoded
    `ConsensusLog`s.  Two readers of these logs are modelled here.

    The pallet (`find_scheduled_change`, `find_forced_change`) asks
    `Digest::convert_first` for the first item that decodes as a GRANDPA log
    *of the kind it wants*.  The relay (`GrandpaConsensusLogReader`, and
    through it `SyncHeader::is_mandatory` and
    `prepare_initialization_data`) asks for the first item that decodes as
    a GRANDPA log *of any kind*, and only then looks at its kind.

    Decoding a payload (`Decode::decode`) is the parameter `decode`: both
    `DigestItem::try_to` and `DigestItem::consensus_try_to` apply it to the
    payload of a consensus item of the asked engine (`tryTo_consensus`).
    Block numbers and weights are natural numbers; authority ids are the
    type `A`. -/

namespace ParityBridge

namespace Grandpa

/-- `ConsensusEngineId`. -/
abbrev ConsensusEngineId := Vector UInt8 4

/-- `GRANDPA_ENGINE_ID`, the bytes of `"FRNK"`. -/
def grandpaEngineId : ConsensusEngineId := #v[70, 82, 78, 75]

/-- `DigestItem`, with the payloads as bytes. -/
inductive DigestItem where
  | preRuntime (engine : ConsensusEngineId) (data : List UInt8)
  | consensus (engine : ConsensusEngineId) (data : List UInt8)
  | seal (engine : ConsensusEngineId) (data : List UInt8)
  | other (data : List UInt8)
  | runtimeEnvironmentUpdated
deriving DecidableEq, Repr

/-- `OpaqueDigestItemId`: which items `try_to` looks at. -/
inductive OpaqueDigestItemId where
  | preRuntime (engine : ConsensusEngineId)
  | consensus (engine : ConsensusEngineId)
  | seal (engine : ConsensusEngineId)
  | other
deriving DecidableEq, Repr

/-- `ScheduledChange`: the next authorities with their weights, and the
    delay in blocks. -/
structure ScheduledChange (A : Type) where
  nextAuthorities : List (A × ℕ)
  delay : ℕ
deriving DecidableEq, Repr

/-- `ConsensusLog` of GRANDPA. -/
inductive ConsensusLog (A : Type) where
  | scheduledChange (change : ScheduledChange A)
  | forcedChange (delay : ℕ) (change : ScheduledChange A)
  | onDisabled (authorityIndex : ℕ)
  | pause (delay : ℕ)
  | resume (delay : ℕ)
deriving DecidableEq, Repr

/-- The fields of a header that the bridge reads; its hash is computed by
    the chain's hasher, a parameter of every function that needs it. -/
structure Header (H : Type) where
  parentHash : H
  number : ℕ
  stateRoot : H
  digest : List DigestItem
deriving DecidableEq, Repr

variable {A H α : Type}

/-- `Digest::convert_first`: `f` of the first item it maps to something. -/
def convertFirst (digest : List DigestItem) (f : DigestItem → Option α) : Option α :=
  digest.findSome? f

namespace DigestItem

/-- `DigestItem::try_as_raw`. -/
def tryAsRaw : DigestItem → OpaqueDigestItemId → Option (List UInt8)
  | .preRuntime engine data, .preRuntime id => if engine = id then some data else none
  | .consensus engine data, .consensus id => if engine = id then some data else none
  | .seal engine data, .seal id => if engine = id then some data else none
  | .other data, .other => some data
  | _, _ => none

/-- `DigestItem::try_to`. -/
def tryTo (decode : List UInt8 → Option (ConsensusLog A)) (item : DigestItem)
    (id : OpaqueDigestItemId) : Option (ConsensusLog A) :=
  (item.tryAsRaw id).bind decode

/-- `DigestItem::consensus_try_to`. -/
def consensusTryTo (decode : List UInt8 → Option (ConsensusLog A)) (item : DigestItem)
    (id : ConsensusEngineId) : Option (ConsensusLog A) :=
  match item with
  | .consensus engine data => if engine = id then decode data else none
  | _ => none

/-- For a consensus engine the two decoders of an item agree. -/
theorem tryTo_consensus (decode : List UInt8 → Option (ConsensusLog A)) (item : DigestItem)
    (id : ConsensusEngineId) : item.tryTo decode (.consensus id) = item.consensusTryTo decode id := by
  cases item with
  | consensus engine data =>
      show (if engine = id then some data else none).bind decode =
        if engine = id then decode data else none
      split <;> rfl
  | _ => rfl

end DigestItem

section Pallet

variable (decode : List UInt8 → Option (ConsensusLog A))

/-- `find_scheduled_change` of the pallet: the first GRANDPA scheduled
    change of the digest. -/
def findScheduledChange (header : Header H) : Option (ScheduledChange A) :=
  let id := OpaqueDigestItemId.consensus grandpaEngineId
  let filterLog : ConsensusLog A → Option (ScheduledChange A) := fun log =>
    match log with
    | .scheduledChange change => some change
    | _ => none
  convertFirst header.digest fun l => (l.tryTo decode id).bind filterLog

/-- `find_forced_change` of the pallet: the first GRANDPA forced change of
    the digest. -/
def findForcedChange (header : Header H) : Option (ℕ × ScheduledChange A) :=
  let id := OpaqueDigestItemId.consensus grandpaEngineId
  let filterLog : ConsensusLog A → Option (ℕ × ScheduledChange A) := fun log =>
    match log with
    | .forcedChange delay change => some (delay, change)
    | _ => none
  convertFirst header.digest fun l => (l.tryTo decode id).bind filterLog

end Pallet

section Relay

variable (decode : List UInt8 → Option (ConsensusLog A))

/-- `GrandpaConsensusLogReader::find_authorities_change`: the first GRANDPA
    log of the digest, if it is a scheduled change. -/
def findAuthoritiesChange (digest : List DigestItem) : Option (ScheduledChange A) :=
  (convertFirst digest fun log => log.consensusTryTo decode grandpaEngineId).bind fun log =>
    match log with
    | .scheduledChange change => some change
    | _ => none

/-- `ConsensusLogReader::schedules_authorities_change` of the GRANDPA reader. -/
def schedulesAuthoritiesChange (digest : List DigestItem) : Bool :=
  (findAuthoritiesChange decode digest).isSome

/-- `SyncHeader::is_mandatory`: the relay must submit every header that
    schedules an authority set change. -/
def isMandatory (header : Header H) : Bool :=
  schedulesAuthoritiesChange decode header.digest

/-- `BasicOperatingMode`. -/
inductive BasicOperatingMode where
  | normal
  | halted
deriving DecidableEq, Repr

/-- `InitializationData` of the pallet. -/
structure InitializationData (H A : Type) where
  header : Header H
  authorityList : List (A × ℕ)
  setId : ℕ
  operatingMode : BasicOperatingMode
deriving DecidableEq, Repr

/-- What `Grandpa::prepare_initialization_data` builds from the initial
    header: `initialAuthoritiesSet` is the set the source chain reports at
    that header, `initialAuthoritiesSetId` the set id under which the
    relay's loop found the justification valid.  A scheduled change with a
    non-zero delay trips the `assert!`, which is `none` here. -/
def prepareInitializationData (initialHeader : Header H) (initialAuthoritiesSet : List (A × ℕ))
    (initialAuthoritiesSetId : ℕ) : Option (InitializationData H A) :=
  let scheduledChange := findAuthoritiesChange decode initialHeader.digest
  if !(scheduledChange.map fun c => c.delay == 0).getD true then none
  else
    let schedulesChange := scheduledChange.isSome
    some ⟨initialHeader, initialAuthoritiesSet,
      if schedulesChange then initialAuthoritiesSetId + 1 else initialAuthoritiesSetId, .normal⟩

end Relay

end Grandpa

end ParityBridge
