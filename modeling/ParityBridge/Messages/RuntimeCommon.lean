import ParityBridge.Messages.Types
import ParityBridge.Runtime.StorageProof

/-! # Runtime-common message verifiers — `bin/runtime-common/src/messages.rs`

    The verifiers a runtime plugs into the messages pallet for a bridge to a
    chain it follows with GRANDPA.  On the source side, `verify_chain_message`
    (the `TargetHeaderChainAdapter`) checks a payload against the bridged
    chain's dispatch weight rule and extrinsic size, and
    `FromThisChainMessageVerifier::verify_message` checks the lane: the
    origin may send over it and not too many messages are pending there.  On
    the target side, `verify_messages_proof` reads the claimed nonces'
    messages and the optional outbound lane state out of a storage proof of
    a finalized bridged header, and `verify_messages_delivery_proof` reads
    the inbound lane data.

    The header chain opens the storage proof
    (`parse_finalized_storage_proof`): what an opened proof gives is a
    `MessagesStorageProof`, the decoded value under each key it covers and
    whether every node of it was read by the verifier.  `Target` reads the
    same proof as the code does, through a `StorageProofChecker` that
    records its reads, with the storage keys and the SCALE decoders as
    parameters. -/

namespace ParityBridge

namespace RuntimeCommon

/-- `MessagePayload`: the encoded message. -/
abbrev MessagePayload := List UInt8

/-- `bp_messages::Message`: a message as the source chain stores it. -/
structure Message where
  key : MessageKey
  payload : MessagePayload
deriving DecidableEq, Repr

/-- `ProvedLaneMessages`: the outbound lane state and messages a proof
    holds for one lane. -/
structure ProvedLaneMessages (M : Type) where
  laneState : Option OutboundLaneData
  messages : List M
deriving DecidableEq, Repr

/-! ## Source side -/

/-- `source::verify_chain_message`; `maximalMessageSize` is
    `maximal_message_size`, two thirds of the bridged chain's extrinsic
    size. -/
def verifyChainMessage (verifyDispatchWeight : MessagePayload → Bool) (maximalMessageSize : ℕ)
    (payload : MessagePayload) : Except String Unit :=
  if !verifyDispatchWeight payload then .error "Incorrect message weight declared"
  else if payload.length > maximalMessageSize then
    .error "The message is too large to be sent over the lane"
  else .ok ()

/-- `FromThisChainMessageVerifier::verify_message`: the lane must accept the
    origin, and the messages already pending on it must not be more than
    `maximal_pending_messages_at_outbound_lane`. -/
def FromThisChainMessageVerifier.verifyMessage {O : Type} (isMessageAccepted : O → LaneId → Bool)
    (maximalPendingMessagesAtOutboundLane : ℕ) (submitter : O) (lane : LaneId)
    (laneOutboundData : OutboundLaneData) (_payload : MessagePayload) : Except String Unit :=
  if !isMessageAccepted submitter lane then
    .error "The outbound message lane has rejected the message."
  else
    let pendingMessages :=
      laneOutboundData.latestGeneratedNonce - laneOutboundData.latestReceivedNonce
    if pendingMessages > maximalPendingMessagesAtOutboundLane then
      .error "Too many pending messages at the lane."
    else .ok ()

/-! ## Target side -/

/-- What an opened storage proof of the bridged chain gives the verifiers:
    for each key, nothing, a value that does not decode (`some none`), or a
    decoded value; and whether the verifier's reads touched every node. -/
structure MessagesStorageProof (R : Type) where
  readMessage : MessageKey → Option (Option MessagePayload)
  readOutboundLaneData : LaneId → Option (Option OutboundLaneData)
  readInboundLaneData : LaneId → Except Unit (Option (Option (InboundLaneData R)))
  noUnusedNodes : Bool

/-- `FromBridgedChainMessagesProof`. -/
structure FromBridgedChainMessagesProof (H S : Type) where
  bridgedHeaderHash : H
  storageProof : S
  lane : LaneId
  noncesStart : ℕ
  noncesEnd : ℕ

/-- `FromBridgedChainMessagesDeliveryProof`. -/
structure FromBridgedChainMessagesDeliveryProof (H S : Type) where
  bridgedHeaderHash : H
  storageProof : S
  lane : LaneId

/-- `MessageProofError`. -/
inductive MessageProofError where
  | headerChain (error : String)
  | empty
  | messagesCountMismatch
  | missingRequiredMessage
  | failedToDecodeMessage
  | failedToDecodeOutboundLaneState
  | storageProof
deriving DecidableEq, Repr

variable {R H S : Type}

/-- The message reads of `verify_messages_proof`, nonce after nonce: every
    claimed message must be in the proof and decode. -/
def readMessages (storage : MessagesStorageProof R) (lane : LaneId) :
    List ℕ → Except MessageProofError (List Message)
  | [] => .ok []
  | nonce :: rest =>
      match storage.readMessage ⟨lane, nonce⟩ with
      | none => .error .missingRequiredMessage
      | some none => .error .failedToDecodeMessage
      | some (some payload) =>
          match readMessages storage lane rest with
          | .error e => .error e
          | .ok messages => .ok (⟨⟨lane, nonce⟩, payload⟩ :: messages)

/-- `target::verify_messages_proof`: the proof's one lane with the messages
    of `nonces_start..=nonces_end` and the outbound lane state, if the proof
    holds it.  A proof with `nonces_end < nonces_start` holds no message and
    is accepted when it carries the lane state. -/
def verifyMessagesProof (parseFinalizedStorageProof : H → S → Except String (MessagesStorageProof R))
    (proof : FromBridgedChainMessagesProof H S) (messagesCount : ℕ) :
    Except MessageProofError (List (LaneId × ProvedLaneMessages Message)) :=
  match parseFinalizedStorageProof proof.bridgedHeaderHash proof.storageProof with
  | .error e => .error (.headerChain e)
  | .ok storage =>
      -- receiving proofs where end < begin is ok (if proof includes outbound lane state)
      if proof.noncesStart ≤ proof.noncesEnd ∧
          proof.noncesEnd - proof.noncesStart + 1 ≠ messagesCount then
        .error .messagesCountMismatch
      else
        let nonces := List.range' proof.noncesStart (proof.noncesEnd + 1 - proof.noncesStart)
        match readMessages storage proof.lane nonces with
        | .error e => .error e
        | .ok messages =>
            match storage.readOutboundLaneData proof.lane with
            | some none => .error .failedToDecodeOutboundLaneState
            | laneStateRead =>
                let laneState := laneStateRead.bind id
                if laneState.isNone ∧ messages = [] then .error .empty
                else if !storage.noUnusedNodes then .error .storageProof
                else .ok [(proof.lane, ⟨laneState, messages⟩)]

/-- `source::verify_messages_delivery_proof`: the proof's lane and the
    inbound lane data stored for it. -/
def verifyMessagesDeliveryProof
    (parseFinalizedStorageProof : H → S → Except String (MessagesStorageProof R))
    (proof : FromBridgedChainMessagesDeliveryProof H S) :
    Except String (LaneId × InboundLaneData R) :=
  match parseFinalizedStorageProof proof.bridgedHeaderHash proof.storageProof with
  | .error e => .error e
  | .ok storage =>
      match storage.readInboundLaneData proof.lane with
      | .error () => .error "Failed to read inbound lane state from storage proof"
      | .ok none => .error "Inbound lane state is missing from the messages proof"
      | .ok (some none) => .error "Failed to decode inbound lane state from the proof"
      | .ok (some (some inboundLaneData)) =>
          if !storage.noUnusedNodes then .error "Messages delivery proof has unused trie nodes"
          else .ok (proof.lane, inboundLaneData)

/-! ## Target side, through the storage proof checker -/

/-- The storage keys of the bridged chain's messages pallet
    (`bp_messages::storage_keys`, the pallet's name applied): a message's,
    and a lane's outbound lane data's. -/
structure MessagesStorageKeys (K : Type) where
  messageKey : LaneId → ℕ → K
  outboundLaneDataKey : LaneId → K

namespace Target

open StorageProof

variable {K : Type} [DecidableEq K]

/-- `StorageProofCheckerAdapter::read_raw_message`: a failed read is no
    value (`read_value(..).ok()?`). -/
def readRawMessage (keys : MessagesStorageKeys K) (storage : StorageProofChecker K (List UInt8))
    (messageKey : MessageKey) : Option (List UInt8) × StorageProofChecker K (List UInt8) :=
  let read := storage.readValue (keys.messageKey messageKey.laneId messageKey.nonce)
  (read.1.toOption.bind id, read.2)

/-- `StorageProofCheckerAdapter::read_raw_outbound_lane_data`. -/
def readRawOutboundLaneData (keys : MessagesStorageKeys K)
    (storage : StorageProofChecker K (List UInt8)) (laneId : LaneId) :
    Option (List UInt8) × StorageProofChecker K (List UInt8) :=
  let read := storage.readValue (keys.outboundLaneDataKey laneId)
  (read.1.toOption.bind id, read.2)

@[simp] theorem readRawMessage_fst (keys : MessagesStorageKeys K)
    (storage : StorageProofChecker K (List UInt8)) (messageKey : MessageKey) :
    (readRawMessage keys storage messageKey).1 =
      storage.storage.lookup (keys.messageKey messageKey.laneId messageKey.nonce) := rfl

@[simp] theorem readRawMessage_snd (keys : MessagesStorageKeys K)
    (storage : StorageProofChecker K (List UInt8)) (messageKey : MessageKey) :
    (readRawMessage keys storage messageKey).2 =
      ⟨storage.storage, keys.messageKey messageKey.laneId messageKey.nonce :: storage.recorded⟩ :=
  rfl

@[simp] theorem readRawOutboundLaneData_fst (keys : MessagesStorageKeys K)
    (storage : StorageProofChecker K (List UInt8)) (laneId : LaneId) :
    (readRawOutboundLaneData keys storage laneId).1 =
      storage.storage.lookup (keys.outboundLaneDataKey laneId) := rfl

@[simp] theorem readRawOutboundLaneData_snd (keys : MessagesStorageKeys K)
    (storage : StorageProofChecker K (List UInt8)) (laneId : LaneId) :
    (readRawOutboundLaneData keys storage laneId).2 =
      ⟨storage.storage, keys.outboundLaneDataKey laneId :: storage.recorded⟩ := rfl

/-- The message loop of `verify_messages_proof`, nonce after nonce: every
    claimed message must be in the proof and decode as a `MessagePayload`. -/
def readMessages (keys : MessagesStorageKeys K) (decodePayload : List UInt8 → Option MessagePayload)
    (lane : LaneId) :
    List ℕ → StorageProofChecker K (List UInt8) →
      Except MessageProofError (List Message × StorageProofChecker K (List UInt8))
  | [], storage => .ok ([], storage)
  | nonce :: rest, storage =>
      let messageKey : MessageKey := ⟨lane, nonce⟩
      let read := readRawMessage keys storage messageKey
      match read.1 with
      | none => .error .missingRequiredMessage
      | some rawMessageData =>
          match decodePayload rawMessageData with
          | none => .error .failedToDecodeMessage
          | some payload =>
              (readMessages keys decodePayload lane rest read.2).map fun done =>
                (⟨messageKey, payload⟩ :: done.1, done.2)

/-- The closure `target::verify_messages_proof` runs on the opened storage
    proof: the count check, the messages, the optional outbound lane state,
    the emptiness check and the unused-node check, in the code's order. -/
def verifyProvedStorage (keys : MessagesStorageKeys K)
    (decodePayload : List UInt8 → Option MessagePayload)
    (decodeOutboundLaneData : List UInt8 → Option OutboundLaneData)
    (storage : StorageProofChecker K (List UInt8)) (lane : LaneId) (noncesStart noncesEnd : ℕ)
    (messagesCount : ℕ) : Except MessageProofError (List (LaneId × ProvedLaneMessages Message)) :=
  -- receiving proofs where end < begin is ok (if proof includes outbound lane state)
  if noncesStart ≤ noncesEnd ∧ noncesEnd - noncesStart + 1 ≠ messagesCount then
    .error .messagesCountMismatch
  else
    match readMessages keys decodePayload lane
        (List.range' noncesStart (noncesEnd + 1 - noncesStart)) storage with
    | .error e => .error e
    | .ok read =>
        let messages := read.1
        -- the outbound lane state is optional: its absence is no error
        let laneRead := readRawOutboundLaneData keys read.2 lane
        let laneState : Except MessageProofError (Option OutboundLaneData) :=
          match laneRead.1 with
          | none => .ok none
          | some rawOutboundLaneData =>
              match decodeOutboundLaneData rawOutboundLaneData with
              | none => .error .failedToDecodeOutboundLaneState
              | some outboundLaneData => .ok (some outboundLaneData)
        match laneState with
        | .error e => .error e
        | .ok laneState =>
            if laneState.isNone ∧ messages = [] then .error .empty
            else
              match laneRead.2.ensureNoUnusedNodes with
              | .error _ => .error .storageProof
              | .ok () => .ok [(lane, ⟨laneState, messages⟩)]

/-- `target::verify_messages_proof`: the header chain opens the storage
    proof of a finalized header, and the closure reads it. -/
def verifyMessagesProof (keys : MessagesStorageKeys K)
    (decodePayload : List UInt8 → Option MessagePayload)
    (decodeOutboundLaneData : List UInt8 → Option OutboundLaneData)
    (parseFinalizedStorageProof : H → S → Except String (AList fun _ : K => List UInt8))
    (proof : FromBridgedChainMessagesProof H S) (messagesCount : ℕ) :
    Except MessageProofError (List (LaneId × ProvedLaneMessages Message)) :=
  match parseFinalizedStorageProof proof.bridgedHeaderHash proof.storageProof with
  | .error e => .error (.headerChain e)
  | .ok storage =>
      verifyProvedStorage keys decodePayload decodeOutboundLaneData (StorageProofChecker.new storage)
        proof.lane proof.noncesStart proof.noncesEnd messagesCount

end Target

end RuntimeCommon

end ParityBridge
