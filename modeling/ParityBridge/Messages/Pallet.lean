import ParityBridge.Grandpa.Digest
import ParityBridge.Messages.InboundLane
import ParityBridge.Messages.OutboundLane
import ParityBridge.Messages.RuntimeCommon

/-! # Messages pallet — its calls and its `on_idle` hook

    `receive_messages_delivery_proof` is first modelled from the proven lane
    data on (the lane's own function, which the two-chain model of
    `Messages.Bridge` uses): the checks of the relayer's declared
    `UnrewardedRelayersState`, the outbound lane's `confirm_delivery`, and
    the range handed to the rewards payment.

    The pallet itself (`MessagesPallet`) keeps the lanes in its storage maps
    and reaches them through `outbound_lane` and `inbound_lane`, which read a
    lane's data and write it back.  Its calls take the runtime's verifiers as
    parameters (`TargetHeaderChain`, `LaneMessageVerifier`,
    `SourceHeaderChain`, `MessageDispatch`), as the pallet's `Config` does;
    `Messages.RuntimeCommon` gives the ones a runtime plugs in.  Every check a
    call makes comes before its first write, so a call that fails leaves the
    storage as it was, as the runtime's rollback of a failed call would. -/

namespace ParityBridge

/-- The errors of the pallet (`Error<T, I>`); `bridgeModuleHalted` is
    `BridgeModule(OwnedBridgeModuleError::Halted)`. -/
inductive MessagesError where
  | invalidUnrewardedRelayersState
  | tryingToConfirmMoreMessagesThanExpected
  | invalidUnrewardedRelayers
  | notOperatingNormally
  | inactiveOutboundLane
  | messageIsTooLarge
  | messageRejectedByChainVerifier
  | messageRejectedByLaneVerifier
  | tooManyMessagesInTheProof
  | invalidMessagesProof
  | invalidMessagesDeliveryProof
  | bridgeModuleHalted
deriving DecidableEq, Repr

variable {R P : Type}

/-- `Pallet::receive_messages_delivery_proof` from the proven lane data on:
    the newly confirmed range, if any, and the updated outbound lane. -/
def receiveMessagesDeliveryProof (lane : OutboundLane P) (laneData : InboundLaneData R)
    (relayersState : UnrewardedRelayersState) :
    Except MessagesError (Option DeliveredMessages × OutboundLane P) :=
  -- the declared state must match the proven queue's size, which the call's
  -- weight is computed from
  if ¬ ((totalUnrewardedMessages laneData.relayers).getD (2 ^ 64 - 1) =
        relayersState.totalMessages ∧
      laneData.relayers.length = relayersState.unrewardedRelayerEntries) then
    .error .invalidUnrewardedRelayersState
  else if laneData.lastDeliveredNonce ≠ relayersState.lastDeliveredNonce then
    .error .invalidUnrewardedRelayersState
  else
    let lastDeliveredNonce := laneData.lastDeliveredNonce
    match lane.confirmDelivery relayersState.totalMessages lastDeliveredNonce laneData.relayers with
    | (.confirmedMessages confirmedMessages, lane') => .ok (some confirmedMessages, lane')
    | (.noNewConfirmations, lane') => .ok (none, lane')
    | (.tryingToConfirmMoreMessagesThanExpected _, _) =>
        .error .tryingToConfirmMoreMessagesThanExpected
    | (_, _) => .error .invalidUnrewardedRelayers

/-- `MessagesOperatingMode`. -/
inductive MessagesOperatingMode where
  | basic (mode : Grandpa.BasicOperatingMode)
  | rejectingOutboundMessages
deriving DecidableEq, Repr

/-- `MessagesOperatingMode::is_halted`. -/
def MessagesOperatingMode.isHalted : MessagesOperatingMode → Bool
  | .basic mode => mode == .halted
  | .rejectingOutboundMessages => false

/-- `MessageDispatchResult`: what `MessageDispatch::dispatch` returns. -/
structure MessageDispatchResult (E : Type) where
  unspentWeight : Weight
  dispatchLevelResult : E
deriving DecidableEq, Repr

/-- `ReceivedMessages`: what `receive_messages_proof` did with the messages
    of one lane — the results of the messages handed to the lane, and the
    nonces skipped because the declared dispatch weight ran out. -/
structure ReceivedMessages (E : Type) where
  lane : LaneId
  receiveResults : List (ℕ × ReceivalResult (MessageDispatchResult E))
  skippedForNotEnoughWeight : List ℕ

/-- `ReceivedMessages::new`. -/
def ReceivedMessages.new {E : Type} (lane : LaneId)
    (receiveResults : List (ℕ × ReceivalResult (MessageDispatchResult E))) : ReceivedMessages E :=
  ⟨lane, receiveResults, []⟩

/-- `SendMessageArtifacts`. -/
structure SendMessageArtifacts where
  nonce : ℕ
  weight : Weight
deriving DecidableEq, Repr

/-- The pallet's constants: `ActiveOutboundLanes`, `MaximalOutboundPayloadSize`,
    `MaxUnrewardedRelayerEntriesAtInboundLane`,
    `MaxUnconfirmedMessagesAtInboundLane`, and the runtime's `DbWeight`. -/
structure MessagesConfig where
  activeOutboundLanes : List LaneId
  maximalOutboundPayloadSize : ℕ
  maxUnrewardedRelayerEntriesAtInboundLane : ℕ
  maxUnconfirmedMessagesAtInboundLane : ℕ
  dbWeight : RuntimeDbWeight

/-- The storage items of the pallet: `PalletOperatingMode`, `InboundLanes`,
    `OutboundLanes` (both `ValueQuery`) and `OutboundMessages`. -/
structure MessagesStorage (R : Type) where
  palletOperatingMode : MessagesOperatingMode
  inboundLanes : LaneId → InboundLaneData R
  outboundLanes : LaneId → OutboundLaneData
  outboundMessages : MessageKey → Option RuntimeCommon.MessagePayload

/-- `RuntimeInboundLaneStorage::extra_proof_size_bytes`: the proof size a
    delivery call declared for a full relayer queue and does not need for
    the queue the lane holds, both by the size hint. -/
def RuntimeInboundLaneStorage.extraProofSizeBytes {R : Type} (usizeMax relayerIdEncodedSize
    maxUnrewardedRelayerEntriesAtInboundLane : ℕ) (data : InboundLaneData R) : ℕ :=
  let maxEncodedLen := StoredInboundLaneData.maxEncodedLen usizeMax relayerIdEncodedSize
    maxUnrewardedRelayerEntriesAtInboundLane
  let relayersCount := data.relayers.length
  let actualEncodedLen :=
    (InboundLaneData.encodedSizeHint usizeMax relayerIdEncodedSize relayersCount).getD usizeMax
  maxEncodedLen - actualEncodedLen

namespace MessagesPallet

open RuntimeCommon

variable {R A P E O Pf DPf : Type} (cfg : MessagesConfig)

/-! ## The lanes in storage -/

/-- `outbound_lane`: the lane backed by the storage maps. -/
def outboundLane (s : MessagesStorage R) (laneId : LaneId) : OutboundLane MessagePayload :=
  ⟨laneId, s.outboundLanes laneId, fun nonce => s.outboundMessages ⟨laneId, nonce⟩⟩

/-- The writes of an outbound lane to the storage maps. -/
def putOutboundLane (s : MessagesStorage R) (lane : OutboundLane MessagePayload) :
    MessagesStorage R :=
  { s with
    outboundLanes := Function.update s.outboundLanes lane.id lane.data
    outboundMessages := fun key =>
      if key.laneId = lane.id then lane.messages key.nonce else s.outboundMessages key }

/-- `inbound_lane`: the lane backed by the storage map, with the pallet's
    limits. -/
def inboundLane (s : MessagesStorage R) (laneId : LaneId) : InboundLane R A P :=
  ⟨⟨laneId, cfg.maxUnrewardedRelayerEntriesAtInboundLane, cfg.maxUnconfirmedMessagesAtInboundLane,
    s.inboundLanes laneId⟩, []⟩

/-- The write of an inbound lane's data to the storage map. -/
def putInboundLane (s : MessagesStorage R) (lane : InboundLane R A P) : MessagesStorage R :=
  { s with inboundLanes := Function.update s.inboundLanes lane.storage.id lane.data }

/-! ## `send_message` -/

/-- `ensure_normal_operating_mode`. -/
def ensureNormalOperatingMode (s : MessagesStorage R) : Except MessagesError Unit :=
  if s.palletOperatingMode = .basic .normal then .ok () else .error .notOperatingNormally

/-- The pallet's `send_message`: the operating mode, the lane, the target
    chain's and the lane's verifiers and the payload size are checked before
    the lane stores the message.  `encode` is the payload's encoding. -/
def sendMessage (verifyMessage : MessagePayload → Except String Unit)
    (laneMessageVerifier : O → LaneId → OutboundLaneData → MessagePayload → Except String Unit)
    (encode : MessagePayload → MessagePayload) (s : MessagesStorage R) (submitter : O)
    (laneId : LaneId) (payload : MessagePayload) :
    Except MessagesError (SendMessageArtifacts × MessagesStorage R) :=
  match ensureNormalOperatingMode s with
  | .error e => .error e
  | .ok () =>
      -- let's check if outbound lane is active
      if laneId ∉ cfg.activeOutboundLanes then .error .inactiveOutboundLane
      else
        match verifyMessage payload with
        | .error _ => .error .messageRejectedByChainVerifier
        | .ok () =>
            let lane := outboundLane s laneId
            match laneMessageVerifier submitter laneId lane.data payload with
            | .error _ => .error .messageRejectedByLaneVerifier
            | .ok () =>
                let encodedPayload := encode payload
                if encodedPayload.length > cfg.maximalOutboundPayloadSize then
                  .error .messageIsTooLarge
                else
                  let (nonce, lane) := lane.sendMessage encodedPayload
                  .ok (⟨nonce, cfg.dbWeight.readsWrites 2 2⟩, putOutboundLane s lane)

/-! ## `receive_messages_delivery_proof` -/

/-- `Pallet::receive_messages_delivery_proof`: the proof is verified into a
    lane and its inbound lane data, which the lane's confirmation then uses;
    the confirmed range is what the rewards payment gets. -/
def receiveMessagesDeliveryProof
    (verifyMessagesDeliveryProof : DPf → Except String (LaneId × InboundLaneData R))
    (s : MessagesStorage R) (proof : DPf) (relayersState : UnrewardedRelayersState) :
    Except MessagesError (Option DeliveredMessages × MessagesStorage R) :=
  if s.palletOperatingMode.isHalted then .error .bridgeModuleHalted
  else
    match verifyMessagesDeliveryProof proof with
    | .error _ => .error .invalidMessagesDeliveryProof
    | .ok (laneId, laneData) =>
        match ParityBridge.receiveMessagesDeliveryProof (outboundLane s laneId) laneData
            relayersState with
        | .error e => .error e
        | .ok (confirmed, lane) => .ok (confirmed, putOutboundLane s lane)

/-! ## `on_idle` -/

/-- `Hooks::on_idle`: messages of the lane of index `block_number %
    lanes.len()` in `ActiveOutboundLanes` are pruned with the weight left
    after reading its state.  `none` is the panic of `% 0` with no active
    lane. -/
def onIdle (s : MessagesStorage R) (blockNumber : ℕ) (remainingWeight : Weight) :
    Option (Weight × MessagesStorage R) :=
  let dbWeight := cfg.dbWeight
  if !remainingWeight.allGte (dbWeight.readsWrites 1 2) then some (Weight.zero, s)
  else
    match cfg.activeOutboundLanes[blockNumber % cfg.activeOutboundLanes.length]? with
    | none => none
    | some activeLaneId =>
        let activeLane := outboundLane s activeLaneId
        let usedWeight := dbWeight.reads 1
        let (pruneWeight, activeLane) :=
          activeLane.pruneMessages dbWeight (remainingWeight - usedWeight)
        some (usedWeight + pruneWeight, putOutboundLane s activeLane)

/-! ## `receive_messages_proof` -/

/-- What the dispatch loop of `receive_messages_proof` carries over the
    messages of one lane.  `chargedWeights` is not in the source: it records,
    for each message handed to the lane, the weight then taken off
    `dispatch_weight_left`. -/
structure LaneDispatch (R A P E : Type) where
  lane : InboundLane R A P
  laneMessagesReceivedStatus : ReceivedMessages E
  isLaneProcessingStoppedNoWeightLeft : Bool
  totalMessages : ℕ
  validMessages : ℕ
  dispatchWeightLeft : Weight
  actualWeight : Weight
  chargedWeights : List Weight

/-- What the loop carries over the lanes of the proof, with the same record
    of charged weights. -/
structure ProofDispatch (R E : Type) where
  storage : MessagesStorage R
  messagesReceivedStatus : List (ReceivedMessages E)
  totalMessages : ℕ
  validMessages : ℕ
  dispatchWeightLeft : Weight
  actualWeight : Weight
  chargedWeights : List Weight

/-- The weight a message's dispatch did not use: what the dispatch reports,
    or all of the message's dispatch weight when the lane refused it. -/
def unspentWeightOf (receivalResult : ReceivalResult (MessageDispatchResult E))
    (messageDispatchWeight : Weight) : Weight :=
  match receivalResult with
  | .dispatched dispatchResult => dispatchResult.unspentWeight
  | _ => messageDispatchWeight

section Dispatch

variable [DecidableEq R] (dispatch : A → DispatchMessage P → MessageDispatchResult E)
  (dispatchWeight : DispatchMessage P → Weight) (relayerIdAtBridgedChain : R)
  (relayerIdAtThisChain : A)

/-- One message of a lane: skipped once the lane has stopped, or when its
    dispatch weight exceeds what is left of the declared one; otherwise
    handed to the lane, and the weight the dispatch did not use (all of it,
    when the lane refused the message) refunded. -/
def dispatchMessage (st : LaneDispatch R A P E) (message : DispatchMessage P) :
    LaneDispatch R A P E :=
  let st := { st with totalMessages := st.totalMessages + 1 }
  let status := st.laneMessagesReceivedStatus
  if st.isLaneProcessingStoppedNoWeightLeft then
    { st with laneMessagesReceivedStatus :=
        { status with skippedForNotEnoughWeight :=
            status.skippedForNotEnoughWeight ++ [message.key.nonce] } }
  else
    let messageDispatchWeight := dispatchWeight message
    if messageDispatchWeight.anyGt st.dispatchWeightLeft then
      { st with
        laneMessagesReceivedStatus := { status with skippedForNotEnoughWeight :=
          status.skippedForNotEnoughWeight ++ [message.key.nonce] }
        isLaneProcessingStoppedNoWeightLeft := true }
    else
      let (receivalResult, lane) := st.lane.receiveMessage dispatch relayerIdAtBridgedChain
        relayerIdAtThisChain message.key.nonce message.data
      let unspentWeight :=
        (unspentWeightOf receivalResult messageDispatchWeight).min messageDispatchWeight
      { st with
        lane := lane
        laneMessagesReceivedStatus := { status with receiveResults :=
          status.receiveResults ++ [(message.key.nonce, receivalResult)] }
        validMessages := if receivalResult.isDispatched then st.validMessages + 1
          else st.validMessages
        dispatchWeightLeft := st.dispatchWeightLeft - (messageDispatchWeight - unspentWeight)
        actualWeight := st.actualWeight.saturatingSub unspentWeight
        chargedWeights := st.chargedWeights ++ [messageDispatchWeight - unspentWeight] }

/-- The lane-state update a proof carries for a lane, if any. -/
def receiveLaneState (lane : InboundLane R A P) : Option OutboundLaneData → InboundLane R A P
  | some laneState => (lane.receiveStateUpdate laneState).2
  | none => lane

/-- One lane of the proof: the proof size the lane's data does not use is
    taken off the actual weight, the carried lane state applied, then the
    lane's messages dispatched in order and the lane written back. -/
def dispatchLane (extraProofSizeBytes : InboundLaneData R → ℕ) (st : ProofDispatch R E)
    (laneMessages : LaneId × ProvedLaneMessages (DispatchMessage P)) : ProofDispatch R E :=
  let (laneId, laneData) := laneMessages
  let lane : InboundLane R A P := inboundLane cfg st.storage laneId
  let actualWeight :=
    st.actualWeight.setProofSize (st.actualWeight.proofSize - extraProofSizeBytes lane.data)
  let lane := receiveLaneState lane laneData.laneState
  let out := laneData.messages.foldl
    (dispatchMessage dispatch dispatchWeight relayerIdAtBridgedChain relayerIdAtThisChain)
    ⟨lane, .new laneId [], false, st.totalMessages, st.validMessages, st.dispatchWeightLeft,
      actualWeight, st.chargedWeights⟩
  ⟨putInboundLane st.storage out.lane, st.messagesReceivedStatus ++ [out.laneMessagesReceivedStatus],
    out.totalMessages, out.validMessages, out.dispatchWeightLeft, out.actualWeight,
    out.chargedWeights⟩

/-- `verify_and_decode_messages_proof` after the proof is verified: each
    message's payload decoded for dispatch. -/
def decodeMessages (intoDispatchData : MessagePayload → P)
    (messages : List (LaneId × ProvedLaneMessages Message)) :
    List (LaneId × ProvedLaneMessages (DispatchMessage P)) :=
  messages.map fun (laneId, laneData) =>
    (laneId, ⟨laneData.laneState, laneData.messages.map fun message =>
      ⟨message.key, intoDispatchData message.payload⟩⟩)

/-- `Pallet::receive_messages_proof`, for a signed origin: the proof is
    verified into the messages of its lanes, which are dispatched lane after
    lane.  Returns the actual weight of the call with the counts handed to
    `DeliveryPayments::pay_reward` and the lanes' statuses of the
    `MessagesReceived` event.  `receiveMessagesProofWeight` is the declared
    weight of the call (`WeightInfo::receive_messages_proof_weight`). -/
def receiveMessagesProof
    (verifyMessagesProof :
      Pf → ℕ → Except MessageProofError (List (LaneId × ProvedLaneMessages Message)))
    (intoDispatchData : MessagePayload → P) (receiveMessagesProofWeight : Pf → ℕ → Weight → Weight)
    (extraProofSizeBytes : InboundLaneData R → ℕ) (s : MessagesStorage R) (proof : Pf)
    (messagesCount : ℕ) (declaredDispatchWeight : Weight) :
    Except MessagesError (ProofDispatch R E) :=
  if s.palletOperatingMode.isHalted then .error .bridgeModuleHalted
  -- reject transactions that are declaring too many messages
  else if messagesCount > cfg.maxUnconfirmedMessagesAtInboundLane then
    .error .tooManyMessagesInTheProof
  else
    let declaredWeight := receiveMessagesProofWeight proof messagesCount declaredDispatchWeight
    match verifyMessagesProof proof messagesCount with
    | .error _ => .error .invalidMessagesProof
    | .ok messages =>
        .ok ((decodeMessages intoDispatchData messages).foldl
          (dispatchLane cfg dispatch dispatchWeight relayerIdAtBridgedChain relayerIdAtThisChain
            extraProofSizeBytes)
          ⟨s, [], 0, 0, declaredDispatchWeight, declaredWeight, []⟩)

end Dispatch

/-! ## The pallet's calls -/

/-- The runtime's implementations of the pallet's configuration traits:
    `TargetHeaderChain::verify_message` and
    `verify_messages_delivery_proof`, `LaneMessageVerifier::verify_message`,
    the payload encoding, `SourceHeaderChain::verify_messages_proof` with the
    decoding of payloads for dispatch, `MessageDispatch::{dispatch_weight,
    dispatch}`, the declared weight of `receive_messages_proof`, and the
    inbound lane's `extra_proof_size_bytes`. -/
structure MessagesRuntime (R A P E O Pf DPf : Type) where
  verifyMessage : MessagePayload → Except String Unit
  verifyMessagesDeliveryProof : DPf → Except String (LaneId × InboundLaneData R)
  laneMessageVerifier : O → LaneId → OutboundLaneData → MessagePayload → Except String Unit
  encode : MessagePayload → MessagePayload
  verifyMessagesProof : Pf → ℕ → Except MessageProofError (List (LaneId × ProvedLaneMessages Message))
  intoDispatchData : MessagePayload → P
  dispatchWeight : DispatchMessage P → Weight
  dispatch : A → DispatchMessage P → MessageDispatchResult E
  receiveMessagesProofWeight : Pf → ℕ → Weight → Weight
  extraProofSizeBytes : InboundLaneData R → ℕ

/-- The storage at genesis: every lane at its default, no message stored. -/
def empty (operatingMode : MessagesOperatingMode) : MessagesStorage R :=
  ⟨operatingMode, fun _ => .default, fun _ => .default, fun _ => none⟩

/-- The pallet's calls and its `on_idle` hook, with their arguments. -/
inductive Call (R A O Pf DPf : Type) where
  | sendMessage (submitter : O) (laneId : LaneId) (payload : MessagePayload)
  | receiveMessagesProof (relayerIdAtBridgedChain : R) (relayerIdAtThisChain : A) (proof : Pf)
      (messagesCount : ℕ) (dispatchWeight : Weight)
  | receiveMessagesDeliveryProof (proof : DPf) (relayersState : UnrewardedRelayersState)
  | onIdle (blockNumber : ℕ) (remainingWeight : Weight)

/-- One call: the storage it leaves; a call that fails, or panics, leaves
    the storage as it was. -/
def step [DecidableEq R] (rt : MessagesRuntime R A P E O Pf DPf) (s : MessagesStorage R) :
    Call R A O Pf DPf → MessagesStorage R
  | .sendMessage submitter laneId payload =>
      match sendMessage cfg rt.verifyMessage rt.laneMessageVerifier rt.encode s submitter laneId
          payload with
      | .ok (_, s) => s
      | .error _ => s
  | .receiveMessagesProof relayerIdAtBridgedChain relayerIdAtThisChain proof messagesCount
      dispatchWeight =>
      match receiveMessagesProof cfg rt.dispatch rt.dispatchWeight relayerIdAtBridgedChain
          relayerIdAtThisChain rt.verifyMessagesProof rt.intoDispatchData
          rt.receiveMessagesProofWeight rt.extraProofSizeBytes s proof messagesCount
          dispatchWeight with
      | .ok out => out.storage
      | .error _ => s
  | .receiveMessagesDeliveryProof proof relayersState =>
      match receiveMessagesDeliveryProof rt.verifyMessagesDeliveryProof s proof relayersState with
      | .ok (_, s) => s
      | .error _ => s
  | .onIdle blockNumber remainingWeight =>
      match onIdle cfg s blockNumber remainingWeight with
      | some (_, s) => s
      | none => s

end MessagesPallet

end ParityBridge
