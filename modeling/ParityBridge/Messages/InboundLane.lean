import ParityBridge.Lib.Reach
import ParityBridge.Messages.Types

/-! # The inbound lane — `InboundLane::{receive_message, receive_state_update}`

    The target chain's end of a lane.  `receive_message` accepts exactly the
    next nonce, refuses it when the relayer queue or the unconfirmed range is
    at its limit, and otherwise dispatches the message and records the
    delivering relayer (extending the back entry when the same relayer
    delivered the previous nonce).  `receive_state_update` takes a newer
    `latest_received_nonce` from the source chain's outbound lane, pops the
    queue entries it fully confirms and trims the new front entry.

    The calls the lane makes to `MessageDispatch::dispatch` are part of the
    state (`dispatched`), so that what the lane hands to the runtime is
    observable along a run.  The dispatch result is a parameter: the lane
    does not read it. -/

namespace ParityBridge

variable {R A P D : Type}

/-- `InboundLaneStorage`: the stored lane data and the lane's two limits. -/
structure InboundLaneStorage (R : Type) where
  id : LaneId
  maxUnrewardedRelayerEntries : ℕ
  maxUnconfirmedMessages : ℕ
  data : InboundLaneData R
deriving DecidableEq, Repr

/-- `DispatchMessage`: the key and data handed to `MessageDispatch::dispatch`. -/
structure DispatchMessage (P : Type) where
  key : MessageKey
  data : P
deriving DecidableEq, Repr

/-- An inbound lane and the calls it has made to `MessageDispatch::dispatch`,
    oldest first, each with the relayer account it passed. -/
structure InboundLane (R A P : Type) where
  storage : InboundLaneStorage R
  dispatched : List (A × DispatchMessage P)

/-- `StoredInboundLaneData::max_encoded_len`: the size hint of a queue of
    `MaxUnrewardedRelayerEntriesAtInboundLane` entries (a `u64` cast to
    `usize`), `usize::MAX` when the hint overflows. -/
def StoredInboundLaneData.maxEncodedLen (usizeMax relayerIdEncodedSize
    maxUnrewardedRelayerEntriesAtInboundLane : ℕ) : ℕ :=
  (InboundLaneData.encodedSizeHint usizeMax relayerIdEncodedSize
    (maxUnrewardedRelayerEntriesAtInboundLane % (usizeMax + 1))).getD usizeMax

namespace InboundLane

/-- A lane with default data that has dispatched nothing. -/
def init (id : LaneId) (maxEntries maxUnconfirmed : ℕ) : InboundLane R A P :=
  ⟨⟨id, maxEntries, maxUnconfirmed, .default⟩, []⟩

/-- `storage.set_data`. -/
def setData (lane : InboundLane R A P) (data : InboundLaneData R) : InboundLane R A P :=
  { lane with storage := { lane.storage with data := data } }

/-- The lane data. -/
abbrev data (lane : InboundLane R A P) : InboundLaneData R :=
  lane.storage.data

@[simp] theorem setData_data (lane : InboundLane R A P) (d : InboundLaneData R) :
    (lane.setData d).data = d := rfl
@[simp] theorem setData_dispatched (lane : InboundLane R A P) (d : InboundLaneData R) :
    (lane.setData d).dispatched = lane.dispatched := rfl
@[simp] theorem setData_storage_id (lane : InboundLane R A P) (d : InboundLaneData R) :
    (lane.setData d).storage.id = lane.storage.id := rfl
@[simp] theorem setData_maxUnrewardedRelayerEntries (lane : InboundLane R A P)
    (d : InboundLaneData R) :
    (lane.setData d).storage.maxUnrewardedRelayerEntries =
      lane.storage.maxUnrewardedRelayerEntries := rfl
@[simp] theorem setData_maxUnconfirmedMessages (lane : InboundLane R A P)
    (d : InboundLaneData R) :
    (lane.setData d).storage.maxUnconfirmedMessages = lane.storage.maxUnconfirmedMessages := rfl

/-- The second step of `receive_state_update`: the front entry, if it starts
    below the new confirmed nonce, is made to start right after it. -/
def trimFront (confirmed : ℕ) :
    List (UnrewardedRelayer R) → List (UnrewardedRelayer R)
  | [] => []
  | entry :: rest =>
      if entry.messages.begin < confirmed then
        { entry with messages := { entry.messages with begin := confirmed + 1 } } :: rest
      else entry :: rest

/-- `InboundLane::receive_state_update`. -/
def receiveStateUpdate (lane : InboundLane R A P) (outboundLaneData : OutboundLaneData) :
    Option ℕ × InboundLane R A P :=
  let data := lane.data
  if outboundLaneData.latestReceivedNonce > data.lastDeliveredNonce then
    -- this is something that should never happen if proofs are correct
    (none, lane)
  else if outboundLaneData.latestReceivedNonce ≤ data.lastConfirmedNonce then
    (none, lane)
  else
    let newConfirmedNonce := outboundLaneData.latestReceivedNonce
    -- first pop every entry that ends at or below the new confirmed nonce
    let popped := data.relayers.dropWhile fun entry => entry.messages.«end» ≤ newConfirmedNonce
    (some newConfirmedNonce, lane.setData ⟨trimFront newConfirmedNonce popped, newConfirmedNonce⟩)

/-- The queue update at the end of `receive_message`: the back entry gets one
    more nonce if the same relayer delivered it, else a new entry is pushed. -/
def noteDelivery [DecidableEq R] (relayers : List (UnrewardedRelayer R)) (relayer : R)
    (nonce : ℕ) : List (UnrewardedRelayer R) :=
  match relayers.getLast? with
  | some entry =>
      if entry.relayer = relayer then
        relayers.dropLast ++ [{ entry with messages := entry.messages.noteDispatchedMessage }]
      else relayers ++ [⟨relayer, DeliveredMessages.new nonce⟩]
  | none => relayers ++ [⟨relayer, DeliveredMessages.new nonce⟩]

/-- `InboundLane::receive_message`.  `dispatch` is `MessageDispatch::dispatch`. -/
def receiveMessage [DecidableEq R] (dispatch : A → DispatchMessage P → D)
    (lane : InboundLane R A P) (relayerAtBridgedChain : R) (relayerAtThisChain : A)
    (nonce : ℕ) (messageData : P) : ReceivalResult D × InboundLane R A P :=
  let data := lane.data
  if nonce ≠ data.lastDeliveredNonce + 1 then
    (.invalidNonce, lane)
  else if data.relayers.length ≥ lane.storage.maxUnrewardedRelayerEntries then
    (.tooManyUnrewardedRelayers, lane)
  else if nonce - data.lastConfirmedNonce > lane.storage.maxUnconfirmedMessages then
    (.tooManyUnconfirmedMessages, lane)
  else
    let message : DispatchMessage P := ⟨⟨lane.storage.id, nonce⟩, messageData⟩
    let dispatchResult := dispatch relayerAtThisChain message
    let lane' := lane.setData
      ⟨noteDelivery data.relayers relayerAtBridgedChain nonce, data.lastConfirmedNonce⟩
    (.dispatched dispatchResult,
      { lane' with dispatched := lane.dispatched ++ [(relayerAtThisChain, message)] })

/-- The two calls of an inbound lane, with their arguments. -/
inductive Call (R A P : Type) where
  | receiveMessage (relayerAtBridgedChain : R) (relayerAtThisChain : A)
      (nonce : ℕ) (messageData : P)
  | receiveStateUpdate (outboundLaneData : OutboundLaneData)

/-- One call on the lane; the result is dropped, its effect is in the state. -/
def step [DecidableEq R] (dispatch : A → DispatchMessage P → D) (lane : InboundLane R A P) :
    Call R A P → InboundLane R A P
  | .receiveMessage r a nonce m => (receiveMessage dispatch lane r a nonce m).2
  | .receiveStateUpdate o => (receiveStateUpdate lane o).2

end InboundLane

end ParityBridge
