import ParityBridge.Lib.IntervalChain
import ParityBridge.Lib.Scale

/-! # Message lane primitives — `bp_messages`

    The data of both ends of a message lane: the inbound lane data kept by
    the target chain (the queue of unrewarded relayer entries and the last
    confirmed nonce) and the outbound lane data kept by the source chain
    (three nonce counters), with the helpers the pallet and the relayer
    payments read off them.

    A message nonce (`MessageNonce`, the position of a message in its lane
    from `1`) is `u64` in the source; it is `ℕ` here.  The only places
    where the two differ are `+ 1` on a nonce of `u64::MAX`, which takes
    `2⁶⁴ - 1` messages on one lane to reach, and the `checked_add` of
    `total_unrewarded_messages` there. -/

namespace ParityBridge

/-- Lane identifier, four bytes. -/
abbrev LaneId := Vector UInt8 4

/-- A message as the messages pallet keys it. -/
structure MessageKey where
  laneId : LaneId
  nonce : ℕ
deriving DecidableEq, Repr

/-- The closed range of nonces delivered by one relayer. -/
structure DeliveredMessages where
  begin : ℕ
  «end» : ℕ
deriving DecidableEq, Repr

namespace DeliveredMessages

/-- `DeliveredMessages::new`: the range holding one nonce. -/
def new (nonce : ℕ) : DeliveredMessages :=
  ⟨nonce, nonce⟩

/-- `DeliveredMessages::total_messages`. -/
def totalMessages (m : DeliveredMessages) : ℕ :=
  if m.«end» ≥ m.begin then m.«end» - m.begin + 1 else 0

/-- `DeliveredMessages::note_dispatched_message`: one more nonce at the end. -/
def noteDispatchedMessage (m : DeliveredMessages) : DeliveredMessages :=
  { m with «end» := m.«end» + 1 }

/-- `DeliveredMessages::contains_message`. -/
def containsMessage (m : DeliveredMessages) (nonce : ℕ) : Bool :=
  decide (m.begin ≤ nonce ∧ nonce ≤ m.«end»)

@[simp] theorem new_begin (n : ℕ) : (new n).begin = n := rfl
@[simp] theorem new_end (n : ℕ) : (new n).«end» = n := rfl
@[simp] theorem noteDispatchedMessage_begin (m : DeliveredMessages) :
    m.noteDispatchedMessage.begin = m.begin := rfl
@[simp] theorem noteDispatchedMessage_end (m : DeliveredMessages) :
    m.noteDispatchedMessage.«end» = m.«end» + 1 := rfl

end DeliveredMessages

/-- An entry of the inbound lane's relayer queue: who delivered which range. -/
structure UnrewardedRelayer (R : Type) where
  relayer : R
  messages : DeliveredMessages
deriving DecidableEq, Repr

/-- The state of the target chain's end of a lane.  `relayers` is the
    `VecDeque`, front first. -/
structure InboundLaneData (R : Type) where
  relayers : List (UnrewardedRelayer R)
  lastConfirmedNonce : ℕ
deriving DecidableEq, Repr

namespace InboundLaneData

variable {R : Type}

/-- `InboundLaneData::default`. -/
def default : InboundLaneData R :=
  ⟨[], 0⟩

/-- `InboundLaneData::last_delivered_nonce`: the end of the back entry, or the
    last confirmed nonce when the queue is empty. -/
def lastDeliveredNonce (d : InboundLaneData R) : ℕ :=
  (d.relayers.getLast?.map fun entry => entry.messages.«end»).getD d.lastConfirmedNonce

@[simp] theorem lastDeliveredNonce_nil (c : ℕ) :
    lastDeliveredNonce (⟨[], c⟩ : InboundLaneData R) = c := rfl

@[simp] theorem lastDeliveredNonce_concat (l : List (UnrewardedRelayer R))
    (e : UnrewardedRelayer R) (c : ℕ) :
    lastDeliveredNonce ⟨l ++ [e], c⟩ = e.messages.«end» := by
  simp [lastDeliveredNonce]

end InboundLaneData

/-- The state of the source chain's end of a lane. -/
structure OutboundLaneData where
  oldestUnprunedNonce : ℕ
  latestReceivedNonce : ℕ
  latestGeneratedNonce : ℕ
deriving DecidableEq, Repr

/-- `OutboundLaneData::default`: nothing sent, nothing to prune from `1` on. -/
def OutboundLaneData.default : OutboundLaneData :=
  ⟨1, 0, 0⟩

/-- `ReceivalResult`: what the inbound lane says about one message.  `D` is
    the message dispatch result. -/
inductive ReceivalResult (D : Type) where
  | dispatched (result : D)
  | invalidNonce
  | tooManyUnrewardedRelayers
  | tooManyUnconfirmedMessages
deriving DecidableEq, Repr

namespace ReceivalResult

variable {D : Type}

/-- The message was dispatched (whatever the dispatch itself returned). -/
def isDispatched : ReceivalResult D → Bool
  | .dispatched _ => true
  | _ => false

/-- The three refusals of a message by the lane. -/
def IsRejection (r : ReceivalResult D) : Prop :=
  r = .invalidNonce ∨ r = .tooManyUnrewardedRelayers ∨ r = .tooManyUnconfirmedMessages

@[simp] theorem isDispatched_dispatched (d : D) : (dispatched d).isDispatched = true := rfl

theorem IsRejection.isDispatched_eq_false {r : ReceivalResult D} (h : r.IsRejection) :
    r.isDispatched = false := by
  rcases h with rfl | rfl | rfl <;> rfl

end ReceivalResult

/-- `UnrewardedRelayersState`: what a confirmation transaction declares about
    the relayer queue it proves. -/
structure UnrewardedRelayersState where
  unrewardedRelayerEntries : ℕ
  messagesInOldestEntry : ℕ
  totalMessages : ℕ
  lastDeliveredNonce : ℕ
deriving DecidableEq, Repr

/-- `total_unrewarded_messages`: the span from the front entry's begin to the
    back entry's end. -/
def totalUnrewardedMessages {R : Type} (relayers : List (UnrewardedRelayer R)) :
    Option ℕ :=
  match relayers.head?, relayers.getLast? with
  | some front, some back =>
      if front.messages.begin ≤ back.messages.«end» then
        some (back.messages.«end» - front.messages.begin + 1)
      else some 0
  | _, _ => some 0

/-- The relayer queue seen as a chain of nonce intervals. -/
abbrev RelayersConsecutive {R : Type} (l : List (UnrewardedRelayer R)) : Prop :=
  IntervalChain.Consecutive (fun e : UnrewardedRelayer R => e.messages.begin)
    (fun e => e.messages.«end») l

/-! ## Encoded sizes -/

/-- `usize::checked_add`, `usizeMax` being the target's largest `usize`. -/
def checkedAdd (usizeMax a b : ℕ) : Option ℕ :=
  if a + b ≤ usizeMax then some (a + b) else none

/-- `usize::checked_mul`. -/
def checkedMul (usizeMax a b : ℕ) : Option ℕ :=
  if a * b ≤ usizeMax then some (a * b) else none

/-- `MessageNonce::max_encoded_len()`: a `u64`. -/
def messageNonceMaxEncodedLen : ℕ := 8

namespace InboundLaneData

variable {R : Type}

/-- `InboundLaneData::encoded_size_hint`: the size of lane data with
    `relayersEntries` entries, for relayer ids of at most
    `relayerIdEncodedSize` bytes; `none` on `usize` overflow. -/
def encodedSizeHint (usizeMax relayerIdEncodedSize relayersEntries : ℕ) : Option ℕ := do
  let messageNonceSize := messageNonceMaxEncodedLen
  let relayersEntrySize ← checkedAdd usizeMax relayerIdEncodedSize (2 * messageNonceSize)
  let relayersSize ← checkedMul usizeMax relayersEntries relayersEntrySize
  checkedAdd usizeMax relayersSize messageNonceSize

/-- The SCALE encoding of `InboundLaneData` (`derive(Encode)`): the relayer
    queue as a sequence of entries, each the relayer id (encoded by
    `encodeRelayer`) and the two `u64` ends of its range, then the `u64` last
    confirmed nonce. -/
def encode (encodeRelayer : R → List UInt8) (d : InboundLaneData R) : List UInt8 :=
  Scale.encodeSeq (fun entry : UnrewardedRelayer R => encodeRelayer entry.relayer ++
      Scale.encodeFixed 8 entry.messages.begin ++ Scale.encodeFixed 8 entry.messages.«end»)
    d.relayers ++
  Scale.encodeFixed 8 d.lastConfirmedNonce

end InboundLaneData

end ParityBridge
