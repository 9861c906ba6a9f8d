import ParityBridge.Lib.Reach
import ParityBridge.Messages.Types

/-! # The outbound lane — `OutboundLane::{send_message, confirm_delivery, prune_messages}`

    The source chain's end of a lane: three nonce counters and the store of
    message payloads.  `send_message` stores the next payload,
    `confirm_delivery` checks a proven relayer queue of the target chain and
    moves `latest_received_nonce` forward, and `prune_messages` removes
    received payloads from the oldest one on while the remaining weight pays
    for two more writes.

    Weights (`sp_weights::Weight`, two `u64` components) are pairs of naturals
    here; the subtractions the loop makes never go below zero, because it
    only subtracts one write from a weight that covers two. -/

namespace ParityBridge

/-- `Weight`: reference time and proof size. -/
structure Weight where
  refTime : ℕ
  proofSize : ℕ
deriving DecidableEq, Repr

namespace Weight

/-- `Weight::zero`. -/
def zero : Weight := ⟨0, 0⟩

instance : Add Weight := ⟨fun a b => ⟨a.refTime + b.refTime, a.proofSize + b.proofSize⟩⟩
instance : Sub Weight := ⟨fun a b => ⟨a.refTime - b.refTime, a.proofSize - b.proofSize⟩⟩

/-- `Weight::all_gte`: both components at least those of the other. -/
def allGte (a b : Weight) : Bool :=
  decide (b.refTime ≤ a.refTime) && decide (b.proofSize ≤ a.proofSize)

/-- `Weight::is_zero`. -/
def isZero (a : Weight) : Bool :=
  decide (a.refTime = 0) && decide (a.proofSize = 0)

/-- `Weight::any_gt`: some component above that of the other. -/
def anyGt (a b : Weight) : Bool :=
  decide (a.refTime > b.refTime) || decide (a.proofSize > b.proofSize)

/-- `Weight::min`, componentwise. -/
def min (a b : Weight) : Weight :=
  ⟨Nat.min a.refTime b.refTime, Nat.min a.proofSize b.proofSize⟩

/-- `Weight::saturating_sub`, componentwise. -/
def saturatingSub (a b : Weight) : Weight :=
  ⟨a.refTime - b.refTime, a.proofSize - b.proofSize⟩

/-- `Weight::set_proof_size`. -/
def setProofSize (a : Weight) (proofSize : ℕ) : Weight :=
  { a with proofSize := proofSize }

@[simp] theorem add_refTime (a b : Weight) : (a + b).refTime = a.refTime + b.refTime := rfl
@[simp] theorem add_proofSize (a b : Weight) : (a + b).proofSize = a.proofSize + b.proofSize := rfl
@[simp] theorem sub_refTime (a b : Weight) : (a - b).refTime = a.refTime - b.refTime := rfl
@[simp] theorem sub_proofSize (a b : Weight) : (a - b).proofSize = a.proofSize - b.proofSize := rfl
@[simp] theorem zero_refTime : zero.refTime = 0 := rfl
@[simp] theorem zero_proofSize : zero.proofSize = 0 := rfl
@[simp] theorem min_refTime (a b : Weight) : (a.min b).refTime = Nat.min a.refTime b.refTime := rfl
@[simp] theorem min_proofSize (a b : Weight) :
    (a.min b).proofSize = Nat.min a.proofSize b.proofSize := rfl

/-- What `any_gt` decides. -/
theorem anyGt_eq_false_iff (a b : Weight) :
    a.anyGt b = false ↔ a.refTime ≤ b.refTime ∧ a.proofSize ≤ b.proofSize := by
  simp [anyGt]

end Weight

/-- `RuntimeDbWeight`: the cost of one storage read and of one write. -/
structure RuntimeDbWeight where
  read : ℕ
  write : ℕ
deriving DecidableEq, Repr

/-- `RuntimeDbWeight::writes`. -/
def RuntimeDbWeight.writes (w : RuntimeDbWeight) (n : ℕ) : Weight :=
  ⟨w.write * n, 0⟩

/-- `RuntimeDbWeight::reads`. -/
def RuntimeDbWeight.reads (w : RuntimeDbWeight) (n : ℕ) : Weight :=
  ⟨w.read * n, 0⟩

/-- `RuntimeDbWeight::reads_writes`. -/
def RuntimeDbWeight.readsWrites (w : RuntimeDbWeight) (r n : ℕ) : Weight :=
  ⟨w.read * r + w.write * n, 0⟩

@[simp] theorem RuntimeDbWeight.writes_refTime (w : RuntimeDbWeight) (n : ℕ) :
    (w.writes n).refTime = w.write * n := rfl
@[simp] theorem RuntimeDbWeight.writes_proofSize (w : RuntimeDbWeight) (n : ℕ) :
    (w.writes n).proofSize = 0 := rfl

/-- `ReceivalConfirmationResult`. -/
inductive ReceivalConfirmationResult where
  | confirmedMessages (messages : DeliveredMessages)
  | noNewConfirmations
  | failedToConfirmFutureMessages
  | emptyUnrewardedRelayerEntry
  | nonConsecutiveUnrewardedRelayerEntries
  | tryingToConfirmMoreMessagesThanExpected (toConfirm : ℕ)
deriving DecidableEq, Repr

/-- The loop of `ensure_unrewarded_relayers_are_correct`, carrying the end of
    the previous entry. -/
def ensureUnrewardedRelayersAreCorrectFrom {R : Type} (latestReceivedNonce : ℕ) :
    Option ℕ → List (UnrewardedRelayer R) → Except ReceivalConfirmationResult Unit
  | _, [] => .ok ()
  | lastEntryEnd, entry :: rest =>
      if entry.messages.«end» < entry.messages.begin then
        .error .emptyUnrewardedRelayerEntry
      else if lastEntryEnd.any (fun e => e + 1 ≠ entry.messages.begin) then
        .error .nonConsecutiveUnrewardedRelayerEntries
      else if entry.messages.«end» > latestReceivedNonce then
        .error .failedToConfirmFutureMessages
      else ensureUnrewardedRelayersAreCorrectFrom latestReceivedNonce
        (some entry.messages.«end») rest

/-- `ensure_unrewarded_relayers_are_correct`. -/
def ensureUnrewardedRelayersAreCorrect {R : Type} (latestReceivedNonce : ℕ)
    (relayers : List (UnrewardedRelayer R)) : Except ReceivalConfirmationResult Unit :=
  ensureUnrewardedRelayersAreCorrectFrom latestReceivedNonce none relayers

/-- An outbound lane: its data and its message store (`nonce ↦ payload`). -/
structure OutboundLane (P : Type) where
  id : LaneId
  data : OutboundLaneData
  messages : ℕ → Option P

namespace OutboundLane

variable {R P : Type}

/-- A lane with default data and no stored message. -/
def init (id : LaneId) : OutboundLane P :=
  ⟨id, .default, fun _ => none⟩

/-- `OutboundLane::send_message`: returns the nonce of the new message. -/
def sendMessage (lane : OutboundLane P) (messagePayload : P) : ℕ × OutboundLane P :=
  let nonce := lane.data.latestGeneratedNonce + 1
  (nonce, { lane with
    data := { lane.data with latestGeneratedNonce := nonce }
    messages := Function.update lane.messages nonce (some messagePayload) })

/-- `OutboundLane::confirm_delivery`. -/
def confirmDelivery (lane : OutboundLane P) (maxAllowedMessages latestDeliveredNonce : ℕ)
    (relayers : List (UnrewardedRelayer R)) : ReceivalConfirmationResult × OutboundLane P :=
  let data := lane.data
  if latestDeliveredNonce ≤ data.latestReceivedNonce then
    (.noNewConfirmations, lane)
  else if latestDeliveredNonce > data.latestGeneratedNonce then
    (.failedToConfirmFutureMessages, lane)
  else if latestDeliveredNonce - data.latestReceivedNonce > maxAllowedMessages then
    (.tryingToConfirmMoreMessagesThanExpected (latestDeliveredNonce - data.latestReceivedNonce),
      lane)
  else
    match ensureUnrewardedRelayersAreCorrect latestDeliveredNonce relayers with
    | .error e => (e, lane)
    | .ok () =>
        (.confirmedMessages ⟨data.latestReceivedNonce + 1, latestDeliveredNonce⟩,
          { lane with data := { data with latestReceivedNonce := latestDeliveredNonce } })

/-- The `while` loop of `prune_messages`, run for at most `fuel` rounds: the
    lane data, the store, the spent and the remaining weight at exit.  The
    caller gives it exactly as many rounds as there are received messages
    left to prune, so the fuel never ends it early (`pruneLoop_exit`). -/
def pruneLoop (writeWeight twoWritesWeight : Weight) :
    ℕ → OutboundLaneData → (ℕ → Option P) → Weight → Weight →
      OutboundLaneData × (ℕ → Option P) × Weight × Weight
  | 0, data, messages, spent, remaining => (data, messages, spent, remaining)
  | fuel + 1, data, messages, spent, remaining =>
      if remaining.allGte twoWritesWeight ∧ data.oldestUnprunedNonce ≤ data.latestReceivedNonce then
        pruneLoop writeWeight twoWritesWeight fuel
          { data with oldestUnprunedNonce := data.oldestUnprunedNonce + 1 }
          (Function.update messages data.oldestUnprunedNonce none)
          (spent + writeWeight) (remaining - writeWeight)
      else (data, messages, spent, remaining)

/-- `OutboundLane::prune_messages`: returns the weight it spent. -/
def pruneMessages (lane : OutboundLane P) (dbWeight : RuntimeDbWeight)
    (remainingWeight : Weight) : Weight × OutboundLane P :=
  let writeWeight := dbWeight.writes 1
  let twoWritesWeight := writeWeight + writeWeight
  let out := pruneLoop writeWeight twoWritesWeight
    (lane.data.latestReceivedNonce + 1 - lane.data.oldestUnprunedNonce)
    lane.data lane.messages Weight.zero remainingWeight
  let spentWeight := out.2.2.1
  -- the lane data is written back only when some weight was spent; the
  -- payloads were removed in the loop either way
  if !spentWeight.isZero then
    (spentWeight + writeWeight, { lane with data := out.1, messages := out.2.1 })
  else
    (spentWeight, { lane with messages := out.2.1 })

/-- The three calls of an outbound lane, with their arguments. -/
inductive Call (R P : Type) where
  | sendMessage (messagePayload : P)
  | confirmDelivery (maxAllowedMessages latestDeliveredNonce : ℕ)
      (relayers : List (UnrewardedRelayer R))
  | pruneMessages (dbWeight : RuntimeDbWeight) (remainingWeight : Weight)

/-- One call on the lane; the result is dropped, its effect is in the state. -/
def step (lane : OutboundLane P) : Call R P → OutboundLane P
  | .sendMessage p => (sendMessage lane p).2
  | .confirmDelivery maxAllowed delivered relayers =>
      (confirmDelivery lane maxAllowed delivered relayers).2
  | .pruneMessages dbWeight remaining => (pruneMessages lane dbWeight remaining).2

end OutboundLane

end ParityBridge
