import ParityBridge.Messages.InboundLane
import ParityBridge.Messages.Pallet
import ParityBridge.Messages.Rewards

/-! # One lane across two chains — deliveries, confirmations and rewards

    The source chain holds the outbound lane and the relayers' reward
    balances, the target chain the inbound lane.  Relayers move lane states
    between them with arbitrary lag: a delivery may carry any outbound lane
    data the source has had (`receive_state_update` before the message), and
    a confirmation may prove any inbound lane data the target has had
    (`receive_messages_delivery_proof`, then `pay_reward` of
    `DeliveryConfirmationPaymentsAdapter`).  Both histories are kept, so that
    "a state the chain had" is membership in them; a proof of any other
    state is rejected, as the header chain's proof verification rejects it.

    Two records are kept only to state what the chains do: `deliveredBy`,
    the relayer the target recorded for each delivered nonce, in nonce
    order, and `confirmations`, the counts `calc_relayers_rewards` produced at
    each confirmation. -/

namespace ParityBridge

variable {R A P D : Type}

/-- The two ends of one lane and what the chains have recorded. -/
structure Bridge (R A P : Type) where
  source : OutboundLane P
  target : InboundLane R A P
  sourceHistory : List OutboundLaneData
  targetHistory : List (InboundLaneData R)
  deliveredBy : List R
  confirmations : List (RelayersRewards R)
  relayerRewards : R → ℕ

namespace Bridge

/-- The steps of users and relayers on the lane. -/
inductive Call (R A P : Type) where
  | sendMessage (messagePayload : P)
  | pruneMessages (dbWeight : RuntimeDbWeight) (remainingWeight : Weight)
  | deliver (laneState : Option OutboundLaneData) (relayerAtBridgedChain : R)
      (relayerAtThisChain : A) (nonce : ℕ) (messageData : P)
  | confirm (laneData : InboundLaneData R) (relayersState : UnrewardedRelayersState)
      (confirmationRelayer : R)

/-- Both lanes at their defaults, nothing recorded. -/
def init (id : LaneId) (maxEntries maxUnconfirmed : ℕ) : Bridge R A P :=
  ⟨.init id, .init id maxEntries maxUnconfirmed, [.default], [.default], [], [], fun _ => 0⟩

/-- The source lane after a call of the source chain. -/
def withSource (b : Bridge R A P) (source : OutboundLane P) : Bridge R A P :=
  { b with source := source, sourceHistory := b.sourceHistory ++ [source.data] }

/-- A delivery transaction: the carried outbound lane state first, if any,
    then the message. -/
def deliver [DecidableEq R] (dispatch : A → DispatchMessage P → D) (b : Bridge R A P)
    (target : InboundLane R A P) (relayer : R) (a : A) (nonce : ℕ) (m : P) : Bridge R A P :=
  let (result, target') := target.receiveMessage dispatch relayer a nonce m
  { b with
    target := target'
    targetHistory := b.targetHistory ++ [target'.data]
    deliveredBy := if result.isDispatched then b.deliveredBy ++ [relayer] else b.deliveredBy }

/-- A confirmation transaction that proves the inbound lane data `laneData`. -/
def confirm [DecidableEq R] (deliveryReward : ℕ) (b : Bridge R A P) (laneData : InboundLaneData R)
    (relayersState : UnrewardedRelayersState) (confirmationRelayer : R) : Bridge R A P :=
  match receiveMessagesDeliveryProof b.source laneData relayersState with
  | .error _ => b
  | .ok (none, source) => b.withSource source
  | .ok (some confirmed, source) =>
      { b.withSource source with
        confirmations := b.confirmations ++
          [calcRelayersRewards laneData.relayers confirmed.begin confirmed.«end»]
        relayerRewards := payReward deliveryReward laneData.relayers confirmationRelayer
          confirmed.begin confirmed.«end» b.relayerRewards }

/-- One step of the lane across both chains. -/
def step [DecidableEq R] (dispatch : A → DispatchMessage P → D) (deliveryReward : ℕ)
    (b : Bridge R A P) : Call R A P → Bridge R A P
  | .sendMessage p => b.withSource (b.source.sendMessage p).2
  | .pruneMessages db w => b.withSource (b.source.pruneMessages db w).2
  | .deliver none relayer a nonce m => b.deliver dispatch b.target relayer a nonce m
  | .deliver (some laneState) relayer a nonce m =>
      if laneState ∈ b.sourceHistory then
        b.deliver dispatch (b.target.receiveStateUpdate laneState).2 relayer a nonce m
      else b
  | .confirm laneData relayersState confirmationRelayer =>
      if laneData ∈ b.targetHistory then
        b.confirm deliveryReward laneData relayersState confirmationRelayer
      else b

end Bridge

end ParityBridge
