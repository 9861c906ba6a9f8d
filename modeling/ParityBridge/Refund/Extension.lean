import ParityBridge.Grandpa.Pallet
import ParityBridge.Parachains.Pallet
import ParityBridge.Messages.OutboundLane
import ParityBridge.Relayers.Pallet

/-! # The refund extension — `RefundBridgedParachainMessages`

    A signed extension of the runtime that refunds a relayer's transaction
    fee when the transaction delivered or confirmed messages of one lane
    (`Msgs::Id`), possibly in a `utility.batch_all` with the GRANDPA
    finality proof and the parachain head (`Para::Id`) the messages proof
    needs.  `pre_dispatch` rejects obsolete bundled headers and messages
    (`validate`) and takes a snapshot of the bundled call's shape and of the
    lane's nonce; `post_dispatch` registers the refund in the relayers
    pallet only if the dispatch succeeded and every bundled call updated
    the chain state.

    The runtime calls are modelled with the arguments the extension reads.
    The dispatch itself is not modelled: its result and the state it leaves
    are inputs, so that what is proved holds for any dispatch.  The refund
    amount (`compute_refund` of the fee, less the extra weight and size the
    GRANDPA call declares) is the parameter `refundFor`, and the extra
    weight and size of a GRANDPA call (`submit_finality_proof_info_from_args`)
    the parameter `extraOf`. -/

namespace ParityBridge

namespace Refund

open Grandpa Parachains

/-- `ChainId`. -/
abbrev ChainId := Vector UInt8 4

/-- `RewardsAccountOwner`: who pays the reward. -/
inductive RewardsAccountOwner where
  | thisChain
  | bridgedChain
deriving DecidableEq, Repr

/-- `RewardsAccountParams`. -/
structure RewardsAccountParams where
  laneId : LaneId
  bridgedChainId : ChainId
  owner : RewardsAccountOwner
deriving DecidableEq, Repr

/-- The calls of the runtime the extension tells apart, with the arguments
    it reads: `otherUtility` is any call of the utility pallet but
    `batch_all`, `other` any call of another pallet. -/
inductive RuntimeCall (H J PH RH Pf : Type) where
  | submitFinalityProof (finalityTarget : Header H) (justification : J)
  | submitParachainHeads (atRelayBlock : ℕ × RH) (parachains : List (ℕ × PH))
      (parachainHeadsProof : Pf)
  | receiveMessagesProof (lane : LaneId) (noncesEnd : ℕ)
  | receiveMessagesDeliveryProof (lane : LaneId) (relayersState : UnrewardedRelayersState)
  | batchAll (calls : List (RuntimeCall H J PH RH Pf))
  | otherUtility
  | other

/-- `SubmitFinalityProofInfo`. -/
structure SubmitFinalityProofInfo where
  blockNumber : ℕ
  extraWeight : Weight
  extraSize : ℕ
deriving DecidableEq, Repr

/-- `BaseMessagesProofInfo`. -/
structure BaseMessagesProofInfo where
  laneId : LaneId
  bestBundledNonce : ℕ
  bestStoredNonce : ℕ
deriving DecidableEq, Repr

/-- `BaseMessagesProofInfo::is_obsolete`. -/
def BaseMessagesProofInfo.isObsolete (info : BaseMessagesProofInfo) : Bool :=
  info.bestBundledNonce ≤ info.bestStoredNonce

/-- `messages_call_ext::CallInfo`. -/
inductive MessagesCallInfo where
  | receiveMessagesProof (info : BaseMessagesProofInfo)
  | receiveMessagesDeliveryProof (info : BaseMessagesProofInfo)
deriving DecidableEq, Repr

/-- The lane a messages call is for. -/
def MessagesCallInfo.laneId : MessagesCallInfo → LaneId
  | .receiveMessagesProof info => info.laneId
  | .receiveMessagesDeliveryProof info => info.laneId

/-- `CallInfo` of the extension: the recognised shapes of a transaction. -/
inductive CallInfo (PH : Type) where
  | allFinalityAndMsgs (finality : SubmitFinalityProofInfo) (para : SubmitParachainHeadsInfo ℕ PH)
      (msgs : MessagesCallInfo)
  | parachainFinalityAndMsgs (para : SubmitParachainHeadsInfo ℕ PH) (msgs : MessagesCallInfo)
  | msgs (msgs : MessagesCallInfo)

namespace CallInfo

variable {PH : Type}

/-- `CallInfo::submit_finality_proof_info`. -/
def submitFinalityProofInfo : CallInfo PH → Option SubmitFinalityProofInfo
  | .allFinalityAndMsgs info _ _ => some info
  | _ => none

/-- `CallInfo::submit_parachain_heads_info`. -/
def submitParachainHeadsInfo : CallInfo PH → Option (SubmitParachainHeadsInfo ℕ PH)
  | .allFinalityAndMsgs _ info _ => some info
  | .parachainFinalityAndMsgs info _ => some info
  | .msgs _ => none

/-- `CallInfo::messages_call_info`. -/
def messagesCallInfo : CallInfo PH → MessagesCallInfo
  | .allFinalityAndMsgs _ _ info => info
  | .parachainFinalityAndMsgs _ info => info
  | .msgs info => info

end CallInfo

/-- `PreDispatchData`. -/
structure PreDispatchData (Acc PH : Type) where
  relayer : Acc
  callInfo : CallInfo PH

/-- The `InvalidTransaction` kinds the checks raise. -/
inductive InvalidTransaction where
  | stale
  | call
deriving DecidableEq, Repr

/-- `Para::Id`, `Msgs::Id` and `BridgedChainId`, and the largest value of
    the relayers pallet's `Reward` type (the runtime's `Balance`). -/
structure RefundConfig where
  paraId : ℕ
  laneId : LaneId
  bridgedChainId : ChainId
  maxReward : ℕ

/-- The storage the extension reads and writes: the GRANDPA and parachains
    pallets, the messages pallet's lanes (`InboundLanes` and `OutboundLanes`
    are `ValueQuery`), and the relayers pallet's `RelayerRewards`. -/
structure RuntimeState (H A R PH Acc : Type) where
  grandpa : GrandpaStorage H A
  parachains : ParachainsStorage ℕ PH
  inboundLanes : LaneId → InboundLaneData R
  outboundLanes : LaneId → OutboundLaneData
  relayerRewards : Acc → RewardsAccountParams → Option ℕ

variable {H A J R PH RH Pf Acc : Type}

namespace RuntimeCall

/-- `CallSubType::submit_finality_proof_info` of the GRANDPA pallet. -/
def submitFinalityProofInfo (extraOf : Header H → J → Weight × ℕ) :
    RuntimeCall H J PH RH Pf → Option SubmitFinalityProofInfo
  | .submitFinalityProof finalityTarget justification =>
      some ⟨finalityTarget.number, (extraOf finalityTarget justification).1,
        (extraOf finalityTarget justification).2⟩
  | _ => none

/-- `CallSubType::one_entry_submit_parachain_heads_info`. -/
def oneEntrySubmitParachainHeadsInfo :
    RuntimeCall H J PH RH Pf → Option (SubmitParachainHeadsInfo ℕ PH)
  | .submitParachainHeads atRelayBlock [(paraId, paraHeadHash)] _ =>
      some ⟨atRelayBlock.1, paraId, paraHeadHash⟩
  | _ => none

/-- `CallSubType::submit_parachain_heads_info_for`. -/
def submitParachainHeadsInfoFor (call : RuntimeCall H J PH RH Pf) (paraId : ℕ) :
    Option (SubmitParachainHeadsInfo ℕ PH) :=
  call.oneEntrySubmitParachainHeadsInfo.filter fun update => update.paraId == paraId

/-- `MessagesCallSubType::receive_messages_proof_info`. -/
def receiveMessagesProofInfo (σ : RuntimeState H A R PH Acc) :
    RuntimeCall H J PH RH Pf → Option BaseMessagesProofInfo
  | .receiveMessagesProof lane noncesEnd =>
      some ⟨lane, noncesEnd, (σ.inboundLanes lane).lastDeliveredNonce⟩
  | _ => none

/-- `MessagesCallSubType::receive_messages_delivery_proof_info`. -/
def receiveMessagesDeliveryProofInfo (σ : RuntimeState H A R PH Acc) :
    RuntimeCall H J PH RH Pf → Option BaseMessagesProofInfo
  | .receiveMessagesDeliveryProof lane relayersState =>
      some ⟨lane, relayersState.lastDeliveredNonce, (σ.outboundLanes lane).latestReceivedNonce⟩
  | _ => none

/-- `MessagesCallSubType::call_info`. -/
def callInfo (σ : RuntimeState H A R PH Acc) (call : RuntimeCall H J PH RH Pf) :
    Option MessagesCallInfo :=
  match call.receiveMessagesProofInfo σ with
  | some info => some (.receiveMessagesProof info)
  | none =>
      match call.receiveMessagesDeliveryProofInfo σ with
      | some info => some (.receiveMessagesDeliveryProof info)
      | none => none

/-- `MessagesCallSubType::call_info_for`. -/
def callInfoFor (σ : RuntimeState H A R PH Acc) (call : RuntimeCall H J PH RH Pf) (laneId : LaneId) :
    Option MessagesCallInfo :=
  (call.callInfo σ).filter fun info => info.laneId == laneId

/-- `CallSubType::check_obsolete_submit_finality_proof`. -/
def checkObsoleteSubmitFinalityProof (extraOf : Header H → J → Weight × ℕ)
    (σ : RuntimeState H A R PH Acc) (call : RuntimeCall H J PH RH Pf) :
    Except InvalidTransaction Unit :=
  match call.submitFinalityProofInfo extraOf with
  | none => .ok ()
  | some finalityTarget =>
      match checkObsolete σ.grandpa finalityTarget.blockNumber with
      | .ok () => .ok ()
      | .error .oldHeader => .error .stale
      | .error _ => .error .call

/-- `CallSubType::check_obsolete_submit_parachain_heads`. -/
def checkObsoleteSubmitParachainHeads [DecidableEq PH] (σ : RuntimeState H A R PH Acc)
    (call : RuntimeCall H J PH RH Pf) : Except InvalidTransaction Unit :=
  match call.oneEntrySubmitParachainHeadsInfo with
  | none => .ok ()
  | some update => if isObsolete σ.parachains update then .error .stale else .ok ()

/-- `MessagesCallSubType::check_obsolete_call`. -/
def checkObsoleteCall (σ : RuntimeState H A R PH Acc) (call : RuntimeCall H J PH RH Pf) :
    Except InvalidTransaction Unit :=
  match call.callInfo σ with
  | some (.receiveMessagesProof proofInfo) =>
      if proofInfo.isObsolete then .error .stale else .ok ()
  | some (.receiveMessagesDeliveryProof proofInfo) =>
      if proofInfo.isObsolete then .error .stale else .ok ()
  | none => .ok ()

/-- `RefundBridgedParachainMessages::expand_call`: the calls of a
    `batch_all` of at most three calls, or the call itself. -/
def expandCall : RuntimeCall H J PH RH Pf → Option (List (RuntimeCall H J PH RH Pf))
  | .batchAll calls => if calls.length > 3 then none else some calls
  | .otherUtility => none
  | call => some [call]

end RuntimeCall

section Extension

variable [DecidableEq PH] (cfg : RefundConfig) (extraOf : Header H → J → Weight × ℕ)

/-- `SignedExtension::validate`: each expanded call passes the three
    obsolescence checks, the first failure rejecting the transaction. -/
def validate (σ : RuntimeState H A R PH Acc) (call : RuntimeCall H J PH RH Pf) :
    Except InvalidTransaction Unit :=
  match call.expandCall with
  | none => .ok ()
  | some calls => calls.forM fun nestedCall => do
      nestedCall.checkObsoleteSubmitFinalityProof extraOf σ
      nestedCall.checkObsoleteSubmitParachainHeads σ
      nestedCall.checkObsoleteCall σ

/-- The `parse_call` closure of `pre_dispatch`: the shape of the
    transaction, by the number of expanded calls. -/
def parseCall (σ : RuntimeState H A R PH Acc) (call : RuntimeCall H J PH RH Pf) :
    Option (CallInfo PH) :=
  match call.expandCall with
  | some [c₁, c₂, c₃] => do
      let finality ← c₁.submitFinalityProofInfo extraOf
      let para ← c₂.submitParachainHeadsInfoFor cfg.paraId
      let msgs ← c₃.callInfoFor σ cfg.laneId
      pure (.allFinalityAndMsgs finality para msgs)
  | some [c₁, c₂] => do
      let para ← c₁.submitParachainHeadsInfoFor cfg.paraId
      let msgs ← c₂.callInfoFor σ cfg.laneId
      pure (.parachainFinalityAndMsgs para msgs)
  | some [c₁] => do
      let msgs ← c₁.callInfoFor σ cfg.laneId
      pure (.msgs msgs)
  | _ => none

/-- `SignedExtension::pre_dispatch`. -/
def preDispatch (σ : RuntimeState H A R PH Acc) (who : Acc) (call : RuntimeCall H J PH RH Pf) :
    Except InvalidTransaction (Option (PreDispatchData Acc PH)) :=
  match validate extraOf σ call with
  | .error e => .error e
  | .ok () => .ok ((parseCall cfg extraOf σ call).map fun callInfo => ⟨who, callInfo⟩)

end Extension

/-- `CallHelper::was_partially_successful`: the lane has moved past the
    nonce stored when the call was parsed. -/
def wasPartiallySuccessful (σ : RuntimeState H A R PH Acc) : MessagesCallInfo → Bool
  | .receiveMessagesProof info => (σ.inboundLanes info.laneId).lastDeliveredNonce > info.bestStoredNonce
  | .receiveMessagesDeliveryProof info =>
      (σ.outboundLanes info.laneId).latestReceivedNonce > info.bestStoredNonce

/-- `RelayersPallet::register_relayer_reward`, on the relayers pallet's
    storage in the runtime state: the pallet's own function, whose sum
    saturates at `maxReward`. -/
def registerRelayerReward [DecidableEq Acc] (maxReward : ℕ) (σ : RuntimeState H A R PH Acc)
    (rewardsAccountParams : RewardsAccountParams) (relayer : Acc) (reward : ℕ) :
    RuntimeState H A R PH Acc :=
  { σ with
    relayerRewards := Relayers.registerRelayerReward maxReward σ.relayerRewards
      rewardsAccountParams relayer reward }

section PostDispatch

variable [DecidableEq PH] [DecidableEq Acc] (cfg : RefundConfig) (refundFor : Weight → ℕ → ℕ)

/-- The messages check of `post_dispatch`, then the refund, less the
    GRANDPA call's extra weight and size, to the account of the lane's
    delivery or confirmation side. -/
def refundIfDelivered (σ : RuntimeState H A R PH Acc) (relayer : Acc) (callInfo : CallInfo PH)
    (extraWeight : Weight) (extraSize : ℕ) : RuntimeState H A R PH Acc :=
  let msgsCallInfo := callInfo.messagesCallInfo
  if !wasPartiallySuccessful σ msgsCallInfo then σ
  else
    let refund := refundFor extraWeight extraSize
    let rewardsAccountOwner := match msgsCallInfo with
      | .receiveMessagesProof _ => RewardsAccountOwner.thisChain
      | .receiveMessagesDeliveryProof _ => RewardsAccountOwner.bridgedChain
    registerRelayerReward cfg.maxReward σ ⟨cfg.laneId, cfg.bridgedChainId, rewardsAccountOwner⟩
      relayer refund

/-- The rest of `post_dispatch` once the relay chain check has passed: the
    parachain check, then the messages check and the refund. -/
def refundIfUpdated (σ : RuntimeState H A R PH Acc) (relayer : Acc) (callInfo : CallInfo PH)
    (extraWeight : Weight) (extraSize : ℕ) : RuntimeState H A R PH Acc :=
  -- check if parachain state has been updated
  match callInfo.submitParachainHeadsInfo with
  | some paraProofInfo =>
      if !Parachains.wasSuccessful σ.parachains paraProofInfo then σ
      else refundIfDelivered cfg refundFor σ relayer callInfo extraWeight extraSize
  | none => refundIfDelivered cfg refundFor σ relayer callInfo extraWeight extraSize

/-- `SignedExtension::post_dispatch`, on the state the dispatch left. -/
def postDispatch {E : Type} (pre : Option (Option (PreDispatchData Acc PH)))
    (result : Except E Unit) (σ : RuntimeState H A R PH Acc) : RuntimeState H A R PH Acc :=
  -- we don't refund anything if the transaction has failed
  if !result.isOk then σ
  else
    match pre with
    | some (some pre) =>
        -- check if relay chain state has been updated
        match pre.callInfo.submitFinalityProofInfo with
        | some finalityProofInfo =>
            if !Grandpa.wasSuccessful σ.grandpa finalityProofInfo.blockNumber then σ
            else refundIfUpdated cfg refundFor σ pre.relayer pre.callInfo
              finalityProofInfo.extraWeight finalityProofInfo.extraSize
        | none => refundIfUpdated cfg refundFor σ pre.relayer pre.callInfo Weight.zero 0
    | _ => σ

end PostDispatch

/-- A signed transaction of `who` through the extension: `pre_dispatch` on
    the state before it; the dispatch, which returned `result` and left
    `dispatched`; then `post_dispatch` on that state.  `none` when
    `pre_dispatch` rejects the transaction, which is then not included. -/
def applyTransaction [DecidableEq PH] [DecidableEq Acc] {E : Type} (cfg : RefundConfig)
    (extraOf : Header H → J → Weight × ℕ) (refundFor : Weight → ℕ → ℕ)
    (σ : RuntimeState H A R PH Acc) (who : Acc) (call : RuntimeCall H J PH RH Pf)
    (result : Except E Unit) (dispatched : RuntimeState H A R PH Acc) :
    Option (RuntimeState H A R PH Acc) :=
  match preDispatch cfg extraOf σ who call with
  | .error _ => none
  | .ok pre => some (postDispatch cfg refundFor (some pre) result dispatched)

/-- A transaction as the runtime processed it: the state `pre_dispatch`
    read, its submitter and call, the dispatch's result and the state the
    dispatch left. -/
structure Transaction (H A J R PH RH Pf Acc E : Type) where
  before : RuntimeState H A R PH Acc
  who : Acc
  call : RuntimeCall H J PH RH Pf
  result : Except E Unit
  dispatched : RuntimeState H A R PH Acc

end Refund

end ParityBridge
