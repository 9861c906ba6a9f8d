import ParityBridge.Relayers.PalletProofs
import ParityBridge.Refund.Extension

/-! # Refund extension proofs — a refund is paid for useful work only

    What `post_dispatch` registers (`postDispatch_changed`): nothing unless
    the dispatch succeeded and `pre_dispatch` parsed the transaction, and
    then only a refund to the submitter, on the lane's account, after every
    bundled call updated the chain.  What `pre_dispatch` parses
    (`parseCall_eq_some`): a lone messages call for the lane, or a
    `batch_all` of it alone, of a one-head parachain call and it, or of a
    GRANDPA call, a one-head parachain call and it.  Together
    (`refunds_only_for_useful_work`): every refund moved the lane's nonce
    past the one stored when the transaction was parsed, so along any
    sequence of transactions in which the lane's nonce never decreases, the
    refunds are at most the nonce's total increase. -/

namespace ParityBridge

namespace Refund

open Grandpa Parachains

variable {H A J R PH RH Pf Acc : Type}

/-- Whose account a refund for a messages call is registered on. -/
def MessagesCallInfo.rewardsAccountOwner : MessagesCallInfo → RewardsAccountOwner
  | .receiveMessagesProof _ => .thisChain
  | .receiveMessagesDeliveryProof _ => .bridgedChain

/-! ## What `post_dispatch` registers -/

section PostDispatch

variable [DecidableEq PH] [DecidableEq Acc] (cfg : RefundConfig) (refundFor : Weight → ℕ → ℕ)

omit [DecidableEq PH] in
/-- Registering a reward changes the rewards of that relayer on that
    account only: the relayers pallet's own lemma, read on the runtime's
    storage. -/
theorem registerRelayerReward_changed {maxReward : ℕ} {σ : RuntimeState H A R PH Acc}
    {params : RewardsAccountParams} {relayer : Acc} {reward : ℕ} {acc : Acc}
    {p : RewardsAccountParams}
    (h : (registerRelayerReward maxReward σ params relayer reward).relayerRewards acc p ≠
      σ.relayerRewards acc p) :
    acc = relayer ∧ p = params := by
  unfold registerRelayerReward at h
  dsimp only at h
  rw [Relayers.registerRelayerReward_apply] at h
  by_cases hkey : reward ≠ 0 ∧ acc = relayer ∧ p = params
  · exact hkey.2
  · rw [if_neg hkey] at h
    exact absurd rfl h

omit [DecidableEq PH] in
theorem refundIfDelivered_changed {σ : RuntimeState H A R PH Acc} {relayer : Acc}
    {callInfo : CallInfo PH} {extraWeight : Weight} {extraSize : ℕ} {acc : Acc}
    {params : RewardsAccountParams}
    (h : (refundIfDelivered cfg refundFor σ relayer callInfo extraWeight extraSize).relayerRewards
      acc params ≠ σ.relayerRewards acc params) :
    acc = relayer ∧
    params = ⟨cfg.laneId, cfg.bridgedChainId, callInfo.messagesCallInfo.rewardsAccountOwner⟩ ∧
    wasPartiallySuccessful σ callInfo.messagesCallInfo = true := by
  unfold refundIfDelivered at h
  dsimp only at h
  split at h
  · exact absurd rfl h
  rename_i hmoved
  obtain ⟨hacc, hparams⟩ := registerRelayerReward_changed h
  refine ⟨hacc, ?_, by simpa using hmoved⟩
  rw [hparams]
  cases callInfo.messagesCallInfo <;> rfl

theorem refundIfUpdated_changed {σ : RuntimeState H A R PH Acc} {relayer : Acc}
    {callInfo : CallInfo PH} {extraWeight : Weight} {extraSize : ℕ} {acc : Acc}
    {params : RewardsAccountParams}
    (h : (refundIfUpdated cfg refundFor σ relayer callInfo extraWeight extraSize).relayerRewards
      acc params ≠ σ.relayerRewards acc params) :
    acc = relayer ∧
    params = ⟨cfg.laneId, cfg.bridgedChainId, callInfo.messagesCallInfo.rewardsAccountOwner⟩ ∧
    (∀ para ∈ callInfo.submitParachainHeadsInfo, Parachains.wasSuccessful σ.parachains para = true) ∧
    wasPartiallySuccessful σ callInfo.messagesCallInfo = true := by
  unfold refundIfUpdated at h
  split at h
  · rename_i para hpara
    split at h
    · exact absurd rfl h
    rename_i hsucc
    obtain ⟨hacc, hparams, hmoved⟩ := refundIfDelivered_changed cfg refundFor h
    refine ⟨hacc, hparams, fun para' hpara' => ?_, hmoved⟩
    rw [hpara, Option.mem_some_iff] at hpara'
    subst hpara'
    simpa using hsucc
  · rename_i hnone
    obtain ⟨hacc, hparams, hmoved⟩ := refundIfDelivered_changed cfg refundFor h
    refine ⟨hacc, hparams, fun para hpara => ?_, hmoved⟩
    rw [hnone] at hpara
    exact nomatch hpara

/-- **WHAT A REFUND NEEDS**: `post_dispatch` changes a relayer's rewards
    only for a dispatch that succeeded of a transaction `pre_dispatch`
    parsed, to its submitter, on the lane's account of the messages call's
    side, and only when the bundled GRANDPA header is now the best
    finalized one, the bundled parachain head the best head, and the lane
    moved past the nonce stored at `pre_dispatch`. -/
theorem postDispatch_changed {E : Type} (pre : Option (Option (PreDispatchData Acc PH)))
    (result : Except E Unit) (σ : RuntimeState H A R PH Acc) {acc : Acc}
    {params : RewardsAccountParams}
    (h : (postDispatch cfg refundFor pre result σ).relayerRewards acc params ≠
      σ.relayerRewards acc params) :
    result.isOk = true ∧ ∃ preData : PreDispatchData Acc PH, pre = some (some preData) ∧
      acc = preData.relayer ∧
      params = ⟨cfg.laneId, cfg.bridgedChainId,
        preData.callInfo.messagesCallInfo.rewardsAccountOwner⟩ ∧
      (∀ finality ∈ preData.callInfo.submitFinalityProofInfo,
        Grandpa.wasSuccessful σ.grandpa finality.blockNumber = true) ∧
      (∀ para ∈ preData.callInfo.submitParachainHeadsInfo,
        Parachains.wasSuccessful σ.parachains para = true) ∧
      wasPartiallySuccessful σ preData.callInfo.messagesCallInfo = true := by
  unfold postDispatch at h
  split at h
  · exact absurd rfl h
  rename_i hok
  refine ⟨by simpa using hok, ?_⟩
  split at h
  · rename_i preData
    refine ⟨preData, rfl, ?_⟩
    split at h
    · -- a bundled GRANDPA header: it must be the best finalized one now
      rename_i finality hfinality
      split at h
      · exact absurd rfl h
      rename_i hsucc
      obtain ⟨hacc, hparams, hpara, hmoved⟩ := refundIfUpdated_changed cfg refundFor h
      refine ⟨hacc, hparams, fun finality' hfinality' => ?_, hpara, hmoved⟩
      rw [hfinality, Option.mem_some_iff] at hfinality'
      subst hfinality'
      simpa using hsucc
    · rename_i hnone
      obtain ⟨hacc, hparams, hpara, hmoved⟩ := refundIfUpdated_changed cfg refundFor h
      refine ⟨hacc, hparams, fun finality hfinality => ?_, hpara, hmoved⟩
      rw [hnone] at hfinality
      exact nomatch hfinality
  · exact absurd rfl h

end PostDispatch

/-! ## What `pre_dispatch` parses -/

namespace RuntimeCall

theorem expandCall_eq_singleton {call c : RuntimeCall H J PH RH Pf}
    (h : call.expandCall = some [c]) : call = .batchAll [c] ∨ call = c := by
  cases call with
  | batchAll calls =>
      have hbatch : (if calls.length > 3 then none else some calls) = some [c] := h
      split at hbatch
      · exact nomatch hbatch
      · rw [Option.some.inj hbatch]
        exact .inl rfl
  | otherUtility => exact nomatch h
  | _ => exact .inr (List.cons.inj (Option.some.inj h)).1

theorem expandCall_eq_cons_cons {call c₁ c₂ : RuntimeCall H J PH RH Pf}
    {rest : List (RuntimeCall H J PH RH Pf)} (h : call.expandCall = some (c₁ :: c₂ :: rest)) :
    call = .batchAll (c₁ :: c₂ :: rest) := by
  cases call with
  | batchAll calls =>
      have hbatch : (if calls.length > 3 then none else some calls) = some (c₁ :: c₂ :: rest) := h
      split at hbatch
      · exact nomatch hbatch
      · rw [Option.some.inj hbatch]
  | otherUtility => exact nomatch h
  | _ => exact nomatch (List.cons.inj (Option.some.inj h)).2

/-- A messages call for `laneId`, with the nonce the lane stores now. -/
theorem callInfoFor_eq_some {σ : RuntimeState H A R PH Acc} {c : RuntimeCall H J PH RH Pf}
    {laneId : LaneId} {m : MessagesCallInfo} (h : c.callInfoFor σ laneId = some m) :
    (∃ noncesEnd, c = .receiveMessagesProof laneId noncesEnd ∧
      m = .receiveMessagesProof ⟨laneId, noncesEnd, (σ.inboundLanes laneId).lastDeliveredNonce⟩) ∨
    (∃ relayersState, c = .receiveMessagesDeliveryProof laneId relayersState ∧
      m = .receiveMessagesDeliveryProof
        ⟨laneId, relayersState.lastDeliveredNonce, (σ.outboundLanes laneId).latestReceivedNonce⟩) := by
  cases c with
  | receiveMessagesProof lane noncesEnd =>
      simp only [callInfoFor, callInfo, receiveMessagesProofInfo, Option.filter_some,
        MessagesCallInfo.laneId, beq_iff_eq] at h
      split at h
      · rename_i hlane
        subst hlane
        exact .inl ⟨noncesEnd, rfl, (Option.some.inj h).symm⟩
      · exact nomatch h
  | receiveMessagesDeliveryProof lane relayersState =>
      simp only [callInfoFor, callInfo, receiveMessagesProofInfo, receiveMessagesDeliveryProofInfo,
        Option.filter_some, MessagesCallInfo.laneId, beq_iff_eq] at h
      split at h
      · rename_i hlane
        subst hlane
        exact .inr ⟨relayersState, rfl, (Option.some.inj h).symm⟩
      · exact nomatch h
  | _ => exact nomatch h

/-- A parachain call of one head of `paraId`. -/
theorem submitParachainHeadsInfoFor_eq_some {c : RuntimeCall H J PH RH Pf} {paraId : ℕ}
    {para : SubmitParachainHeadsInfo ℕ PH} (h : c.submitParachainHeadsInfoFor paraId = some para) :
    ∃ atRelayBlock paraHeadHash parachainHeadsProof,
      c = .submitParachainHeads atRelayBlock [(paraId, paraHeadHash)] parachainHeadsProof ∧
      para = ⟨atRelayBlock.1, paraId, paraHeadHash⟩ := by
  unfold submitParachainHeadsInfoFor at h
  obtain ⟨hone, hfor⟩ := Option.filter_eq_some_iff.mp h
  cases c with
  | submitParachainHeads atRelayBlock parachains parachainHeadsProof =>
      -- exactly one entry, for `paraId`
      rcases parachains with _ | ⟨⟨paraId', paraHeadHash⟩, _ | ⟨entry, rest⟩⟩
      · exact nomatch hone
      · rw [oneEntrySubmitParachainHeadsInfo, Option.some.injEq] at hone
        subst hone
        rw [beq_iff_eq] at hfor
        subst hfor
        exact ⟨atRelayBlock, paraHeadHash, parachainHeadsProof, rfl, rfl⟩
      · exact nomatch hone
  | _ => exact nomatch hone

/-- A GRANDPA call, whose target's number is the info's block number. -/
theorem submitFinalityProofInfo_eq_some {extraOf : Header H → J → Weight × ℕ}
    {c : RuntimeCall H J PH RH Pf} {finality : SubmitFinalityProofInfo}
    (h : c.submitFinalityProofInfo extraOf = some finality) :
    ∃ finalityTarget justification, c = .submitFinalityProof finalityTarget justification ∧
      finality.blockNumber = finalityTarget.number := by
  cases c with
  | submitFinalityProof finalityTarget justification =>
      rw [submitFinalityProofInfo, Option.some.injEq] at h
      exact ⟨finalityTarget, justification, rfl, by rw [← h]⟩
  | _ => exact nomatch h

end RuntimeCall

section Parse

variable [DecidableEq PH] (cfg : RefundConfig) (extraOf : Header H → J → Weight × ℕ)

omit [DecidableEq PH] in
/-- **PARSED SHAPES**: `pre_dispatch` recognises one messages call for the
    lane alone (as the call, or in a `batch_all`), after a one-head
    parachain call, or after a GRANDPA call and a one-head parachain call. -/
theorem parseCall_eq_some {σ : RuntimeState H A R PH Acc} {call : RuntimeCall H J PH RH Pf}
    {callInfo : CallInfo PH} (h : parseCall cfg extraOf σ call = some callInfo) :
    (∃ c msgs, call.expandCall = some [c] ∧ c.callInfoFor σ cfg.laneId = some msgs ∧
      callInfo = .msgs msgs) ∨
    (∃ c₁ c₂ para msgs, call.expandCall = some [c₁, c₂] ∧
      c₁.submitParachainHeadsInfoFor cfg.paraId = some para ∧
      c₂.callInfoFor σ cfg.laneId = some msgs ∧ callInfo = .parachainFinalityAndMsgs para msgs) ∨
    (∃ c₁ c₂ c₃ finality para msgs, call.expandCall = some [c₁, c₂, c₃] ∧
      c₁.submitFinalityProofInfo extraOf = some finality ∧
      c₂.submitParachainHeadsInfoFor cfg.paraId = some para ∧
      c₃.callInfoFor σ cfg.laneId = some msgs ∧ callInfo = .allFinalityAndMsgs finality para msgs) := by
  unfold parseCall at h
  split at h
  · rename_i c₁ c₂ c₃ hexpand
    simp only [Option.bind_eq_bind, Option.bind_eq_some_iff, Option.pure_def,
      Option.some.injEq] at h
    obtain ⟨finality, hf, para, hp, msgs, hm, rfl⟩ := h
    exact .inr (.inr ⟨c₁, c₂, c₃, finality, para, msgs, hexpand, hf, hp, hm, rfl⟩)
  · rename_i c₁ c₂ hexpand
    simp only [Option.bind_eq_bind, Option.bind_eq_some_iff, Option.pure_def,
      Option.some.injEq] at h
    obtain ⟨para, hp, msgs, hm, rfl⟩ := h
    exact .inr (.inl ⟨c₁, c₂, para, msgs, hexpand, hp, hm, rfl⟩)
  · rename_i c hexpand
    simp only [Option.bind_eq_bind, Option.bind_eq_some_iff, Option.pure_def,
      Option.some.injEq] at h
    obtain ⟨msgs, hm, rfl⟩ := h
    exact .inl ⟨c, msgs, hexpand, hm, rfl⟩
  · exact nomatch h

/-- A transaction `pre_dispatch` accepts with pre-dispatch data is one it
    parsed, submitted by the relayer the data names. -/
theorem preDispatch_eq_ok_some {σ : RuntimeState H A R PH Acc} {who : Acc}
    {call : RuntimeCall H J PH RH Pf} {preData : PreDispatchData Acc PH}
    (h : preDispatch cfg extraOf σ who call = .ok (some preData)) :
    parseCall cfg extraOf σ call = some preData.callInfo ∧ preData.relayer = who := by
  unfold preDispatch at h
  split at h
  · exact nomatch h
  rw [Except.ok.injEq, Option.map_eq_some_iff] at h
  obtain ⟨callInfo, hparse, rfl⟩ := h
  exact ⟨hparse, rfl⟩

end Parse

/-! ## Useful work -/

/-- The nonce of `lane` that refunds on `owner`'s account are paid for: the
    inbound lane's last delivered nonce for deliveries, the outbound lane's
    latest received nonce for confirmations. -/
def laneNonce (lane : LaneId) (owner : RewardsAccountOwner) (σ : RuntimeState H A R PH Acc) : ℕ :=
  match owner with
  | .thisChain => (σ.inboundLanes lane).lastDeliveredNonce
  | .bridgedChain => (σ.outboundLanes lane).latestReceivedNonce

/-- A messages call for `lane` of the kind refunded on `owner`'s account,
    after which the lane's nonce is above the one before it. -/
def MovedLane (lane : LaneId) (owner : RewardsAccountOwner) (σ σ' : RuntimeState H A R PH Acc)
    (c : RuntimeCall H J PH RH Pf) : Prop :=
  (match owner with
    | .thisChain => ∃ noncesEnd, c = .receiveMessagesProof lane noncesEnd
    | .bridgedChain => ∃ relayersState, c = .receiveMessagesDeliveryProof lane relayersState) ∧
  laneNonce lane owner σ < laneNonce lane owner σ'

/-- A GRANDPA call whose target is now the best finalized header. -/
def UpdatedFinality (σ' : RuntimeState H A R PH Acc) (c : RuntimeCall H J PH RH Pf) : Prop :=
  ∃ finalityTarget justification, c = .submitFinalityProof finalityTarget justification ∧
    σ'.grandpa.bestFinalized.map Prod.fst = some finalityTarget.number

/-- A call of one head of parachain `paraId` that is now its best head. -/
def UpdatedParachain (paraId : ℕ) (σ' : RuntimeState H A R PH Acc) (c : RuntimeCall H J PH RH Pf) :
    Prop :=
  ∃ atRelayBlock paraHeadHash parachainHeadsProof,
    c = .submitParachainHeads atRelayBlock [(paraId, paraHeadHash)] parachainHeadsProof ∧
    (σ'.parachains.parasInfo paraId).map (·.bestHeadHash) = some ⟨atRelayBlock.1, paraHeadHash⟩

/-- The transactions a refund on `owner`'s account is paid for, from the
    state of `pre_dispatch` to the state the dispatch left: a messages call
    for the lane that moved it, alone, alone in a `batch_all`, in a
    `batch_all` after a one-head parachain call that updated the parachain,
    or after a GRANDPA call that updated the relay chain and such a
    parachain call. -/
def RefundedShape (cfg : RefundConfig) (owner : RewardsAccountOwner)
    (σ σ' : RuntimeState H A R PH Acc) (call : RuntimeCall H J PH RH Pf) : Prop :=
  MovedLane cfg.laneId owner σ σ' call ∨
  (∃ c, call = .batchAll [c] ∧ MovedLane cfg.laneId owner σ σ' c) ∨
  (∃ c₁ c₂, call = .batchAll [c₁, c₂] ∧ UpdatedParachain cfg.paraId σ' c₁ ∧
    MovedLane cfg.laneId owner σ σ' c₂) ∨
  (∃ c₁ c₂ c₃, call = .batchAll [c₁, c₂, c₃] ∧ UpdatedFinality σ' c₁ ∧
    UpdatedParachain cfg.paraId σ' c₂ ∧ MovedLane cfg.laneId owner σ σ' c₃)

/-- Every refunded shape moved the lane's nonce. -/
theorem RefundedShape.laneNonce_lt {cfg : RefundConfig} {owner : RewardsAccountOwner}
    {σ σ' : RuntimeState H A R PH Acc} {call : RuntimeCall H J PH RH Pf}
    (h : RefundedShape cfg owner σ σ' call) :
    laneNonce cfg.laneId owner σ < laneNonce cfg.laneId owner σ' := by
  rcases h with hmoved | ⟨_, -, hmoved⟩ | ⟨_, _, -, -, hmoved⟩ | ⟨_, _, _, -, -, -, hmoved⟩ <;>
    exact hmoved.2

theorem movedLane_of_callInfoFor {σ σ' : RuntimeState H A R PH Acc} {c : RuntimeCall H J PH RH Pf}
    {lane : LaneId} {msgs : MessagesCallInfo} (hm : c.callInfoFor σ lane = some msgs)
    (hw : wasPartiallySuccessful σ' msgs = true) :
    MovedLane lane msgs.rewardsAccountOwner σ σ' c := by
  rcases RuntimeCall.callInfoFor_eq_some hm with ⟨noncesEnd, rfl, rfl⟩ | ⟨relayersState, rfl, rfl⟩
  · refine ⟨⟨noncesEnd, rfl⟩, ?_⟩
    show (σ.inboundLanes lane).lastDeliveredNonce < (σ'.inboundLanes lane).lastDeliveredNonce
    simpa [wasPartiallySuccessful] using hw
  · refine ⟨⟨relayersState, rfl⟩, ?_⟩
    show (σ.outboundLanes lane).latestReceivedNonce < (σ'.outboundLanes lane).latestReceivedNonce
    simpa [wasPartiallySuccessful] using hw

theorem updatedParachain_of_info [DecidableEq PH] {σ' : RuntimeState H A R PH Acc}
    {c : RuntimeCall H J PH RH Pf} {paraId : ℕ} {para : SubmitParachainHeadsInfo ℕ PH}
    (hp : c.submitParachainHeadsInfoFor paraId = some para)
    (hw : Parachains.wasSuccessful σ'.parachains para = true) : UpdatedParachain paraId σ' c := by
  obtain ⟨atRelayBlock, paraHeadHash, parachainHeadsProof, rfl, rfl⟩ :=
    RuntimeCall.submitParachainHeadsInfoFor_eq_some hp
  refine ⟨atRelayBlock, paraHeadHash, parachainHeadsProof, rfl, ?_⟩
  unfold Parachains.wasSuccessful at hw
  dsimp only at hw
  split at hw
  · rename_i info hinfo
    rw [hinfo, Option.map_some, of_decide_eq_true hw]
  · exact nomatch hw

theorem updatedFinality_of_info {extraOf : Header H → J → Weight × ℕ}
    {σ' : RuntimeState H A R PH Acc} {c : RuntimeCall H J PH RH Pf}
    {finality : SubmitFinalityProofInfo} (hf : c.submitFinalityProofInfo extraOf = some finality)
    (hw : Grandpa.wasSuccessful σ'.grandpa finality.blockNumber = true) : UpdatedFinality σ' c := by
  obtain ⟨finalityTarget, justification, rfl, hnumber⟩ := RuntimeCall.submitFinalityProofInfo_eq_some hf
  refine ⟨finalityTarget, justification, rfl, ?_⟩
  unfold Grandpa.wasSuccessful at hw
  split at hw
  · rename_i bestNumber bestHash hbest
    rw [hbest, Option.map_some, beq_iff_eq.mp hw, hnumber]
  · exact nomatch hw

section Transactions

variable [DecidableEq PH] [DecidableEq Acc] (cfg : RefundConfig)
  (extraOf : Header H → J → Weight × ℕ) (refundFor : Weight → ℕ → ℕ)

/-- **REFUND FOR USEFUL WORK**: a transaction whose `post_dispatch`
    changes a relayer's rewards succeeded, was submitted by that relayer,
    the rewards are on the account of the configured lane and bridged
    chain, and it has a refunded shape whose calls updated the chain. -/
theorem refund_requires_useful_work {E : Type} {σ σ' σ'' : RuntimeState H A R PH Acc} {who : Acc}
    {call : RuntimeCall H J PH RH Pf} {result : Except E Unit}
    (happly : applyTransaction cfg extraOf refundFor σ who call result σ' = some σ'') {acc : Acc}
    {params : RewardsAccountParams}
    (hchanged : σ''.relayerRewards acc params ≠ σ'.relayerRewards acc params) :
    result.isOk = true ∧ acc = who ∧ params.laneId = cfg.laneId ∧
      params.bridgedChainId = cfg.bridgedChainId ∧ RefundedShape cfg params.owner σ σ' call := by
  unfold applyTransaction at happly
  split at happly
  · exact nomatch happly
  rename_i pre hpre
  rw [Option.some.injEq] at happly
  subst happly
  obtain ⟨hok, preData, hpreData, hacc, hparams, hfinality, hpara, hmoved⟩ :=
    postDispatch_changed cfg refundFor _ result σ' hchanged
  rw [Option.some.inj hpreData] at hpre
  obtain ⟨hparse, hwho⟩ := preDispatch_eq_ok_some cfg extraOf hpre
  subst hparams
  refine ⟨hok, hacc.trans hwho, rfl, rfl, ?_⟩
  -- the shape `pre_dispatch` parsed, each of whose calls updated the chain
  rcases parseCall_eq_some cfg extraOf hparse with
    ⟨c, msgs, hexpand, hm, hcallInfo⟩ | ⟨c₁, c₂, para, msgs, hexpand, hp, hm, hcallInfo⟩ |
    ⟨c₁, c₂, c₃, finality, para, msgs, hexpand, hf, hp, hm, hcallInfo⟩ <;>
    rw [hcallInfo] at hfinality hpara hmoved ⊢ <;>
    simp only [CallInfo.messagesCallInfo, CallInfo.submitParachainHeadsInfo,
      CallInfo.submitFinalityProofInfo, Option.mem_some_iff, forall_eq'] at hfinality hpara hmoved ⊢
  · have hlane := movedLane_of_callInfoFor hm hmoved
    rcases RuntimeCall.expandCall_eq_singleton hexpand with rfl | rfl
    · exact .inr (.inl ⟨c, rfl, hlane⟩)
    · exact .inl hlane
  · exact .inr (.inr (.inl ⟨c₁, c₂, RuntimeCall.expandCall_eq_cons_cons hexpand,
      updatedParachain_of_info hp hpara, movedLane_of_callInfoFor hm hmoved⟩))
  · exact .inr (.inr (.inr ⟨c₁, c₂, c₃, RuntimeCall.expandCall_eq_cons_cons hexpand,
      updatedFinality_of_info hf hfinality, updatedParachain_of_info hp hpara,
      movedLane_of_callInfoFor hm hmoved⟩))

/-- Whether a processed transaction registered a refund on `owner`'s
    account of the lane to its submitter. -/
def Transaction.refunded {E : Type} (owner : RewardsAccountOwner)
    (tx : Transaction H A J R PH RH Pf Acc E) : Bool :=
  match applyTransaction cfg extraOf refundFor tx.before tx.who tx.call tx.result tx.dispatched with
  | some σ'' =>
      σ''.relayerRewards tx.who ⟨cfg.laneId, cfg.bridgedChainId, owner⟩ !=
        tx.dispatched.relayerRewards tx.who ⟨cfg.laneId, cfg.bridgedChainId, owner⟩
  | none => false

/-- A refunded transaction moved the lane's nonce during its dispatch. -/
theorem Transaction.laneNonce_lt_of_refunded {E : Type} {owner : RewardsAccountOwner}
    {tx : Transaction H A J R PH RH Pf Acc E} (h : tx.refunded cfg extraOf refundFor owner = true) :
    laneNonce cfg.laneId owner tx.before < laneNonce cfg.laneId owner tx.dispatched := by
  unfold Transaction.refunded at h
  split at h
  · rename_i σ'' happly
    have hchanged := bne_iff_ne.mp h
    exact (refund_requires_useful_work cfg extraOf refundFor happly hchanged).2.2.2.2.laneNonce_lt
  · exact nomatch h

end Transactions

/-- Along values that never decrease, the steps from a `before` to an
    `after` value that strictly increase are at most the total increase. -/
theorem add_count_le_of_chain {α : Type} (before after : α → ℕ) (p : α → Bool)
    (hp : ∀ x, p x = true → before x < after x) :
    ∀ (xs : List α) (start : ℕ),
      List.IsChain (· ≤ ·) (start :: xs.flatMap fun x => [before x, after x]) →
      start + (xs.filter p).length ≤ ((xs.flatMap fun x => [before x, after x]).getLast?).getD start := by
  intro xs
  induction xs with
  | nil => intro start _; simp
  | cons x rest ih =>
      intro start hchain
      rw [List.flatMap_cons, List.cons_append, List.cons_append, List.nil_append] at hchain ⊢
      obtain ⟨hstart, hstep, hrest⟩ : start ≤ before x ∧ before x ≤ after x ∧
          List.IsChain (· ≤ ·) (after x :: rest.flatMap fun x => [before x, after x]) := by
        simpa only [List.isChain_cons_cons] using hchain
      have hlast : ((before x :: after x :: rest.flatMap fun x => [before x, after x]).getLast?).getD
          start = ((rest.flatMap fun x => [before x, after x]).getLast?).getD (after x) := by
        rw [List.getLast?_cons, List.getLast?_cons]
        simp
      have ih' := ih (after x) hrest
      rw [hlast, List.filter_cons]
      -- the step counts when it strictly increases
      by_cases hx : p x = true
      · have := hp x hx
        rw [if_pos hx, List.length_cons]
        omega
      · rw [if_neg hx]
        omega

/-- **USEFUL WORK ONLY**: a transaction is refunded only if its dispatch
    succeeded, and only to its submitter, on the account of the configured
    lane and bridged chain, for a messages call of that lane that moved
    the lane's nonce past the one stored at `pre_dispatch` (the inbound
    lane's last delivered nonce for a delivery, the outbound lane's latest
    received nonce for a confirmation), bundled alone, in a `batch_all` of
    it alone, after one head of the configured parachain that is now its
    best head, or after a GRANDPA header that is now the best finalized one
    and such a parachain head.  So along any sequence of processed
    transactions in which that nonce never decreases, the refunded
    transactions of a side are at most the nonce's total increase. -/
theorem refunds_only_for_useful_work [DecidableEq PH] [DecidableEq Acc] (cfg : RefundConfig)
    (extraOf : Header H → J → Weight × ℕ) (refundFor : Weight → ℕ → ℕ) {E : Type}
    (owner : RewardsAccountOwner) (txs : List (Transaction H A J R PH RH Pf Acc E)) (start : ℕ)
    (hmono : List.IsChain (· ≤ ·) (start :: txs.flatMap fun tx =>
      [laneNonce cfg.laneId owner tx.before, laneNonce cfg.laneId owner tx.dispatched])) :
    (∀ (tx : Transaction H A J R PH RH Pf Acc E) σ'' acc params,
      applyTransaction cfg extraOf refundFor tx.before tx.who tx.call tx.result tx.dispatched =
        some σ'' →
      σ''.relayerRewards acc params ≠ tx.dispatched.relayerRewards acc params →
      tx.result.isOk = true ∧ acc = tx.who ∧ params.laneId = cfg.laneId ∧
        params.bridgedChainId = cfg.bridgedChainId ∧
        RefundedShape cfg params.owner tx.before tx.dispatched tx.call) ∧
    start + (txs.filter (Transaction.refunded cfg extraOf refundFor owner)).length ≤
      ((txs.flatMap fun tx =>
        [laneNonce cfg.laneId owner tx.before, laneNonce cfg.laneId owner tx.dispatched]).getLast?).getD
        start :=
  ⟨fun _ _ _ _ happly hchanged => refund_requires_useful_work cfg extraOf refundFor happly hchanged,
    add_count_le_of_chain _ _ _
      (fun _ h => Transaction.laneNonce_lt_of_refunded cfg extraOf refundFor h) txs start hmono⟩

/-! ## A delivery in a batch of its own -/

/-- Parachain `1000`, lane `0x00000001`, bridged chain `0x00000002`. -/
def exampleRefundConfig : RefundConfig := ⟨1000, #v[0, 0, 0, 1], #v[0, 0, 0, 2], 2 ^ 128 - 1⟩

/-- Nothing imported, delivered or rewarded yet. -/
def emptyRuntime : RuntimeState ℕ ℕ ℕ ℕ ℕ :=
  ⟨.empty, .empty .normal, fun _ => .default, fun _ => .default, fun _ _ => none⟩

/-- The runtime after relayer `0` delivered message `1` of every lane. -/
def deliveredRuntime : RuntimeState ℕ ℕ ℕ ℕ ℕ :=
  { emptyRuntime with inboundLanes := fun _ => ⟨[⟨0, ⟨1, 1⟩⟩], 0⟩ }

/-- Relayer `7` delivers message `1` of the lane in a `batch_all` holding
    only the delivery, which succeeds. -/
def loneDeliveryBatch : Transaction ℕ ℕ Unit ℕ ℕ ℕ Unit ℕ Unit :=
  ⟨emptyRuntime, 7, .batchAll [.receiveMessagesProof #v[0, 0, 0, 1] 1], .ok (), deliveredRuntime⟩

theorem refunds_only_for_useful_work_on_lone_delivery_batch :
    List.IsChain (· ≤ ·) (0 :: [loneDeliveryBatch].flatMap fun tx =>
      [laneNonce exampleRefundConfig.laneId .thisChain tx.before,
        laneNonce exampleRefundConfig.laneId .thisChain tx.dispatched]) ∧
    0 + ([loneDeliveryBatch].filter (Transaction.refunded exampleRefundConfig
      (fun _ _ => (Weight.zero, 0)) (fun _ _ => 10) .thisChain)).length ≤
      (([loneDeliveryBatch].flatMap fun tx =>
        [laneNonce exampleRefundConfig.laneId .thisChain tx.before,
          laneNonce exampleRefundConfig.laneId .thisChain tx.dispatched]).getLast?).getD 0 :=
  have hmono : List.IsChain (· ≤ ·) (0 :: [loneDeliveryBatch].flatMap fun tx =>
      [laneNonce exampleRefundConfig.laneId .thisChain tx.before,
        laneNonce exampleRefundConfig.laneId .thisChain tx.dispatched]) := by
    decide
  ⟨hmono, (refunds_only_for_useful_work exampleRefundConfig (fun _ _ => (Weight.zero, 0))
    (fun _ _ => 10) .thisChain [loneDeliveryBatch] 0 hmono).2⟩

/-- A `batch_all` holding only a delivery is refunded like the lone
    delivery: `expand_call` gives one call, which `pre_dispatch` parses as
    `CallInfo::Msgs`. -/
theorem lone_delivery_batch_refunded :
    (applyTransaction exampleRefundConfig (fun _ _ => (Weight.zero, 0)) (fun _ _ => 10)
      loneDeliveryBatch.before loneDeliveryBatch.who loneDeliveryBatch.call loneDeliveryBatch.result
      loneDeliveryBatch.dispatched).map
      (fun σ'' => σ''.relayerRewards 7 ⟨#v[0, 0, 0, 1], #v[0, 0, 0, 2], .thisChain⟩) =
      some (some 10) := by
  decide

end Refund

end ParityBridge
