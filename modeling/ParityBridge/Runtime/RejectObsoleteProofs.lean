import ParityBridge.Runtime.RejectObsolete
import ParityBridge.Grandpa.PalletProofs
import ParityBridge.Parachains.PalletProofs
import ParityBridge.Messages.PalletProofs

/-! # Obsolete-transaction filter proofs — what a stale call still does

    `validate` rejects a call as `Stale` exactly when the filter of the
    call's pallet finds nothing new in it (`validate_eq_stale_iff`, against
    `StaleIn`).  For three of the four calls this is also what the pallet
    itself finds: a stale finality proof, a stale one-head parachains call
    and a stale delivery proof leave the bridge storage as it was.

    The messages proof is the exception.  `verify_messages_proof` accepts a
    proof whose messages are all delivered already as long as it carries the
    outbound lane state, and `receive_messages_proof` applies that state
    before it looks at a nonce: the lane's confirmed nonce moves and its
    relayer queue is popped, by a call the filter rejects as useless.  What
    does hold is that such a call dispatches nothing and moves no last
    delivered nonce: the one change it can make to the bridge storage is the
    `receive_state_update` of the lane state it carries.  The route:

    * the verifier's messages are those of the claimed nonces
      (`verifyMessagesProof_ok`), so all at or below `nonces_end`;
    * the pallet hands a lane none of its messages when all are delivered
      already (`MessagesPallet.receiveMessagesProof_of_delivered`);
    * one frame lemma per call kind for the stale case, then the theorem
      over every call. -/

namespace ParityBridge

namespace RejectObsolete

open Grandpa Parachains Refund RuntimeCommon MessagesPallet

variable {H Au J PH Pf R Acc P E S : Type}

/-! ## The runtime-common verifiers -/

/-- The messages read for a list of nonces are the messages of those
    nonces, in order. -/
theorem readMessages_nonces (storage : MessagesStorageProof R) (lane : LaneId) :
    ∀ (nonces : List ℕ) (messages : List Message),
      readMessages storage lane nonces = .ok messages → messages.map (·.key.nonce) = nonces
  | [], messages, h => by
      rw [readMessages, Except.ok.injEq] at h
      rw [← h, List.map_nil]
  | nonce :: rest, messages, h => by
      unfold readMessages at h
      split at h
      · exact nomatch h
      · exact nomatch h
      · split at h
        · exact nomatch h
        · next payload _ restMessages hrest =>
            rw [← Except.ok.inj h, List.map_cons, readMessages_nonces storage lane rest restMessages hrest]

/-- **PROVED NONCES**: `verify_messages_proof` gives the proof's own lane,
    with the messages of exactly the claimed nonces. -/
theorem verifyMessagesProof_ok {parse : H → S → Except String (MessagesStorageProof R)}
    {proof : FromBridgedChainMessagesProof H S} {messagesCount : ℕ}
    {lanes : List (LaneId × ProvedLaneMessages Message)}
    (h : verifyMessagesProof parse proof messagesCount = .ok lanes) :
    ∃ laneState messages, lanes = [(proof.lane, ⟨laneState, messages⟩)] ∧
      messages.map (·.key.nonce) =
        List.range' proof.noncesStart (proof.noncesEnd + 1 - proof.noncesStart) := by
  unfold verifyMessagesProof at h
  split at h
  · exact nomatch h
  · next storage _ =>
      -- the count check, then the reads in the order of the source
      split at h
      · exact nomatch h
      dsimp only at h
      split at h
      · exact nomatch h
      next messages hread =>
      split at h
      · exact nomatch h
      split at h
      · exact nomatch h
      split at h
      · exact nomatch h
      exact ⟨_, messages, (Except.ok.inj h).symm,
        readMessages_nonces storage proof.lane _ messages hread⟩

/-- Every message of a verified proof is at or below its `nonces_end`. -/
theorem le_noncesEnd_of_verifyMessagesProof {parse : H → S → Except String (MessagesStorageProof R)}
    {proof : FromBridgedChainMessagesProof H S} {messagesCount : ℕ}
    {laneState : Option OutboundLaneData} {messages : List Message}
    (h : verifyMessagesProof parse proof messagesCount =
      .ok [(proof.lane, ⟨laneState, messages⟩)]) :
    ∀ message ∈ messages, message.key.nonce ≤ proof.noncesEnd := by
  obtain ⟨laneState', messages', hlanes, hnonces⟩ := verifyMessagesProof_ok h
  obtain ⟨-, rfl⟩ : laneState = laneState' ∧ messages = messages' := by simpa using hlanes
  intro message hmem
  have hrange := List.mem_range'_1.mp (hnonces ▸ List.mem_map_of_mem hmem)
  omega

/-- `verify_messages_delivery_proof` gives the proof's own lane. -/
theorem verifyMessagesDeliveryProof_lane {parse : H → S → Except String (MessagesStorageProof R)}
    {proof : FromBridgedChainMessagesDeliveryProof H S} {laneId : LaneId}
    {laneData : InboundLaneData R}
    (h : verifyMessagesDeliveryProof parse proof = .ok (laneId, laneData)) : laneId = proof.lane := by
  unfold verifyMessagesDeliveryProof at h
  split at h
  · exact nomatch h
  · split at h
    · exact nomatch h
    · exact nomatch h
    · exact nomatch h
    · split_ifs at h
      exact (Prod.mk.inj (Except.ok.inj h)).1.symm

/-! ## The storage of the bridge pallets -/

namespace BridgeRuntime

variable (rt : BridgeRuntime H Au R PH Acc) (m : MessagesStorage R)

@[simp] theorem withMessages_messages : rt.withMessages rt.messages = rt := rfl

@[simp] theorem messages_inboundLanes : rt.messages.inboundLanes = rt.state.inboundLanes := rfl

@[simp] theorem grandpa_withMessages : (rt.withMessages m).state.grandpa = rt.state.grandpa := rfl

@[simp] theorem parachains_withMessages :
    (rt.withMessages m).state.parachains = rt.state.parachains := rfl

@[simp] theorem inboundLanes_withMessages :
    (rt.withMessages m).state.inboundLanes = m.inboundLanes := rfl

@[simp] theorem outboundLanes_withMessages :
    (rt.withMessages m).state.outboundLanes = m.outboundLanes := rfl

end BridgeRuntime

/-! ## What the filter rejects as stale -/

/-- The filter's notion of a useless call, read off the call and the state:
    a finality proof of a header no newer than the best finalized one; one
    parachain head not newer than the stored one (`is_obsolete`); a messages
    proof whose last nonce is delivered already; a delivery proof whose last
    delivered nonce is received already. -/
def StaleIn [DecidableEq PH] (σ : RuntimeState H Au R PH Acc) : BridgeCall H J PH Pf R S → Prop
  | .submitFinalityProof finalityTarget _ => ∃ bestNumber bestHash,
      σ.grandpa.bestFinalized = some (bestNumber, bestHash) ∧ finalityTarget.number ≤ bestNumber
  | .submitParachainHeads atRelayBlock parachains _ => ∃ paraId paraHeadHash,
      parachains = [(paraId, paraHeadHash)] ∧
        isObsolete σ.parachains ⟨atRelayBlock.1, paraId, paraHeadHash⟩ = true
  | .receiveMessagesProof _ proof _ _ =>
      proof.noncesEnd ≤ (σ.inboundLanes proof.lane).lastDeliveredNonce
  | .receiveMessagesDeliveryProof proof relayersState =>
      relayersState.lastDeliveredNonce ≤ (σ.outboundLanes proof.lane).latestReceivedNonce

section Validate

variable (extraOf : Header H → J → Weight × ℕ) (σ : RuntimeState H Au R PH Acc)

/-! Each check, on the call kind it looks at. -/

theorem checkObsoleteSubmitFinalityProof_eq_stale_iff (finalityTarget : Header H)
    (justification : J) :
    (RuntimeCall.submitFinalityProof finalityTarget justification :
        RuntimeCall H J PH H Pf).checkObsoleteSubmitFinalityProof extraOf σ = .error .stale ↔
      ∃ bestNumber bestHash, σ.grandpa.bestFinalized = some (bestNumber, bestHash) ∧
        finalityTarget.number ≤ bestNumber := by
  simp only [RuntimeCall.checkObsoleteSubmitFinalityProof, RuntimeCall.submitFinalityProofInfo,
    checkObsolete]
  cases hbest : σ.grandpa.bestFinalized with
  | none => simp
  | some best =>
      obtain ⟨bestNumber, bestHash⟩ := best
      -- `check_obsolete` calls the header old when it is not above the best one
      by_cases hle : finalityTarget.number ≤ bestNumber
      · simp [hle]
      · simp [hle]

theorem checkObsoleteSubmitParachainHeads_eq_stale_iff [DecidableEq PH] (atRelayBlock : ℕ × H)
    (parachains : List (ℕ × PH)) (parachainHeadsProof : Pf) :
    (RuntimeCall.submitParachainHeads atRelayBlock parachains parachainHeadsProof :
        RuntimeCall H J PH H Pf).checkObsoleteSubmitParachainHeads σ = .error .stale ↔
      ∃ paraId paraHeadHash, parachains = [(paraId, paraHeadHash)] ∧
        isObsolete σ.parachains ⟨atRelayBlock.1, paraId, paraHeadHash⟩ = true := by
  unfold RuntimeCall.checkObsoleteSubmitParachainHeads
  -- only a call with exactly one head is looked at
  cases parachains with
  | nil => simp [RuntimeCall.oneEntrySubmitParachainHeadsInfo]
  | cons entry rest =>
      cases rest with
      | nil =>
          obtain ⟨paraId, paraHeadHash⟩ := entry
          simp [RuntimeCall.oneEntrySubmitParachainHeadsInfo]
      | cons _ _ => simp [RuntimeCall.oneEntrySubmitParachainHeadsInfo]

theorem checkObsoleteCall_receiveMessagesProof_eq_stale_iff (lane : LaneId) (noncesEnd : ℕ) :
    (RuntimeCall.receiveMessagesProof lane noncesEnd : RuntimeCall H J PH H Pf).checkObsoleteCall σ =
        .error .stale ↔
      noncesEnd ≤ (σ.inboundLanes lane).lastDeliveredNonce := by
  simp [RuntimeCall.checkObsoleteCall, RuntimeCall.callInfo, RuntimeCall.receiveMessagesProofInfo,
    BaseMessagesProofInfo.isObsolete]

theorem checkObsoleteCall_receiveMessagesDeliveryProof_eq_stale_iff (lane : LaneId)
    (relayersState : UnrewardedRelayersState) :
    (RuntimeCall.receiveMessagesDeliveryProof lane relayersState :
        RuntimeCall H J PH H Pf).checkObsoleteCall σ = .error .stale ↔
      relayersState.lastDeliveredNonce ≤ (σ.outboundLanes lane).latestReceivedNonce := by
  simp [RuntimeCall.checkObsoleteCall, RuntimeCall.callInfo, RuntimeCall.receiveMessagesProofInfo,
    RuntimeCall.receiveMessagesDeliveryProofInfo, BaseMessagesProofInfo.isObsolete]

/-! `validate` on each call kind is the one check that looks at it. -/

theorem validate_submitFinalityProof [DecidableEq PH] (finalityTarget : Header H)
    (justification : J) :
    validate extraOf σ (.submitFinalityProof finalityTarget justification : RuntimeCall H J PH H Pf) =
      (RuntimeCall.submitFinalityProof finalityTarget justification :
        RuntimeCall H J PH H Pf).checkObsoleteSubmitFinalityProof extraOf σ := by
  unfold validate
  cases RuntimeCall.checkObsoleteSubmitFinalityProof extraOf σ
    (.submitFinalityProof finalityTarget justification) <;> rfl

theorem validate_submitParachainHeads [DecidableEq PH] (atRelayBlock : ℕ × H)
    (parachains : List (ℕ × PH)) (parachainHeadsProof : Pf) :
    validate extraOf σ
        (.submitParachainHeads atRelayBlock parachains parachainHeadsProof : RuntimeCall H J PH H Pf) =
      (RuntimeCall.submitParachainHeads atRelayBlock parachains parachainHeadsProof :
        RuntimeCall H J PH H Pf).checkObsoleteSubmitParachainHeads σ := by
  unfold validate
  cases RuntimeCall.checkObsoleteSubmitParachainHeads σ
    (.submitParachainHeads atRelayBlock parachains parachainHeadsProof : RuntimeCall H J PH H Pf)
    <;> rfl

/-- **STALE EXACTLY WHEN USELESS-LOOKING**: the filter rejects a call as
    stale exactly when its pallet's check finds nothing new in it. -/
theorem validate_eq_stale_iff [DecidableEq PH] (c : BridgeCall H J PH Pf R S) :
    validate extraOf σ c.toRuntimeCall = .error .stale ↔ StaleIn σ c := by
  cases c with
  | submitFinalityProof finalityTarget justification =>
      rw [BridgeCall.toRuntimeCall, validate_submitFinalityProof]
      exact checkObsoleteSubmitFinalityProof_eq_stale_iff extraOf σ finalityTarget justification
  | submitParachainHeads atRelayBlock parachains parachainHeadsProof =>
      rw [BridgeCall.toRuntimeCall, validate_submitParachainHeads]
      exact checkObsoleteSubmitParachainHeads_eq_stale_iff σ atRelayBlock parachains
        parachainHeadsProof
  | receiveMessagesProof _ proof _ _ =>
      -- the GRANDPA and parachains checks pass a messages call
      show (RuntimeCall.receiveMessagesProof proof.lane proof.noncesEnd :
        RuntimeCall H J PH H Pf).checkObsoleteCall σ = .error .stale ↔ _
      exact checkObsoleteCall_receiveMessagesProof_eq_stale_iff σ proof.lane proof.noncesEnd
  | receiveMessagesDeliveryProof proof relayersState =>
      show (RuntimeCall.receiveMessagesDeliveryProof proof.lane relayersState :
        RuntimeCall H J PH H Pf).checkObsoleteCall σ = .error .stale ↔ _
      exact checkObsoleteCall_receiveMessagesDeliveryProof_eq_stale_iff σ proof.lane relayersState

end Validate

/-! ## What a stale call does in its pallet -/

section Dispatch

variable [DecidableEq H] [DecidableEq PH] [DecidableEq R]
  (cfg : BridgeRuntimeConfig H Au J PH Pf R Acc P E S) (rt : BridgeRuntime H Au R PH Acc)
  (who : Acc)

/-- A finality proof of a header no newer than the best finalized one fails
    in the pallet. -/
theorem dispatch_submitFinalityProof_of_stale {finalityTarget : Header H} {justification : J}
    (hstale : StaleIn rt.state
      (.submitFinalityProof finalityTarget justification : BridgeCall H J PH Pf R S)) :
    dispatch cfg rt who (.submitFinalityProof finalityTarget justification) = rt := by
  obtain ⟨bestNumber, bestHash, hbest, hle⟩ := hstale
  rcases submitFinalityProof_cases cfg.grandpa cfg.hasher cfg.decode cfg.verifyJustification
    rt.state.grandpa finalityTarget justification with
    ⟨e, he⟩ | ⟨bestNumber', bestHash', _, _, -, hbest', hlt, -⟩
  · rw [dispatch]
    rw [he]
  · -- the pallet imports only a header above its best finalized one
    rw [hbest] at hbest'
    obtain ⟨rfl, -⟩ := Prod.mk.inj (Option.some.inj hbest')
    omega

/-- A one-head parachains call whose head is obsolete changes nothing:
    `update_parachain_head` refuses it with the same `is_obsolete` check. -/
theorem dispatch_submitParachainHeads_of_stale {atRelayBlock : ℕ × H} {parachains : List (ℕ × PH)}
    {parachainHeadsProof : Pf}
    (hstale : StaleIn rt.state
      (.submitParachainHeads atRelayBlock parachains parachainHeadsProof : BridgeCall H J PH Pf R S)) :
    dispatch cfg rt who (.submitParachainHeads atRelayBlock parachains parachainHeadsProof) = rt := by
  obtain ⟨paraId, paraHeadHash, rfl, hobs⟩ := hstale
  rw [dispatch]
  rcases submitParachainHeads_cases cfg.parachains rt.state.grandpa.importedHeaders cfg.newChecker
    rt.state.parachains atRelayBlock [(paraId, paraHeadHash)] parachainHeadsProof with
    ⟨e, he⟩ | ⟨-, storage, -, hok⟩
  · rw [he]
  · rw [hok]
    rcases updateEntry_cases cfg.parachains storage atRelayBlock.1 rt.state.parachains
      (paraId, paraHeadHash) with hnone | ⟨d, hnew, -⟩
    · simp only [headsLoop, hnone]
    · -- the head is obsolete, so `update_parachain_head` refuses it
      simp [hobs] at hnew

/-- A delivery proof whose last delivered nonce is received already changes
    nothing. -/
theorem dispatch_receiveMessagesDeliveryProof_of_stale
    {proof : FromBridgedChainMessagesDeliveryProof H S} {relayersState : UnrewardedRelayersState}
    (hstale : StaleIn rt.state
      (.receiveMessagesDeliveryProof proof relayersState : BridgeCall H J PH Pf R S)) :
    dispatch cfg rt who (.receiveMessagesDeliveryProof proof relayersState) = rt := by
  have hle : relayersState.lastDeliveredNonce ≤
      (rt.messages.outboundLanes proof.lane).latestReceivedNonce := hstale
  rw [dispatch]
  split
  · next confirmed m h =>
      rcases MessagesPallet.receiveMessagesDeliveryProof_cases
        (verifyMessagesDeliveryProof cfg.parseFinalizedStorageProof) rt.messages proof
        relayersState with ⟨e, he⟩ | ⟨laneId, laneData, _, _, hverify, -, -⟩
      · rw [he] at h
        exact nomatch h
      · -- the proven lane is the proof's, whose received nonce the filter read
        obtain rfl := verifyMessagesDeliveryProof_lane hverify
        rw [receiveMessagesDeliveryProof_of_received hverify hle h,
          BridgeRuntime.withMessages_messages]
  · rfl

/-- **DELIVERED ALREADY**: a messages proof whose last nonce is delivered
    already fails, or dispatches none of its messages and applies to its
    lane the lane state it carries. -/
theorem dispatch_receiveMessagesProof_of_stale {relayerIdAtBridgedChain : R}
    {proof : FromBridgedChainMessagesProof H S} {messagesCount : ℕ} {dispatchWeight : Weight}
    (hstale : StaleIn rt.state (.receiveMessagesProof relayerIdAtBridgedChain proof messagesCount
      dispatchWeight : BridgeCall H J PH Pf R S)) :
    dispatch cfg rt who (.receiveMessagesProof relayerIdAtBridgedChain proof messagesCount
        dispatchWeight) = rt ∨
      ∃ laneState, dispatch cfg rt who (.receiveMessagesProof relayerIdAtBridgedChain proof
          messagesCount dispatchWeight) =
        rt.withMessages (putInboundLane rt.messages
          ((inboundLane cfg.messages rt.messages proof.lane : InboundLane R Acc P).receiveStateUpdate
            laneState).2) := by
  rw [dispatch]
  split
  · next out h =>
      obtain ⟨lanes, hlanes⟩ := receiveMessagesProof_verified cfg.messages cfg.dispatch
        cfg.dispatchWeight relayerIdAtBridgedChain who cfg.extraProofSizeBytes h
      obtain ⟨laneState, messages, rfl, -⟩ := verifyMessagesProof_ok hlanes
      -- every message of the proof is at or below `nonces_end`, delivered already
      have hle : ∀ message ∈ messages,
          message.key.nonce ≤ (rt.messages.inboundLanes proof.lane).lastDeliveredNonce :=
        fun message hmem => (le_noncesEnd_of_verifyMessagesProof hlanes message hmem).trans hstale
      rw [receiveMessagesProof_of_delivered cfg.messages cfg.dispatch cfg.dispatchWeight
        relayerIdAtBridgedChain who cfg.extraProofSizeBytes hlanes hle h]
      cases laneState with
      | none =>
          left
          rw [receiveLaneState, putInboundLane_inboundLane, BridgeRuntime.withMessages_messages]
      | some laneState => exact .inr ⟨laneState, rfl⟩
  · exact .inl rfl

/-- A stale call leaves the runtime as it was, or applies a lane state to
    one inbound lane. -/
theorem dispatch_of_stale (c : BridgeCall H J PH Pf R S) (hstale : StaleIn rt.state c) :
    dispatch cfg rt who c = rt ∨
      ∃ lane laneState, dispatch cfg rt who c =
        rt.withMessages (putInboundLane rt.messages
          ((inboundLane cfg.messages rt.messages lane : InboundLane R Acc P).receiveStateUpdate
            laneState).2) := by
  cases c with
  | submitFinalityProof _ _ => exact .inl (dispatch_submitFinalityProof_of_stale cfg rt who hstale)
  | submitParachainHeads _ _ _ =>
      exact .inl (dispatch_submitParachainHeads_of_stale cfg rt who hstale)
  | receiveMessagesProof _ proof _ _ =>
      rcases dispatch_receiveMessagesProof_of_stale cfg rt who hstale with hsame | ⟨laneState, h⟩
      · exact .inl hsame
      · exact .inr ⟨proof.lane, laneState, h⟩
  | receiveMessagesDeliveryProof _ _ =>
      exact .inl (dispatch_receiveMessagesDeliveryProof_of_stale cfg rt who hstale)

end Dispatch

/-! ## A stale messages proof that still confirms -/

/-- A runtime whose inbound lanes have delivered nonce 1 and not confirmed
    it: the relayer's entry is still queued. -/
def queuedRuntime : BridgeRuntime Unit Unit Unit Unit Unit :=
  ⟨⟨.empty, .empty .normal, fun _ => ⟨[⟨(), ⟨1, 1⟩⟩], 0⟩, fun _ => .default, fun _ _ => none⟩,
    .basic .normal, fun _ => none⟩

/-- A bridge whose storage proofs hold message 1 of every lane and the
    outbound lane state with nonce 1 received. -/
def laneStateConfig : BridgeRuntimeConfig Unit Unit Unit Unit Unit Unit Unit Unit Unit Unit where
  grandpa := ⟨1, 1, 1⟩
  hasher _ := ()
  decode _ := none
  verifyJustification _ _ _ _ := .ok ()
  parachains := ⟨1, 0, fun _ _ => none, fun _ => ()⟩
  newChecker _ _ := .error .storageRootMismatch
  messages := ⟨[], 0, 1, 1, ⟨0, 0⟩⟩
  parseFinalizedStorageProof _ _ :=
    .ok ⟨fun _ => some (some []), fun _ => some (some ⟨1, 1, 1⟩), fun _ => .error (), true⟩
  intoDispatchData _ := ()
  dispatchWeight _ := Weight.zero
  dispatch _ _ := ⟨Weight.zero, ()⟩
  receiveMessagesProofWeight _ _ w := w
  extraProofSizeBytes _ := 0

/-- The lane of the stale proof. -/
def queuedLane : LaneId := #v[1, 0, 0, 0]

/-- A proof of message 1 of `queuedLane`, delivered already, with the
    outbound lane state. -/
def staleMessagesCall : BridgeCall Unit Unit Unit Unit Unit Unit :=
  .receiveMessagesProof () ⟨(), (), queuedLane, 1, 1⟩ 1 Weight.zero

theorem stale_messages_proof_confirms_relayers :
    validate (fun _ _ => (Weight.zero, 0)) queuedRuntime.state staleMessagesCall.toRuntimeCall =
        .error .stale ∧
      queuedRuntime.state.inboundLanes queuedLane = ⟨[⟨(), ⟨1, 1⟩⟩], 0⟩ ∧
      (dispatch laneStateConfig queuedRuntime () staleMessagesCall).state.inboundLanes
        queuedLane = ⟨[], 1⟩ := by
  refine ⟨rfl, rfl, ?_⟩
  decide

/-! ## The filter against dispatch -/

/-- **STALE CALLS ONLY CONFIRM**: the filter rejects a call as stale exactly
    when its pallet's check finds nothing new in it; and a call it rejects
    so would, dispatched, change nothing of the GRANDPA pallet, the
    parachains pallet or the outbound lanes, and no inbound lane's last
    delivered nonce; an inbound lane's data it leaves as it was or changes
    only by the `receive_state_update` of an outbound lane state — the one
    a messages proof carries. -/
theorem stale_call_changes_only_carried_lane_state [DecidableEq H] [DecidableEq PH]
    [DecidableEq R] (cfg : BridgeRuntimeConfig H Au J PH Pf R Acc P E S)
    (extraOf : Header H → J → Weight × ℕ) (rt : BridgeRuntime H Au R PH Acc) (who : Acc)
    (c : BridgeCall H J PH Pf R S) :
    (validate extraOf rt.state c.toRuntimeCall = .error .stale ↔ StaleIn rt.state c) ∧
    (validate extraOf rt.state c.toRuntimeCall = .error .stale →
      let rt' := dispatch cfg rt who c
      rt'.state.grandpa = rt.state.grandpa ∧ rt'.state.parachains = rt.state.parachains ∧
        rt'.state.outboundLanes = rt.state.outboundLanes ∧
        ∀ l, (rt'.state.inboundLanes l).lastDeliveredNonce =
            (rt.state.inboundLanes l).lastDeliveredNonce ∧
          (rt'.state.inboundLanes l = rt.state.inboundLanes l ∨
            ∃ laneState, rt'.state.inboundLanes l =
              ((inboundLane cfg.messages rt.messages l : InboundLane R Acc P).receiveStateUpdate
                laneState).2.data)) := by
  have hiff := validate_eq_stale_iff extraOf rt.state c
  refine ⟨hiff, fun hstale => ?_⟩
  intro rt'
  rcases dispatch_of_stale cfg rt who c (hiff.mp hstale) with
    hsame | ⟨lane, laneState, hupdate⟩
  · rw [show rt' = rt from hsame]
    exact ⟨rfl, rfl, rfl, fun _ => ⟨rfl, .inl rfl⟩⟩
  rw [show rt' = _ from hupdate]
  refine ⟨rfl, rfl, rfl, fun l => ?_⟩
  -- the written lane is the one read (`update`'s key is dependent, so no simp)
  rw [BridgeRuntime.inboundLanes_withMessages, inboundLanes_putInboundLane,
    InboundLane.storage_id_receiveStateUpdate, inboundLane_storage_id]
  by_cases hl : l = lane
  · -- the lane the proof carries a state for
    subst hl
    rw [Function.update_self]
    exact ⟨InboundLane.lastDeliveredNonce_receiveStateUpdate _ laneState, .inr ⟨laneState, rfl⟩⟩
  · rw [Function.update_of_ne hl]
    exact ⟨rfl, .inl rfl⟩

/-- On the queued lane: the stale proof is stale because its nonce is
    delivered already, and it keeps the last delivered nonce. -/
theorem stale_call_changes_only_carried_lane_state_on_queued_lane :
    validate (fun _ _ => (Weight.zero, 0)) queuedRuntime.state staleMessagesCall.toRuntimeCall =
        .error .stale ∧
      StaleIn queuedRuntime.state staleMessagesCall ∧
      ((dispatch laneStateConfig queuedRuntime () staleMessagesCall).state.inboundLanes
        queuedLane).lastDeliveredNonce = 1 := by
  have hstale : validate (fun _ _ => (Weight.zero, 0)) queuedRuntime.state
      staleMessagesCall.toRuntimeCall = .error .stale := rfl
  obtain ⟨hiff, hchanges⟩ := stale_call_changes_only_carried_lane_state laneStateConfig _
    queuedRuntime () staleMessagesCall
  obtain ⟨-, -, -, hlanes⟩ := hchanges hstale
  exact ⟨hstale, hiff.mp hstale, (hlanes queuedLane).1⟩

end RejectObsolete

end ParityBridge
