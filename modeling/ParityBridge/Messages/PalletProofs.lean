import ParityBridge.Messages.InboundLaneProofs
import ParityBridge.Messages.OutboundLaneProofs
import ParityBridge.Messages.Pallet

/-! # Messages pallet proofs — lanes in storage, sending, dispatch weight

    The pallet reaches a lane through `outbound_lane`/`inbound_lane` and
    writes it back; the frame lemmas of the first section say that writing a
    lane back changes that lane only, and that writing back an unchanged lane
    changes nothing.  Each call then has one inversion lemma, and the results
    are invariants over whole runs of the pallet:

    * the number of pending messages on a lane, with the runtime-common lane
      verifier, is bounded by one more than the configured maximum, and that
      bound is reached;
    * the dispatch loop of `receive_messages_proof` keeps
      `dispatch_weight_left + charged = declared dispatch weight` exactly, so
      no subtraction of the loop truncates, hands each lane a prefix of its
      messages, and never raises the actual weight;
    * `on_idle` returns at most the weight it was given. -/

namespace ParityBridge

variable {R A P E O Pf DPf : Type}

/-! ## The confirmation of a lane -/

/-- Everything `receive_messages_delivery_proof` can do with a proven queue:
    fail, confirm nothing new, or confirm the range from the source's next
    unconfirmed nonce to the queue's last delivered one. -/
theorem receiveMessagesDeliveryProof_cases (lane : OutboundLane P) (S : InboundLaneData R)
    (rs : UnrewardedRelayersState) :
    (∃ e, receiveMessagesDeliveryProof lane S rs = .error e) ∨
    receiveMessagesDeliveryProof lane S rs = .ok (none, lane) ∨
    (lane.data.latestReceivedNonce < S.lastDeliveredNonce ∧
      receiveMessagesDeliveryProof lane S rs =
        .ok (some ⟨lane.data.latestReceivedNonce + 1, S.lastDeliveredNonce⟩,
          { lane with data := { lane.data with latestReceivedNonce := S.lastDeliveredNonce } })) := by
  unfold receiveMessagesDeliveryProof
  by_cases hstate : (totalUnrewardedMessages S.relayers).getD (2 ^ 64 - 1) = rs.totalMessages ∧
      S.relayers.length = rs.unrewardedRelayerEntries
  · rw [if_neg (not_not.mpr hstate)]
    by_cases hlast : S.lastDeliveredNonce ≠ rs.lastDeliveredNonce
    · exact .inl ⟨_, if_pos hlast⟩
    rw [if_neg hlast]
    dsimp only
    rcases OutboundLane.confirmDelivery_cases lane rs.totalMessages S.lastDeliveredNonce
      S.relayers with ⟨res, hres, heq⟩ | ⟨hlt, -, -, -, heq⟩
    · -- a refusal of `confirm_delivery` is an error of the call, or no news
      rw [heq]
      cases res with
      | confirmedMessages m => exact absurd rfl (hres m)
      | noNewConfirmations => exact .inr (.inl rfl)
      | _ => exact .inl ⟨_, rfl⟩
    · rw [heq]
      exact .inr (.inr ⟨hlt, rfl⟩)
  · exact .inl ⟨_, if_pos hstate⟩

/-- A confirmation goes through only for a proven queue whose last delivered
    nonce is the one the relayer declared. -/
theorem lastDeliveredNonce_of_receiveMessagesDeliveryProof {lane : OutboundLane P}
    {S : InboundLaneData R} {rs : UnrewardedRelayersState}
    {r : Option DeliveredMessages × OutboundLane P}
    (h : receiveMessagesDeliveryProof lane S rs = .ok r) :
    S.lastDeliveredNonce = rs.lastDeliveredNonce := by
  by_cases hlast : S.lastDeliveredNonce = rs.lastDeliveredNonce
  · exact hlast
  · -- the check of the declared nonce fails the call
    unfold receiveMessagesDeliveryProof at h
    split_ifs at h

namespace MessagesPallet

open RuntimeCommon

/-! ## Lanes in storage -/

section Storage

variable (s : MessagesStorage R)

@[simp] theorem outboundLane_id (laneId : LaneId) : (outboundLane s laneId).id = laneId := rfl

@[simp] theorem outboundLane_data (laneId : LaneId) :
    (outboundLane s laneId).data = s.outboundLanes laneId := rfl

@[simp] theorem outboundLanes_putOutboundLane (lane : OutboundLane MessagePayload) (l : LaneId) :
    (putOutboundLane s lane).outboundLanes l =
      if l = lane.id then lane.data else s.outboundLanes l := by
  simp only [putOutboundLane, Function.update_apply]

@[simp] theorem inboundLanes_putOutboundLane (lane : OutboundLane MessagePayload) :
    (putOutboundLane s lane).inboundLanes = s.inboundLanes := rfl

@[simp] theorem palletOperatingMode_putOutboundLane (lane : OutboundLane MessagePayload) :
    (putOutboundLane s lane).palletOperatingMode = s.palletOperatingMode := rfl

@[simp] theorem outboundLanes_putInboundLane (lane : InboundLane R A P) :
    (putInboundLane s lane).outboundLanes = s.outboundLanes := rfl

@[simp] theorem palletOperatingMode_putInboundLane (lane : InboundLane R A P) :
    (putInboundLane s lane).palletOperatingMode = s.palletOperatingMode := rfl

@[simp] theorem inboundLanes_putInboundLane (lane : InboundLane R A P) :
    (putInboundLane s lane).inboundLanes =
      Function.update s.inboundLanes lane.storage.id lane.data := rfl

@[simp] theorem inboundLane_storage_id (cfg : MessagesConfig) (laneId : LaneId) :
    (inboundLane cfg s laneId : InboundLane R A P).storage.id = laneId := rfl

/-- Writing back the inbound lane as it was read changes nothing. -/
theorem putInboundLane_inboundLane (cfg : MessagesConfig) (laneId : LaneId) :
    putInboundLane s (inboundLane cfg s laneId : InboundLane R A P) = s := by
  simp only [putInboundLane, inboundLane, InboundLane.data, Function.update_eq_self]

/-- Writing back the lane as it was read changes nothing. -/
theorem putOutboundLane_outboundLane (laneId : LaneId) :
    putOutboundLane s (outboundLane s laneId) = s := by
  obtain ⟨mode, inbound, outbound, messages⟩ := s
  simp only [putOutboundLane, outboundLane, Function.update_eq_self, MessagesStorage.mk.injEq,
    true_and]
  funext key
  by_cases h : key.laneId = laneId
  · subst h
    simp
  · simp [h]

end Storage

/-! ## `send_message` -/

/-- Everything `send_message` can do: fail, or — the pallet operating
    normally, the lane active, both verifiers and the size check passing —
    store the message as the lane's next nonce. -/
theorem sendMessage_cases (cfg : MessagesConfig) (verifyMessage : MessagePayload → Except String Unit)
    (laneMessageVerifier : O → LaneId → OutboundLaneData → MessagePayload → Except String Unit)
    (encode : MessagePayload → MessagePayload) (s : MessagesStorage R) (submitter : O)
    (laneId : LaneId) (payload : MessagePayload) :
    (∃ e, sendMessage cfg verifyMessage laneMessageVerifier encode s submitter laneId payload =
      .error e) ∨
    (s.palletOperatingMode = .basic .normal ∧ laneId ∈ cfg.activeOutboundLanes ∧
      verifyMessage payload = .ok () ∧
      laneMessageVerifier submitter laneId (s.outboundLanes laneId) payload = .ok () ∧
      (encode payload).length ≤ cfg.maximalOutboundPayloadSize ∧
      sendMessage cfg verifyMessage laneMessageVerifier encode s submitter laneId payload =
        .ok (⟨(s.outboundLanes laneId).latestGeneratedNonce + 1, cfg.dbWeight.readsWrites 2 2⟩,
          putOutboundLane s ((outboundLane s laneId).sendMessage (encode payload)).2)) := by
  unfold sendMessage ensureNormalOperatingMode
  by_cases hmode : s.palletOperatingMode = .basic .normal
  · rw [if_pos hmode]
    dsimp only
    by_cases hactive : laneId ∈ cfg.activeOutboundLanes
    · rw [if_neg (not_not.mpr hactive)]
      cases hchain : verifyMessage payload with
      | error e => exact .inl ⟨_, rfl⟩
      | ok u =>
          cases hlane : laneMessageVerifier submitter laneId (s.outboundLanes laneId) payload with
          | error e =>
              refine .inl ⟨.messageRejectedByLaneVerifier, ?_⟩
              simp only [outboundLane_data, hlane]
          | ok u' =>
              by_cases hsize : (encode payload).length > cfg.maximalOutboundPayloadSize
              · refine .inl ⟨.messageIsTooLarge, ?_⟩
                simp only [outboundLane_data, hlane, if_pos hsize]
              · refine .inr ⟨hmode, hactive, rfl, rfl, by omega, ?_⟩
                simp only [outboundLane_data, hlane, if_neg hsize]
                rfl
    · exact .inl ⟨_, if_pos hactive⟩
  · rw [if_neg hmode]
    exact .inl ⟨_, rfl⟩


/-- A message that passes every check is stored as the lane's next nonce. -/
theorem sendMessage_eq_ok (cfg : MessagesConfig) {verifyMessage : MessagePayload → Except String Unit}
    {laneMessageVerifier : O → LaneId → OutboundLaneData → MessagePayload → Except String Unit}
    {encode : MessagePayload → MessagePayload} {s : MessagesStorage R} {submitter : O}
    {laneId : LaneId} {payload : MessagePayload} (hmode : s.palletOperatingMode = .basic .normal)
    (hactive : laneId ∈ cfg.activeOutboundLanes) (hchain : verifyMessage payload = .ok ())
    (hlane : laneMessageVerifier submitter laneId (s.outboundLanes laneId) payload = .ok ())
    (hsize : (encode payload).length ≤ cfg.maximalOutboundPayloadSize) :
    sendMessage cfg verifyMessage laneMessageVerifier encode s submitter laneId payload =
      .ok (⟨(s.outboundLanes laneId).latestGeneratedNonce + 1, cfg.dbWeight.readsWrites 2 2⟩,
        putOutboundLane s ((outboundLane s laneId).sendMessage (encode payload)).2) := by
  unfold sendMessage ensureNormalOperatingMode
  rw [if_pos hmode]
  dsimp only
  rw [if_neg (not_not.mpr hactive), hchain]
  simp only [outboundLane_data, hlane]
  rw [if_neg (by omega)]
  rfl

/-- The runtime-common lane verifier accepts a message only from an origin
    the lane accepts, and with at most the maximum of messages pending. -/
theorem verifyMessage_ok {isMessageAccepted : O → LaneId → Bool} {maxPending : ℕ}
    {submitter : O} {lane : LaneId} {data : OutboundLaneData} {payload : MessagePayload}
    (h : FromThisChainMessageVerifier.verifyMessage isMessageAccepted maxPending submitter lane data
      payload = .ok ()) :
    isMessageAccepted submitter lane = true ∧
      data.latestGeneratedNonce - data.latestReceivedNonce ≤ maxPending := by
  unfold FromThisChainMessageVerifier.verifyMessage at h
  dsimp only at h
  split_ifs at h with haccepted hpending
  simp only [Bool.not_eq_eq_eq_not, Bool.not_true, Bool.not_eq_false] at haccepted
  exact ⟨haccepted, by omega⟩

/-! ## `receive_messages_delivery_proof` -/

/-- Everything the pallet's `receive_messages_delivery_proof` can do: fail,
    or confirm on the lane the proof was verified for and write that lane
    back. -/
theorem receiveMessagesDeliveryProof_cases
    (verify : DPf → Except String (LaneId × InboundLaneData R)) (s : MessagesStorage R)
    (proof : DPf) (rs : UnrewardedRelayersState) :
    (∃ e, receiveMessagesDeliveryProof verify s proof rs = .error e) ∨
    ∃ laneId laneData confirmed lane, verify proof = .ok (laneId, laneData) ∧
      ParityBridge.receiveMessagesDeliveryProof (outboundLane s laneId) laneData rs =
        .ok (confirmed, lane) ∧
      receiveMessagesDeliveryProof verify s proof rs = .ok (confirmed, putOutboundLane s lane) := by
  unfold receiveMessagesDeliveryProof
  by_cases hhalted : s.palletOperatingMode.isHalted
  · exact .inl ⟨_, if_pos hhalted⟩
  rw [if_neg hhalted]
  cases hverify : verify proof with
  | error e => exact .inl ⟨_, rfl⟩
  | ok verified =>
      obtain ⟨laneId, laneData⟩ := verified
      dsimp only
      cases hconfirm : ParityBridge.receiveMessagesDeliveryProof (outboundLane s laneId) laneData rs with
      | error e => exact .inl ⟨e, rfl⟩
      | ok result =>
          obtain ⟨confirmed, lane⟩ := result
          exact .inr ⟨laneId, laneData, confirmed, lane, rfl, hconfirm, rfl⟩

/-- A confirmation moves `latest_received_nonce` of the lane it confirms on
    forward, and changes nothing else of any lane's counters. -/
theorem receiveMessagesDeliveryProof_counters
    {verify : DPf → Except String (LaneId × InboundLaneData R)} {s s' : MessagesStorage R}
    {proof : DPf} {rs : UnrewardedRelayersState} {confirmed : Option DeliveredMessages}
    (h : receiveMessagesDeliveryProof verify s proof rs = .ok (confirmed, s')) (l : LaneId) :
    (s'.outboundLanes l).latestGeneratedNonce = (s.outboundLanes l).latestGeneratedNonce ∧
      (s.outboundLanes l).latestReceivedNonce ≤ (s'.outboundLanes l).latestReceivedNonce := by
  rcases receiveMessagesDeliveryProof_cases verify s proof rs with ⟨e, he⟩ | ⟨laneId, laneData,
    confirmed', lane, -, hlane, hres⟩
  · rw [he] at h
    exact nomatch h
  rw [hres] at h
  obtain ⟨-, rfl⟩ := Prod.mk.inj (Except.ok.inj h)
  -- the lane is written back as read, or with `latest_received_nonce` moved forward
  have hmoved : lane = outboundLane s laneId ∨
      ((s.outboundLanes laneId).latestReceivedNonce < laneData.lastDeliveredNonce ∧
        lane = { outboundLane s laneId with
          data := { s.outboundLanes laneId with
            latestReceivedNonce := laneData.lastDeliveredNonce } }) := by
    rcases ParityBridge.receiveMessagesDeliveryProof_cases (outboundLane s laneId) laneData rs
      with ⟨e, he⟩ | hnone | ⟨hlt, hsome⟩
    · rw [he] at hlane
      exact nomatch hlane
    · rw [hnone] at hlane
      exact .inl (Prod.mk.inj (Except.ok.inj hlane)).2.symm
    · rw [hsome] at hlane
      exact .inr ⟨hlt, (Prod.mk.inj (Except.ok.inj hlane)).2.symm⟩
  rcases hmoved with rfl | ⟨hlt, rfl⟩
  · rw [putOutboundLane_outboundLane]
    exact ⟨rfl, le_rfl⟩
  · rw [outboundLanes_putOutboundLane]
    split
    · next hl =>
        simp only [outboundLane_id] at hl
        subst hl
        exact ⟨rfl, hlt.le⟩
    · exact ⟨rfl, le_rfl⟩

/-- **NOTHING NEW TO CONFIRM**: a delivery proof that declares no nonce
    beyond the latest one its lane received leaves the storage as it was. -/
theorem receiveMessagesDeliveryProof_of_received
    {verify : DPf → Except String (LaneId × InboundLaneData R)} {s s' : MessagesStorage R}
    {proof : DPf} {rs : UnrewardedRelayersState} {confirmed : Option DeliveredMessages}
    {laneId : LaneId} {laneData : InboundLaneData R}
    (hverify : verify proof = .ok (laneId, laneData))
    (hle : rs.lastDeliveredNonce ≤ (s.outboundLanes laneId).latestReceivedNonce)
    (h : receiveMessagesDeliveryProof verify s proof rs = .ok (confirmed, s')) : s' = s := by
  rcases receiveMessagesDeliveryProof_cases verify s proof rs with ⟨e, he⟩ | ⟨laneId', laneData',
    confirmed', lane, hverify', hlane, hres⟩
  · rw [he] at h
    exact nomatch h
  rw [hverify] at hverify'
  obtain ⟨rfl, rfl⟩ := Prod.mk.inj (Except.ok.inj hverify')
  rw [hres] at h
  obtain ⟨-, rfl⟩ := Prod.mk.inj (Except.ok.inj h)
  have hlast := lastDeliveredNonce_of_receiveMessagesDeliveryProof hlane
  rcases ParityBridge.receiveMessagesDeliveryProof_cases (outboundLane s laneId) laneData rs
    with ⟨e, he⟩ | hnone | ⟨hlt, -⟩
  · rw [he] at hlane
    exact nomatch hlane
  · rw [hnone] at hlane
    rw [← (Prod.mk.inj (Except.ok.inj hlane)).2, putOutboundLane_outboundLane]
  · -- a new confirmation needs a delivered nonce above the received one
    rw [outboundLane_data] at hlt
    omega


/-! ## `on_idle` -/

/-- Everything `on_idle` can do when it returns: nothing, when the weight
    does not cover one read and two writes, or prune the active lane with
    the weight left after reading its state. -/
theorem onIdle_cases {cfg : MessagesConfig} {s s' : MessagesStorage R} {blockNumber : ℕ}
    {remaining w : Weight} (h : onIdle cfg s blockNumber remaining = some (w, s')) :
    (w = Weight.zero ∧ s' = s) ∨
    ∃ laneId, remaining.allGte (cfg.dbWeight.readsWrites 1 2) = true ∧
      w = cfg.dbWeight.reads 1 +
        ((outboundLane s laneId).pruneMessages cfg.dbWeight (remaining - cfg.dbWeight.reads 1)).1 ∧
      s' = putOutboundLane s
        ((outboundLane s laneId).pruneMessages cfg.dbWeight (remaining - cfg.dbWeight.reads 1)).2 := by
  unfold onIdle at h
  by_cases henough : remaining.allGte (cfg.dbWeight.readsWrites 1 2) = true
  · rw [if_neg (by simpa using henough)] at h
    split at h
    · exact nomatch h
    · next laneId _ =>
        obtain ⟨hw, hs⟩ := Prod.mk.inj (Option.some.inj h)
        exact .inr ⟨laneId, henough, hw.symm, hs.symm⟩
  · rw [if_pos (by simpa using henough)] at h
    obtain ⟨hw, hs⟩ := Prod.mk.inj (Option.some.inj h)
    exact .inl ⟨hw.symm, hs.symm⟩

/-- `on_idle` returns at most the weight it was given: the read it charges
    first is covered, and pruning spends at most what is left. -/
theorem onIdle_le {cfg : MessagesConfig} {s s' : MessagesStorage R} {blockNumber : ℕ}
    {remaining w : Weight} (h : onIdle cfg s blockNumber remaining = some (w, s')) :
    w.refTime ≤ remaining.refTime ∧ w.proofSize ≤ remaining.proofSize := by
  rcases onIdle_cases h with ⟨rfl, -⟩ | ⟨laneId, henough, rfl, -⟩
  · exact ⟨Nat.zero_le _, Nat.zero_le _⟩
  obtain ⟨k, -, -, -, -, hpruneRef, hpruneProof, -⟩ :=
    OutboundLane.pruneMessages_budget (outboundLane s laneId) cfg.dbWeight
      (remaining - cfg.dbWeight.reads 1)
  -- the weight covers one read and two writes, so the read is covered
  have hread : cfg.dbWeight.read ≤ remaining.refTime := by
    simp [Weight.allGte, RuntimeDbWeight.readsWrites] at henough
    omega
  have hRef : ((outboundLane s laneId).pruneMessages cfg.dbWeight
      (remaining - cfg.dbWeight.reads 1)).1.refTime ≤ remaining.refTime - cfg.dbWeight.read := by
    simpa [RuntimeDbWeight.reads] using hpruneRef
  have hProof : ((outboundLane s laneId).pruneMessages cfg.dbWeight
      (remaining - cfg.dbWeight.reads 1)).1.proofSize ≤ remaining.proofSize := by
    simpa [RuntimeDbWeight.reads] using hpruneProof
  generalize (outboundLane s laneId).pruneMessages cfg.dbWeight
    (remaining - cfg.dbWeight.reads 1) = pruned at hRef hProof ⊢
  simp only [RuntimeDbWeight.reads, Weight.add_refTime, Weight.add_proofSize, Nat.mul_one,
    Nat.zero_add]
  exact ⟨by omega, hProof⟩

/-- `on_idle` keeps every lane's `latest_generated_nonce` and
    `latest_received_nonce`: it only prunes. -/
theorem onIdle_counters {cfg : MessagesConfig} {s s' : MessagesStorage R} {blockNumber : ℕ}
    {remaining w : Weight} (h : onIdle cfg s blockNumber remaining = some (w, s')) (l : LaneId) :
    (s'.outboundLanes l).latestGeneratedNonce = (s.outboundLanes l).latestGeneratedNonce ∧
      (s'.outboundLanes l).latestReceivedNonce = (s.outboundLanes l).latestReceivedNonce := by
  rcases onIdle_cases h with ⟨-, rfl⟩ | ⟨laneId, -, -, rfl⟩
  · exact ⟨rfl, rfl⟩
  rw [outboundLanes_putOutboundLane, OutboundLane.pruneMessages_id, outboundLane_id]
  split
  · next hl =>
      subst hl
      exact OutboundLane.pruneMessages_counters _ _ _
  · exact ⟨rfl, rfl⟩

/-- **PRUNE BUDGET**: `prune_messages` removes the payloads of the `k`
    oldest unpruned nonces, `k` as large as the received nonces and the rule
    "each round starts with two writes left" allow, returns `k + 1` writes
    when it pruned something and nothing otherwise, never more than it was
    given, and writes the lane data back only when it pruned something with
    writes that cost reference time; so `on_idle` never returns more than its
    remaining weight. -/
theorem prune_messages_budget_and_maximal :
    (∀ (P : Type) (lane : OutboundLane P) (db : RuntimeDbWeight) (remaining : Weight),
      let o := lane.data.oldestUnprunedNonce
      let r := lane.pruneMessages db remaining
      ∃ k, k ≤ lane.data.latestReceivedNonce + 1 - o ∧
        (∀ i < k, (i + 2) * db.write ≤ remaining.refTime) ∧
        (k = lane.data.latestReceivedNonce + 1 - o ∨ remaining.refTime < (k + 2) * db.write) ∧
        r.1 = (if 0 < k then db.writes (k + 1) else Weight.zero) ∧
        r.1.refTime ≤ remaining.refTime ∧ r.1.proofSize ≤ remaining.proofSize ∧
        r.2 = { lane with
          data := if 0 < k ∧ 0 < db.write then { lane.data with oldestUnprunedNonce := o + k }
            else lane.data
          messages := OutboundLane.removeRange lane.messages o (o + k) }) ∧
    ∀ (cfg : MessagesConfig) (s s' : MessagesStorage R) (blockNumber : ℕ) (remaining w : Weight),
      onIdle cfg s blockNumber remaining = some (w, s') →
        w.refTime ≤ remaining.refTime ∧ w.proofSize ≤ remaining.proofSize :=
  ⟨fun _ lane db remaining => OutboundLane.pruneMessages_budget lane db remaining,
    fun _ _ _ _ _ _ h => onIdle_le h⟩

/-- The carried lane state never moves the last delivered nonce. -/
theorem lastDeliveredNonce_receiveLaneState (lane : InboundLane R A P)
    (laneState : Option OutboundLaneData) :
    (receiveLaneState lane laneState).data.lastDeliveredNonce = lane.data.lastDeliveredNonce := by
  cases laneState with
  | none => rfl
  | some o => exact InboundLane.lastDeliveredNonce_receiveStateUpdate lane o

/-! ## `receive_messages_proof` leaves the outbound lanes alone -/

section Dispatch

variable [DecidableEq R] (cfg : MessagesConfig)
  (dispatch : A → DispatchMessage P → MessageDispatchResult E)
  (dispatchWeight : DispatchMessage P → Weight) (relayerIdAtBridgedChain : R)
  (relayerIdAtThisChain : A) (extraProofSizeBytes : InboundLaneData R → ℕ)

theorem outboundLanes_dispatchLane (st : ProofDispatch R E)
    (laneMessages : LaneId × ProvedLaneMessages (DispatchMessage P)) :
    (dispatchLane cfg dispatch dispatchWeight relayerIdAtBridgedChain relayerIdAtThisChain
      extraProofSizeBytes st laneMessages).storage.outboundLanes = st.storage.outboundLanes := by
  obtain ⟨laneId, laneData⟩ := laneMessages
  rfl

theorem receiveMessagesProof_outboundLanes
    {verify : Pf → ℕ → Except MessageProofError (List (LaneId × ProvedLaneMessages Message))}
    {intoDispatchData : MessagePayload → P} {weightOf : Pf → ℕ → Weight → Weight}
    {s : MessagesStorage R} {proof : Pf} {messagesCount : ℕ} {declared : Weight}
    {out : ProofDispatch R E}
    (h : receiveMessagesProof cfg dispatch dispatchWeight relayerIdAtBridgedChain
      relayerIdAtThisChain verify intoDispatchData weightOf extraProofSizeBytes s proof
      messagesCount declared = .ok out) :
    out.storage.outboundLanes = s.outboundLanes := by
  unfold receiveMessagesProof at h
  split_ifs at h
  split at h
  · exact nomatch h
  · rw [← Except.ok.inj h]
    exact Reach.foldl_invariant (fun st : ProofDispatch R E => st.storage.outboundLanes = s.outboundLanes)
      (fun _ => True) (fun st lm _ hst => (outboundLanes_dispatchLane cfg dispatch dispatchWeight
        relayerIdAtBridgedChain relayerIdAtThisChain extraProofSizeBytes st lm).trans hst)
      _ _ (fun _ _ => trivial) rfl


/-! ## The dispatch loop of `receive_messages_proof` -/

/-- Everything one round of the loop does: skip the message once the lane
    has stopped; skip it and stop the lane when its dispatch weight exceeds
    what is left; or hand it to the lane, charge what its dispatch used and
    refund the rest. -/
theorem dispatchMessage_cases (st : LaneDispatch R A P E) (message : DispatchMessage P) :
    let status := st.laneMessagesReceivedStatus
    let skipped := { status with skippedForNotEnoughWeight :=
      status.skippedForNotEnoughWeight ++ [message.key.nonce] }
    let mdw := dispatchWeight message
    (st.isLaneProcessingStoppedNoWeightLeft = true ∧
      dispatchMessage dispatch dispatchWeight relayerIdAtBridgedChain relayerIdAtThisChain st message =
        { st with
          totalMessages := st.totalMessages + 1
          laneMessagesReceivedStatus := skipped }) ∨
    (st.isLaneProcessingStoppedNoWeightLeft = false ∧ mdw.anyGt st.dispatchWeightLeft = true ∧
      dispatchMessage dispatch dispatchWeight relayerIdAtBridgedChain relayerIdAtThisChain st message =
        { st with
          totalMessages := st.totalMessages + 1
          laneMessagesReceivedStatus := skipped
          isLaneProcessingStoppedNoWeightLeft := true }) ∨
    (st.isLaneProcessingStoppedNoWeightLeft = false ∧ mdw.anyGt st.dispatchWeightLeft = false ∧
      ∃ receivalResult lane,
        st.lane.receiveMessage dispatch relayerIdAtBridgedChain relayerIdAtThisChain
          message.key.nonce message.data = (receivalResult, lane) ∧
        let unspent := (unspentWeightOf receivalResult mdw).min mdw
        dispatchMessage dispatch dispatchWeight relayerIdAtBridgedChain relayerIdAtThisChain st
            message =
          { st with
            totalMessages := st.totalMessages + 1
            lane := lane
            laneMessagesReceivedStatus := { status with receiveResults :=
              status.receiveResults ++ [(message.key.nonce, receivalResult)] }
            validMessages := if receivalResult.isDispatched then st.validMessages + 1
              else st.validMessages
            dispatchWeightLeft := st.dispatchWeightLeft - (mdw - unspent)
            actualWeight := st.actualWeight.saturatingSub unspent
            chargedWeights := st.chargedWeights ++ [mdw - unspent] }) := by
  intro status skipped mdw
  unfold dispatchMessage
  dsimp only
  cases hstop : st.isLaneProcessingStoppedNoWeightLeft
  · cases hgt : mdw.anyGt st.dispatchWeightLeft
    · -- the message is handed to the lane
      generalize st.lane.receiveMessage dispatch relayerIdAtBridgedChain relayerIdAtThisChain
        message.key.nonce message.data = received
      obtain ⟨receivalResult, lane⟩ := received
      refine .inr (.inr ⟨rfl, rfl, receivalResult, lane, rfl, ?_⟩)
      simp [mdw, status]
    · exact .inr (.inl ⟨rfl, rfl, by simp; rfl⟩)
  · exact .inl ⟨rfl, by simp; rfl⟩


/-- Every message of the lane counts, handed to the lane or not. -/
theorem dispatchMessage_totalMessages (st : LaneDispatch R A P E) (message : DispatchMessage P) :
    (dispatchMessage dispatch dispatchWeight relayerIdAtBridgedChain relayerIdAtThisChain st
      message).totalMessages = st.totalMessages + 1 := by
  rcases dispatchMessage_cases dispatch dispatchWeight relayerIdAtBridgedChain relayerIdAtThisChain
    st message with ⟨-, h⟩ | ⟨-, -, h⟩ | ⟨-, -, _, _, -, h⟩ <;> rw [h]

/-- **NO UNDERFLOW**: a round takes off `dispatch_weight_left` exactly the
    weight it records as charged, which is never more than was left, so the
    sum of what is left and what was charged stays as it was. -/
theorem dispatchMessage_weight (st : LaneDispatch R A P E) (message : DispatchMessage P) :
    let st' := dispatchMessage dispatch dispatchWeight relayerIdAtBridgedChain relayerIdAtThisChain
      st message
    st'.dispatchWeightLeft.refTime + (st'.chargedWeights.map Weight.refTime).sum =
        st.dispatchWeightLeft.refTime + (st.chargedWeights.map Weight.refTime).sum ∧
      st'.dispatchWeightLeft.proofSize + (st'.chargedWeights.map Weight.proofSize).sum =
        st.dispatchWeightLeft.proofSize + (st.chargedWeights.map Weight.proofSize).sum := by
  intro st'
  rcases dispatchMessage_cases dispatch dispatchWeight relayerIdAtBridgedChain relayerIdAtThisChain
    st message with ⟨-, h⟩ | ⟨-, -, h⟩ | ⟨-, hgt, receivalResult, _, -, h⟩
  · rw [show st' = _ from h]
    exact ⟨rfl, rfl⟩
  · rw [show st' = _ from h]
    exact ⟨rfl, rfl⟩
  · rw [show st' = _ from h]
    -- the message's dispatch weight fits what is left, and the charge is part of it
    have hfit := (Weight.anyGt_eq_false_iff _ _).mp hgt
    simp only [Weight.sub_refTime, Weight.sub_proofSize, Weight.min_refTime, Weight.min_proofSize,
      List.map_append, List.map_cons, List.map_nil, List.sum_append, List.sum_cons, List.sum_nil]
    omega

/-- A round never raises the actual weight: it only refunds. -/
theorem dispatchMessage_actualWeight_le (st : LaneDispatch R A P E) (message : DispatchMessage P) :
    let st' := dispatchMessage dispatch dispatchWeight relayerIdAtBridgedChain relayerIdAtThisChain
      st message
    st'.actualWeight.refTime ≤ st.actualWeight.refTime ∧
      st'.actualWeight.proofSize ≤ st.actualWeight.proofSize := by
  intro st'
  rcases dispatchMessage_cases dispatch dispatchWeight relayerIdAtBridgedChain relayerIdAtThisChain
    st message with ⟨-, h⟩ | ⟨-, -, h⟩ | ⟨-, -, _, _, -, h⟩
  · rw [show st' = _ from h]
    exact ⟨le_rfl, le_rfl⟩
  · rw [show st' = _ from h]
    exact ⟨le_rfl, le_rfl⟩
  · rw [show st' = _ from h]
    exact ⟨Nat.sub_le _ _, Nat.sub_le _ _⟩

/-- A round either skips the message — then the lane is stopped after it —
    or, the lane not stopped, hands it to the lane and records its result. -/
theorem dispatchMessage_status (st : LaneDispatch R A P E) (message : DispatchMessage P) :
    let st' := dispatchMessage dispatch dispatchWeight relayerIdAtBridgedChain relayerIdAtThisChain
      st message
    st'.laneMessagesReceivedStatus.lane = st.laneMessagesReceivedStatus.lane ∧
    ((st'.isLaneProcessingStoppedNoWeightLeft = true ∧
        st'.laneMessagesReceivedStatus.receiveResults = st.laneMessagesReceivedStatus.receiveResults ∧
        st'.laneMessagesReceivedStatus.skippedForNotEnoughWeight =
          st.laneMessagesReceivedStatus.skippedForNotEnoughWeight ++ [message.key.nonce]) ∨
      (st.isLaneProcessingStoppedNoWeightLeft = false ∧
        st'.isLaneProcessingStoppedNoWeightLeft = false ∧
        (∃ receivalResult, st'.laneMessagesReceivedStatus.receiveResults =
          st.laneMessagesReceivedStatus.receiveResults ++ [(message.key.nonce, receivalResult)]) ∧
        st'.laneMessagesReceivedStatus.skippedForNotEnoughWeight =
          st.laneMessagesReceivedStatus.skippedForNotEnoughWeight)) := by
  intro st'
  rcases dispatchMessage_cases dispatch dispatchWeight relayerIdAtBridgedChain relayerIdAtThisChain
    st message with ⟨hstop, h⟩ | ⟨-, -, h⟩ | ⟨hstop, -, receivalResult, _, -, h⟩
  · rw [show st' = _ from h]
    exact ⟨rfl, .inl ⟨hstop, rfl, rfl⟩⟩
  · rw [show st' = _ from h]
    exact ⟨rfl, .inl ⟨rfl, rfl, rfl⟩⟩
  · rw [show st' = _ from h]
    exact ⟨rfl, .inr ⟨hstop, hstop, ⟨receivalResult, rfl⟩, rfl⟩⟩

/-! ### The messages of one lane -/

theorem foldl_dispatchMessage_totalMessages (messages : List (DispatchMessage P))
    (st : LaneDispatch R A P E) :
    (messages.foldl (dispatchMessage dispatch dispatchWeight relayerIdAtBridgedChain
      relayerIdAtThisChain) st).totalMessages = st.totalMessages + messages.length := by
  induction messages generalizing st with
  | nil => rfl
  | cons message rest ih =>
      rw [List.foldl_cons, ih, dispatchMessage_totalMessages, List.length_cons]
      omega

theorem foldl_dispatchMessage_weight (messages : List (DispatchMessage P))
    (st : LaneDispatch R A P E) :
    let out := messages.foldl (dispatchMessage dispatch dispatchWeight relayerIdAtBridgedChain
      relayerIdAtThisChain) st
    out.dispatchWeightLeft.refTime + (out.chargedWeights.map Weight.refTime).sum =
        st.dispatchWeightLeft.refTime + (st.chargedWeights.map Weight.refTime).sum ∧
      out.dispatchWeightLeft.proofSize + (out.chargedWeights.map Weight.proofSize).sum =
        st.dispatchWeightLeft.proofSize + (st.chargedWeights.map Weight.proofSize).sum ∧
      out.actualWeight.refTime ≤ st.actualWeight.refTime ∧
      out.actualWeight.proofSize ≤ st.actualWeight.proofSize := by
  induction messages generalizing st with
  | nil => exact ⟨rfl, rfl, le_rfl, le_rfl⟩
  | cons message rest ih =>
      obtain ⟨href, hproof, hactRef, hactProof⟩ := ih
        (dispatchMessage dispatch dispatchWeight relayerIdAtBridgedChain relayerIdAtThisChain st
          message)
      obtain ⟨href₁, hproof₁⟩ := dispatchMessage_weight dispatch dispatchWeight
        relayerIdAtBridgedChain relayerIdAtThisChain st message
      obtain ⟨hactRef₁, hactProof₁⟩ := dispatchMessage_actualWeight_le dispatch dispatchWeight
        relayerIdAtBridgedChain relayerIdAtThisChain st message
      rw [List.foldl_cons]
      exact ⟨href.trans href₁, hproof.trans hproof₁, hactRef.trans hactRef₁,
        hactProof.trans hactProof₁⟩

/-- **LANE PREFIX**: over the messages of a lane, those handed to the lane
    are a prefix and the rest are skipped; a lane that starts stopped hands
    none. -/
theorem foldl_dispatchMessage_status (messages : List (DispatchMessage P))
    (st : LaneDispatch R A P E) :
    let out := messages.foldl (dispatchMessage dispatch dispatchWeight relayerIdAtBridgedChain
      relayerIdAtThisChain) st
    out.laneMessagesReceivedStatus.lane = st.laneMessagesReceivedStatus.lane ∧
    ∃ j ≤ messages.length, (st.isLaneProcessingStoppedNoWeightLeft = true → j = 0) ∧
      out.laneMessagesReceivedStatus.receiveResults.map Prod.fst =
        st.laneMessagesReceivedStatus.receiveResults.map Prod.fst ++
          (messages.take j).map (·.key.nonce) ∧
      out.laneMessagesReceivedStatus.skippedForNotEnoughWeight =
        st.laneMessagesReceivedStatus.skippedForNotEnoughWeight ++
          (messages.drop j).map (·.key.nonce) := by
  induction messages generalizing st with
  | nil => exact ⟨rfl, 0, Nat.zero_le _, fun _ => rfl, by simp, by simp⟩
  | cons message rest ih =>
      obtain ⟨hlane, hround⟩ := dispatchMessage_status dispatch dispatchWeight
        relayerIdAtBridgedChain relayerIdAtThisChain st message
      obtain ⟨hlane', j, hj, hstop, hres, hskip⟩ := ih
        (dispatchMessage dispatch dispatchWeight relayerIdAtBridgedChain relayerIdAtThisChain st
          message)
      rw [List.foldl_cons]
      refine ⟨hlane'.trans hlane, ?_⟩
      rcases hround with ⟨hstopped, hres₁, hskip₁⟩ | ⟨hnot, -, ⟨receivalResult, hres₁⟩, hskip₁⟩
      · -- skipped: the lane is stopped from here on, so every later message is skipped too
        obtain rfl := hstop hstopped
        refine ⟨0, Nat.zero_le _, fun _ => rfl, ?_, ?_⟩
        · rw [hres, hres₁]
          simp
        · rw [hskip, hskip₁]
          simp
      · -- handed to the lane: one more message of the prefix
        refine ⟨j + 1, by simpa using hj, fun h => absurd (hnot ▸ h) Bool.false_ne_true, ?_, ?_⟩
        · rw [hres, hres₁]
          simp
        · rw [hskip, hskip₁]
          simp

/-- A message at or below the lane's last delivered nonce leaves the lane
    as it was: the round skips it, or the lane rejects its nonce. -/
theorem dispatchMessage_lane_of_le (st : LaneDispatch R A P E) (message : DispatchMessage P)
    (hle : message.key.nonce ≤ st.lane.data.lastDeliveredNonce) :
    (dispatchMessage dispatch dispatchWeight relayerIdAtBridgedChain relayerIdAtThisChain st
      message).lane = st.lane := by
  rcases dispatchMessage_cases dispatch dispatchWeight relayerIdAtBridgedChain relayerIdAtThisChain
    st message with ⟨-, h⟩ | ⟨-, -, h⟩ | ⟨-, -, receivalResult, lane, hreceive, h⟩
  · rw [h]
  · rw [h]
  · rw [h]
    show lane = st.lane
    -- the lane takes only the nonce right after its last delivered one
    rcases InboundLane.receiveMessage_cases dispatch st.lane relayerIdAtBridgedChain
      relayerIdAtThisChain message.key.nonce message.data with ⟨-, hsame⟩ | ⟨hnext, -⟩
    · rw [hreceive] at hsame
      exact hsame
    · omega

theorem foldl_dispatchMessage_lane_of_le (messages : List (DispatchMessage P))
    (st : LaneDispatch R A P E)
    (hle : ∀ message ∈ messages, message.key.nonce ≤ st.lane.data.lastDeliveredNonce) :
    (messages.foldl (dispatchMessage dispatch dispatchWeight relayerIdAtBridgedChain
      relayerIdAtThisChain) st).lane = st.lane := by
  induction messages generalizing st with
  | nil => rfl
  | cons message rest ih =>
      have hfirst := dispatchMessage_lane_of_le dispatch dispatchWeight relayerIdAtBridgedChain
        relayerIdAtThisChain st message (hle message List.mem_cons_self)
      rw [List.foldl_cons, ih, hfirst]
      intro m hm
      rw [hfirst]
      exact hle m (List.mem_cons_of_mem _ hm)

/-! ### The lanes of the proof -/

/-- **DELIVERED ALREADY**: a lane of the proof whose messages are all
    delivered already dispatches none of them; only the lane state the proof
    carries is applied. -/
theorem dispatchLane_storage_of_le (st : ProofDispatch R E) (laneId : LaneId)
    (laneData : ProvedLaneMessages (DispatchMessage P))
    (hle : ∀ message ∈ laneData.messages,
      message.key.nonce ≤ (st.storage.inboundLanes laneId).lastDeliveredNonce) :
    (dispatchLane cfg dispatch dispatchWeight relayerIdAtBridgedChain relayerIdAtThisChain
      extraProofSizeBytes st (laneId, laneData)).storage =
      putInboundLane st.storage
        (receiveLaneState (inboundLane cfg st.storage laneId : InboundLane R A P)
          laneData.laneState) := by
  unfold dispatchLane
  dsimp only
  rw [foldl_dispatchMessage_lane_of_le]
  intro message hmem
  rw [lastDeliveredNonce_receiveLaneState]
  exact hle message hmem

/-- The status of a lane records its messages' nonces in order: those handed
    to the lane form a prefix of them, and the others were skipped. -/
def ReceivedPrefix (laneMessages : LaneId × ProvedLaneMessages (DispatchMessage P))
    (status : ReceivedMessages E) : Prop :=
  status.lane = laneMessages.1 ∧ ∃ j ≤ laneMessages.2.messages.length,
    status.receiveResults.map Prod.fst = (laneMessages.2.messages.take j).map (·.key.nonce) ∧
    status.skippedForNotEnoughWeight = (laneMessages.2.messages.drop j).map (·.key.nonce)

/-- One lane of the proof: its messages all count, the weight left plus the
    weight charged stays as it was, the actual weight does not grow, and the
    lane's status is a prefix status. -/
theorem dispatchLane_spec (st : ProofDispatch R E)
    (laneMessages : LaneId × ProvedLaneMessages (DispatchMessage P)) :
    let out := dispatchLane cfg dispatch dispatchWeight relayerIdAtBridgedChain relayerIdAtThisChain
      extraProofSizeBytes st laneMessages
    out.totalMessages = st.totalMessages + laneMessages.2.messages.length ∧
    out.dispatchWeightLeft.refTime + (out.chargedWeights.map Weight.refTime).sum =
        st.dispatchWeightLeft.refTime + (st.chargedWeights.map Weight.refTime).sum ∧
    out.dispatchWeightLeft.proofSize + (out.chargedWeights.map Weight.proofSize).sum =
        st.dispatchWeightLeft.proofSize + (st.chargedWeights.map Weight.proofSize).sum ∧
    out.actualWeight.refTime ≤ st.actualWeight.refTime ∧
    out.actualWeight.proofSize ≤ st.actualWeight.proofSize ∧
    ∃ status, out.messagesReceivedStatus = st.messagesReceivedStatus ++ [status] ∧
      ReceivedPrefix laneMessages status := by
  obtain ⟨laneId, laneData⟩ := laneMessages
  -- the lane's loop starts unstopped, with an empty status, from the proof's counters
  let start : LaneDispatch R A P E :=
    ⟨receiveLaneState (inboundLane cfg st.storage laneId) laneData.laneState, .new laneId [], false,
      st.totalMessages, st.validMessages, st.dispatchWeightLeft,
      st.actualWeight.setProofSize (st.actualWeight.proofSize -
        extraProofSizeBytes (inboundLane cfg st.storage laneId : InboundLane R A P).data),
      st.chargedWeights⟩
  obtain ⟨href, hproof, hactRef, hactProof⟩ := foldl_dispatchMessage_weight dispatch dispatchWeight
    relayerIdAtBridgedChain relayerIdAtThisChain laneData.messages start
  obtain ⟨hlane, j, hj, -, hres, hskip⟩ := foldl_dispatchMessage_status dispatch dispatchWeight
    relayerIdAtBridgedChain relayerIdAtThisChain laneData.messages start
  refine ⟨foldl_dispatchMessage_totalMessages dispatch dispatchWeight relayerIdAtBridgedChain
    relayerIdAtThisChain _ _, href, hproof, hactRef, ?_, _, rfl, hlane, j, hj, ?_, ?_⟩
  · exact hactProof.trans (Nat.sub_le _ _)
  · simpa [start, ReceivedMessages.new] using hres
  · simpa [start, ReceivedMessages.new] using hskip

/-- All the lanes of the proof, in order. -/
theorem foldl_dispatchLane_spec (lanes : List (LaneId × ProvedLaneMessages (DispatchMessage P)))
    (st : ProofDispatch R E) :
    let out := lanes.foldl (dispatchLane cfg dispatch dispatchWeight relayerIdAtBridgedChain
      relayerIdAtThisChain extraProofSizeBytes) st
    out.totalMessages = st.totalMessages + (lanes.map fun lm => lm.2.messages.length).sum ∧
    out.dispatchWeightLeft.refTime + (out.chargedWeights.map Weight.refTime).sum =
        st.dispatchWeightLeft.refTime + (st.chargedWeights.map Weight.refTime).sum ∧
    out.dispatchWeightLeft.proofSize + (out.chargedWeights.map Weight.proofSize).sum =
        st.dispatchWeightLeft.proofSize + (st.chargedWeights.map Weight.proofSize).sum ∧
    out.actualWeight.refTime ≤ st.actualWeight.refTime ∧
    out.actualWeight.proofSize ≤ st.actualWeight.proofSize ∧
    ∃ statuses, out.messagesReceivedStatus = st.messagesReceivedStatus ++ statuses ∧
      List.Forall₂ ReceivedPrefix lanes statuses := by
  induction lanes generalizing st with
  | nil => exact ⟨rfl, rfl, rfl, le_rfl, le_rfl, [], by simp, .nil⟩
  | cons laneMessages rest ih =>
      obtain ⟨htotal₁, href₁, hproof₁, hactRef₁, hactProof₁, status, hstatus₁, hprefix⟩ :=
        dispatchLane_spec cfg dispatch dispatchWeight relayerIdAtBridgedChain relayerIdAtThisChain
          extraProofSizeBytes st laneMessages
      obtain ⟨htotal, href, hproof, hactRef, hactProof, statuses, hstatus, hprefixes⟩ := ih
        (dispatchLane cfg dispatch dispatchWeight relayerIdAtBridgedChain relayerIdAtThisChain
          extraProofSizeBytes st laneMessages)
      rw [List.foldl_cons]
      refine ⟨?_, href.trans href₁, hproof.trans hproof₁, hactRef.trans hactRef₁,
        hactProof.trans hactProof₁, status :: statuses, ?_, .cons hprefix hprefixes⟩
      · rw [htotal, htotal₁, List.map_cons, List.sum_cons]
        omega
      · rw [hstatus, hstatus₁, List.append_assoc, List.singleton_append]

/-- **DISPATCH WEIGHT ACCOUNTING**: a `receive_messages_proof` call that
    succeeds takes off `dispatch_weight_left`, message after message, exactly
    the weight it charges — the dispatch weight less what the dispatch did not
    use — so the weight left and the weight charged add up to the declared
    dispatch weight: no subtraction of the loop truncated, and the charges
    stay within the declared weight.  Its actual weight stays within its
    declared weight, each lane's messages handed to the lane are a prefix of
    them, and every message of the proof is counted. -/
theorem receive_messages_proof_weight_accounting (cfg : MessagesConfig)
    (dispatch : A → DispatchMessage P → MessageDispatchResult E)
    (dispatchWeight : DispatchMessage P → Weight) (relayerIdAtBridgedChain : R)
    (relayerIdAtThisChain : A)
    (verify : Pf → ℕ → Except MessageProofError (List (LaneId × ProvedLaneMessages Message)))
    (intoDispatchData : MessagePayload → P) (weightOf : Pf → ℕ → Weight → Weight)
    (extraProofSizeBytes : InboundLaneData R → ℕ) (s : MessagesStorage R) (proof : Pf)
    (messagesCount : ℕ) (declaredDispatchWeight : Weight) (out : ProofDispatch R E)
    (h : receiveMessagesProof cfg dispatch dispatchWeight relayerIdAtBridgedChain
      relayerIdAtThisChain verify intoDispatchData weightOf extraProofSizeBytes s proof
      messagesCount declaredDispatchWeight = .ok out) :
    ∃ messages, verify proof messagesCount = .ok messages ∧
      let lanes := decodeMessages intoDispatchData messages
      out.dispatchWeightLeft.refTime + (out.chargedWeights.map Weight.refTime).sum =
        declaredDispatchWeight.refTime ∧
      out.dispatchWeightLeft.proofSize + (out.chargedWeights.map Weight.proofSize).sum =
        declaredDispatchWeight.proofSize ∧
      (out.chargedWeights.map Weight.refTime).sum ≤ declaredDispatchWeight.refTime ∧
      (out.chargedWeights.map Weight.proofSize).sum ≤ declaredDispatchWeight.proofSize ∧
      out.actualWeight.refTime ≤ (weightOf proof messagesCount declaredDispatchWeight).refTime ∧
      out.actualWeight.proofSize ≤ (weightOf proof messagesCount declaredDispatchWeight).proofSize ∧
      List.Forall₂ ReceivedPrefix lanes out.messagesReceivedStatus ∧
      out.totalMessages = (lanes.map fun lm => lm.2.messages.length).sum := by
  unfold receiveMessagesProof at h
  split_ifs at h
  split at h
  · exact nomatch h
  · next messages hverify =>
      refine ⟨messages, hverify, ?_⟩
      obtain ⟨htotal, href, hproof, hactRef, hactProof, statuses, hstatuses, hprefix⟩ :=
        foldl_dispatchLane_spec cfg dispatch dispatchWeight relayerIdAtBridgedChain
          relayerIdAtThisChain extraProofSizeBytes (decodeMessages intoDispatchData messages)
          ⟨s, [], 0, 0, declaredDispatchWeight,
            weightOf proof messagesCount declaredDispatchWeight, []⟩
      rw [← Except.ok.inj h]
      -- the loop starts with nothing charged and the whole declared weight left
      simp only [List.map_nil, List.sum_nil, Nat.add_zero, Nat.zero_add, List.nil_append]
        at href hproof htotal hstatuses
      rw [hstatuses]
      exact ⟨href, hproof, href ▸ Nat.le_add_left _ _, hproof ▸ Nat.le_add_left _ _, hactRef,
        hactProof, hprefix, htotal⟩

/-- The verified messages of a proof: two messages on one lane. -/
def twoMessagesProof : Unit → ℕ → Except MessageProofError (List (LaneId × ProvedLaneMessages Message)) :=
  fun _ _ => .ok [(#v[0, 0, 0, 0], ⟨none, [⟨⟨#v[0, 0, 0, 0], 1⟩, []⟩, ⟨⟨#v[0, 0, 0, 0], 2⟩, []⟩]⟩)]

/-- Two messages of dispatch weight `(5, 5)` with `(7, 7)` declared: the
    first is dispatched and charged what its dispatch used, the second
    skipped. -/
theorem receive_messages_proof_weight_accounting_on_two_messages :
    ∃ out : ProofDispatch Unit Unit,
      receiveMessagesProof ⟨[], 0, 8, 8, ⟨1, 1⟩⟩ (fun _ _ => ⟨⟨1, 0⟩, ()⟩) (fun _ => ⟨5, 5⟩) () ()
          twoMessagesProof (fun _ => ()) (fun _ _ w => ⟨w.refTime + 10, w.proofSize + 10⟩)
          (fun _ => 3) (empty (.basic .normal)) () 2 ⟨7, 7⟩ = .ok out ∧
      out.dispatchWeightLeft.refTime + (out.chargedWeights.map Weight.refTime).sum = 7 ∧
      out.actualWeight.refTime ≤ 17 := by
  refine ⟨_, rfl, ?_⟩
  obtain ⟨-, -, href, -, -, -, hact, -⟩ := receive_messages_proof_weight_accounting
    ⟨[], 0, 8, 8, ⟨1, 1⟩⟩ (fun _ _ => ⟨⟨1, 0⟩, ()⟩) (fun _ => ⟨5, 5⟩) () () twoMessagesProof
    (fun _ => ()) (fun _ _ w => ⟨w.refTime + 10, w.proofSize + 10⟩) (fun _ => 3)
    (empty (.basic .normal)) () 2 ⟨7, 7⟩ _ rfl
  exact ⟨href, hact⟩

/-- A call that goes through had its proof verified. -/
theorem receiveMessagesProof_verified
    {verify : Pf → ℕ → Except MessageProofError (List (LaneId × ProvedLaneMessages Message))}
    {intoDispatchData : MessagePayload → P} {weightOf : Pf → ℕ → Weight → Weight}
    {s : MessagesStorage R} {proof : Pf} {messagesCount : ℕ} {declared : Weight}
    {out : ProofDispatch R E}
    (h : receiveMessagesProof cfg dispatch dispatchWeight relayerIdAtBridgedChain
      relayerIdAtThisChain verify intoDispatchData weightOf extraProofSizeBytes s proof
      messagesCount declared = .ok out) :
    ∃ lanes, verify proof messagesCount = .ok lanes := by
  unfold receiveMessagesProof at h
  split_ifs at h
  split at h
  · exact nomatch h
  · next lanes hverify => exact ⟨lanes, hverify⟩

/-- A proof of one lane whose messages are all delivered already changes
    that lane by its carried lane state only. -/
theorem receiveMessagesProof_of_delivered
    {verify : Pf → ℕ → Except MessageProofError (List (LaneId × ProvedLaneMessages Message))}
    {intoDispatchData : MessagePayload → P} {weightOf : Pf → ℕ → Weight → Weight}
    {s : MessagesStorage R} {proof : Pf} {messagesCount : ℕ} {declared : Weight}
    {out : ProofDispatch R E} {laneId : LaneId} {laneState : Option OutboundLaneData}
    {messages : List Message}
    (hverify : verify proof messagesCount = .ok [(laneId, ⟨laneState, messages⟩)])
    (hle : ∀ message ∈ messages, message.key.nonce ≤ (s.inboundLanes laneId).lastDeliveredNonce)
    (h : receiveMessagesProof cfg dispatch dispatchWeight relayerIdAtBridgedChain
      relayerIdAtThisChain verify intoDispatchData weightOf extraProofSizeBytes s proof
      messagesCount declared = .ok out) :
    out.storage =
      putInboundLane s (receiveLaneState (inboundLane cfg s laneId : InboundLane R A P) laneState) := by
  unfold receiveMessagesProof at h
  split_ifs at h
  simp only [hverify, decodeMessages, List.map_cons, List.map_nil, List.foldl_cons,
    List.foldl_nil, Except.ok.injEq] at h
  rw [← h]
  refine dispatchLane_storage_of_le cfg dispatch dispatchWeight relayerIdAtBridgedChain
    relayerIdAtThisChain extraProofSizeBytes _ laneId _ ?_
  -- decoding keeps the messages' keys
  intro message hmem
  obtain ⟨m, hm, rfl⟩ := List.mem_map.mp hmem
  exact hle m hm

end Dispatch

/-! ## The pending-message bound -/

/-- Every lane has at most `maxPending + 1` messages sent and not yet
    confirmed. -/
def PendingBound (maxPending : ℕ) (s : MessagesStorage R) : Prop :=
  ∀ l, (s.outboundLanes l).latestGeneratedNonce - (s.outboundLanes l).latestReceivedNonce ≤
    maxPending + 1

/-- A step that keeps every lane's `latest_generated_nonce` and does not
    move its `latest_received_nonce` back keeps the bound. -/
theorem PendingBound.of_counters {maxPending : ℕ} {s s' : MessagesStorage R}
    (h : PendingBound maxPending s)
    (hc : ∀ l, (s'.outboundLanes l).latestGeneratedNonce = (s.outboundLanes l).latestGeneratedNonce ∧
      (s.outboundLanes l).latestReceivedNonce ≤ (s'.outboundLanes l).latestReceivedNonce) :
    PendingBound maxPending s' := by
  intro l
  have := h l
  have := hc l
  omega

/-- With the runtime-common lane verifier, every call keeps the bound: a
    message is accepted with at most `maxPending` already pending. -/
theorem PendingBound.step [DecidableEq R] {cfg : MessagesConfig}
    {rt : MessagesRuntime R A P E O Pf DPf} {isMessageAccepted : O → LaneId → Bool}
    {maxPending : ℕ}
    (hlane : rt.laneMessageVerifier =
      FromThisChainMessageVerifier.verifyMessage isMessageAccepted maxPending)
    {s : MessagesStorage R} (h : PendingBound maxPending s) (call : Call R A O Pf DPf) :
    PendingBound maxPending (step cfg rt s call) := by
  cases call with
  | sendMessage submitter laneId payload =>
      rcases sendMessage_cases cfg rt.verifyMessage rt.laneMessageVerifier rt.encode s submitter
        laneId payload with ⟨e, he⟩ | ⟨-, -, -, hverify, -, hok⟩
      · simp only [MessagesPallet.step, he]
        exact h
      · simp only [MessagesPallet.step, hok]
        rw [hlane] at hverify
        have hpending := (verifyMessage_ok hverify).2
        intro l
        rw [outboundLanes_putOutboundLane]
        split
        · next hl =>
            -- the new message is one more pending on a lane that had at most `maxPending`
            simp only [OutboundLane.sendMessage, outboundLane_id, outboundLane_data] at hl ⊢
            subst hl
            omega
        · exact h l
  | receiveMessagesProof relayerIdAtBridgedChain relayerIdAtThisChain proof messagesCount
      dispatchWeight =>
      simp only [MessagesPallet.step]
      split
      · next out hout =>
          intro l
          rw [receiveMessagesProof_outboundLanes cfg _ _ _ _ _ hout]
          exact h l
      · exact h
  | receiveMessagesDeliveryProof proof relayersState =>
      simp only [MessagesPallet.step]
      split
      · next confirmed s' hok => exact h.of_counters (receiveMessagesDeliveryProof_counters hok)
      · exact h
  | onIdle blockNumber remainingWeight =>
      simp only [MessagesPallet.step]
      split
      · next w s' hok =>
          exact h.of_counters fun l => ⟨(onIdle_counters hok l).1, (onIdle_counters hok l).2.ge⟩
      · exact h


/-- **PENDING MESSAGES**: with the runtime-common verifiers, every lane of
    every state a run of the pallet reaches has at most
    `maximal_pending_messages_at_outbound_lane + 1` messages sent and not
    confirmed — and that many is reached: the verifier checks the pending
    count before the message is added, so a lane with exactly the maximum
    pending still accepts one more. -/
theorem pending_messages_exceed_max_by_one [DecidableEq R] (cfg : MessagesConfig)
    (rt : MessagesRuntime R A P E O Pf DPf) (verifyDispatchWeight : MessagePayload → Bool)
    (maximalMessageSize : ℕ) (isMessageAccepted : O → LaneId → Bool) (maxPending : ℕ)
    (operatingMode : MessagesOperatingMode) :
    let runtime := { rt with
      verifyMessage := verifyChainMessage verifyDispatchWeight maximalMessageSize
      laneMessageVerifier := FromThisChainMessageVerifier.verifyMessage isMessageAccepted maxPending }
    (∀ (calls : List (Call R A O Pf DPf)) (l : LaneId),
      let data := (calls.foldl (step cfg runtime) (empty operatingMode)).outboundLanes l
      data.latestGeneratedNonce - data.latestReceivedNonce ≤ maxPending + 1) ∧
    (∀ (s : MessagesStorage R) (submitter : O) (laneId : LaneId) (payload : MessagePayload),
      let data := s.outboundLanes laneId
      data.latestReceivedNonce ≤ data.latestGeneratedNonce →
      data.latestGeneratedNonce - data.latestReceivedNonce = maxPending →
      s.palletOperatingMode = .basic .normal → laneId ∈ cfg.activeOutboundLanes →
      verifyDispatchWeight payload = true → payload.length ≤ maximalMessageSize →
      isMessageAccepted submitter laneId = true →
      (rt.encode payload).length ≤ cfg.maximalOutboundPayloadSize →
      let data' := (step cfg runtime s (.sendMessage submitter laneId payload)).outboundLanes laneId
      data'.latestGeneratedNonce - data'.latestReceivedNonce = maxPending + 1) := by
  intro runtime
  refine ⟨fun calls l => ?_, ?_⟩
  · -- the bound holds at genesis and every call keeps it
    have h0 : PendingBound maxPending (empty operatingMode : MessagesStorage R) := by
      intro l
      simp [empty, OutboundLaneData.default]
    exact Reach.foldl_invariant (PendingBound maxPending) (fun _ => True)
      (fun s c _ hs => PendingBound.step rfl hs c) calls _ (fun _ _ => trivial) h0 l
  · intro s submitter laneId payload
    dsimp only
    intro hle hpending hmode hactive hweight hlen haccepted hsize
    have hchain : verifyChainMessage verifyDispatchWeight maximalMessageSize payload = .ok () := by
      simp only [verifyChainMessage, hweight, Bool.not_true, Bool.false_eq_true, if_false]
      rw [if_neg (by omega)]
    have hlane : FromThisChainMessageVerifier.verifyMessage isMessageAccepted maxPending submitter
        laneId (s.outboundLanes laneId) payload = .ok () := by
      simp only [FromThisChainMessageVerifier.verifyMessage, haccepted, Bool.not_true,
        Bool.false_eq_true, if_false]
      rw [if_neg (by omega)]
    simp only [MessagesPallet.step, runtime]
    rw [sendMessage_eq_ok cfg hmode hactive hchain hlane hsize]
    simp only [outboundLanes_putOutboundLane, OutboundLane.sendMessage, outboundLane_id, if_true,
      outboundLane_data]
    omega

/-- A runtime that accepts every payload as it is and is given no proof:
    only its verifiers matter to a send. -/
def sendOnlyRuntime : MessagesRuntime Unit Unit Unit Unit Unit Unit Unit where
  verifyMessage _ := .ok ()
  verifyMessagesDeliveryProof _ := .error "no proof"
  laneMessageVerifier _ _ _ _ := .ok ()
  encode payload := payload
  verifyMessagesProof _ _ := .ok []
  intoDispatchData _ := ()
  dispatchWeight _ := Weight.zero
  dispatch _ _ := ⟨Weight.zero, ()⟩
  receiveMessagesProofWeight _ _ w := w
  extraProofSizeBytes _ := 0

/-- `TEST_LANE_ID` (`LaneId([0, 0, 0, 1])`), the one active outbound lane. -/
def testLaneId : LaneId := (Vector.replicate 3 0).push 1

/-- With `maximal_pending_messages_at_outbound_lane() = 0`, one send from
    the lane's default data is accepted and leaves one message pending. -/
theorem pending_message_over_zero_max_on_test_lane :
    let runtime := { sendOnlyRuntime with
      verifyMessage := verifyChainMessage (fun _ => true) 1024
      laneMessageVerifier := FromThisChainMessageVerifier.verifyMessage (fun _ _ => true) 0 }
    let data := (step ⟨[testLaneId], 1024, 8, 8, ⟨0, 0⟩⟩ runtime (empty (.basic .normal))
      (.sendMessage () testLaneId [42])).outboundLanes testLaneId
    data.latestGeneratedNonce - data.latestReceivedNonce = 1 := by
  decide

end MessagesPallet

end ParityBridge
