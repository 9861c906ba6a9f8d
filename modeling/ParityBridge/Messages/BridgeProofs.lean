import Mathlib.Order.Interval.Finset.Nat
import ParityBridge.Messages.InboundLaneProofs
import ParityBridge.Messages.OutboundLaneProofs
import ParityBridge.Messages.PalletProofs
import ParityBridge.Messages.Bridge

/-! # Bridge proofs — every confirmed nonce is rewarded once, to its deliverer

    The joint invariant of the two chains (`BridgeInvariant`) ties the
    source's `latest_received_nonce` to what the target recorded: every queue
    the target ever had is well formed, labels each nonce it holds with the
    relayer that delivered it, and was confirmed by the target no further than
    the source has received.  A confirmation with any such queue then counts
    exactly the nonces from the source's next unconfirmed one to the queue's
    last delivered one (`sum_clampedCount_of_snapshot`): the queue's front
    starts at most one past its confirmed nonce, so the clamp to the new range
    loses nothing, and its entries do not overlap, so nothing is counted
    twice.

    The per-relayer counts are counts of recorded labels
    (`deliveredCount`), so the totals and the rewards paid by
    `DeliveryConfirmationPaymentsAdapter` follow by adding up over the
    confirmations. -/

namespace ParityBridge

open IntervalChain InboundLane

variable {R A P D : Type}

/-! ## Recorded relayers -/

/-- Each nonce a queue holds was recorded on the target as delivered by the
    relayer of the entry that holds it. -/
def Labelled (deliveredBy : List R) (d : InboundLaneData R) : Prop :=
  ∀ e ∈ d.relayers, ∀ n, e.messages.begin ≤ n → n ≤ e.messages.«end» →
    deliveredBy[n - 1]? = some e.relayer

/-- Recording later deliveries keeps the labels of a queue. -/
theorem Labelled.append {l : List R} {d : InboundLaneData R} (h : Labelled l d) (l' : List R) :
    Labelled (l ++ l') d := by
  intro e he n hb he'
  have hn := h e he n hb he'
  obtain ⟨hlt, -⟩ := List.getElem?_eq_some_iff.mp hn
  rw [List.getElem?_append_left hlt]
  exact hn

/-- An entry after the trim of `receive_state_update` is an entry of the queue
    it came from with the same relayer, the same end and a start no earlier. -/
theorem mem_trimFront {c : ℕ} {l : List (UnrewardedRelayer R)} {e' : UnrewardedRelayer R}
    (he' : e' ∈ trimFront c l) :
    ∃ e ∈ l, e'.relayer = e.relayer ∧ e.messages.begin ≤ e'.messages.begin ∧
      e'.messages.«end» = e.messages.«end» := by
  cases l with
  | nil => exact nomatch he'
  | cons e rest =>
      rw [trimFront_cons] at he'
      split at he'
      · rename_i hlt
        rcases List.mem_cons.mp he' with rfl | hrest
        · exact ⟨e, List.mem_cons_self .., rfl, by dsimp only; omega, rfl⟩
        · exact ⟨e', List.mem_cons_of_mem _ hrest, rfl, le_rfl, rfl⟩
      · exact ⟨e', he', rfl, le_rfl, rfl⟩

/-- A confirmation keeps the labels: it only pops entries and raises a start. -/
theorem Labelled.confirm {l : List R} {d : InboundLaneData R} (h : Labelled l d) (c : ℕ) :
    Labelled l ⟨trimFront c (d.relayers.dropWhile fun e => e.messages.«end» ≤ c), c⟩ := by
  intro e' he' n hb he
  obtain ⟨e, hmem, hr, hbegin, hend⟩ := mem_trimFront he'
  rw [hr]
  exact h e ((List.dropWhile_suffix _).subset hmem) n (by omega) (by omega)

/-- A delivery of the next nonce, recorded for its relayer, keeps the labels. -/
theorem Labelled.deliver [DecidableEq R] {l : List R} {d : InboundLaneData R} (h : Labelled l d)
    (hld : d.lastDeliveredNonce = l.length) (r : R) :
    Labelled (l ++ [r]) ⟨noteDelivery d.relayers r (l.length + 1), d.lastConfirmedNonce⟩ := by
  have hnew : (l ++ [r])[l.length + 1 - 1]? = some r := by
    rw [Nat.add_sub_cancel]
    exact List.getElem?_concat_length
  rcases noteDelivery_cases d.relayers r (l.length + 1) with ⟨e, hlast, hr, heq⟩ | ⟨-, heq⟩
  · -- the back entry of `r` takes the new nonce at its end
    have hend := end_eq_lastDeliveredNonce hlast
    have he : e ∈ d.relayers := List.mem_of_getLast? hlast
    intro e' he' n hb hn
    change e' ∈ noteDelivery d.relayers r (l.length + 1) at he'
    rw [heq, List.mem_append, List.mem_singleton] at he'
    rcases he' with hdrop | rfl
    · exact (h.append [r]) e' (List.dropLast_subset _ hdrop) n hb hn
    · dsimp only at hb hn ⊢
      rw [DeliveredMessages.noteDispatchedMessage_begin] at hb
      rw [DeliveredMessages.noteDispatchedMessage_end] at hn
      by_cases hold : n ≤ e.messages.«end»
      · exact (h.append [r]) e he n hb hold
      · have hnext : n = l.length + 1 := by omega
        rw [hnext, hr]
        exact hnew
  · -- a new entry of `r` holds the new nonce alone
    intro e' he' n hb hn
    change e' ∈ noteDelivery d.relayers r (l.length + 1) at he'
    rw [heq, List.mem_append, List.mem_singleton] at he'
    rcases he' with hold | rfl
    · exact (h.append [r]) e' hold n hb hn
    · dsimp only at hb hn ⊢
      rw [DeliveredMessages.new_begin] at hb
      rw [DeliveredMessages.new_end] at hn
      rw [show n = l.length + 1 by omega]
      exact hnew

/-! ## Covering the confirmed range -/

/-- The clamped count of an entry is the number of its nonces in the range. -/
theorem clampedCount_eq_card (e : UnrewardedRelayer R) (start stop : ℕ) :
    clampedCount e start stop =
      ((Finset.Icc e.messages.begin e.messages.«end»).filter fun n => start ≤ n ∧ n ≤ stop).card := by
  have hrange : (Finset.Icc e.messages.begin e.messages.«end»).filter (fun n => start ≤ n ∧ n ≤ stop) =
      Finset.Icc (max e.messages.begin start) (min e.messages.«end» stop) := by
    ext n
    simp only [Finset.mem_filter, Finset.mem_Icc]
    omega
  rw [hrange, Nat.card_Icc]
  unfold clampedCount
  dsimp only
  split <;> omega

/-- Counting any property over the nonces `lr + 1 ..= ld` of a queue entry by
    entry.  The queue covers them all, since its front starts at most one past
    its confirmed nonce, which is at most `lr`, and it ends at `ld`. -/
theorem sum_filter_of_snapshot {S : InboundLaneData R} (hq : QueueInvariant S) {lr : ℕ}
    (hlc : S.lastConfirmedNonce ≤ lr) (hlt : lr < S.lastDeliveredNonce) (Q : ℕ → Prop)
    [DecidablePred Q] :
    (S.relayers.map fun e => ((Finset.Icc e.messages.begin e.messages.«end»).filter
      fun n => (lr + 1 ≤ n ∧ n ≤ S.lastDeliveredNonce) ∧ Q n).card).sum =
      ((Finset.Icc (lr + 1) S.lastDeliveredNonce).filter Q).card := by
  obtain ⟨a, l, hS⟩ : ∃ a l, S.relayers = a :: l := by
    cases hrel : S.relayers with
    | nil =>
        have : S.lastDeliveredNonce = S.lastConfirmedNonce := by
          simp [InboundLaneData.lastDeliveredNonce, hrel]
        omega
    | cons a l => exact ⟨a, l, rfl⟩
  have hchain : RelayersConsecutive (a :: l) := hS ▸ hq.consecutive
  have hfront : a.messages.begin ≤ S.lastConfirmedNonce + 1 :=
    (hq.front_begin a (by rw [hS]; rfl)).2
  have hback : ((a :: l).getLast (List.cons_ne_nil a l)).messages.«end» = S.lastDeliveredNonce :=
    end_eq_lastDeliveredNonce (by rw [hS]; exact List.getLast?_eq_some_getLast _)
  rw [hS, ← hchain.card_filter_cover, hchain.cover_eq, hback]
  congr 1
  ext n
  simp only [Finset.mem_filter, Finset.mem_Icc]
  constructor
  · rintro ⟨-, hrange, hQ⟩
    exact ⟨hrange, hQ⟩
  · rintro ⟨⟨hlo, hhi⟩, hQ⟩
    exact ⟨⟨by omega, hhi⟩, ⟨hlo, hhi⟩, hQ⟩

/-- With a queue the target had, the clamped counts of all entries over
    `lr + 1 ..= ld` add up to the length of that range. -/
theorem sum_clampedCount_total_of_snapshot {S : InboundLaneData R} (hq : QueueInvariant S)
    {lr : ℕ} (hlc : S.lastConfirmedNonce ≤ lr) (hlt : lr < S.lastDeliveredNonce) :
    (S.relayers.map fun e => clampedCount e (lr + 1) S.lastDeliveredNonce).sum =
      S.lastDeliveredNonce - lr := by
  calc (S.relayers.map fun e => clampedCount e (lr + 1) S.lastDeliveredNonce).sum
      = (S.relayers.map fun e => ((Finset.Icc e.messages.begin e.messages.«end»).filter
          fun n => (lr + 1 ≤ n ∧ n ≤ S.lastDeliveredNonce) ∧ True).card).sum := by
        simp only [and_true, clampedCount_eq_card]
    _ = ((Finset.Icc (lr + 1) S.lastDeliveredNonce).filter fun _ => True).card :=
        sum_filter_of_snapshot hq hlc hlt _
    _ = S.lastDeliveredNonce - lr := by
        rw [Finset.filter_true, Nat.card_Icc]
        omega

/-! ## Counting recorded deliveries -/

section Counting

variable [DecidableEq R]

/-- The nonces `1 ..= upTo` the target recorded as delivered by `r`. -/
def deliveredCount (deliveredBy : List R) (upTo : ℕ) (r : R) : ℕ :=
  ((Finset.Icc 1 upTo).filter fun n => deliveredBy[n - 1]? = some r).card

/-- Deliveries recorded later do not change the count of earlier nonces. -/
theorem deliveredCount_append {l : List R} {upTo : ℕ} (h : upTo ≤ l.length) (l' : List R)
    (r : R) : deliveredCount (l ++ l') upTo r = deliveredCount l upTo r := by
  unfold deliveredCount
  congr 1
  apply Finset.filter_congr
  intro n hn
  rw [Finset.mem_Icc] at hn
  rw [List.getElem?_append_left (by omega)]

/-- Counting up to `hi` is counting up to `lo` and then over `lo + 1 ..= hi`. -/
theorem deliveredCount_add (l : List R) {lo hi : ℕ} (hle : lo ≤ hi) (r : R) :
    deliveredCount l hi r =
      deliveredCount l lo r + ((Finset.Icc (lo + 1) hi).filter fun n => l[n - 1]? = some r).card := by
  have hsplit : Finset.Icc 1 hi = Finset.Icc 1 lo ∪ Finset.Icc (lo + 1) hi := by
    ext n
    simp only [Finset.mem_union, Finset.mem_Icc]
    omega
  have hdisj : Disjoint (Finset.Icc 1 lo) (Finset.Icc (lo + 1) hi) := by
    rw [Finset.disjoint_left]
    intro n h1 h2
    rw [Finset.mem_Icc] at h1 h2
    omega
  unfold deliveredCount
  rw [hsplit, Finset.filter_union, Finset.card_union_of_disjoint
    (Finset.disjoint_filter_filter hdisj)]

/-- **COVERAGE**: with a queue the target had, the clamped counts of a
    relayer's entries over `lr + 1 ..= ld` are the nonces of that range
    recorded for the relayer. -/
theorem sum_clampedCount_of_snapshot {l : List R} {S : InboundLaneData R} (hq : QueueInvariant S)
    (hl : Labelled l S) {lr : ℕ} (hlc : S.lastConfirmedNonce ≤ lr) (hlt : lr < S.lastDeliveredNonce)
    (r : R) :
    (S.relayers.map fun e =>
      if e.relayer = r then clampedCount e (lr + 1) S.lastDeliveredNonce else 0).sum =
      ((Finset.Icc (lr + 1) S.lastDeliveredNonce).filter fun n => l[n - 1]? = some r).card := by
  rw [← sum_filter_of_snapshot hq hlc hlt]
  congr 1
  apply List.map_congr_left
  intro e he
  -- inside an entry the recorded relayer is the entry's, so the filter
  -- keeps all of its range or none of it
  have hlab : ∀ n ∈ Finset.Icc e.messages.begin e.messages.«end», l[n - 1]? = some e.relayer := by
    intro n hn
    rw [Finset.mem_Icc] at hn
    exact hl e he n hn.1 hn.2
  split
  · rename_i hr
    rw [clampedCount_eq_card]
    congr 1
    apply Finset.filter_congr
    intro n hn
    rw [hlab n hn, hr]
    simp
  · rename_i hr
    symm
    rw [Finset.card_eq_zero, Finset.filter_eq_empty_iff]
    intro n hn hcond
    rw [hlab n hn, Option.some.injEq] at hcond
    exact hr hcond.2

end Counting

/-! ## The joint invariant -/

section Invariant

variable [DecidableEq R]

/-- What every state of the two chains keeps. -/
structure BridgeInvariant (deliveryReward : ℕ) (b : Bridge R A P) : Prop where
  target_queue : QueueInvariant b.target.data
  target_labelled : Labelled b.deliveredBy b.target.data
  target_delivered : b.target.data.lastDeliveredNonce = b.deliveredBy.length
  target_confirmed : b.target.data.lastConfirmedNonce ≤ b.source.data.latestReceivedNonce
  snapshots : ∀ S ∈ b.targetHistory, QueueInvariant S ∧ Labelled b.deliveredBy S ∧
    S.lastDeliveredNonce ≤ b.deliveredBy.length ∧
    S.lastConfirmedNonce ≤ b.source.data.latestReceivedNonce
  source_snapshots : ∀ o ∈ b.sourceHistory,
    o.latestReceivedNonce ≤ b.source.data.latestReceivedNonce
  received_le : b.source.data.latestReceivedNonce ≤ b.deliveredBy.length
  counted : ∀ r, (b.confirmations.map (rewardOf · r)).sum =
    deliveredCount b.deliveredBy b.source.data.latestReceivedNonce r
  total : (b.confirmations.map totalRewards).sum = b.source.data.latestReceivedNonce
  rewards : ∀ r, b.relayerRewards r =
    deliveryReward * deliveredCount b.deliveredBy b.source.data.latestReceivedNonce r

theorem bridgeInvariant_init (deliveryReward : ℕ) (id : LaneId) (maxEntries maxUnconfirmed : ℕ) :
    BridgeInvariant deliveryReward (Bridge.init id maxEntries maxUnconfirmed : Bridge R A P) := by
  refine ⟨queueInvariant_default, fun _ h => (nomatch h), rfl, le_rfl, ?_, ?_, le_rfl,
    fun _ => rfl, rfl, fun _ => rfl⟩
  · intro S hS
    rw [show (Bridge.init id maxEntries maxUnconfirmed : Bridge R A P).targetHistory =
      [.default] from rfl, List.mem_singleton] at hS
    subst hS
    exact ⟨queueInvariant_default, fun _ h => (nomatch h), le_rfl, le_rfl⟩
  · intro o ho
    rw [show (Bridge.init id maxEntries maxUnconfirmed : Bridge R A P).sourceHistory =
      [.default] from rfl, List.mem_singleton] at ho
    subst ho
    exact le_rfl

variable {deliveryReward : ℕ} {b : Bridge R A P}

/-- A call of the source chain that keeps `latest_received_nonce` keeps the
    invariant. -/
theorem BridgeInvariant.withSource (h : BridgeInvariant deliveryReward b) {source : OutboundLane P}
    (hlr : source.data.latestReceivedNonce = b.source.data.latestReceivedNonce) :
    BridgeInvariant deliveryReward (b.withSource source) := by
  refine ⟨h.target_queue, h.target_labelled, h.target_delivered, hlr ▸ h.target_confirmed,
    hlr ▸ h.snapshots, ?_, hlr ▸ h.received_le, hlr ▸ h.counted, hlr ▸ h.total, hlr ▸ h.rewards⟩
  rw [Bridge.withSource, List.forall_mem_append, List.forall_mem_singleton]
  exact ⟨hlr ▸ h.source_snapshots, le_rfl⟩

/-- A delivery into any target lane that has the target's shape, labels and
    delivered nonce keeps the invariant. -/
theorem BridgeInvariant.deliver (h : BridgeInvariant deliveryReward b)
    (dispatch : A → DispatchMessage P → D) {target : InboundLane R A P}
    (hq : QueueInvariant target.data) (hl : Labelled b.deliveredBy target.data)
    (hld : target.data.lastDeliveredNonce = b.deliveredBy.length)
    (hlc : target.data.lastConfirmedNonce ≤ b.source.data.latestReceivedNonce)
    (relayer : R) (a : A) (nonce : ℕ) (m : P) :
    BridgeInvariant deliveryReward (b.deliver dispatch target relayer a nonce m) := by
  unfold Bridge.deliver
  rcases receiveMessage_cases dispatch target relayer a nonce m with ⟨hrej, hres⟩ | ⟨hn, -, -, hres⟩
  · -- a rejected message leaves the target as the state update left it
    generalize receiveMessage dispatch target relayer a nonce m = p at hrej hres ⊢
    obtain ⟨res, t⟩ := p
    dsimp only at hrej hres ⊢
    subst hres
    rw [hrej.isDispatched_eq_false, if_neg Bool.false_ne_true]
    refine ⟨hq, hl, hld, hlc, ?_, h.source_snapshots, h.received_le, h.counted, h.total, h.rewards⟩
    rw [List.forall_mem_append, List.forall_mem_singleton]
    exact ⟨h.snapshots, hq, hl, hld.le, hlc⟩
  · -- the message takes the next nonce and is recorded for its relayer
    rw [hld] at hn
    subst hn
    have hq' := hq.deliver relayer (by rw [hld])
    have hl' := hl.deliver hld relayer
    have hld' := lastDeliveredNonce_noteDelivery target.data relayer (b.deliveredBy.length + 1)
      (by rw [hld])
    have hcount : ∀ r, deliveredCount (b.deliveredBy ++ [relayer])
        b.source.data.latestReceivedNonce r =
          deliveredCount b.deliveredBy b.source.data.latestReceivedNonce r :=
      deliveredCount_append h.received_le [relayer]
    rw [hres]
    dsimp only
    rw [ReceivalResult.isDispatched_dispatched, if_pos rfl]
    refine ⟨hq', hl', hld'.trans (by simp), hlc, ?_,
      h.source_snapshots, ?_, fun r => (h.counted r).trans (hcount r).symm, h.total,
      fun r => (h.rewards r).trans (by rw [hcount r])⟩
    · rw [List.forall_mem_append, List.forall_mem_singleton]
      refine ⟨fun S hS => ?_, hq', hl', hld'.trans_le (by simp), hlc⟩
      -- an older queue keeps its labels under the longer record
      obtain ⟨hSq, hSl, hSld, hSlc⟩ := h.snapshots S hS
      refine ⟨hSq, hSl.append [relayer], ?_, hSlc⟩
      rw [List.length_append]
      omega
    · show b.source.data.latestReceivedNonce ≤ (b.deliveredBy ++ [relayer]).length
      rw [List.length_append]
      have := h.received_le
      omega

/-- A confirmation with a queue the target had keeps the invariant: the new
    range is counted for the relayers recorded for it, and paid to them. -/
theorem BridgeInvariant.confirm (h : BridgeInvariant deliveryReward b) {S : InboundLaneData R}
    (hS : S ∈ b.targetHistory) (rs : UnrewardedRelayersState) (confirmationRelayer : R) :
    BridgeInvariant deliveryReward (b.confirm deliveryReward S rs confirmationRelayer) := by
  obtain ⟨hSq, hSl, hSld, hSlc⟩ := h.snapshots S hS
  unfold Bridge.confirm
  rcases receiveMessagesDeliveryProof_cases b.source S rs with ⟨e, hres⟩ | hres | ⟨hlt, hres⟩
  · rw [hres]
    exact h
  · rw [hres]
    exact h.withSource rfl
  rw [hres]
  dsimp only [Bridge.withSource]
  set lr := b.source.data.latestReceivedNonce with hlr
  -- the count of the new range, per relayer and in total
  have hcount : ∀ r, rewardOf (calcRelayersRewards S.relayers (lr + 1) S.lastDeliveredNonce) r =
      ((Finset.Icc (lr + 1) S.lastDeliveredNonce).filter
        fun n => b.deliveredBy[n - 1]? = some r).card := by
    intro r
    rw [rewardOf_calcRelayersRewards]
    exact sum_clampedCount_of_snapshot hSq hSl hSlc hlt r
  have htotal : totalRewards (calcRelayersRewards S.relayers (lr + 1) S.lastDeliveredNonce) =
      S.lastDeliveredNonce - lr := by
    rw [totalRewards_calcRelayersRewards]
    exact sum_clampedCount_total_of_snapshot hSq hSlc hlt
  have hadd : ∀ r, deliveredCount b.deliveredBy S.lastDeliveredNonce r =
      deliveredCount b.deliveredBy lr r + ((Finset.Icc (lr + 1) S.lastDeliveredNonce).filter
        fun n => b.deliveredBy[n - 1]? = some r).card :=
    fun r => deliveredCount_add b.deliveredBy hlt.le r
  refine ⟨h.target_queue, h.target_labelled, h.target_delivered, ?_, ?_, ?_, hSld, ?_, ?_, ?_⟩
  · show _ ≤ S.lastDeliveredNonce
    exact h.target_confirmed.trans hlt.le
  · intro S' hS'
    obtain ⟨hq', hl', hld', hlc'⟩ := h.snapshots S' hS'
    exact ⟨hq', hl', hld', hlc'.trans hlt.le⟩
  · rw [List.forall_mem_append, List.forall_mem_singleton]
    exact ⟨fun o ho => (h.source_snapshots o ho).trans hlt.le, le_rfl⟩
  · intro r
    show ((b.confirmations ++ _).map (rewardOf · r)).sum = deliveredCount _ S.lastDeliveredNonce r
    rw [List.map_append, List.sum_append, h.counted r, List.map_singleton, List.sum_singleton,
      hcount r, hadd r]
  · show ((b.confirmations ++ _).map totalRewards).sum = S.lastDeliveredNonce
    rw [List.map_append, List.sum_append, h.total, List.map_singleton, List.sum_singleton, htotal]
    omega
  · intro r
    show registerRelayersRewards _ _ _ _ r = deliveryReward * deliveredCount _ S.lastDeliveredNonce r
    rw [registerRelayersRewards_apply, h.rewards r, hcount r, hadd r, Nat.mul_add]

/-- Every step of the two chains keeps the invariant. -/
theorem BridgeInvariant.step (h : BridgeInvariant deliveryReward b)
    (dispatch : A → DispatchMessage P → D) (call : Bridge.Call R A P) :
    BridgeInvariant deliveryReward (Bridge.step dispatch deliveryReward b call) := by
  cases call with
  | sendMessage p => exact h.withSource rfl
  | pruneMessages db w =>
      -- pruning moves only the oldest unpruned nonce
      obtain ⟨k, -, hprune⟩ := OutboundLane.pruneMessages_spec b.source db w
      refine h.withSource ?_
      rw [hprune]
      dsimp only
      split <;> rfl
  | deliver laneState relayer a nonce m =>
      cases laneState with
      | none =>
          exact h.deliver dispatch h.target_queue h.target_labelled h.target_delivered
            h.target_confirmed relayer a nonce m
      | some o =>
          rw [Bridge.step]
          split
          · -- the carried state is one the source had, so it confirms no
            -- further than the source has received
            rename_i ho
            rcases receiveStateUpdate_cases b.target o with hres | ⟨hlow, -, hres⟩
            · rw [hres]
              exact h.deliver dispatch h.target_queue h.target_labelled h.target_delivered
                h.target_confirmed relayer a nonce m
            · have hld := lastDeliveredNonce_receiveStateUpdate b.target o
              rw [hres] at hld ⊢
              exact h.deliver dispatch (h.target_queue.confirm hlow)
                (h.target_labelled.confirm _) (hld.trans h.target_delivered)
                (h.source_snapshots o ho) relayer a nonce m
          · exact h
  | confirm laneData rs confirmationRelayer =>
      rw [Bridge.step]
      split
      · rename_i hS
        exact h.confirm hS rs confirmationRelayer
      · exact h

/-- **JOINT INVARIANT**: every state the two chains reach keeps it. -/
theorem bridgeInvariant_of_reachable (dispatch : A → DispatchMessage P → D)
    {id : LaneId} {maxEntries maxUnconfirmed : ℕ}
    (hb : Reach.Reachable (Bridge.step dispatch deliveryReward)
      (Bridge.init id maxEntries maxUnconfirmed) b) :
    BridgeInvariant deliveryReward b :=
  hb.invariant (BridgeInvariant deliveryReward) (bridgeInvariant_init deliveryReward id _ _)
    (fun _ call _ hs => hs.step dispatch call)

theorem confirmed_nonces_rewarded_once_to_deliverer (dispatch : A → DispatchMessage P → D)
    {id : LaneId} {maxEntries maxUnconfirmed : ℕ}
    (hb : Reach.Reachable (Bridge.step dispatch deliveryReward)
      (Bridge.init id maxEntries maxUnconfirmed) b) :
    b.source.data.latestReceivedNonce ≤ b.deliveredBy.length ∧
    (b.confirmations.map totalRewards).sum = b.source.data.latestReceivedNonce ∧
    ∀ r, (b.confirmations.map (rewardOf · r)).sum =
        deliveredCount b.deliveredBy b.source.data.latestReceivedNonce r ∧
      b.relayerRewards r =
        deliveryReward * deliveredCount b.deliveredBy b.source.data.latestReceivedNonce r := by
  have h := bridgeInvariant_of_reachable dispatch hb
  exact ⟨h.received_le, h.total, fun r => ⟨h.counted r, h.rewards r⟩⟩

/-- Relayer `1` delivers nonce `1` and relayer `2` nonces `2` and `3`; relayer
    `3` confirms with the queue the target had after nonce `2`, relayer `1`
    with the latest one. -/
def confirmStaleThenFresh : List (Bridge.Call ℕ ℕ Unit) :=
  [.sendMessage (), .sendMessage (), .sendMessage (),
    .deliver none 1 1 1 (), .deliver none 2 2 2 (), .deliver none 2 2 3 (),
    .confirm ⟨[⟨1, ⟨1, 1⟩⟩, ⟨2, ⟨2, 2⟩⟩], 0⟩ ⟨2, 1, 2, 2⟩ 3,
    .confirm ⟨[⟨1, ⟨1, 1⟩⟩, ⟨2, ⟨2, 3⟩⟩], 0⟩ ⟨2, 1, 3, 3⟩ 1]

theorem confirmed_nonces_rewarded_once_to_deliverer_on_stale_run :
    Reach.Reachable (Bridge.step (fun _ _ => ()) 10)
        (Bridge.init #v[0, 0, 0, 0] 8 8 : Bridge ℕ ℕ Unit)
        (confirmStaleThenFresh.foldl (Bridge.step (fun _ _ => ()) 10)
          (Bridge.init #v[0, 0, 0, 0] 8 8)) ∧
      (((confirmStaleThenFresh.foldl (Bridge.step (fun _ _ => ()) 10)
          (Bridge.init #v[0, 0, 0, 0] 8 8 : Bridge ℕ ℕ Unit)).confirmations.map
            totalRewards).sum =
        (confirmStaleThenFresh.foldl (Bridge.step (fun _ _ => ()) 10)
          (Bridge.init #v[0, 0, 0, 0] 8 8 : Bridge ℕ ℕ Unit)).source.data.latestReceivedNonce) :=
  have hr := @Reach.reachable_foldl _ _ (Bridge.step (fun _ _ => ()) 10)
    (Bridge.init #v[0, 0, 0, 0] 8 8 : Bridge ℕ ℕ Unit) confirmStaleThenFresh
  ⟨hr, (confirmed_nonces_rewarded_once_to_deliverer (fun _ _ => ()) hr).2.1⟩

/-- Both confirmations went through: relayer `2` is paid for its two nonces. -/
example : ((confirmStaleThenFresh.foldl (Bridge.step (fun _ _ => ()) 10)
    (Bridge.init #v[0, 0, 0, 0] 8 8 : Bridge ℕ ℕ Unit)).source.data.latestReceivedNonce,
    (confirmStaleThenFresh.foldl (Bridge.step (fun _ _ => ()) 10)
    (Bridge.init #v[0, 0, 0, 0] 8 8 : Bridge ℕ ℕ Unit)).relayerRewards 2) = (3, 20) := by
  decide

end Invariant

end ParityBridge
