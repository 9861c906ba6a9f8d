import ParityBridge.Messages.OutboundLane

/-! # Outbound lane proofs — counters, the payload store, and pruning

    The pruning loop has one spec lemma (`pruneLoop_spec`): it removes the
    payloads of `k` consecutive nonces from the oldest unpruned one on, moves
    that nonce by `k` and spends `k` writes, with `k` no more than the
    received messages left.  The lane invariant — the counters are ordered and
    the store holds exactly the payloads of `[oldest_unpruned_nonce,
    latest_generated_nonce]` — is then kept by every call, as long as a write
    costs some reference time; with a free write, `prune_messages` removes
    payloads without recording it.  Over runs (`outbound_lane_over_runs`):
    every run from the default data charged for its writes keeps the
    invariant, and no run moves the two counters back. -/

namespace ParityBridge

namespace OutboundLane

variable {R P : Type}

/-! ## The pruning loop -/

/-- The payloads of the nonces in `[lo, hi)` removed from a store. -/
def removeRange (messages : ℕ → Option P) (lo hi : ℕ) : ℕ → Option P :=
  fun n => if lo ≤ n ∧ n < hi then none else messages n

theorem removeRange_self (messages : ℕ → Option P) (lo : ℕ) :
    removeRange messages lo lo = messages := by
  funext n
  simp only [removeRange]
  rw [if_neg (by omega)]

/-- **PRUNE LOOP**: the loop makes `k` rounds, `k` at most its fuel and at
    most the received messages left; each round removes the oldest unpruned
    payload, moves that nonce by one and spends one write. -/
theorem pruneLoop_spec (w w2 : Weight) (fuel : ℕ) (data : OutboundLaneData)
    (messages : ℕ → Option P) (spent remaining : Weight) :
    ∃ k, k ≤ fuel ∧ (k = 0 ∨ data.oldestUnprunedNonce + k ≤ data.latestReceivedNonce + 1) ∧
      (pruneLoop w w2 fuel data messages spent remaining).1 =
        { data with oldestUnprunedNonce := data.oldestUnprunedNonce + k } ∧
      (pruneLoop w w2 fuel data messages spent remaining).2.1 =
        removeRange messages data.oldestUnprunedNonce (data.oldestUnprunedNonce + k) ∧
      (pruneLoop w w2 fuel data messages spent remaining).2.2.1 =
        ⟨spent.refTime + k * w.refTime, spent.proofSize + k * w.proofSize⟩ ∧
      (∀ i < k, (⟨remaining.refTime - i * w.refTime, remaining.proofSize - i * w.proofSize⟩ :
        Weight).allGte w2 ∧ data.oldestUnprunedNonce + i ≤ data.latestReceivedNonce) ∧
      (pruneLoop w w2 fuel data messages spent remaining).2.2.2 =
        ⟨remaining.refTime - k * w.refTime, remaining.proofSize - k * w.proofSize⟩ := by
  induction fuel generalizing data messages spent remaining with
  | zero =>
      refine ⟨0, le_rfl, .inl rfl, ?_, ?_, ?_, fun i hi => absurd hi (Nat.not_lt_zero i), ?_⟩
      · rfl
      · exact (removeRange_self messages _).symm
      · simp [pruneLoop]
      · simp [pruneLoop]
  | succ fuel ih =>
      by_cases hgo : remaining.allGte w2 ∧ data.oldestUnprunedNonce ≤ data.latestReceivedNonce
      · -- one round, then the rest of the loop from the moved nonce
        set o := data.oldestUnprunedNonce with ho
        have hstep : pruneLoop w w2 (fuel + 1) data messages spent remaining =
            pruneLoop w w2 fuel { data with oldestUnprunedNonce := o + 1 }
              (Function.update messages o none) (spent + w) (remaining - w) := by
          rw [pruneLoop, if_pos hgo]
        obtain ⟨k, hk, hbound, h1, h2, h3, hguard, h4⟩ := ih
          { data with oldestUnprunedNonce := o + 1 }
          (Function.update messages o none) (spent + w) (remaining - w)
        have hlr : data.latestReceivedNonce ≥ o := hgo.2
        refine ⟨k + 1, by omega, .inr ?_, ?_, ?_, ?_, ?_, ?_⟩
        · rcases hbound with rfl | hbound
          · omega
          · exact (show o + 1 + k ≤ data.latestReceivedNonce + 1 from hbound).trans' (by omega)
        · rw [hstep, h1]
          show ({ data with oldestUnprunedNonce := o + 1 + k } : OutboundLaneData) = _
          rw [Nat.add_assoc, Nat.add_comm 1 k]
        · rw [hstep, h2]
          show removeRange (Function.update messages o none) (o + 1) (o + 1 + k) = _
          funext n
          simp only [removeRange, Function.update_apply]
          split_ifs <;> first | rfl | omega
        · rw [hstep, h3]
          show (⟨spent.refTime + w.refTime + k * w.refTime,
              spent.proofSize + w.proofSize + k * w.proofSize⟩ : Weight) = _
          rw [Nat.succ_mul, Nat.succ_mul, Weight.mk.injEq]
          omega
        · -- round `0` is the one just made; round `i + 1` is round `i` of the rest
          intro i hi
          cases i with
          | zero => simpa using hgo
          | succ i =>
              obtain ⟨hw, hn⟩ := hguard i (by omega)
              replace hn : o + 1 + i ≤ data.latestReceivedNonce := hn
              refine ⟨?_, by omega⟩
              rw [Nat.succ_mul, Nat.succ_mul, Nat.add_comm _ w.refTime, Nat.add_comm _ w.proofSize,
                ← Nat.sub_sub, ← Nat.sub_sub]
              exact hw
        · rw [hstep, h4]
          show (⟨remaining.refTime - w.refTime - k * w.refTime,
              remaining.proofSize - w.proofSize - k * w.proofSize⟩ : Weight) = _
          rw [Nat.sub_sub, Nat.sub_sub, Nat.succ_mul, Nat.succ_mul, Nat.add_comm w.refTime,
            Nat.add_comm w.proofSize]
      · refine ⟨0, by omega, .inl rfl, ?_, ?_, ?_, fun i hi => absurd hi (Nat.not_lt_zero i), ?_⟩
        · rw [pruneLoop, if_neg hgo]
          rfl
        · rw [pruneLoop, if_neg hgo, Nat.add_zero, removeRange_self]
        · rw [pruneLoop, if_neg hgo]
          simp
        · rw [pruneLoop, if_neg hgo]
          simp

/-- The loop is given exactly the rounds the nonce bound allows, so it is
    never its fuel that stops it: at exit the weight cannot pay for two more
    writes or no received payload is left. -/
theorem pruneLoop_exit (w w2 : Weight) (fuel : ℕ) (data : OutboundLaneData)
    (messages : ℕ → Option P) (spent remaining : Weight)
    (hfuel : data.latestReceivedNonce + 1 - data.oldestUnprunedNonce ≤ fuel) :
    let out := pruneLoop w w2 fuel data messages spent remaining
    ¬ (out.2.2.2.allGte w2 ∧ out.1.oldestUnprunedNonce ≤ out.1.latestReceivedNonce) := by
  induction fuel generalizing data messages spent remaining with
  | zero =>
      simp only [pruneLoop]
      omega
  | succ fuel ih =>
      by_cases hgo : remaining.allGte w2 ∧ data.oldestUnprunedNonce ≤ data.latestReceivedNonce
      · simp only [pruneLoop, if_pos hgo]
        exact ih _ _ _ _ (show data.latestReceivedNonce + 1 - (data.oldestUnprunedNonce + 1) ≤ fuel
          by omega)
      · simp only [pruneLoop, if_neg hgo]
        exact hgo

/-! ## What each call can do -/

/-- The loop's guard on the budget: two writes of no proof size. -/
theorem allGte_two_writes (db : RuntimeDbWeight) (a : Weight) :
    a.allGte (db.writes 1 + db.writes 1) = decide (2 * db.write ≤ a.refTime) := by
  simp only [Weight.allGte, Weight.add_refTime, Weight.add_proofSize,
    RuntimeDbWeight.writes_refTime, RuntimeDbWeight.writes_proofSize, Nat.mul_one, Nat.add_zero,
    Nat.zero_le, decide_true, Bool.and_true]
  rw [Nat.two_mul]

/-- What `prune_messages` does, round by round: the loop makes `k` rounds,
    each started with two writes left in the budget, and stops because the
    received payloads ran out or the budget did.  The payloads go in any
    case; the moved oldest unpruned nonce is written back, and one more write
    charged, only when the `k` writes cost some reference time. -/
theorem pruneMessages_eq (lane : OutboundLane P) (db : RuntimeDbWeight) (remaining : Weight) :
    ∃ k, k ≤ lane.data.latestReceivedNonce + 1 - lane.data.oldestUnprunedNonce ∧
      (∀ i < k, (i + 2) * db.write ≤ remaining.refTime) ∧
      (k = lane.data.latestReceivedNonce + 1 - lane.data.oldestUnprunedNonce ∨
        remaining.refTime < (k + 2) * db.write) ∧
      pruneMessages lane db remaining =
        if k * db.write = 0 then
          (Weight.zero, { lane with
            messages := removeRange lane.messages lane.data.oldestUnprunedNonce
              (lane.data.oldestUnprunedNonce + k) })
        else
          (db.writes (k + 1), { lane with
            data := { lane.data with oldestUnprunedNonce := lane.data.oldestUnprunedNonce + k }
            messages := removeRange lane.messages lane.data.oldestUnprunedNonce
              (lane.data.oldestUnprunedNonce + k) }) := by
  set fuel := lane.data.latestReceivedNonce + 1 - lane.data.oldestUnprunedNonce with hfuel
  obtain ⟨k, hk, -, h1, h2, h3, hguard, h4⟩ := pruneLoop_spec (db.writes 1)
    (db.writes 1 + db.writes 1) fuel lane.data lane.messages Weight.zero remaining
  have hexit := pruneLoop_exit (db.writes 1) (db.writes 1 + db.writes 1) fuel lane.data
    lane.messages Weight.zero remaining le_rfl
  simp only [h1, h4] at hexit
  refine ⟨k, hk, ?_, ?_, ?_⟩
  · -- round `i` found `remaining - i` writes covering two more
    intro i hi
    have hw : 2 * db.write ≤ remaining.refTime - i * (db.write * 1) := by
      have := (hguard i hi).1
      rwa [allGte_two_writes, decide_eq_true_eq] at this
    rw [Nat.mul_one] at hw
    rw [Nat.add_mul]
    -- with free writes the bound is trivial; otherwise the subtraction was exact
    rcases Nat.eq_zero_or_pos db.write with hfree | hpos
    · simp [hfree]
    · omega
  · -- the fuel is exact, so the loop stopped on its own condition
    rw [allGte_two_writes, decide_eq_true_eq, RuntimeDbWeight.writes_refTime, Nat.mul_one,
      not_and, not_le] at hexit
    rw [Nat.add_mul]
    by_cases hroom : 2 * db.write ≤ remaining.refTime - k * db.write
    · exact .inl (by have := hexit hroom; omega)
    · exact .inr (by omega)
  · unfold pruneMessages
    dsimp only
    rw [h3]
    -- the spent weight is `k` writes of `write` reference time and no proof size
    have hspent : (⟨Weight.zero.refTime + k * (db.writes 1).refTime,
        Weight.zero.proofSize + k * (db.writes 1).proofSize⟩ : Weight) = ⟨k * db.write, 0⟩ := by
      simp
    rw [hspent]
    by_cases hcost : k * db.write = 0
    · have hz : Weight.isZero ⟨k * db.write, 0⟩ = true := by simp [Weight.isZero, hcost]
      rw [if_pos hcost, hz, Bool.not_true, if_neg Bool.false_ne_true, h2, hcost]
      rfl
    · have hz : Weight.isZero ⟨k * db.write, 0⟩ = false := by simp [Weight.isZero, hcost]
      rw [if_neg hcost, hz, Bool.not_false, if_pos rfl, h1, h2]
      congr 1
      show (⟨k * db.write + db.write * 1, 0 + 0⟩ : Weight) = ⟨db.write * (k + 1), 0⟩
      rw [Nat.mul_one, Nat.mul_comm k, ← Nat.mul_succ]

/-- What `prune_messages` does to the lane: the payloads of `k` received
    nonces go in any case, the moved oldest unpruned nonce is written back
    only when the `k` writes cost some reference time. -/
theorem pruneMessages_spec (lane : OutboundLane P) (db : RuntimeDbWeight) (remaining : Weight) :
    ∃ k, (k = 0 ∨ lane.data.oldestUnprunedNonce + k ≤ lane.data.latestReceivedNonce + 1) ∧
      (pruneMessages lane db remaining).2 =
        { lane with
          data := if k * db.write = 0 then lane.data
            else { lane.data with oldestUnprunedNonce := lane.data.oldestUnprunedNonce + k }
          messages := removeRange lane.messages lane.data.oldestUnprunedNonce
            (lane.data.oldestUnprunedNonce + k) } := by
  obtain ⟨k, hk, -, -, heq⟩ := pruneMessages_eq lane db remaining
  refine ⟨k, by omega, ?_⟩
  rw [heq]
  by_cases hcost : k * db.write = 0
  · rw [if_pos hcost, if_pos hcost]
  · rw [if_neg hcost, if_neg hcost]

/-- **PRUNE BUDGET**: `prune_messages` removes the payloads of the `k`
    oldest unpruned nonces, where `k` is as large as the received nonces and
    the rule "each round starts with two writes left" allow; it returns
    `k + 1` writes when it pruned something and nothing otherwise, never more
    than it was given, and writes the lane data back only when it pruned
    something with writes that cost reference time. -/
theorem pruneMessages_budget (lane : OutboundLane P) (db : RuntimeDbWeight)
    (remaining : Weight) :
    let o := lane.data.oldestUnprunedNonce
    let r := pruneMessages lane db remaining
    ∃ k, k ≤ lane.data.latestReceivedNonce + 1 - o ∧
      (∀ i < k, (i + 2) * db.write ≤ remaining.refTime) ∧
      (k = lane.data.latestReceivedNonce + 1 - o ∨ remaining.refTime < (k + 2) * db.write) ∧
      r.1 = (if 0 < k then db.writes (k + 1) else Weight.zero) ∧
      r.1.refTime ≤ remaining.refTime ∧ r.1.proofSize ≤ remaining.proofSize ∧
      r.2 = { lane with
        data := if 0 < k ∧ 0 < db.write then { lane.data with oldestUnprunedNonce := o + k }
          else lane.data
        messages := removeRange lane.messages o (o + k) } := by
  dsimp only
  obtain ⟨k, hk, hguard, hmax, heq⟩ := pruneMessages_eq lane db remaining
  refine ⟨k, hk, hguard, hmax, ?_⟩
  -- the last round started with two writes left, so `k + 1` writes fit the budget
  have hfit : 0 < k → (k + 1) * db.write ≤ remaining.refTime := by
    intro hpos
    have := hguard (k - 1) (by omega)
    rwa [show k - 1 + 2 = k + 1 by omega] at this
  rw [heq]
  by_cases hcost : k * db.write = 0
  · rw [if_pos hcost]
    dsimp only
    have hfree : ¬ (0 < k ∧ 0 < db.write) := by
      rintro ⟨hk, hw⟩
      exact absurd hcost (Nat.mul_ne_zero (by omega) (by omega))
    refine ⟨?_, Nat.zero_le _, Nat.zero_le _, by rw [if_neg hfree]⟩
    -- with no cost, `k + 1` free writes are the zero weight too
    split
    · have hw : db.write = 0 := by
        rcases Nat.mul_eq_zero.mp hcost with h | h
        · omega
        · exact h
      simp [RuntimeDbWeight.writes, Weight.zero, hw]
    · rfl
  · rw [if_neg hcost]
    dsimp only
    have hpos : 0 < k ∧ 0 < db.write :=
      ⟨Nat.pos_of_ne_zero fun h => hcost (by rw [h, Nat.zero_mul]),
        Nat.pos_of_ne_zero fun h => hcost (by rw [h, Nat.mul_zero])⟩
    refine ⟨by rw [if_pos hpos.1], ?_, Nat.zero_le _, by rw [if_pos hpos]⟩
    show db.write * (k + 1) ≤ remaining.refTime
    rw [Nat.mul_comm]
    exact hfit hpos.1

@[simp] theorem pruneMessages_id (lane : OutboundLane P) (db : RuntimeDbWeight)
    (remaining : Weight) : (pruneMessages lane db remaining).2.id = lane.id := by
  obtain ⟨k, -, h⟩ := pruneMessages_spec lane db remaining
  rw [h]

/-- Pruning moves no counter but the oldest unpruned nonce. -/
theorem pruneMessages_counters (lane : OutboundLane P) (db : RuntimeDbWeight)
    (remaining : Weight) :
    (pruneMessages lane db remaining).2.data.latestGeneratedNonce =
        lane.data.latestGeneratedNonce ∧
      (pruneMessages lane db remaining).2.data.latestReceivedNonce =
        lane.data.latestReceivedNonce := by
  obtain ⟨k, -, h⟩ := pruneMessages_spec lane db remaining
  rw [h]
  split <;> exact ⟨rfl, rfl⟩

/-- The relayer queue check fails with one of its own errors only, never
    with `ConfirmedMessages`. -/
theorem ensureUnrewardedRelayersAreCorrectFrom_ne_confirmedMessages (delivered : ℕ)
    (m : DeliveredMessages) (last : Option ℕ) (l : List (UnrewardedRelayer R)) :
    ensureUnrewardedRelayersAreCorrectFrom delivered last l ≠ .error (.confirmedMessages m) := by
  induction l generalizing last with
  | nil => exact fun h => nomatch h
  | cons entry rest ih =>
      unfold ensureUnrewardedRelayersAreCorrectFrom
      split_ifs
      · exact fun h => nomatch h
      · exact fun h => nomatch h
      · exact fun h => nomatch h
      · exact ih _

/-- Everything `confirm_delivery` can do: refuse with an answer other than
    `ConfirmedMessages` and change nothing, or move `latest_received_nonce`
    to a delivered nonce that is new, generated, within the declared count
    and proven by a well-formed relayer queue. -/
theorem confirmDelivery_cases (lane : OutboundLane P) (maxAllowed delivered : ℕ)
    (relayers : List (UnrewardedRelayer R)) :
    (∃ res, (∀ m, res ≠ .confirmedMessages m) ∧
      confirmDelivery lane maxAllowed delivered relayers = (res, lane)) ∨
    (lane.data.latestReceivedNonce < delivered ∧ delivered ≤ lane.data.latestGeneratedNonce ∧
      delivered - lane.data.latestReceivedNonce ≤ maxAllowed ∧
      ensureUnrewardedRelayersAreCorrect delivered relayers = .ok () ∧
      confirmDelivery lane maxAllowed delivered relayers =
        (.confirmedMessages ⟨lane.data.latestReceivedNonce + 1, delivered⟩,
          { lane with data := { lane.data with latestReceivedNonce := delivered } })) := by
  unfold confirmDelivery
  dsimp only
  by_cases hnew : delivered ≤ lane.data.latestReceivedNonce
  · exact .inl ⟨.noNewConfirmations, fun _ h => (nomatch h), by rw [if_pos hnew]⟩
  rw [if_neg hnew]
  by_cases hfuture : delivered > lane.data.latestGeneratedNonce
  · exact .inl ⟨.failedToConfirmFutureMessages, fun _ h => (nomatch h), by rw [if_pos hfuture]⟩
  rw [if_neg hfuture]
  by_cases hmany : delivered - lane.data.latestReceivedNonce > maxAllowed
  · exact .inl ⟨.tryingToConfirmMoreMessagesThanExpected _, fun _ h => (nomatch h),
      by rw [if_pos hmany]⟩
  rw [if_neg hmany]
  cases hcheck : ensureUnrewardedRelayersAreCorrect delivered relayers with
  | error e =>
      -- the queue check only ever fails with one of its three errors
      refine .inl ⟨e, ?_, rfl⟩
      intro m hm
      subst hm
      exact ensureUnrewardedRelayersAreCorrectFrom_ne_confirmedMessages delivered m none relayers
        hcheck
  | ok u => exact .inr ⟨by omega, by omega, by omega, rfl, rfl⟩

/-- What the relayer queue check decides: it accepts a queue only when its
    ranges are non-empty and consecutive, none ends beyond the delivered
    nonce, and the first one starts right after the range it was given. -/
theorem ensureUnrewardedRelayersAreCorrectFrom_ok {delivered : ℕ} {last : Option ℕ}
    {l : List (UnrewardedRelayer R)}
    (h : ensureUnrewardedRelayersAreCorrectFrom delivered last l = .ok ()) :
    RelayersConsecutive l ∧ (∀ e ∈ l, e.messages.«end» ≤ delivered) ∧
      ∀ x ∈ last, ∀ e ∈ l.head?, e.messages.begin = x + 1 := by
  induction l generalizing last with
  | nil => exact ⟨IntervalChain.consecutive_nil, by simp, by simp⟩
  | cons e rest ih =>
      unfold ensureUnrewardedRelayersAreCorrectFrom at h
      split_ifs at h with hempty hgap hfuture
      obtain ⟨hc, hend, hhead⟩ := ih h
      refine ⟨?_, ?_, ?_⟩
      · -- the next range starts right after this one, as the recursive call checked
        cases rest with
        | nil => exact IntervalChain.consecutive_singleton (by omega)
        | cons b rest =>
            exact IntervalChain.consecutive_cons_cons.mpr
              ⟨by omega, hhead _ rfl b rfl, hc⟩
      · exact List.forall_mem_cons.mpr ⟨by omega, hend⟩
      · intro x hx b hb
        rw [Option.mem_def] at hx
        rw [List.head?_cons, Option.mem_some_iff] at hb
        subst hx hb
        simp only [Option.any_some, decide_eq_true_eq, not_not] at hgap
        exact hgap.symm

/-- **CONFIRM DELIVERY ATOMIC**: a confirmation either answers something
    other than `ConfirmedMessages` and leaves the lane as it was, or confirms
    exactly the range from the old `latest_received_nonce + 1` to the
    delivered nonce, within the declared count, moves
    `latest_received_nonce` there and nothing else, and was given a queue of
    non-empty consecutive ranges none of which ends beyond that nonce. -/
theorem confirm_delivery_atomic_and_bounded (lane : OutboundLane P)
    (maxAllowed delivered : ℕ) (relayers : List (UnrewardedRelayer R)) :
    let r := confirmDelivery lane maxAllowed delivered relayers
    ((∀ d, r.1 ≠ .confirmedMessages d) → r.2 = lane) ∧
    ∀ d, r.1 = .confirmedMessages d →
      d.begin = lane.data.latestReceivedNonce + 1 ∧ d.«end» = delivered ∧
      r.2 = { lane with data := { lane.data with latestReceivedNonce := delivered } } ∧
      r.2.data.latestReceivedNonce ≤ r.2.data.latestGeneratedNonce ∧
      d.totalMessages ≤ maxAllowed ∧
      RelayersConsecutive relayers ∧ ∀ e ∈ relayers, e.messages.«end» ≤ delivered := by
  dsimp only
  rcases confirmDelivery_cases lane maxAllowed delivered relayers with
    ⟨res, hres, hr⟩ | ⟨hlt, hle, hmax, hcheck, hr⟩
  · -- a refusal: the lane is returned as it was, and the answer is not a confirmation
    rw [hr]
    exact ⟨fun _ => rfl, fun d hd => absurd hd (hres d)⟩
  · obtain ⟨hc, hend, -⟩ := ensureUnrewardedRelayersAreCorrectFrom_ok hcheck
    rw [hr]
    refine ⟨fun hnot => absurd rfl (hnot _), fun d hd => ?_⟩
    rw [ReceivalConfirmationResult.confirmedMessages.injEq] at hd
    subst hd
    have htotal : DeliveredMessages.totalMessages ⟨lane.data.latestReceivedNonce + 1, delivered⟩ =
        delivered - lane.data.latestReceivedNonce := by
      simp only [DeliveredMessages.totalMessages]
      rw [if_pos (by omega)]
      omega
    exact ⟨rfl, rfl, rfl, hle, by omega, hc, hend⟩

/-- No call moves `latest_received_nonce` or `latest_generated_nonce` back,
    and no call but `send_message` changes the latter. -/
theorem step_monotone (lane : OutboundLane P) (call : Call R P) :
    lane.data.latestReceivedNonce ≤ (step lane call).data.latestReceivedNonce ∧
      lane.data.latestGeneratedNonce ≤ (step lane call).data.latestGeneratedNonce := by
  cases call with
  | sendMessage p =>
      exact ⟨le_rfl, Nat.le_succ _⟩
  | confirmDelivery maxAllowed delivered relayers =>
      rcases confirmDelivery_cases lane maxAllowed delivered relayers with ⟨res, -, h⟩ | ⟨hlt, -, -, -, h⟩
      · rw [step, h]
        exact ⟨le_rfl, le_rfl⟩
      · rw [step, h]
        exact ⟨hlt.le, le_rfl⟩
  | pruneMessages db remaining =>
      obtain ⟨k, -, h⟩ := pruneMessages_spec lane db remaining
      rw [step, h]
      split <;> exact ⟨le_rfl, le_rfl⟩

/-! ## The lane invariant -/

/-- The counters are ordered and the store holds exactly the payloads of
    `[oldest_unpruned_nonce, latest_generated_nonce]`. -/
structure LaneInvariant (lane : OutboundLane P) : Prop where
  oldest_pos : 1 ≤ lane.data.oldestUnprunedNonce
  oldest_le : lane.data.oldestUnprunedNonce ≤ lane.data.latestReceivedNonce + 1
  received_le : lane.data.latestReceivedNonce ≤ lane.data.latestGeneratedNonce
  stored : ∀ n, (lane.messages n).isSome ↔
    lane.data.oldestUnprunedNonce ≤ n ∧ n ≤ lane.data.latestGeneratedNonce

theorem laneInvariant_init (id : LaneId) : LaneInvariant (init id : OutboundLane P) := by
  refine ⟨le_rfl, le_rfl, le_rfl, ?_⟩
  intro n
  simp only [init, OutboundLaneData.default, Option.isSome_none, Bool.false_eq_true, false_iff]
  omega

/-- A call whose pruning, if it prunes, is charged a write of some reference
    time. -/
def Call.ChargesWrites : Call R P → Prop
  | .pruneMessages db _ => 0 < db.write
  | _ => True

theorem LaneInvariant.send {lane : OutboundLane P} (h : LaneInvariant lane) (p : P) :
    LaneInvariant (sendMessage lane p).2 := by
  refine ⟨h.oldest_pos, h.oldest_le, Nat.le_succ_of_le h.received_le, ?_⟩
  intro n
  show (Function.update lane.messages (lane.data.latestGeneratedNonce + 1) (some p) n).isSome ↔
    lane.data.oldestUnprunedNonce ≤ n ∧ n ≤ lane.data.latestGeneratedNonce + 1
  rw [Function.update_apply]
  split
  · -- the new payload sits right above the old top, within the new range
    have := h.oldest_le
    have := h.received_le
    simp only [Option.isSome_some, true_iff]
    omega
  · rw [h.stored n]
    omega

theorem LaneInvariant.confirm {lane : OutboundLane P} (h : LaneInvariant lane)
    (maxAllowed delivered : ℕ) (relayers : List (UnrewardedRelayer R)) :
    LaneInvariant (confirmDelivery lane maxAllowed delivered relayers).2 := by
  rcases confirmDelivery_cases lane maxAllowed delivered relayers with ⟨res, -, hres⟩ | ⟨hlt, hle, -, -, hres⟩
  · rw [hres]
    exact h
  · rw [hres]
    have := h.oldest_le
    exact ⟨h.oldest_pos, by show lane.data.oldestUnprunedNonce ≤ delivered + 1; omega, hle,
      h.stored⟩

theorem LaneInvariant.prune {lane : OutboundLane P} (h : LaneInvariant lane)
    (db : RuntimeDbWeight) (hwrite : 0 < db.write) (remaining : Weight) :
    LaneInvariant (pruneMessages lane db remaining).2 := by
  obtain ⟨k, hbound, hres⟩ := pruneMessages_spec lane db remaining
  rw [hres]
  by_cases hk : k = 0
  · -- nothing pruned: the store is as it was
    subst hk
    simp only [Nat.zero_mul, if_true, Nat.add_zero, removeRange_self]
    exact h
  · -- `k` payloads pruned and, the writes costing something, recorded
    have hcost : k * db.write ≠ 0 := Nat.mul_ne_zero hk (Nat.pos_iff_ne_zero.mp hwrite)
    simp only [hcost, if_false]
    have hb : lane.data.oldestUnprunedNonce + k ≤ lane.data.latestReceivedNonce + 1 := by
      rcases hbound with h0 | hb
      · exact absurd h0 hk
      · exact hb
    refine ⟨by have := h.oldest_pos; show 1 ≤ lane.data.oldestUnprunedNonce + k; omega, hb,
      h.received_le, ?_⟩
    intro n
    show (removeRange lane.messages lane.data.oldestUnprunedNonce
      (lane.data.oldestUnprunedNonce + k) n).isSome ↔
        lane.data.oldestUnprunedNonce + k ≤ n ∧ n ≤ lane.data.latestGeneratedNonce
    simp only [removeRange]
    split
    · simp only [Option.isSome_none, Bool.false_eq_true, false_iff]
      omega
    · rw [h.stored n]
      have := h.received_le
      omega

theorem LaneInvariant.step {lane : OutboundLane P} (h : LaneInvariant lane) (call : Call R P)
    (hcall : call.ChargesWrites) : LaneInvariant (OutboundLane.step lane call) := by
  cases call with
  | sendMessage p => exact h.send p
  | confirmDelivery maxAllowed delivered relayers => exact h.confirm maxAllowed delivered relayers
  | pruneMessages db remaining => exact h.prune db hcall remaining

/-- **OUTBOUND LANE INVARIANT**: from the default data, any sequence of sends,
    confirmations and prunes charged for their writes keeps the counters
    ordered and the store exactly on `[oldest_unpruned_nonce,
    latest_generated_nonce]`. -/
theorem laneInvariant_of_run (id : LaneId) (calls : List (Call R P))
    (hcalls : ∀ c ∈ calls, c.ChargesWrites) :
    LaneInvariant (calls.foldl step (init id : OutboundLane P)) :=
  Reach.foldl_invariant LaneInvariant Call.ChargesWrites (fun _ c hc hs => hs.step c hc)
    calls _ hcalls (laneInvariant_init id)

/-- **OUTBOUND LANE OVER RUNS**: from the default data, any run of sends,
    confirmations and prunes charged for their writes keeps the lane
    invariant; and from any lane, no run moves `latest_received_nonce` or
    `latest_generated_nonce` back. -/
theorem outbound_lane_over_runs (id : LaneId) :
    (∀ calls : List (Call R P), (∀ c ∈ calls, c.ChargesWrites) →
      LaneInvariant (calls.foldl step (init id : OutboundLane P))) ∧
    ∀ (lane : OutboundLane P) (calls : List (Call R P)),
      lane.data.latestReceivedNonce ≤ (calls.foldl step lane).data.latestReceivedNonce ∧
        lane.data.latestGeneratedNonce ≤ (calls.foldl step lane).data.latestGeneratedNonce := by
  refine ⟨laneInvariant_of_run id, fun lane calls => ⟨?_, ?_⟩⟩
  · exact Reach.le_foldl_of_le_step (fun l : OutboundLane P => l.data.latestReceivedNonce)
      (fun l c => (step_monotone l c).1) calls lane
  · exact Reach.le_foldl_of_le_step (fun l : OutboundLane P => l.data.latestGeneratedNonce)
      (fun l c => (step_monotone l c).2) calls lane

/-- A message is sent and confirmed, then pruned with a database weight whose
    write costs one unit. -/
def pruneWithChargedWrites : List (Call Unit Unit) :=
  [.sendMessage (), .confirmDelivery 1 1 [⟨(), ⟨1, 1⟩⟩], .pruneMessages ⟨0, 1⟩ ⟨10, 10⟩]

theorem outbound_lane_over_runs_on_charged_prune :
    (∀ c ∈ pruneWithChargedWrites, c.ChargesWrites) ∧
      LaneInvariant (pruneWithChargedWrites.foldl step (init #v[0, 0, 0, 0] : OutboundLane Unit)) := by
  have hcharged : ∀ c ∈ pruneWithChargedWrites, c.ChargesWrites := by
    intro c hc
    simp only [pruneWithChargedWrites, List.mem_cons, List.not_mem_nil, or_false] at hc
    rcases hc with rfl | rfl | rfl <;> simp [Call.ChargesWrites]
  exact ⟨hcharged, (outbound_lane_over_runs #v[0, 0, 0, 0]).1 pruneWithChargedWrites hcharged⟩

/-- A message is sent and confirmed, then pruned with a database weight whose
    write costs nothing. -/
def pruneWithFreeWrites : List (Call Unit Unit) :=
  [.sendMessage (), .confirmDelivery 1 1 [⟨(), ⟨1, 1⟩⟩], .pruneMessages ⟨0, 0⟩ ⟨10, 10⟩]

/-- With free writes the loop prunes the payload of nonce `1` but spends no
    weight, so the moved oldest unpruned nonce is never written back: the
    store is empty while `[oldest_unpruned_nonce, latest_generated_nonce]`
    is `[1, 1]`. -/
theorem prune_with_free_writes_loses_oldest_nonce :
    (pruneWithFreeWrites.foldl step (init #v[0, 0, 0, 0] : OutboundLane Unit)).data = ⟨1, 1, 1⟩ ∧
    (pruneWithFreeWrites.foldl step (init #v[0, 0, 0, 0] : OutboundLane Unit)).messages 1 = none := by
  decide

end OutboundLane

end ParityBridge
