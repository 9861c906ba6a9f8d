import Mathlib.Tactic.Ring
import ParityBridge.Messages.Types

/-! # Relayer rewards — `calc_relayers_rewards` and `DeliveryConfirmationPaymentsAdapter`

    On a confirmation the source chain counts, for every relayer of the
    proven queue, the confirmed nonces its entries hold
    (`calc_relayers_rewards`, each entry clamped to the newly confirmed
    range), and the payment adapter registers `count × DeliveryReward` for
    each of them, paying the confirming relayer's own share last
    (`register_relayers_rewards`).

    `RelayersRewards` is a `BTreeMap`; it is a list of `(relayer, count)`
    pairs here, and a relayer's count is the sum of its entries
    (`rewardOf`).  The adapter visits the entries in the list's order, not
    the map's key order; its additions commute, so the order changes
    nothing it registers.  `RelayerRewards` storage is read at one fixed
    `RewardsAccountParams` (the lane's), so it is a function of the
    relayer; rewards are natural numbers added without a cap here, where
    the relayers pallet's `register_relayer_reward` saturates at the reward
    type's largest value (modelled with the cap in `Relayers.Pallet`). -/

namespace ParityBridge

variable {R : Type}

/-- `RelayersRewards`: message counts per relayer. -/
abbrev RelayersRewards (R : Type) := List (R × ℕ)

section Counts

variable [DecidableEq R]

/-- `*relayers_rewards.entry(relayer).or_default() += count`. -/
def addReward : RelayersRewards R → R → ℕ → RelayersRewards R
  | [], relayer, count => [(relayer, count)]
  | (r, m) :: rest, relayer, count =>
      if r = relayer then (r, m + count) :: rest else (r, m) :: addReward rest relayer count

/-- The count a map holds for a relayer, `0` when it has none (the sum of
    its entries for that relayer, of which a map has at most one). -/
def rewardOf (rewards : RelayersRewards R) (relayer : R) : ℕ :=
  (rewards.map fun p => if p.1 = relayer then p.2 else 0).sum

/-- The sum of all counts of a map. -/
def totalRewards (rewards : RelayersRewards R) : ℕ :=
  (rewards.map Prod.snd).sum

/-- The nonces of an entry that lie in `start ..= stop`, as
    `calc_relayers_rewards` counts them. -/
def clampedCount (entry : UnrewardedRelayer R) (start stop : ℕ) : ℕ :=
  let nonceBegin := max entry.messages.begin start
  let nonceEnd := min entry.messages.«end» stop
  if nonceEnd ≥ nonceBegin then nonceEnd - nonceBegin + 1 else 0

/-- `calc_relayers_rewards`: the counts per relayer of the range
    `start ..= stop` over the entries of a relayer queue. -/
def calcRelayersRewards (messagesRelayers : List (UnrewardedRelayer R)) (start stop : ℕ) :
    RelayersRewards R :=
  messagesRelayers.foldl (fun rewards entry =>
    let nonceBegin := max entry.messages.begin start
    let nonceEnd := min entry.messages.«end» stop
    if nonceEnd ≥ nonceBegin then addReward rewards entry.relayer (nonceEnd - nonceBegin + 1)
    else rewards) []

theorem rewardOf_addReward (rewards : RelayersRewards R) (relayer r : R) (count : ℕ) :
    rewardOf (addReward rewards relayer count) r =
      rewardOf rewards r + if relayer = r then count else 0 := by
  induction rewards with
  | nil => simp [addReward, rewardOf]
  | cons head rest ih =>
      obtain ⟨r', m⟩ := head
      simp only [rewardOf] at ih ⊢
      simp only [addReward]
      split
      · -- the count joins the relayer's own entry
        rename_i hr'
        subst hr'
        simp only [List.map_cons, List.sum_cons]
        split <;> omega
      · simp only [List.map_cons, List.sum_cons, ih]
        omega

theorem totalRewards_addReward (rewards : RelayersRewards R) (relayer : R) (count : ℕ) :
    totalRewards (addReward rewards relayer count) = totalRewards rewards + count := by
  induction rewards with
  | nil => simp [addReward, totalRewards]
  | cons head rest ih =>
      obtain ⟨r', m⟩ := head
      simp only [totalRewards] at ih ⊢
      simp only [addReward]
      split
      · simp only [List.map_cons, List.sum_cons]
        omega
      · simp only [List.map_cons, List.sum_cons, ih]
        omega

/-- One round of the `calc_relayers_rewards` loop adds the entry's clamped
    count to its relayer. -/
theorem calcStep_eq (rewards : RelayersRewards R) (entry : UnrewardedRelayer R) (start stop : ℕ) :
    (let nonceBegin := max entry.messages.begin start
     let nonceEnd := min entry.messages.«end» stop
     if nonceEnd ≥ nonceBegin then addReward rewards entry.relayer (nonceEnd - nonceBegin + 1)
     else rewards) =
      if clampedCount entry start stop = 0 then rewards
      else addReward rewards entry.relayer (clampedCount entry start stop) := by
  simp only [clampedCount]
  split <;> split <;> first | rfl | omega

/-- **LOOP RULE** of `calc_relayers_rewards`: a measure of the map that
    every `addReward` raises by `g relayer count`, and an empty count not at
    all, is raised by the loop by `g` of each entry's relayer and clamped
    count. -/
theorem foldl_calcStep_measure (f : RelayersRewards R → ℕ) (g : R → ℕ → ℕ)
    (hf : ∀ rewards relayer count, f (addReward rewards relayer count) = f rewards + g relayer count)
    (hg : ∀ relayer, g relayer 0 = 0) (start stop : ℕ) (l : List (UnrewardedRelayer R))
    (acc : RelayersRewards R) :
    f (l.foldl (fun rewards entry =>
      let nonceBegin := max entry.messages.begin start
      let nonceEnd := min entry.messages.«end» stop
      if nonceEnd ≥ nonceBegin then addReward rewards entry.relayer (nonceEnd - nonceBegin + 1)
      else rewards) acc) =
      f acc + (l.map fun e => g e.relayer (clampedCount e start stop)).sum := by
  induction l generalizing acc with
  | nil => simp
  | cons e rest ih =>
      rw [List.foldl_cons, ih, calcStep_eq, List.map_cons, List.sum_cons]
      split
      · -- an entry with no nonce in the range is skipped
        rename_i hzero
        rw [hzero, hg]
        omega
      · rw [hf]
        omega

/-- **PER-RELAYER COUNT**: what `calc_relayers_rewards` counts for a relayer is
    the sum of the clamped counts of its entries. -/
theorem rewardOf_calcRelayersRewards (l : List (UnrewardedRelayer R)) (start stop : ℕ) (r : R) :
    rewardOf (calcRelayersRewards l start stop) r =
      (l.map fun e => if e.relayer = r then clampedCount e start stop else 0).sum := by
  unfold calcRelayersRewards
  have h := foldl_calcStep_measure (fun rewards => rewardOf rewards r)
    (fun relayer count => if relayer = r then count else 0)
    (fun rewards relayer count => rewardOf_addReward rewards relayer r count) (fun _ => ite_self 0)
    start stop l []
  simpa [rewardOf] using h

/-- **TOTAL COUNT**: the counts of `calc_relayers_rewards` add up to the sum of
    the clamped counts of all entries. -/
theorem totalRewards_calcRelayersRewards (l : List (UnrewardedRelayer R)) (start stop : ℕ) :
    totalRewards (calcRelayersRewards l start stop) = (l.map fun e => clampedCount e start stop).sum := by
  unfold calcRelayersRewards
  have h := foldl_calcStep_measure totalRewards (fun _ count => count) totalRewards_addReward
    (fun _ => rfl) start stop l []
  simpa [totalRewards] using h

/-! ## The payment adapter -/

/-- `Pallet::register_relayer_reward` of the relayers pallet, on the lane's
    rewards account: a zero reward changes nothing. -/
def registerRelayerReward (relayerRewards : R → ℕ) (relayer : R) (reward : ℕ) : R → ℕ :=
  if reward = 0 then relayerRewards
  else Function.update relayerRewards relayer (relayerRewards relayer + reward)

/-- The loop of `register_relayers_rewards`: every relayer but the confirming
    one is registered at once, the confirming relayer's share is summed. -/
def registerLoop (confirmationRelayer : R) (deliveryFee : ℕ) (acc : (R → ℕ) × ℕ)
    (entry : R × ℕ) : (R → ℕ) × ℕ :=
  let relayerReward := entry.2 * deliveryFee
  if entry.1 ≠ confirmationRelayer then (registerRelayerReward acc.1 entry.1 relayerReward, acc.2)
  else (acc.1, acc.2 + relayerReward)

/-- `register_relayers_rewards`. -/
def registerRelayersRewards (confirmationRelayer : R) (relayersRewards : RelayersRewards R)
    (deliveryFee : ℕ) (relayerRewards : R → ℕ) : R → ℕ :=
  let out := relayersRewards.foldl (registerLoop confirmationRelayer deliveryFee) (relayerRewards, 0)
  -- finally, pay the confirming relayer its summed share
  registerRelayerReward out.1 confirmationRelayer out.2

/-- `DeliveryConfirmationPaymentsAdapter::pay_reward`, with `DeliveryReward`
    as `deliveryReward`. -/
def payReward (deliveryReward : ℕ) (messagesRelayers : List (UnrewardedRelayer R))
    (confirmationRelayer : R) (start stop : ℕ) (relayerRewards : R → ℕ) : R → ℕ :=
  registerRelayersRewards confirmationRelayer (calcRelayersRewards messagesRelayers start stop)
    deliveryReward relayerRewards

theorem registerRelayerReward_apply (relayerRewards : R → ℕ) (relayer r : R) (reward : ℕ) :
    registerRelayerReward relayerRewards relayer reward r =
      relayerRewards r + if relayer = r then reward else 0 := by
  unfold registerRelayerReward
  split
  · rename_i h
    simp [h]
  · rw [Function.update_apply]
    by_cases hr : r = relayer
    · subst hr
      simp
    · simp [hr, Ne.symm hr]

@[simp] theorem rewardOf_cons (p : R × ℕ) (rest : RelayersRewards R) (r : R) :
    rewardOf (p :: rest) r = (if p.1 = r then p.2 else 0) + rewardOf rest r := rfl

/-- One round of the loop registers the share of a relayer other than the
    confirming one. -/
theorem registerLoop_fst (confirmationRelayer : R) (deliveryFee : ℕ) (acc : (R → ℕ) × ℕ)
    (entry : R × ℕ) (r : R) :
    (registerLoop confirmationRelayer deliveryFee acc entry).1 r =
      acc.1 r + if r = confirmationRelayer then 0
        else if entry.1 = r then entry.2 * deliveryFee else 0 := by
  unfold registerLoop
  by_cases hc : entry.1 = confirmationRelayer
  · -- the confirming relayer's share is summed, not registered
    rw [if_neg (not_not.mpr hc)]
    by_cases hr : r = confirmationRelayer
    · simp [hr]
    · simp [hr, hc, Ne.symm hr]
  · rw [if_pos hc]
    show registerRelayerReward acc.1 entry.1 (entry.2 * deliveryFee) r = _
    rw [registerRelayerReward_apply]
    by_cases hr : r = confirmationRelayer
    · subst hr
      simp [hc]
    · simp [hr]

/-- One round of the loop sums the confirming relayer's share. -/
theorem registerLoop_snd (confirmationRelayer : R) (deliveryFee : ℕ) (acc : (R → ℕ) × ℕ)
    (entry : R × ℕ) :
    (registerLoop confirmationRelayer deliveryFee acc entry).2 =
      acc.2 + if entry.1 = confirmationRelayer then entry.2 * deliveryFee else 0 := by
  unfold registerLoop
  by_cases hc : entry.1 = confirmationRelayer
  · rw [if_neg (not_not.mpr hc), if_pos hc]
  · rw [if_pos hc, if_neg hc, Nat.add_zero]

/-- The loop registers every other relayer's share and sums the confirming
    relayer's. -/
theorem foldl_registerLoop (confirmationRelayer : R) (deliveryFee : ℕ)
    (l : RelayersRewards R) (acc : (R → ℕ) × ℕ) :
    (∀ r, (l.foldl (registerLoop confirmationRelayer deliveryFee) acc).1 r =
      acc.1 r + if r = confirmationRelayer then 0 else deliveryFee * rewardOf l r) ∧
    (l.foldl (registerLoop confirmationRelayer deliveryFee) acc).2 =
      acc.2 + deliveryFee * rewardOf l confirmationRelayer := by
  induction l generalizing acc with
  | nil => simp [rewardOf]
  | cons p rest ih =>
      obtain ⟨h1, h2⟩ := ih (registerLoop confirmationRelayer deliveryFee acc p)
      rw [List.foldl_cons]
      refine ⟨fun r => ?_, ?_⟩
      · rw [h1 r, registerLoop_fst, rewardOf_cons]
        split_ifs <;> ring
      · rw [h2, registerLoop_snd, rewardOf_cons]
        split_ifs <;> ring

/-- **ADAPTER**: paying a confirmation adds `DeliveryReward` times its count to
    every relayer's rewards, the confirming relayer's included. -/
theorem registerRelayersRewards_apply (confirmationRelayer : R) (l : RelayersRewards R)
    (deliveryFee : ℕ) (relayerRewards : R → ℕ) (r : R) :
    registerRelayersRewards confirmationRelayer l deliveryFee relayerRewards r =
      relayerRewards r + deliveryFee * rewardOf l r := by
  obtain ⟨h1, h2⟩ := foldl_registerLoop confirmationRelayer deliveryFee l (relayerRewards, 0)
  unfold registerRelayersRewards
  rw [registerRelayerReward_apply, h1 r, h2]
  by_cases hr : r = confirmationRelayer
  · subst hr
    simp
  · simp [hr, Ne.symm hr]

end Counts

end ParityBridge
