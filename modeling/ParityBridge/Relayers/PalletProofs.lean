import ParityBridge.Relayers.Pallet
import ParityBridge.Lib.Reach
import ParityBridge.Lib.Ledger
import ParityBridge.Messages.Rewards

/-! # The relayers pallet over runs — no reward paid twice, none lost below the cap

    Rewards come into `RelayerRewards` by `register_relayer_reward` and
    leave it by `claim_rewards`, which pays them and records the payment in
    a `RewardPaid` event.  Over any run of claims and registrations, for
    every relayer and rewards account, what is still owed plus what the
    events paid is at most what was owed and paid before plus what was
    registered; it is exactly that while the rewards stay within the
    reward type's largest value, where `saturating_add` starts to cut.

    The route:

    * each call's effect on one entry (`setReward_apply`,
      `registerRelayerReward_apply`, `claimRewards_cases`);
    * the stored rewards stay within `1 ..= maxReward` (`RewardsBounded`,
      kept by every step and so by every run);
    * for one relayer and account, the reward owed plus what the events
      paid is a balance each call changes by what it registers less what
      saturation cuts (`step_balance`); `Ledger.balance_conserved` carries
      it over runs, and `Ledger.runSum_eq_zero_of_le` shows nothing is cut
      while the total stays within `maxReward`;
    * the refund extension registers its refunds with this same function
      (`Refund.registerRelayerReward`); the payment adapter's model
      (`Messages.Rewards`) adds without the cap, on the lane's account. -/

namespace ParityBridge

namespace Relayers

variable {Acc P Q E : Type} [DecidableEq Acc] [DecidableEq P]

/-! ## One call on one entry -/

@[simp] theorem setReward_apply (rr : RelayerRewards Acc P) (relayer : Acc) (params : P)
    (value : Option ℕ) (r : Acc) (p : P) :
    setReward rr relayer params value r p = if r = relayer ∧ p = params then value else rr r p := by
  unfold setReward
  by_cases hr : r = relayer
  · subst hr
    by_cases hp : p = params
    · subst hp
      simp
    · simp [hp]
  · simp [hr]

theorem registerRelayerReward_apply (maxReward : ℕ) (rr : RelayerRewards Acc P) (params : P)
    (relayer : Acc) (reward : ℕ) (r : Acc) (p : P) :
    registerRelayerReward maxReward rr params relayer reward r p =
      if reward ≠ 0 ∧ r = relayer ∧ p = params then
        some (saturatingAdd maxReward ((rr r p).getD 0) reward)
      else rr r p := by
  unfold registerRelayerReward
  by_cases hzero : reward = 0
  · simp [hzero]
  · rw [if_neg hzero, setReward_apply]
    by_cases hkey : r = relayer ∧ p = params
    · obtain ⟨rfl, rfl⟩ := hkey
      simp [hzero]
    · simp [hkey]

/-- **CLAIM INVERSION.** A claim fails and changes nothing, or a signed
    relayer's reward was there, was paid, and is removed and recorded. -/
theorem claimRewards_cases (payReward : Q → Acc → P → ℕ → Except E Q) (c : RelayersChain Acc P Q)
    (origin : Origin Acc) (params : P) :
    (∃ e, claimRewards payReward c origin params = (.error e, c)) ∨
      ∃ relayer reward payments, origin = .signed relayer ∧
        c.relayerRewards relayer params = some reward ∧
        payReward c.payments relayer params reward = .ok payments ∧
        claimRewards payReward c origin params =
          (.ok (), ⟨setReward c.relayerRewards relayer params none, payments,
            c.events ++ [⟨relayer, params, reward⟩]⟩) := by
  cases origin with
  | signed relayer =>
      cases hreward : c.relayerRewards relayer params with
      | none => exact .inl ⟨.noRewardForRelayer, by simp [claimRewards, hreward]⟩
      | some reward =>
          cases hpay : payReward c.payments relayer params reward with
          | error e => exact .inl ⟨.failedToPayReward, by simp [claimRewards, hreward, hpay]⟩
          | ok payments =>
              exact .inr ⟨relayer, reward, payments, rfl, hreward, hpay,
                by simp [claimRewards, hreward, hpay]⟩
  | root => exact .inl ⟨.badOrigin, rfl⟩
  | none => exact .inl ⟨.badOrigin, rfl⟩

section Steps

variable (maxReward : ℕ) (payReward : Q → Acc → P → ℕ → Except E Q)

theorem step_claimRewards_of_error {c : RelayersChain Acc P Q} {origin : Origin Acc} {params : P}
    {e : RelayersError} (h : claimRewards payReward c origin params = (.error e, c)) :
    RelayersChain.step maxReward payReward c (.claimRewards origin params) = c := by
  rw [RelayersChain.step, h]

@[simp] theorem step_registerRelayerReward_events (c : RelayersChain Acc P Q) (params : P)
    (relayer : Acc) (reward : ℕ) :
    (RelayersChain.step maxReward payReward c (.registerRelayerReward params relayer reward)).events =
      c.events := rfl

/-! ## The stored rewards stay in `1 ..= maxReward` -/

/-- Every stored reward is positive and within the reward type. -/
def RewardsBounded (rr : RelayerRewards Acc P) : Prop :=
  ∀ r p v, rr r p = some v → 0 < v ∧ v ≤ maxReward

/-- Removing an entry keeps the bounds. -/
theorem RewardsBounded.setReward_none {rr : RelayerRewards Acc P} (h : RewardsBounded maxReward rr)
    (relayer : Acc) (params : P) : RewardsBounded maxReward (setReward rr relayer params none) := by
  intro r p v hv
  rw [setReward_apply] at hv
  split at hv
  · cases hv
  · exact h r p v hv

/-- **BOUNDED STEP.** Every call keeps the stored rewards within
    `1 ..= maxReward`: a registered reward is not zero, and
    `saturating_add` stops at the largest value. -/
theorem RewardsBounded.step (hmax : 0 < maxReward) {c : RelayersChain Acc P Q}
    (h : RewardsBounded maxReward c.relayerRewards) (call : Call Acc P) :
    RewardsBounded maxReward (RelayersChain.step maxReward payReward c call).relayerRewards := by
  cases call with
  | claimRewards origin params =>
      rcases claimRewards_cases payReward c origin params with
        ⟨e, hres⟩ | ⟨relayer, reward, payments, -, -, -, hres⟩
      · rw [step_claimRewards_of_error maxReward payReward hres]
        exact h
      · show RewardsBounded maxReward (claimRewards payReward c origin params).2.relayerRewards
        rw [hres]
        exact h.setReward_none maxReward relayer params
  | registerRelayerReward params relayer reward =>
      intro r p v hv
      change registerRelayerReward maxReward c.relayerRewards params relayer reward r p = some v
        at hv
      rw [registerRelayerReward_apply] at hv
      split at hv
      · -- the written entry: a positive sum, cut at `maxReward`
        rename_i hkey
        cases hv
        unfold saturatingAdd
        have hpos : 0 < reward := Nat.pos_of_ne_zero hkey.1
        constructor <;> omega
      · exact h r p v hv

/-- The bounds hold after every run from a state that has them. -/
theorem RewardsBounded.run (hmax : 0 < maxReward) (calls : List (Call Acc P))
    {c : RelayersChain Acc P Q} (h : RewardsBounded maxReward c.relayerRewards) :
    RewardsBounded maxReward
      (calls.foldl (RelayersChain.step maxReward payReward) c).relayerRewards :=
  Reach.foldl_invariant (fun c => RewardsBounded maxReward c.relayerRewards) (fun _ => True)
    (fun _ call _ hc => hc.step maxReward payReward hmax call) calls c (fun _ _ => trivial) h

end Steps

/-! ## The reward ledger of one relayer at one account -/

/-- What a relayer is owed at an account. -/
def owed (rr : RelayerRewards Acc P) (relayer : Acc) (params : P) : ℕ :=
  (rr relayer params).getD 0

/-- What the `RewardPaid` events of a list paid a relayer from an account. -/
def paidTo (events : List (RewardPaid Acc P)) (relayer : Acc) (params : P) : ℕ :=
  (events.map fun e => if e.relayer = relayer ∧ e.rewardsAccountParams = params then e.reward
    else 0).sum

/-- What a call registers for a relayer at an account. -/
def Call.registeredTo (relayer : Acc) (params : P) : Call Acc P → ℕ
  | .registerRelayerReward p r reward => if relayer = r ∧ params = p then reward else 0
  | .claimRewards _ _ => 0

/-- What `saturating_add` cuts from a reward a call registers for a relayer
    at an account. -/
def Call.cutFrom (maxReward : ℕ) (rr : RelayerRewards Acc P) (relayer : Acc) (params : P) :
    Call Acc P → ℕ
  | .registerRelayerReward p r reward =>
      if reward ≠ 0 ∧ relayer = r ∧ params = p then
        owed rr relayer params + reward - saturatingAdd maxReward (owed rr relayer params) reward
      else 0
  | .claimRewards _ _ => 0

theorem paidTo_append (events new : List (RewardPaid Acc P)) (relayer : Acc) (params : P) :
    paidTo (events ++ new) relayer params = paidTo events relayer params + paidTo new relayer params := by
  simp [paidTo]

section Ledger

variable (maxReward : ℕ) (payReward : Q → Acc → P → ℕ → Except E Q)

/-- A claim pays a relayer at an account exactly what it was owed there, or
    leaves both alone. -/
theorem claim_balance (c : RelayersChain Acc P Q) (origin : Origin Acc) (params : P)
    (relayer : Acc) (p : P) :
    owed (claimRewards payReward c origin params).2.relayerRewards relayer p +
        paidTo (claimRewards payReward c origin params).2.events relayer p =
      owed c.relayerRewards relayer p + paidTo c.events relayer p := by
  rcases claimRewards_cases payReward c origin params with
    ⟨e, hres⟩ | ⟨claimer, reward, payments, -, hreward, -, hres⟩
  · rw [hres]
  · rw [hres]
    dsimp only
    rw [paidTo_append]
    by_cases hkey : relayer = claimer ∧ p = params
    · -- the claimed entry: its whole reward moves to the new event
      obtain ⟨rfl, rfl⟩ := hkey
      simp [owed, paidTo, hreward]
      omega
    · have hkey' : ¬(claimer = relayer ∧ params = p) := fun h => hkey ⟨h.1.symm, h.2.symm⟩
      simp [owed, paidTo, hkey, hkey']

theorem owed_registerRelayerReward (rr : RelayerRewards Acc P) (params : P) (r : Acc)
    (reward : ℕ) (relayer : Acc) (p : P) :
    owed (registerRelayerReward maxReward rr params r reward) relayer p =
      if reward ≠ 0 ∧ relayer = r ∧ p = params then
        saturatingAdd maxReward (owed rr relayer p) reward
      else owed rr relayer p := by
  unfold owed
  rw [registerRelayerReward_apply]
  split <;> rfl

/-- A registration adds its reward to the relayer's balance at the
    account, less what saturation cuts. -/
theorem register_balance (rr : RelayerRewards Acc P) (params : P) (r : Acc) (reward : ℕ)
    (relayer : Acc) (p : P) :
    owed (registerRelayerReward maxReward rr params r reward) relayer p +
        Call.cutFrom maxReward rr relayer p (.registerRelayerReward params r reward) =
      owed rr relayer p + Call.registeredTo relayer p (.registerRelayerReward params r reward) := by
  simp only [Call.cutFrom, Call.registeredTo]
  rw [owed_registerRelayerReward]
  by_cases hkey : reward ≠ 0 ∧ relayer = r ∧ p = params
  · -- the written entry: `saturating_add` keeps what `cutFrom` does not
    rw [if_pos hkey, if_pos hkey, if_pos hkey.2]
    unfold saturatingAdd
    omega
  · rw [if_neg hkey, if_neg hkey]
    by_cases hzero : reward = 0
    · simp [hzero]
    · rw [if_neg (fun h => hkey ⟨hzero, h⟩)]

/-- **THE LEDGER STEP.** For every relayer and account, the reward owed plus
    what the events paid changes, at every call, by what the call registers
    less what saturation cuts. -/
theorem step_balance (relayer : Acc) (p : P) (c : RelayersChain Acc P Q) (call : Call Acc P) :
    owed (RelayersChain.step maxReward payReward c call).relayerRewards relayer p +
        paidTo (RelayersChain.step maxReward payReward c call).events relayer p +
        Call.cutFrom maxReward c.relayerRewards relayer p call =
      owed c.relayerRewards relayer p + paidTo c.events relayer p +
        Call.registeredTo relayer p call := by
  cases call with
  | claimRewards origin params =>
      have h := claim_balance payReward c origin params relayer p
      simp only [RelayersChain.step, Call.cutFrom, Call.registeredTo]
      omega
  | registerRelayerReward params r reward =>
      have h := register_balance maxReward c.relayerRewards params r reward relayer p
      simp only [RelayersChain.step]
      omega

/-- Over any run, what is owed and paid at the end and what saturation cut
    is what was owed and paid at the start and what was registered. -/
theorem balance_run (relayer : Acc) (p : P) (calls : List (Call Acc P)) (c : RelayersChain Acc P Q) :
    owed (calls.foldl (RelayersChain.step maxReward payReward) c).relayerRewards relayer p +
        paidTo (calls.foldl (RelayersChain.step maxReward payReward) c).events relayer p +
        Ledger.runSum (RelayersChain.step maxReward payReward)
          (fun c call => Call.cutFrom maxReward c.relayerRewards relayer p call) c calls =
      owed c.relayerRewards relayer p + paidTo c.events relayer p +
        (calls.map (Call.registeredTo relayer p)).sum := by
  have hrun := Ledger.balance_conserved
    (fun c => owed c.relayerRewards relayer p + paidTo c.events relayer p)
    (fun _ call => Call.registeredTo relayer p call)
    (fun c call => Call.cutFrom maxReward c.relayerRewards relayer p call)
    (fun c call => step_balance maxReward payReward relayer p c call) calls c
  rw [Ledger.runSum_of_call] at hrun
  exact hrun

/-- Nothing is cut from a reward that fits. -/
theorem cutFrom_eq_zero_of_le (rr : RelayerRewards Acc P) (relayer : Acc) (p : P)
    (call : Call Acc P) (h : owed rr relayer p + Call.registeredTo relayer p call ≤ maxReward) :
    Call.cutFrom maxReward rr relayer p call = 0 := by
  cases call with
  | claimRewards _ _ => rfl
  | registerRelayerReward params r reward =>
      simp only [Call.cutFrom]
      simp only [Call.registeredTo] at h
      by_cases hkey : reward ≠ 0 ∧ relayer = r ∧ p = params
      · rw [if_pos hkey.2] at h
        rw [if_pos hkey]
        unfold saturatingAdd
        omega
      · rw [if_neg hkey]

/-- A call adds to what a relayer is owed at most what it registers. -/
theorem owed_step_le (relayer : Acc) (p : P) (c : RelayersChain Acc P Q) (call : Call Acc P) :
    owed (RelayersChain.step maxReward payReward c call).relayerRewards relayer p ≤
      owed c.relayerRewards relayer p + Call.registeredTo relayer p call := by
  have hbalance := step_balance maxReward payReward relayer p c call
  -- the events only grow
  have hpaid : paidTo c.events relayer p ≤
      paidTo (RelayersChain.step maxReward payReward c call).events relayer p := by
    cases call with
    | claimRewards origin params =>
        rcases claimRewards_cases payReward c origin params with
          ⟨e, hres⟩ | ⟨claimer, reward, payments, -, -, -, hres⟩
        · rw [step_claimRewards_of_error maxReward payReward hres]
        · show _ ≤ paidTo (claimRewards payReward c origin params).2.events relayer p
          rw [hres]
          dsimp only
          rw [paidTo_append]
          exact Nat.le_add_right _ _
    | registerRelayerReward params r reward => exact Nat.le_refl _
  omega

/-- **NO REWARD PAID TWICE.** Over any run of claims and registrations, for
    every relayer and rewards account, what is owed at the end plus what
    the `RewardPaid` events paid is at most what was owed and paid at the
    start plus what was registered. -/
theorem rewards_never_paid_twice (relayer : Acc) (p : P) (calls : List (Call Acc P))
    (c : RelayersChain Acc P Q) :
    owed (calls.foldl (RelayersChain.step maxReward payReward) c).relayerRewards relayer p +
        paidTo (calls.foldl (RelayersChain.step maxReward payReward) c).events relayer p ≤
      owed c.relayerRewards relayer p + paidTo c.events relayer p +
        (calls.map (Call.registeredTo relayer p)).sum := by
  have hrun := balance_run maxReward payReward relayer p calls c
  omega

/-- **NO REWARD LOST BELOW THE CAP.** Over a run whose registrations keep a
    relayer's reward at an account within the reward type, what is owed at
    the end plus what the `RewardPaid` events paid is exactly what was owed
    and paid at the start plus what was registered. -/
theorem rewards_conserved_below_max (relayer : Acc) (p : P) (calls : List (Call Acc P))
    (c : RelayersChain Acc P Q)
    (hcap : owed c.relayerRewards relayer p + (calls.map (Call.registeredTo relayer p)).sum ≤
      maxReward) :
    owed (calls.foldl (RelayersChain.step maxReward payReward) c).relayerRewards relayer p +
        paidTo (calls.foldl (RelayersChain.step maxReward payReward) c).events relayer p =
      owed c.relayerRewards relayer p + paidTo c.events relayer p +
        (calls.map (Call.registeredTo relayer p)).sum := by
  have hrun := balance_run maxReward payReward relayer p calls c
  -- saturation never cuts along this run
  have hcut : Ledger.runSum (RelayersChain.step maxReward payReward)
      (fun c call => Call.cutFrom maxReward c.relayerRewards relayer p call) c calls = 0 := by
    refine Ledger.runSum_eq_zero_of_le (fun c => owed c.relayerRewards relayer p)
      (fun _ call => Call.registeredTo relayer p call) maxReward _
      (fun c call => owed_step_le maxReward payReward relayer p c call)
      (fun c call h => cutFrom_eq_zero_of_le maxReward c.relayerRewards relayer p call h) calls c ?_
    rw [Ledger.runSum_of_call]
    exact hcap
  omega

end Ledger

/-- A payment procedure paying from one pot, failing when the pot is short. -/
def potPayment (pot : ℕ) (_ : ℕ) (_ : ℕ) (reward : ℕ) : Except Unit ℕ :=
  if reward ≤ pot then .ok (pot - reward) else .error ()

/-- Two registrations for relayer `1` at account `0`, its claim, and a
    registration for relayer `2`. -/
def smallRun : List (Call ℕ ℕ) :=
  [.registerRelayerReward 0 1 5, .registerRelayerReward 0 1 7, .claimRewards (.signed 1) 0,
    .registerRelayerReward 0 2 3]

/-- The pallet with no rewards, a pot of `100` and no events. -/
def emptyChain : RelayersChain ℕ ℕ ℕ := ⟨fun _ _ => none, 100, []⟩

theorem rewards_conserved_below_max_on_small_run :
    owed emptyChain.relayerRewards 1 0 + (smallRun.map (Call.registeredTo 1 0)).sum ≤ 1000 ∧
      owed (smallRun.foldl (RelayersChain.step 1000 potPayment) emptyChain).relayerRewards 1 0 +
          paidTo (smallRun.foldl (RelayersChain.step 1000 potPayment) emptyChain).events 1 0 =
        owed emptyChain.relayerRewards 1 0 + paidTo emptyChain.events 1 0 +
          (smallRun.map (Call.registeredTo 1 0)).sum :=
  ⟨by decide, rewards_conserved_below_max 1000 potPayment 1 0 smallRun emptyChain (by decide)⟩

end Relayers

end ParityBridge
