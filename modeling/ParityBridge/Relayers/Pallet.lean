import Mathlib.Logic.Function.Basic
import Mathlib.Data.Nat.Notation

/-! # The relayers pallet — `RelayerRewards`, `register_relayer_reward`, `claim_rewards`

    The pallet keeps, for every relayer and every rewards account
    (`RewardsAccountParams`: a lane, a bridged chain and the side that
    pays), the reward the relayer may claim.  Other pallets register
    rewards (`register_relayer_reward`, adding with `saturating_add`); a
    relayer claims one account's whole reward at once (`claim_rewards`),
    which the `PaymentProcedure` pays and the pallet records in a
    `RewardPaid` event.

    `Reward` is an unsigned integer type: a natural number here, whose
    largest value is `maxReward`, where `saturating_add` stops.  The
    rewards accounts are any type `P` with decidable equality: the pallet
    only uses them as keys and hands them to the payment procedure.  The
    payment procedure acts on the rest of the runtime's state, `Q`: it is
    the parameter `payReward`, which fails or gives the new state.  A
    failed call changes nothing: `try_mutate_exists` writes only when its
    closure succeeds, and the dispatch is transactional. -/

namespace ParityBridge

namespace Relayers

variable {Acc P Q E : Type}

/-- The origin of a call; `ensure_signed` admits only a signed one. -/
inductive Origin (Acc : Type) where
  | signed (who : Acc)
  | root
  | none
deriving DecidableEq, Repr

/-- The errors of `claim_rewards`: `BadOrigin` of `ensure_signed`, then the
    pallet's `Error`. -/
inductive RelayersError where
  | badOrigin
  | noRewardForRelayer
  | failedToPayReward
deriving DecidableEq, Repr

/-- `Event::RewardPaid`. -/
structure RewardPaid (Acc P : Type) where
  relayer : Acc
  rewardsAccountParams : P
  reward : ℕ
deriving DecidableEq, Repr

/-- `RelayerRewards`: the reward of each relayer at each rewards account,
    `none` where it has none (`OptionQuery`). -/
abbrev RelayerRewards (Acc P : Type) := Acc → P → Option ℕ

/-- The pallet's storage, the state its payment procedure acts on, and the
    events it deposited. -/
structure RelayersChain (Acc P Q : Type) where
  relayerRewards : RelayerRewards Acc P
  payments : Q
  events : List (RewardPaid Acc P)

/-- `Saturating::saturating_add` of the reward type, whose largest value is
    `maxReward`. -/
def saturatingAdd (maxReward a b : ℕ) : ℕ := min (a + b) maxReward

section Pallet

variable [DecidableEq Acc] [DecidableEq P]

/-- A write to one entry of the double map. -/
def setReward (relayerRewards : RelayerRewards Acc P) (relayer : Acc) (rewardsAccountParams : P)
    (value : Option ℕ) : RelayerRewards Acc P :=
  Function.update relayerRewards relayer
    (Function.update (relayerRewards relayer) rewardsAccountParams value)

variable (maxReward : ℕ)

/-- `Pallet::register_relayer_reward`: a zero reward is dropped, any other
    is added to the relayer's reward at the account, from zero if it has
    none. -/
def registerRelayerReward (relayerRewards : RelayerRewards Acc P) (rewardsAccountParams : P)
    (relayer : Acc) (reward : ℕ) : RelayerRewards Acc P :=
  if reward = 0 then relayerRewards
  else
    let newReward :=
      saturatingAdd maxReward ((relayerRewards relayer rewardsAccountParams).getD 0) reward
    setReward relayerRewards relayer rewardsAccountParams (some newReward)

/-- `Pallet::claim_rewards`: the signed relayer's whole reward at the
    account is taken and paid; the entry is removed and `RewardPaid`
    deposited only if the payment succeeds. -/
def claimRewards (payReward : Q → Acc → P → ℕ → Except E Q) (c : RelayersChain Acc P Q)
    (origin : Origin Acc) (rewardsAccountParams : P) :
    Except RelayersError Unit × RelayersChain Acc P Q :=
  match origin with
  | .signed relayer =>
      match c.relayerRewards relayer rewardsAccountParams with
      | none => (.error .noRewardForRelayer, c)
      | some reward =>
          match payReward c.payments relayer rewardsAccountParams reward with
          | .error _ => (.error .failedToPayReward, c)
          | .ok payments =>
              (.ok (), ⟨setReward c.relayerRewards relayer rewardsAccountParams none, payments,
                c.events ++ [⟨relayer, rewardsAccountParams, reward⟩]⟩)
  | _ => (.error .badOrigin, c)

/-- What a run is made of: the relayers' claims, and the rewards the
    messages pallet's payment adapter and the refund extension register. -/
inductive Call (Acc P : Type) where
  | claimRewards (origin : Origin Acc) (rewardsAccountParams : P)
  | registerRelayerReward (rewardsAccountParams : P) (relayer : Acc) (reward : ℕ)

/-- One call of a run. -/
def RelayersChain.step (payReward : Q → Acc → P → ℕ → Except E Q) (c : RelayersChain Acc P Q) :
    Call Acc P → RelayersChain Acc P Q
  | .claimRewards origin rewardsAccountParams =>
      (claimRewards payReward c origin rewardsAccountParams).2
  | .registerRelayerReward rewardsAccountParams relayer reward =>
      { c with
        relayerRewards :=
          registerRelayerReward maxReward c.relayerRewards rewardsAccountParams relayer reward }

end Pallet

end Relayers

end ParityBridge
