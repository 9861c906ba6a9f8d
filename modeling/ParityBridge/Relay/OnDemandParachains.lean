import Mathlib.Data.Nat.Notation
import Mathlib.Order.Basic

/-! # The on-demand parachains relay — `select_headers_to_relay` and `select_headers_to_prove`

    A dependent relay (the messages relay) asks for a parachain header at
    the target chain.  The on-demand parachains relay first has the relay
    chain header that stores it relayed (`RelayingRelayHeader`), then the
    parachain header itself (`RelayingParaHeader`), and goes back to `Idle`
    once the target has what was asked.  Each round of `background_task`
    reads the chains' state (`RelayData`) and picks the next state with
    `select_headers_to_relay`; a round in `RelayingRelayHeader` asks the
    on-demand headers relay for that relay header.

    `select_headers_to_prove` picks, for a one-off proof, the relay and
    parachain headers to prove: the target's relay header if its state is
    recent enough and holds the required parachain header, else the
    source's best relay header.

    Header numbers are natural numbers and a `HeaderId` is a number and a
    hash.  The clients' async calls are what they answer; the channel, the
    sleeps, the reconnects and the logs are left out. -/

namespace ParityBridge

namespace OnDemandParachains

variable {PH RH E : Type}

/-- `RelayState`. -/
inductive RelayState (PH : Type) where
  | idle
  | relayingRelayHeader (relayNumber : ℕ)
  | relayingParaHeader (paraHeader : ℕ × PH)
deriving DecidableEq, Repr

/-- `RelayData`: what a round reads from the source and target clients. -/
structure RelayData (PH : Type) where
  requiredParaHeader : ℕ
  paraHeaderAtTarget : Option ℕ
  paraHeaderAtSource : Option (ℕ × PH)
  paraHeaderAtRelayHeaderAtTarget : Option (ℕ × PH)
  relayHeaderAtSource : ℕ
  relayHeaderAtTarget : Option ℕ
deriving DecidableEq, Repr

/-- The part of `select_headers_to_relay` after the current state has had
    its say: relay what the source has, the relay header first. -/
def selectRegular (data : RelayData PH) (relayHeaderAtTarget : ℕ) : RelayState PH :=
  -- if we haven't read para head from the source, we can't yet do anything
  match data.paraHeaderAtSource with
  | none => .idle
  | some paraHeaderAtSource =>
      -- with no parachain head at the target, deliver at least the source's
      let required := match data.paraHeaderAtTarget with
        | some paraHeaderAtTarget => (data.requiredParaHeader, paraHeaderAtTarget)
        | none => (paraHeaderAtSource.1, 0)
      if required.1 ≤ required.2 then .idle
      else if required.1 > paraHeaderAtSource.1 then .idle
      else if relayHeaderAtTarget < data.relayHeaderAtSource then
        .relayingRelayHeader data.relayHeaderAtSource
      else .relayingParaHeader paraHeaderAtSource

/-- `select_headers_to_relay`. -/
def selectHeadersToRelay (data : RelayData PH) (state : RelayState PH) : RelayState PH :=
  -- nothing to do until the relay chain's GRANDPA pallet is initialized at the target
  match data.relayHeaderAtTarget with
  | none => .idle
  | some relayHeaderAtTarget =>
      match state with
      | .relayingRelayHeader relayHeaderNumber =>
          if relayHeaderAtTarget < relayHeaderNumber then state
          else
            match data.paraHeaderAtRelayHeaderAtTarget with
            | some paraHeaderAtRelayHeaderAtTarget => .relayingParaHeader paraHeaderAtRelayHeaderAtTarget
            | none => selectRegular data relayHeaderAtTarget
      | .relayingParaHeader paraHeaderId =>
          if data.paraHeaderAtTarget.getD 0 < paraHeaderId.1 then state
          else selectRegular data relayHeaderAtTarget
      | .idle => selectRegular data relayHeaderAtTarget

/-- The relay headers `background_task` asks the on-demand headers relay
    for over a run of rounds, from a state: one per round that ends in
    `RelayingRelayHeader`. -/
def relayHeaderRequests : RelayState PH → List (RelayData PH) → List ℕ
  | _, [] => []
  | state, data :: rest =>
      match selectHeadersToRelay data state with
      | .relayingRelayHeader relayNumber =>
          relayNumber :: relayHeaderRequests (.relayingRelayHeader relayNumber) rest
      | state' => relayHeaderRequests state' rest

/-- `ANCIENT_BLOCK_THRESHOLD`. -/
def ancientBlockThreshold : ℕ := 128

/-- `is_ancient_block`: whether the state at `block` may already be pruned
    at a node whose best block is `best`. -/
def isAncientBlock (block best : ℕ) : Bool :=
  decide (best - block ≥ ancientBlockThreshold)

/-- The errors of `select_headers_to_prove`: a client's, or
    `MissingRequiredParachainHead`. -/
inductive ProveError (E : Type) where
  | client (e : E)
  | missingRequiredParachainHead (paraId : ℕ) (number : ℕ)
deriving DecidableEq, Repr

/-- `SelectHeadersToProveEnvironment`: what its calls answer. -/
structure SelectHeadersToProveEnvironment (RH PH E : Type) where
  parachainId : ℕ
  bestFinalizedRelayBlockAtSource : Except E (ℕ × RH)
  bestFinalizedRelayBlockAtTarget : Except E (ℕ × RH)
  bestFinalizedParaBlockAtSource : ℕ × RH → Except E (Option (ℕ × PH))

/-- `select_headers_to_prove`: whether the relay header must be proved too,
    the relay header, and the parachain header. -/
def selectHeadersToProve (env : SelectHeadersToProveEnvironment RH PH E)
    (requiredParachainHeader : ℕ) : Except (ProveError E) (Bool × (ℕ × RH) × (ℕ × PH)) := do
  let bestFinalizedRelayBlockAtSource ← env.bestFinalizedRelayBlockAtSource.mapError .client
  let bestFinalizedRelayBlockAtTarget ← env.bestFinalizedRelayBlockAtTarget.mapError .client
  -- can we prove the required header even at the source's best relay block?
  let bestPossible ← (env.bestFinalizedParaBlockAtSource bestFinalizedRelayBlockAtSource).mapError
    .client
  let bestPossibleParachainBlock ←
    match bestPossible.filter fun block => decide (block.1 ≥ requiredParachainHeader) with
    | some block => pure block
    | none => throw (.missingRequiredParachainHead env.parachainId requiredParachainHeader)
  -- the source is no archive node: no proofs at an ancient relay block
  let mayUseStateAtBestFinalizedRelayBlockAtTarget :=
    !isAncientBlock bestFinalizedRelayBlockAtTarget.1 bestFinalizedRelayBlockAtSource.1
  let selection ←
    if mayUseStateAtBestFinalizedRelayBlockAtTarget then do
      let atTarget ← (env.bestFinalizedParaBlockAtSource bestFinalizedRelayBlockAtTarget).mapError
        .client
      pure ((atTarget.filter fun block => decide (block.1 ≥ requiredParachainHeader)).map
        fun block => (false, bestFinalizedRelayBlockAtTarget, block))
    else pure none
  pure (selection.getD (true, bestFinalizedRelayBlockAtSource, bestPossibleParachainBlock))

end OnDemandParachains

end ParityBridge
