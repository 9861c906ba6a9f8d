import ParityBridge.Relay.MessageRaceDelivery
import ParityBridge.Relay.ParachainsLoop

/-! # The message race loop — `run` of `message_race_loop`

    A message race delivers nonces from a source client to a target client.
    `run` keeps the `RaceState`, a strategy, and per client a flag that
    says whether the client is free (`source_client_is_online`,
    `target_client_is_online`) and the futures of the calls it made.  Each
    pass of its `select!` takes one branch: a new state of a client, or the
    end of one of its futures.  After the branch, a free client is given
    its next call: the source proves the nonces the strategy selects, or
    reads its nonces; the target takes a ready proof, asks for a source
    header, or reads its best or finalized nonces.

    The model is one step per branch (`RaceEvent`), from the answer the
    future gives: a branch whose future is not set cannot be taken, and
    leaves the state as it is.  A future is its call's arguments while it
    is set, `none` once it has ended.  The strategy is any `RaceStrategy`;
    the retry backoff (a duration), the progress log and the metrics are
    left out, and the transaction tracker is the status it ends with.
    `run` returns with the failed client, and an `expect` that fails
    panics: both end the loop (`RaceExit`). -/

namespace ParityBridge

namespace MessageRace

open ParachainsLoop

/-- The `RaceStrategy` trait, over the strategy's state `σ`: what `run`
    asks of it (`is_empty` and `best_at_target` only feed the logs). -/
structure RaceStrategy (σ SH TH Pr N PP TND : Type) where
  requiredSourceHeaderAtTarget : σ → ℕ × SH → Option (ℕ × SH)
  bestAtSource : σ → Option ℕ
  sourceNoncesUpdated : σ → ℕ × SH → SourceClientNonces N → σ
  bestTargetNoncesUpdated : σ → TargetClientNonces TND → RaceState SH TH Pr → σ × RaceState SH TH Pr
  finalizedTargetNoncesUpdated :
    σ → TargetClientNonces TND → RaceState SH TH Pr → σ × RaceState SH TH Pr
  selectNoncesToDeliver : σ → RaceState SH TH Pr → Option ((ℕ × ℕ) × PP)

/-- `ProcessFutureResult` of `relay_utils`. -/
inductive ProcessFutureResult where
  | success
  | failed
  | connectionFailed
deriving DecidableEq, Repr

variable {CE α : Type}

/-- `process_future_result`, without its side effects: the caller runs
    `on_success` on a success and sets the go-offline future on a
    failure. -/
def processFutureResult (isConnectionError : CE → Bool) : Except CE α → ProcessFutureResult
  | .ok _ => .success
  | .error e => if isConnectionError e then .connectionFailed else .failed

/-- How `run` ends: with the client that failed, or a panic of an
    `expect`. -/
inductive RaceExit where
  | failed (client : FailedClient)
  | panicked
deriving DecidableEq, Repr

/-- `ProcessFutureResult::fail_if_connection_error`. -/
def ProcessFutureResult.failIfConnectionError (result : ProcessFutureResult)
    (failedClient : FailedClient) : Except RaceExit Bool :=
  match result with
  | .success => .ok true
  | .failed => .ok false
  | .connectionFailed => .error (.failed failedClient)

variable {σ SH TH Pr N PP TND BT : Type}

/-- The local state of `run` between two passes: the race state, the
    strategy, each client's flags, and the arguments of each future that is
    set. -/
structure RaceLoop (σ SH TH Pr PP BT : Type) where
  raceState : RaceState SH TH Pr
  strategy : σ
  sourceClientIsOnline : Bool
  sourceNoncesRequired : Bool
  sourceRequiredHeader : Option (ℕ × SH)
  sourceNonces : Option ((ℕ × SH) × ℕ)
  sourceGenerateProof : Option ((ℕ × SH) × (ℕ × ℕ) × PP)
  sourceGoOffline : Bool
  targetClientIsOnline : Bool
  targetBestNoncesRequired : Bool
  targetFinalizedNoncesRequired : Bool
  targetBatchTransaction : Option BT
  targetRequireSourceHeader : Option (ℕ × SH)
  targetBestNonces : Option (ℕ × TH)
  targetFinalizedNonces : Option (ℕ × TH)
  targetSubmitProof : Option (Option BT × (ℕ × SH) × (ℕ × ℕ) × Pr)
  targetTxTracker : Bool
  targetGoOffline : Bool

/-- `RaceState::default`. -/
def RaceState.default : RaceState SH TH Pr := ⟨none, none, none, none, none, none⟩

/-- The state `run` enters its loop in. -/
def RaceLoop.init (strategy : σ) : RaceLoop σ SH TH Pr PP BT :=
  ⟨RaceState.default, strategy, true, false, none, none, none, false, true, false, false, none, none,
    none, none, none, false, false⟩

/-- The branches of the `select!` of `run`, each with what its future or
    stream gives: the source's best finalized header, the target's best
    header, the source header it has finalized at it, and its best
    finalized header, the answers of the calls, and the status the
    transaction tracker ends with together with the target's latest nonce
    read at the block it reports. -/
inductive RaceEvent (SH TH Pr N TND BT CE : Type) where
  | raceSourceUpdated (sourceState : Option (ℕ × SH))
  | raceTargetUpdated (targetState : Option ((ℕ × TH) × Option (ℕ × SH) × (ℕ × TH)))
  | sourceNonces (result : Except CE ((ℕ × SH) × SourceClientNonces N))
  | targetBestNonces (result : Except CE ((ℕ × TH) × TargetClientNonces TND))
  | targetFinalizedNonces (result : Except CE ((ℕ × TH) × TargetClientNonces TND))
  | targetRequireSourceHeader (result : Except CE (Option BT))
  | sourceGenerateProof (result : Except CE ((ℕ × SH) × (ℕ × ℕ) × Pr))
  | targetSubmitProof (result : Except CE (ℕ × ℕ))
  | targetTxTracker (status : TrackedTransactionStatus (ℕ × TH)) (noncesAtTarget : Except CE ℕ)
  | sourceGoOffline
  | targetGoOffline

/-- The free function `select_nonces_to_deliver`: the strategy's nonces,
    proved at the source header the target has finalized. -/
def selectNoncesToDeliver (strategy : RaceStrategy σ SH TH Pr N PP TND) (s : σ)
    (raceState : RaceState SH TH Pr) : Option ((ℕ × SH) × (ℕ × ℕ) × PP) := do
  let bestFinalizedSourceHeaderIdAtBestTarget ← raceState.bestFinalizedSourceHeaderIdAtBestTarget
  let (noncesRange, proofParameters) ← strategy.selectNoncesToDeliver s raceState
  pure (bestFinalizedSourceHeaderIdAtBestTarget, noncesRange, proofParameters)

section Loop

variable [DecidableEq SH] [DecidableEq TH]
variable (strategy : RaceStrategy σ SH TH Pr N PP TND) (isConnectionError : CE → Bool)
  (requiredHeaderId : BT → ℕ × SH)

/-- The branch for a new source state: a new best finalized header asks
    for the source's nonces. -/
def RaceLoop.raceSourceUpdated (l : RaceLoop σ SH TH Pr PP BT) :
    Option (ℕ × SH) → RaceLoop σ SH TH Pr PP BT
  | none => l
  | some bestFinalizedSelf =>
      if l.raceState.bestFinalizedSourceHeaderIdAtSource ≠ some bestFinalizedSelf then
        { l with
          sourceNoncesRequired := true
          raceState := { l.raceState with bestFinalizedSourceHeaderIdAtSource := some bestFinalizedSelf } }
      else l

/-- The branch for a new target state: a new best header asks for the
    target's best nonces, a new finalized header for its finalized ones. -/
def RaceLoop.raceTargetUpdated (l : RaceLoop σ SH TH Pr PP BT) :
    Option ((ℕ × TH) × Option (ℕ × SH) × (ℕ × TH)) → RaceLoop σ SH TH Pr PP BT
  | none => l
  | some (bestSelf, bestFinalizedPeerAtBestSelf, bestFinalizedSelf) =>
      let l :=
        if l.raceState.bestTargetHeaderId ≠ some bestSelf then
          { l with
            targetBestNoncesRequired := true
            raceState := { l.raceState with
              bestTargetHeaderId := some bestSelf
              bestFinalizedSourceHeaderIdAtBestTarget := bestFinalizedPeerAtBestSelf } }
        else l
      if l.raceState.bestFinalizedTargetHeaderId ≠ some bestFinalizedSelf then
        { l with
          targetFinalizedNoncesRequired := true
          raceState := { l.raceState with bestFinalizedTargetHeaderId := some bestFinalizedSelf } }
      else l

/-- The branch a `select!` pass takes, `none` when its future is not set;
    the ended future is reset, the client's flag set from the result. -/
def RaceLoop.branch (l : RaceLoop σ SH TH Pr PP BT) :
    RaceEvent SH TH Pr N TND BT CE → Option (Except RaceExit (RaceLoop σ SH TH Pr PP BT))
  | .raceSourceUpdated sourceState => some (.ok (l.raceSourceUpdated sourceState))
  | .raceTargetUpdated targetState => some (.ok (l.raceTargetUpdated targetState))
  | .sourceNonces result =>
      l.sourceNonces.map fun _ =>
        let processed := processFutureResult isConnectionError result
        let strategyState :=
          match result with
          | .ok (atBlock, nonces) => strategy.sourceNoncesUpdated l.strategy atBlock nonces
          | .error _ => l.strategy
        (processed.failIfConnectionError .source).map fun sourceClientIsOnline =>
          { l with
            sourceNoncesRequired := false
            sourceNonces := none
            strategy := strategyState
            sourceGoOffline := l.sourceGoOffline || processed != .success
            sourceClientIsOnline
            sourceRequiredHeader := l.raceState.bestFinalizedSourceHeaderIdAtBestTarget.bind
              (strategy.requiredSourceHeaderAtTarget strategyState) }
  | .targetBestNonces result =>
      l.targetBestNonces.map fun _ =>
        let processed := processFutureResult isConnectionError result
        let updated :=
          match result with
          | .ok (_, nonces) => strategy.bestTargetNoncesUpdated l.strategy nonces l.raceState
          | .error _ => (l.strategy, l.raceState)
        (processed.failIfConnectionError .target).map fun targetClientIsOnline =>
          { l with
            targetBestNoncesRequired := false
            targetBestNonces := none
            strategy := updated.1
            raceState := updated.2
            targetGoOffline := l.targetGoOffline || processed != .success
            targetClientIsOnline }
  | .targetFinalizedNonces result =>
      l.targetFinalizedNonces.map fun _ =>
        let processed := processFutureResult isConnectionError result
        let updated :=
          match result with
          | .ok (_, nonces) => strategy.finalizedTargetNoncesUpdated l.strategy nonces l.raceState
          | .error _ => (l.strategy, l.raceState)
        (processed.failIfConnectionError .target).map fun targetClientIsOnline =>
          { l with
            targetFinalizedNoncesRequired := false
            targetFinalizedNonces := none
            strategy := updated.1
            raceState := updated.2
            targetGoOffline := l.targetGoOffline || processed != .success
            targetClientIsOnline }
  | .targetRequireSourceHeader result =>
      l.targetRequireSourceHeader.map fun _ =>
        let processed := processFutureResult isConnectionError result
        (processed.failIfConnectionError .target).map fun targetClientIsOnline =>
          { l with
            sourceRequiredHeader := none
            targetRequireSourceHeader := none
            targetBatchTransaction :=
              match result with
              | .ok maybeBatchTransaction => maybeBatchTransaction
              | .error _ => l.targetBatchTransaction
            targetGoOffline := l.targetGoOffline || processed != .success
            targetClientIsOnline }
  | .sourceGenerateProof result =>
      l.sourceGenerateProof.map fun _ =>
        match result with
        | .ok generated =>
            .ok { l with
              sourceGenerateProof := none
              raceState := { l.raceState with noncesToSubmit := some generated }
              sourceClientIsOnline := true }
        -- `fail_if_error`: any failure to prove ends the race
        | .error _ => .error (.failed .source)
  | .targetSubmitProof result =>
      l.targetSubmitProof.map fun _ =>
        match result with
        | .ok nonces =>
            .ok { l with
              targetSubmitProof := none
              targetBatchTransaction := none
              raceState := { l.raceState with noncesToSubmit := none, noncesSubmitted := some nonces }
              targetTxTracker := true
              targetClientIsOnline := true }
        | .error _ => .error (.failed .target)
  | .targetTxTracker status noncesAtTarget =>
      if l.targetTxTracker then
        let l := { l with targetTxTracker := false }
        let resetSubmitted := { l with raceState := { l.raceState with noncesSubmitted := none } }
        some (.ok (match status, l.raceState.noncesSubmitted with
          | .finalized _, some noncesSubmitted =>
              -- the target must have received the nonces the transaction carried
              match noncesAtTarget with
              | .ok latestNonce => if latestNonce < noncesSubmitted.2 then resetSubmitted else l
              | .error _ => resetSubmitted
          | .lost, _ => resetSubmitted
          | _, _ => l))
      else none
  | .sourceGoOffline =>
      if l.sourceGoOffline then some (.ok { l with sourceGoOffline := false, sourceClientIsOnline := true })
      else none
  | .targetGoOffline =>
      if l.targetGoOffline then some (.ok { l with targetGoOffline := false, targetClientIsOnline := true })
      else none

/-- The source part after the `select!`: a free source proves the nonces
    the strategy selects (at the header a batched transaction brings to the
    target, if any), or reads its nonces if a new state asks for them. -/
def RaceLoop.scheduleSource (l : RaceLoop σ SH TH Pr PP BT) : Except RaceExit (RaceLoop σ SH TH Pr PP BT) :=
  if l.sourceClientIsOnline then
    let l := { l with sourceClientIsOnline := false }
    let expectedRaceState :=
      match l.targetBatchTransaction with
      | some targetBatchTransaction =>
          { l.raceState with
            bestFinalizedSourceHeaderIdAtBestTarget := some (requiredHeaderId targetBatchTransaction) }
      | none => l.raceState
    let bestAtSource := strategy.bestAtSource l.strategy
    match selectNoncesToDeliver strategy l.strategy expectedRaceState with
    | some noncesToDeliver => .ok { l with sourceGenerateProof := some noncesToDeliver }
    | none =>
        if l.sourceNoncesRequired && bestAtSource.isSome then
          match l.raceState.bestFinalizedSourceHeaderIdAtSource, bestAtSource with
          | some atBlock, some bestAtSource => .ok { l with sourceNonces := some (atBlock, bestAtSource) }
          -- `expect`: "source_nonces_required is only true when ... is Some"
          | _, _ => .error .panicked
        else .ok { l with sourceClientIsOnline := true }
  else .ok l

/-- The target part after the `select!`: a free target submits a ready
    proof, asks for the source header the strategy needs, or reads its best
    or finalized nonces if a new state asks for them. -/
def RaceLoop.scheduleTarget (l : RaceLoop σ SH TH Pr PP BT) : Except RaceExit (RaceLoop σ SH TH Pr PP BT) :=
  if l.targetClientIsOnline then
    let l := { l with targetClientIsOnline := false }
    match l.raceState.noncesToSubmit with
    | some (atBlock, noncesRange, proof) =>
        .ok { l with
          targetSubmitProof := some (l.targetBatchTransaction, atBlock, noncesRange, proof)
          targetBatchTransaction := none }
    | none =>
        match l.sourceRequiredHeader with
        | some sourceRequiredHeader => .ok { l with targetRequireSourceHeader := some sourceRequiredHeader }
        | none =>
            if l.targetBestNoncesRequired then
              match l.raceState.bestTargetHeaderId with
              | some atBlock => .ok { l with targetBestNonces := some atBlock }
              -- `expect`: "target_best_nonces_required is only true when ... is Some"
              | none => .error .panicked
            else if l.targetFinalizedNoncesRequired then
              match l.raceState.bestFinalizedTargetHeaderId with
              | some atBlock => .ok { l with targetFinalizedNonces := some atBlock }
              -- `expect`: "target_finalized_nonces_required is only true when ... is Some"
              | none => .error .panicked
            else .ok { l with targetClientIsOnline := true }
  else .ok l

/-- One pass of the loop: the branch, then the source's and the target's
    next calls.  A branch that cannot be taken leaves the state. -/
def RaceLoop.step (l : RaceLoop σ SH TH Pr PP BT) (e : RaceEvent SH TH Pr N TND BT CE) :
    Except RaceExit (RaceLoop σ SH TH Pr PP BT) :=
  match l.branch strategy isConnectionError e with
  | none => .ok l
  | some afterBranch => do
      let l ← afterBranch
      let l ← l.scheduleSource strategy requiredHeaderId
      l.scheduleTarget

/-- The passes of the loop over a list of branches, until it ends. -/
def RaceLoop.run (l : RaceLoop σ SH TH Pr PP BT) :
    List (RaceEvent SH TH Pr N TND BT CE) → Except RaceExit (RaceLoop σ SH TH Pr PP BT)
  | [] => .ok l
  | e :: es =>
      match l.step strategy isConnectionError requiredHeaderId e with
      | .ok l => l.run es
      | .error exit => .error exit

end Loop

/-! ## The strategies of the races -/

namespace BasicStrategy

variable [NoncesRange N]

/-- `required_source_header_at_target`: the header the last queued range
    was read at, if the target has not yet the source header it needs. -/
def requiredSourceHeaderAtTarget (s : BasicStrategy SH N) (currentBest : ℕ × SH) : Option (ℕ × SH) :=
  s.sourceQueue.getLast?.bind fun e => if e.1.1 > currentBest.1 then some e.1 else none

/-- `BasicStrategy` as a `RaceStrategy`: the receiving race's strategy. -/
def raceStrategy : RaceStrategy (BasicStrategy SH N) SH TH Pr N Unit Unit :=
  ⟨requiredSourceHeaderAtTarget, bestAtSource, sourceNoncesUpdated,
    fun s nonces raceState => s.bestTargetNoncesUpdated nonces raceState,
    fun s nonces raceState => (s.finalizedTargetNoncesUpdated nonces, raceState),
    selectNoncesToDeliver⟩

end BasicStrategy

namespace MessageDeliveryStrategy

variable {B : Type}

/-- `required_source_header_at_target` of the delivery race: the newer of
    the headers the queued messages and the latest confirmations need, once
    there are messages to deliver. -/
def requiredSourceHeaderAtTarget (d : MessageDeliveryStrategy SH B) (currentBest : ℕ × SH) :
    Option (ℕ × SH) :=
  let hasNoncesToDeliver := !d.strategy.sourceQueue.isEmpty
  let headerRequiredForMessagesDelivery := d.strategy.requiredSourceHeaderAtTarget currentBest
  let headerRequiredForRewardConfirmationsDelivery :=
    (d.latestConfirmedNoncesAtSource.getLast?.filter fun e =>
      decide (e.2 ≠ 0) && decide (e.1.1 > currentBest.1)).map (·.1)
  match hasNoncesToDeliver, headerRequiredForMessagesDelivery,
      headerRequiredForRewardConfirmationsDelivery with
  | true, some id1, some id2 => some (if id1.1 > id2.1 then id1 else id2)
  | true, a, b => a.or b
  -- no delivery transaction goes without messages
  | false, _, _ => none

/-- `MessageDeliveryStrategy` as a `RaceStrategy`: the delivery race's
    strategy. -/
def raceStrategy : RaceStrategy (MessageDeliveryStrategy SH B) SH TH Pr (MessageDetailsMap B)
    MessageProofParameters DeliveryRaceTargetNoncesData :=
  ⟨requiredSourceHeaderAtTarget, fun d => d.strategy.bestAtSource, sourceNoncesUpdated,
    bestTargetNoncesUpdated,
    fun d nonces raceState => (d.finalizedTargetNoncesUpdated nonces raceState, raceState),
    selectNoncesToDeliver⟩

end MessageDeliveryStrategy

end MessageRace

end ParityBridge
