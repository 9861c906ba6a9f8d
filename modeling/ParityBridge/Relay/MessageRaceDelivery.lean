import ParityBridge.Messages.OutboundLane

/-! # The message delivery race — `MessageDeliveryStrategy` over `BasicStrategy`

    The relayer delivers messages of a lane in batches.  `BasicStrategy`
    keeps the queue of nonce ranges the source client reported, each with
    the source header it was read at, and the best nonce the target has
    received; `MessageDeliveryStrategy` adds the confirmed nonces the source
    reported, the nonces the target reported last (with its unrewarded
    relayer summary), and the limits of the target's inbound lane as the
    relayer is configured with them.  `select_nonces_to_deliver` picks the
    next batch: it waits while the target holds too many unconfirmed
    messages, or a full relayer queue that the batch cannot prove rewards
    for, and otherwise lets `MessageRaceLimits::decide` cut the ready nonces
    at the count, weight and size limits.

    `BasicStrategy` is generic over its `NoncesRange`: the delivery race
    queues `MessageDetailsMap`s, the receiving race `RangeInclusive`s.  A
    `MessageDetailsMap` (a `BTreeMap` from nonces) is its entries in
    increasing order of nonce, which it carries as a field.  Message sizes
    (`u32`) and weights (`u64` components) are naturals, as in
    `Messages.OutboundLane`: their `checked_add` and `saturating_add` are
    additions.  The clients, which the strategy only passes on, and the
    metrics are left out.

    `MessageRaceLimits::decide` takes a `nonces_queue_range`; its one
    caller, `select_nonces_to_deliver`, always passes
    `0..maximal_source_queue_index + 1`, so the model fixes the range's
    start at `0` and takes its end as `queueEnd`.  On an empty queue the
    Rust indexes `nonces_queue[0]` and panics; the model reads the begin
    nonce as `0` there and, no nonce being ready, returns `none`.  The
    caller never reaches that case: `maximal_available_source_queue_index`
    is `None` on an empty queue. -/

namespace ParityBridge

/-- `Weight::all_lte`: both components at most those of the other. -/
def Weight.allLte (a b : Weight) : Bool :=
  decide (a.refTime ≤ b.refTime) && decide (a.proofSize ≤ b.proofSize)

namespace MessageRace

/-- `MessageDetails`: the dispatch weight, the size and the reward of a
    message. -/
structure MessageDetails (B : Type) where
  dispatchWeight : Weight
  size : ℕ
  reward : B
deriving DecidableEq, Repr

/-- `NoncesRange`: a range of nonces the source reports, its first and last
    nonce, and what is left of it above a nonce. -/
class NoncesRange (N : Type) where
  begin : N → ℕ
  «end» : N → ℕ
  greaterThan : N → ℕ → Option N

/-- `RangeInclusive<MessageNonce>`, the ranges of the receiving race. -/
structure RangeInclusive where
  start : ℕ
  «end» : ℕ
deriving DecidableEq, Repr

/-- `NoncesRange::greater_than` for `RangeInclusive`: the nonces above
    `nonce`, if any. -/
def RangeInclusive.greaterThan (r : RangeInclusive) (nonce : ℕ) : Option RangeInclusive :=
  let nextNonce := nonce + 1
  let «end» := r.end
  if nextNonce > «end» then none
  else some ⟨max r.start nextNonce, «end»⟩

instance : NoncesRange RangeInclusive :=
  ⟨RangeInclusive.start, RangeInclusive.end, RangeInclusive.greaterThan⟩

/-- `MessageDetailsMap`: the messages of a range, by increasing nonce. -/
structure MessageDetailsMap (B : Type) where
  entries : List (ℕ × MessageDetails B)
  sorted : (entries.map Prod.fst).Pairwise (· < ·)

variable {SH TH Pr B : Type}

namespace MessageDetailsMap

/-- `NoncesRange::begin`: the first nonce, `0` for an empty map. -/
def begin (m : MessageDetailsMap B) : ℕ :=
  (m.entries.head?.map Prod.fst).getD 0

/-- `NoncesRange::end`: the last nonce, `0` for an empty map. -/
def «end» (m : MessageDetailsMap B) : ℕ :=
  (m.entries.getLast?.map Prod.fst).getD 0

/-- `NoncesRange::greater_than`: the messages after `nonce`, if any. -/
def greaterThan (m : MessageDetailsMap B) (nonce : ℕ) : Option (MessageDetailsMap B) :=
  let gte := m.entries.filter fun e => nonce + 1 ≤ e.1
  if gte = [] then none
  else some ⟨gte, m.sorted.sublist ((List.filter_sublist).map Prod.fst)⟩

end MessageDetailsMap

instance : NoncesRange (MessageDetailsMap B) :=
  ⟨MessageDetailsMap.begin, MessageDetailsMap.end, MessageDetailsMap.greaterThan⟩

/-- `RaceState`: the headers both clients have seen last, and the nonces
    selected for and submitted in a transaction.  A `RangeInclusive` is its
    two ends. -/
structure RaceState (SH TH Pr : Type) where
  bestFinalizedSourceHeaderIdAtSource : Option (ℕ × SH)
  bestFinalizedSourceHeaderIdAtBestTarget : Option (ℕ × SH)
  bestTargetHeaderId : Option (ℕ × TH)
  bestFinalizedTargetHeaderId : Option (ℕ × TH)
  noncesToSubmit : Option ((ℕ × SH) × (ℕ × ℕ) × Pr)
  noncesSubmitted : Option (ℕ × ℕ)

/-- `SourceClientNonces`: the new nonces the source reports, and its
    confirmed nonce. -/
structure SourceClientNonces (N : Type) where
  newNonces : N
  confirmedNonce : Option ℕ

/-- `TargetClientNonces`: the latest nonce the target received, and the
    race's data from the target. -/
structure TargetClientNonces (D : Type) where
  latestNonce : ℕ
  noncesData : D
deriving DecidableEq, Repr

/-! ## `BasicStrategy` -/

/-- `BasicStrategy`: the queue of source ranges, front first, each with the
    source header it was read at, and the best nonce at the target. -/
structure BasicStrategy (SH N : Type) where
  sourceQueue : List ((ℕ × SH) × N)
  bestTargetNonce : Option ℕ

namespace BasicStrategy

variable {N : Type} [NoncesRange N]

/-- `BasicStrategy::new`. -/
def new : BasicStrategy SH N := ⟨[], none⟩

/-- `maximal_available_source_queue_index`: the last queued range read at a
    source header the target has finalized, when nothing is being
    submitted. -/
def maximalAvailableSourceQueueIndex (s : BasicStrategy SH N) (raceState : RaceState SH TH Pr) :
    Option ℕ := do
  let _ ← s.bestTargetNonce
  if raceState.noncesToSubmit.isSome then none
  else if raceState.noncesSubmitted.isSome then none
  else
    let bestHeaderAtTarget ← raceState.bestFinalizedSourceHeaderIdAtBestTarget
    match (s.sourceQueue.takeWhile fun e => e.1.1 ≤ bestHeaderAtTarget.1).length with
    | 0 => none
    | index + 1 => some index

/-- The loop of `remove_le_nonces_from_source_queue`: pop ranges until one
    has a nonce above `nonce`, and requeue what is above. -/
def removeLeNonces (nonce : ℕ) : List ((ℕ × SH) × N) → List ((ℕ × SH) × N)
  | [] => []
  | (queuedAt, queuedRange) :: rest =>
      match NoncesRange.greaterThan queuedRange nonce with
      | some rangeToRequeue => (queuedAt, rangeToRequeue) :: rest
      | none => removeLeNonces nonce rest

/-- The loop of `best_target_nonces_updated`: while the front range begins at
    or below `nonce`, drop it, keeping what is above `nonce`. -/
def dropDelivered (nonce : ℕ) : List ((ℕ × SH) × N) → List ((ℕ × SH) × N)
  | [] => []
  | (atBlock, range) :: rest =>
      if NoncesRange.begin range ≤ nonce then
        match NoncesRange.greaterThan range nonce with
        | some subrange => (atBlock, subrange) :: rest
        | none => dropDelivered nonce rest
      else (atBlock, range) :: rest

/-- `best_at_source`. -/
def bestAtSource (s : BasicStrategy SH N) : Option ℕ :=
  match s.sourceQueue.getLast?.map (NoncesRange.end ·.2), s.bestTargetNonce with
  | some bestInQueue, some bestTargetNonce =>
      if bestInQueue > bestTargetNonce then some bestInQueue else some bestTargetNonce
  | _, some bestTargetNonce => some bestTargetNonce
  | _, none => none

/-- `source_nonces_updated`: queue the new nonces above the best known one. -/
def sourceNoncesUpdated (s : BasicStrategy SH N) (atBlock : ℕ × SH)
    (nonces : SourceClientNonces N) : BasicStrategy SH N :=
  let bestInQueue :=
    ((s.sourceQueue.getLast?.map (NoncesRange.end ·.2)).or s.bestTargetNonce).getD 0
  { s with
    sourceQueue := s.sourceQueue ++
      ((NoncesRange.greaterThan nonces.newNonces bestInQueue).toList.map
        fun range => (atBlock, range)) }

/-- `best_target_nonces_updated`: drop the delivered nonces, forget a
    selected or submitted range the target has received, and raise the best
    target nonce. -/
def bestTargetNoncesUpdated (s : BasicStrategy SH N) (nonces : TargetClientNonces Unit)
    (raceState : RaceState SH TH Pr) : BasicStrategy SH N × RaceState SH TH Pr :=
  let nonce := nonces.latestNonce
  if s.bestTargetNonce.any (nonce < ·) then (s, raceState)
  else
    let needToSelectNewNonces := (raceState.noncesToSubmit.map fun n => decide (n.2.1.2 ≤ nonce)).getD false
    let needNewNoncesToSubmit := (raceState.noncesSubmitted.map fun n => decide (n.2 ≤ nonce)).getD false
    (⟨dropDelivered nonce s.sourceQueue,
        some (max (s.bestTargetNonce.getD nonces.latestNonce) nonce)⟩,
      { raceState with
        noncesToSubmit := if needToSelectNewNonces then none else raceState.noncesToSubmit
        noncesSubmitted := if needNewNoncesToSubmit then none else raceState.noncesSubmitted })

/-- `finalized_target_nonces_updated`. -/
def finalizedTargetNoncesUpdated (s : BasicStrategy SH N) (nonces : TargetClientNonces Unit) :
    BasicStrategy SH N :=
  ⟨removeLeNonces nonces.latestNonce s.sourceQueue,
    some (max (s.bestTargetNonce.getD nonces.latestNonce) nonces.latestNonce)⟩

/-- `select_nonces_to_deliver` of the basic strategy: from the first nonce of
    the front range to the last nonce of the last range the target may be
    sent.  Indexing the queue panics out of range; the index is always in
    it, and a read out of range answers `none` here. -/
def selectNoncesToDeliver (s : BasicStrategy SH N) (raceState : RaceState SH TH Pr) :
    Option ((ℕ × ℕ) × Unit) := do
  let maximalSourceQueueIndex ← s.maximalAvailableSourceQueueIndex raceState
  let first ← s.sourceQueue[0]?
  let last ← s.sourceQueue[maximalSourceQueueIndex]?
  some ((NoncesRange.begin first.2, NoncesRange.end last.2), ())

/-- The calls the race loop makes on a basic strategy, with their
    arguments; a target update is given the race state of the moment. -/
inductive Update (SH TH Pr N : Type) where
  | sourceNoncesUpdated (atBlock : ℕ × SH) (nonces : SourceClientNonces N)
  | bestTargetNoncesUpdated (nonces : TargetClientNonces Unit) (raceState : RaceState SH TH Pr)
  | finalizedTargetNoncesUpdated (nonces : TargetClientNonces Unit)

/-- One update of the basic strategy. -/
def update (s : BasicStrategy SH N) : Update SH TH Pr N → BasicStrategy SH N
  | .sourceNoncesUpdated atBlock nonces => s.sourceNoncesUpdated atBlock nonces
  | .bestTargetNoncesUpdated nonces raceState => (s.bestTargetNoncesUpdated nonces raceState).1
  | .finalizedTargetNoncesUpdated nonces => s.finalizedTargetNoncesUpdated nonces

end BasicStrategy

/-! ## `MessageRaceLimits::decide` -/

namespace MessageRaceLimits

/-- The loop of `MessageRaceLimits::decide` over the ready nonces with their
    indices: a message is taken while the batch stays within the weight and
    the size limit (the first message is taken whatever its weight and
    size) and within the count; the result is `hard_selected_count`. -/
def decideLoop (maxMessagesInThisBatch : ℕ) (maxMessagesWeightInSingleBatch : Weight)
    (maxMessagesSizeInSingleBatch : ℕ) :
    Weight → ℕ → ℕ → ℕ → List (ℕ × ℕ × MessageDetails B) → ℕ
  | _, _, _, hardSelectedCount, [] => hardSelectedCount
  | selectedWeight, selectedSize, selectedCount, hardSelectedCount,
      (index, _, details) :: rest =>
      let newSelectedWeight := selectedWeight + details.dispatchWeight
      let newSelectedSize := selectedSize + details.size
      if ¬ (newSelectedWeight.allLte maxMessagesWeightInSingleBatch || selectedCount = 0) then
        hardSelectedCount
      else if ¬ (newSelectedSize ≤ maxMessagesSizeInSingleBatch || selectedCount = 0) then
        hardSelectedCount
      else if selectedCount + 1 > maxMessagesInThisBatch then hardSelectedCount
      else
        decideLoop maxMessagesInThisBatch maxMessagesWeightInSingleBatch
          maxMessagesSizeInSingleBatch newSelectedWeight newSelectedSize (selectedCount + 1)
          (index + 1) rest

/-- `MessageRaceLimits::decide` over the first `queueEnd` ranges of the
    queue (`nonces_queue_range = 0..queueEnd`): the last nonce of the
    batch.  An empty queue, where the Rust panics, gives `none`. -/
def decide (maxMessagesInThisBatch : ℕ) (maxMessagesWeightInSingleBatch : Weight)
    (maxMessagesSizeInSingleBatch : ℕ) (noncesQueue : List ((ℕ × SH) × MessageDetailsMap B))
    (queueEnd : ℕ) : Option ℕ :=
  let hardSelectedBeginNonce := ((noncesQueue.head?.map (·.2.begin))).getD 0
  let allReadyNonces := ((noncesQueue.take queueEnd).flatMap (·.2.entries)).zipIdx.map
    fun e => (e.2, e.1)
  let hardSelectedCount := decideLoop maxMessagesInThisBatch maxMessagesWeightInSingleBatch
    maxMessagesSizeInSingleBatch Weight.zero 0 0 0 allReadyNonces
  if hardSelectedCount ≠ 0 then some (hardSelectedBeginNonce + hardSelectedCount - 1) else none

end MessageRaceLimits

/-! ## `MessageDeliveryStrategy` -/

/-- `DeliveryRaceTargetNoncesData`: the nonce the target knows confirmed,
    and its unrewarded relayers. -/
structure DeliveryRaceTargetNoncesData where
  confirmedNonce : ℕ
  unrewardedRelayers : UnrewardedRelayersState
deriving DecidableEq, Repr

/-- `MessageProofParameters`. -/
structure MessageProofParameters where
  outboundStateProofRequired : Bool
  dispatchWeight : Weight
deriving DecidableEq, Repr

/-- `MessageDeliveryStrategy`, its clients and metrics left out. -/
structure MessageDeliveryStrategy (SH B : Type) where
  maxUnrewardedRelayerEntriesAtTarget : ℕ
  maxUnconfirmedNoncesAtTarget : ℕ
  maxMessagesInSingleBatch : ℕ
  maxMessagesWeightInSingleBatch : Weight
  maxMessagesSizeInSingleBatch : ℕ
  latestConfirmedNoncesAtSource : List ((ℕ × SH) × ℕ)
  targetNonces : Option (TargetClientNonces DeliveryRaceTargetNoncesData)
  strategy : BasicStrategy SH (MessageDetailsMap B)

namespace MessageDeliveryStrategy

/-- The strategy `run` starts the race with. -/
def new (maxUnrewardedRelayerEntriesAtTarget maxUnconfirmedNoncesAtTarget
    maxMessagesInSingleBatch : ℕ) (maxMessagesWeightInSingleBatch : Weight)
    (maxMessagesSizeInSingleBatch : ℕ) : MessageDeliveryStrategy SH B :=
  ⟨maxUnrewardedRelayerEntriesAtTarget, maxUnconfirmedNoncesAtTarget, maxMessagesInSingleBatch,
    maxMessagesWeightInSingleBatch, maxMessagesSizeInSingleBatch, [], none, .new⟩

/-- `dispatch_weight_for_range`: the total dispatch weight of the queued
    messages in the range. -/
def dispatchWeightForRange (d : MessageDeliveryStrategy SH B) (range : ℕ × ℕ) : Weight :=
  ((d.strategy.sourceQueue.flatMap (·.2.entries)).filter
    fun e => range.1 ≤ e.1 ∧ e.1 ≤ range.2).foldl (fun total e => total + e.2.dispatchWeight)
    Weight.zero

/-- `source_nonces_updated`: remember a changed confirmed nonce with the
    header it was read at, and queue the new nonces. -/
def sourceNoncesUpdated (d : MessageDeliveryStrategy SH B) (atBlock : ℕ × SH)
    (nonces : SourceClientNonces (MessageDetailsMap B)) : MessageDeliveryStrategy SH B :=
  let latestConfirmedNoncesAtSource :=
    match nonces.confirmedNonce with
    | some confirmedNonce =>
        let isConfirmedNonceUpdated :=
          (d.latestConfirmedNoncesAtSource.getLast?.map fun e => decide (e.2 ≠ confirmedNonce)).getD
            true
        if isConfirmedNonceUpdated then
          d.latestConfirmedNoncesAtSource ++ [(atBlock, confirmedNonce)]
        else d.latestConfirmedNoncesAtSource
    | none => d.latestConfirmedNoncesAtSource
  { d with
    latestConfirmedNoncesAtSource := latestConfirmedNoncesAtSource
    strategy := d.strategy.sourceNoncesUpdated atBlock nonces }

/-- `best_target_nonces_updated`: take the target's data, keep the larger
    latest nonce, and update the basic strategy. -/
def bestTargetNoncesUpdated (d : MessageDeliveryStrategy SH B)
    (nonces : TargetClientNonces DeliveryRaceTargetNoncesData) (raceState : RaceState SH TH Pr) :
    MessageDeliveryStrategy SH B × RaceState SH TH Pr :=
  let targetNonces := d.targetNonces.getD nonces
  let targetNonces : TargetClientNonces DeliveryRaceTargetNoncesData :=
    ⟨max targetNonces.latestNonce nonces.latestNonce, nonces.noncesData⟩
  let out := d.strategy.bestTargetNoncesUpdated ⟨nonces.latestNonce, ()⟩ raceState
  ({ d with targetNonces := some targetNonces, strategy := out.1 }, out.2)

/-- `finalized_target_nonces_updated`: forget the confirmed nonces read at
    source headers older than the one the target has finalized, raise the
    target's latest nonce, and update the basic strategy. -/
def finalizedTargetNoncesUpdated (d : MessageDeliveryStrategy SH B)
    (nonces : TargetClientNonces DeliveryRaceTargetNoncesData) (raceState : RaceState SH TH Pr) :
    MessageDeliveryStrategy SH B :=
  let latestConfirmedNoncesAtSource :=
    match raceState.bestFinalizedSourceHeaderIdAtBestTarget with
    | some bestFinalized =>
        d.latestConfirmedNoncesAtSource.dropWhile fun e => e.1.1 < bestFinalized.1
    | none => d.latestConfirmedNoncesAtSource
  { d with
    latestConfirmedNoncesAtSource := latestConfirmedNoncesAtSource
    targetNonces := d.targetNonces.map fun t => { t with latestNonce := max t.latestNonce nonces.latestNonce }
    strategy := d.strategy.finalizedTargetNoncesUpdated ⟨nonces.latestNonce, ()⟩ }

/-- `select_nonces_to_deliver`: the next batch, and whether its proof
    carries the source's outbound lane state. -/
def selectNoncesToDeliver (d : MessageDeliveryStrategy SH B) (raceState : RaceState SH TH Pr) :
    Option ((ℕ × ℕ) × MessageProofParameters) := do
  let bestFinalizedSourceHeaderIdAtBestTarget ← raceState.bestFinalizedSourceHeaderIdAtBestTarget
  let latestConfirmedNonceAtSource ← ((d.latestConfirmedNoncesAtSource.takeWhile
    fun e => e.1.1 ≤ bestFinalizedSourceHeaderIdAtBestTarget.1).getLast?.map (·.2))
  let targetNonces ← d.targetNonces
  let latestReceivedNonceAtTarget := targetNonces.latestNonce
  -- too many unconfirmed messages at the target: wait for the confirmations
  if latestConfirmedNonceAtSource ≤ latestReceivedNonceAtTarget ∧
      latestReceivedNonceAtTarget - latestConfirmedNonceAtSource ≥
        d.maxUnconfirmedNoncesAtTarget then none
  else
    let latestConfirmedNonceAtTarget := targetNonces.noncesData.confirmedNonce
    let outboundStateProofRequired := latestConfirmedNonceAtTarget < latestConfirmedNonceAtSource
    let unrewardedRelayerEntriesLimitReached :=
      targetNonces.noncesData.unrewardedRelayers.unrewardedRelayerEntries ≥
        d.maxUnrewardedRelayerEntriesAtTarget
    -- a full relayer queue, and not enough rewards proved to free its oldest entry
    if unrewardedRelayerEntriesLimitReached ∧
        latestConfirmedNonceAtSource - latestConfirmedNonceAtTarget <
          targetNonces.noncesData.unrewardedRelayers.messagesInOldestEntry then none
    else
      let futureConfirmedNonceAtTarget :=
        if outboundStateProofRequired then latestConfirmedNonceAtSource
        else latestConfirmedNonceAtTarget
      -- `checked_sub` twice, `unwrap_or_default`
      let maxNonces :=
        if futureConfirmedNonceAtTarget ≤ latestReceivedNonceAtTarget ∧
            latestReceivedNonceAtTarget - futureConfirmedNonceAtTarget ≤
              d.maxUnconfirmedNoncesAtTarget then
          d.maxUnconfirmedNoncesAtTarget -
            (latestReceivedNonceAtTarget - futureConfirmedNonceAtTarget)
        else 0
      let maxNonces := min maxNonces d.maxMessagesInSingleBatch
      let maximalSourceQueueIndex ← d.strategy.maximalAvailableSourceQueueIndex raceState
      let sourceQueue := d.strategy.sourceQueue
      let rangeEnd ← MessageRaceLimits.decide maxNonces d.maxMessagesWeightInSingleBatch
        d.maxMessagesSizeInSingleBatch sourceQueue (maximalSourceQueueIndex + 1)
      let rangeBegin := ((sourceQueue.head?.map (·.2.begin))).getD 0
      let selectedNonces := (rangeBegin, rangeEnd)
      some (selectedNonces, ⟨outboundStateProofRequired, d.dispatchWeightForRange selectedNonces⟩)

end MessageDeliveryStrategy

/-- The calls the race loop makes on the strategy between two selections,
    with their arguments; the target updates are given the race state of
    the moment. -/
inductive StrategyUpdate (SH TH Pr B : Type) where
  | sourceNoncesUpdated (atBlock : ℕ × SH) (nonces : SourceClientNonces (MessageDetailsMap B))
  | bestTargetNoncesUpdated (nonces : TargetClientNonces DeliveryRaceTargetNoncesData)
      (raceState : RaceState SH TH Pr)
  | finalizedTargetNoncesUpdated (nonces : TargetClientNonces DeliveryRaceTargetNoncesData)
      (raceState : RaceState SH TH Pr)

/-- One update of the strategy. -/
def MessageDeliveryStrategy.update (d : MessageDeliveryStrategy SH B) :
    StrategyUpdate SH TH Pr B → MessageDeliveryStrategy SH B
  | .sourceNoncesUpdated atBlock nonces => d.sourceNoncesUpdated atBlock nonces
  | .bestTargetNoncesUpdated nonces raceState => (d.bestTargetNoncesUpdated nonces raceState).1
  | .finalizedTargetNoncesUpdated nonces raceState => d.finalizedTargetNoncesUpdated nonces raceState

end MessageRace

end ParityBridge
