import ParityBridge.Relay.MessageRaceLoop
import ParityBridge.Lib.Exclusive

/-! # The message race loop — one call per client, and no `expect` that fails

    Two properties of `run` over any order in which its futures end and
    whatever its clients answer.

    The route:

    * each client's flag, call futures and offline timer hold one token
      (`OneCallPerClient`): the call that ends frees the client or starts
      its timer, the timer frees it, the other branches leave the client
      alone (`OneCallPerClient.branch`), and a free client given a call
      hands it the token (`OneCallPerClient.scheduleSource`,
      `OneCallPerClient.scheduleTarget`); so every state the loop reaches
      has each client free or with exactly one call in flight, and no set
      future is ever replaced (`race_loop_one_call_per_client`);
    * a flag that asks a client to read its nonces is raised together with
      the header to read them at, and a strategy that leaves those headers
      alone keeps them (`Expectations`); so the three `expect`s of the loop
      never fail, and the loop only ends with a failed client
      (`race_loop_never_panics`). -/

namespace ParityBridge

namespace MessageRace

open ParachainsLoop ClientToken

variable {σ SH TH Pr N PP TND BT CE : Type}

/-! ## The results of the calls -/

theorem except_map_eq_ok {ε α β : Type} {f : α → β} {x : Except ε α} {b : β}
    (h : Except.map f x = .ok b) : ∃ a, x = .ok a ∧ f a = b := by
  cases x with
  | error e => cases h
  | ok a =>
      injection h with h
      exact ⟨a, rfl, h⟩

theorem except_map_eq_error {ε α β : Type} {f : α → β} {x : Except ε α} {e : ε}
    (h : Except.map f x = .error e) : x = .error e := by
  cases x with
  | error e' =>
      injection h with h
      rw [h]
  | ok a => cases h

/-- A call that does not end the race frees the client exactly when it
    succeeded: its timer starts on a failure. -/
theorem failIfConnectionError_eq_ok {result : ProcessFutureResult} {failedClient : FailedClient}
    {online : Bool} (h : result.failIfConnectionError failedClient = .ok online) :
    (result != .success) = !online := by
  cases result with
  | success =>
      cases h
      rfl
  | failed =>
      cases h
      rfl
  | connectionFailed => cases h

/-- A call ends the race only with its client. -/
theorem failIfConnectionError_eq_error {result : ProcessFutureResult} {failedClient : FailedClient}
    {exit : RaceExit} (h : result.failIfConnectionError failedClient = .error exit) :
    exit = .failed failedClient := by
  cases result with
  | success => cases h
  | failed => cases h
  | connectionFailed =>
      cases h
      rfl

/-! ## One call per client -/

/-- The source client: free, or reading its nonces, or proving, or
    waiting on its timer, and exactly one of these. -/
def RaceLoop.SourceExclusive (l : RaceLoop σ SH TH Pr PP BT) : Prop :=
  Exclusive l.sourceClientIsOnline [l.sourceNonces.isSome, l.sourceGenerateProof.isSome] l.sourceGoOffline

/-- The target client: free, or asking for a source header, or reading
    its best or finalized nonces, or submitting a proof, or waiting on its
    timer, and exactly one of these. -/
def RaceLoop.TargetExclusive (l : RaceLoop σ SH TH Pr PP BT) : Prop :=
  Exclusive l.targetClientIsOnline
    [l.targetRequireSourceHeader.isSome, l.targetBestNonces.isSome, l.targetFinalizedNonces.isSome,
      l.targetSubmitProof.isSome] l.targetGoOffline

/-- Each client of the race is free, or has exactly one call in flight. -/
structure RaceLoop.OneCallPerClient (l : RaceLoop σ SH TH Pr PP BT) : Prop where
  source : l.SourceExclusive
  target : l.TargetExclusive

/-- `run` starts with both clients free. -/
theorem RaceLoop.init_oneCallPerClient (s : σ) :
    (RaceLoop.init s : RaceLoop σ SH TH Pr PP BT).OneCallPerClient :=
  ⟨rfl, rfl⟩

section Loop

variable {strategy : RaceStrategy σ SH TH Pr N PP TND} {isConnectionError : CE → Bool}
  {requiredHeaderId : BT → ℕ × SH}

theorem RaceLoop.OneCallPerClient.raceSourceUpdated [DecidableEq SH] {l : RaceLoop σ SH TH Pr PP BT}
    (hl : l.OneCallPerClient) (sourceState : Option (ℕ × SH)) :
    (l.raceSourceUpdated sourceState).OneCallPerClient := by
  cases sourceState with
  | none => exact hl
  | some bestFinalizedSelf =>
      simp only [RaceLoop.raceSourceUpdated]
      split_ifs
      · exact ⟨hl.source, hl.target⟩
      · exact hl

theorem RaceLoop.OneCallPerClient.raceTargetUpdated [DecidableEq TH] {l : RaceLoop σ SH TH Pr PP BT}
    (hl : l.OneCallPerClient) (targetState : Option ((ℕ × TH) × Option (ℕ × SH) × (ℕ × TH))) :
    (l.raceTargetUpdated targetState).OneCallPerClient := by
  cases targetState with
  | none => exact hl
  | some targetState =>
      obtain ⟨bestSelf, bestFinalizedPeerAtBestSelf, bestFinalizedSelf⟩ := targetState
      simp only [RaceLoop.raceTargetUpdated]
      split_ifs <;> exact ⟨hl.source, hl.target⟩

/-- **A BRANCH MOVES AT MOST ONE TOKEN.** The call whose future ends frees
    its client or starts its timer, a timer that ends frees its client,
    and every other branch leaves the clients' flags and futures alone. -/
theorem RaceLoop.OneCallPerClient.branch [DecidableEq SH] [DecidableEq TH] {l l' : RaceLoop σ SH TH Pr PP BT} (hl : l.OneCallPerClient)
    {e : RaceEvent SH TH Pr N TND BT CE}
    (h : l.branch strategy isConnectionError e = some (.ok l')) : l'.OneCallPerClient := by
  cases e with
  | raceSourceUpdated sourceState =>
      simp only [RaceLoop.branch, Option.some.injEq, Except.ok.injEq] at h
      subst h
      exact hl.raceSourceUpdated sourceState
  | raceTargetUpdated targetState =>
      simp only [RaceLoop.branch, Option.some.injEq, Except.ok.injEq] at h
      subst h
      exact hl.raceTargetUpdated targetState
  | sourceNonces result =>
      simp only [RaceLoop.branch] at h
      obtain ⟨call, hcall, hend⟩ := Option.map_eq_some_iff.mp h
      obtain ⟨online, hfail, rfl⟩ := except_map_eq_ok hend
      refine ⟨?_, hl.target⟩
      unfold RaceLoop.SourceExclusive
      dsimp only
      rw [failIfConnectionError_eq_ok hfail]
      exact hl.source.finish (i := 0) (by simp) (by simp [hcall]) online
  | targetBestNonces result =>
      simp only [RaceLoop.branch] at h
      obtain ⟨call, hcall, hend⟩ := Option.map_eq_some_iff.mp h
      obtain ⟨online, hfail, rfl⟩ := except_map_eq_ok hend
      refine ⟨hl.source, ?_⟩
      unfold RaceLoop.TargetExclusive
      dsimp only
      rw [failIfConnectionError_eq_ok hfail]
      exact hl.target.finish (i := 1) (by simp) (by simp [hcall]) online
  | targetFinalizedNonces result =>
      simp only [RaceLoop.branch] at h
      obtain ⟨call, hcall, hend⟩ := Option.map_eq_some_iff.mp h
      obtain ⟨online, hfail, rfl⟩ := except_map_eq_ok hend
      refine ⟨hl.source, ?_⟩
      unfold RaceLoop.TargetExclusive
      dsimp only
      rw [failIfConnectionError_eq_ok hfail]
      exact hl.target.finish (i := 2) (by simp) (by simp [hcall]) online
  | targetRequireSourceHeader result =>
      simp only [RaceLoop.branch] at h
      obtain ⟨call, hcall, hend⟩ := Option.map_eq_some_iff.mp h
      obtain ⟨online, hfail, rfl⟩ := except_map_eq_ok hend
      refine ⟨hl.source, ?_⟩
      unfold RaceLoop.TargetExclusive
      dsimp only
      rw [failIfConnectionError_eq_ok hfail]
      exact hl.target.finish (i := 0) (by simp) (by simp [hcall]) online
  | sourceGenerateProof result =>
      simp only [RaceLoop.branch] at h
      obtain ⟨call, hcall, hend⟩ := Option.map_eq_some_iff.mp h
      cases result with
      | error _ => cases hend
      | ok generated =>
          cases hend
          -- the proof is ready: the source is free again
          have hfree := hl.source.finish (i := 1) (by simp) (by simp [hcall]) true
          rw [Bool.not_true, Bool.or_false] at hfree
          exact ⟨hfree, hl.target⟩
  | targetSubmitProof result =>
      simp only [RaceLoop.branch] at h
      obtain ⟨call, hcall, hend⟩ := Option.map_eq_some_iff.mp h
      cases result with
      | error _ => cases hend
      | ok nonces =>
          cases hend
          -- the transaction is on its way: the target is free again
          have hfree := hl.target.finish (i := 3) (by simp) (by simp [hcall]) true
          rw [Bool.not_true, Bool.or_false] at hfree
          exact ⟨hl.source, hfree⟩
  | targetTxTracker status noncesAtTarget =>
      simp only [RaceLoop.branch] at h
      split_ifs at h
      -- the tracker is no call of the target's: only the submitted nonces change
      simp only [Option.some.injEq, Except.ok.injEq] at h
      subst h
      split
      · split
        · split
          · exact ⟨hl.source, hl.target⟩
          · exact ⟨hl.source, hl.target⟩
        · exact ⟨hl.source, hl.target⟩
      · exact ⟨hl.source, hl.target⟩
      · exact ⟨hl.source, hl.target⟩
  | sourceGoOffline =>
      simp only [RaceLoop.branch] at h
      split_ifs at h with hoffline
      simp only [Option.some.injEq, Except.ok.injEq] at h
      subst h
      have hsource : Exclusive l.sourceClientIsOnline [l.sourceNonces.isSome, l.sourceGenerateProof.isSome]
          true := hoffline ▸ hl.source
      exact ⟨hsource.wake, hl.target⟩
  | targetGoOffline =>
      simp only [RaceLoop.branch] at h
      split_ifs at h with hoffline
      simp only [Option.some.injEq, Except.ok.injEq] at h
      subst h
      have htarget : Exclusive l.targetClientIsOnline
          [l.targetRequireSourceHeader.isSome, l.targetBestNonces.isSome, l.targetFinalizedNonces.isSome,
            l.targetSubmitProof.isSome] true := hoffline ▸ hl.target
      exact ⟨hl.source, htarget.wake⟩

/-- **A FREE SOURCE TAKES ONE CALL.** The source's part after the branch
    gives a free source at most one call, and leaves a busy one alone. -/
theorem RaceLoop.OneCallPerClient.scheduleSource {l l' : RaceLoop σ SH TH Pr PP BT}
    (hl : l.OneCallPerClient) (h : l.scheduleSource strategy requiredHeaderId = .ok l') :
    l'.OneCallPerClient := by
  unfold RaceLoop.scheduleSource at h
  by_cases hon : l.sourceClientIsOnline = true
  · rw [if_pos hon] at h
    have hfree : Exclusive true [l.sourceNonces.isSome, l.sourceGenerateProof.isSome] l.sourceGoOffline :=
      hon ▸ hl.source
    dsimp only at h
    split at h
    · -- the source proves the selected nonces
      cases h
      exact ⟨hfree.call (j := 1) (by simp), hl.target⟩
    · split_ifs at h
      · split at h
        · -- the source reads its nonces
          cases h
          exact ⟨hfree.call (j := 0) (by simp), hl.target⟩
        · cases h
      · cases h
        exact ⟨hfree, hl.target⟩
  · rw [if_neg hon] at h
    cases h
    exact hl

/-- **A FREE TARGET TAKES ONE CALL.** The target's part after the branch
    gives a free target at most one call, and leaves a busy one alone. -/
theorem RaceLoop.OneCallPerClient.scheduleTarget {l l' : RaceLoop σ SH TH Pr PP BT}
    (hl : l.OneCallPerClient) (h : l.scheduleTarget = .ok l') : l'.OneCallPerClient := by
  unfold RaceLoop.scheduleTarget at h
  by_cases hon : l.targetClientIsOnline = true
  · rw [if_pos hon] at h
    have hfree : Exclusive true
        [l.targetRequireSourceHeader.isSome, l.targetBestNonces.isSome, l.targetFinalizedNonces.isSome,
          l.targetSubmitProof.isSome] l.targetGoOffline := hon ▸ hl.target
    dsimp only at h
    split at h
    · -- the target submits the ready proof
      cases h
      exact ⟨hl.source, hfree.call (j := 3) (by simp)⟩
    · split at h
      · -- the target asks for the source header the strategy needs
        cases h
        exact ⟨hl.source, hfree.call (j := 0) (by simp)⟩
      · split_ifs at h
        · split at h
          · cases h
            exact ⟨hl.source, hfree.call (j := 1) (by simp)⟩
          · cases h
        · split at h
          · cases h
            exact ⟨hl.source, hfree.call (j := 2) (by simp)⟩
          · cases h
        · cases h
          exact ⟨hl.source, hfree⟩
  · rw [if_neg hon] at h
    cases h
    exact hl

/-- One pass of the loop keeps one call per client. -/
theorem RaceLoop.OneCallPerClient.step [DecidableEq SH] [DecidableEq TH] {l l' : RaceLoop σ SH TH Pr PP BT} (hl : l.OneCallPerClient)
    {e : RaceEvent SH TH Pr N TND BT CE}
    (h : l.step strategy isConnectionError requiredHeaderId e = .ok l') : l'.OneCallPerClient := by
  unfold RaceLoop.step at h
  cases hb : l.branch strategy isConnectionError e with
  | none =>
      rw [hb] at h
      cases h
      exact hl
  | some afterBranch =>
      rw [hb] at h
      -- the branch, then the source's call, then the target's
      cases afterBranch with
      | error exit => cases h
      | ok l₁ =>
          cases hs : l₁.scheduleSource strategy requiredHeaderId with
          | error exit => simp [hs, bind, Except.bind] at h
          | ok l₂ =>
              have ht : l₂.scheduleTarget = .ok l' := by simpa [hs, bind, Except.bind] using h
              exact ((hl.branch hb).scheduleSource hs).scheduleTarget ht

/-- Over any passes, one call per client is kept. -/
theorem RaceLoop.OneCallPerClient.run [DecidableEq SH] [DecidableEq TH] :
    ∀ (events : List (RaceEvent SH TH Pr N TND BT CE)) (l l' : RaceLoop σ SH TH Pr PP BT),
      l.OneCallPerClient → l.run strategy isConnectionError requiredHeaderId events = .ok l' →
        l'.OneCallPerClient := by
  intro events
  induction events with
  | nil =>
      intro l l' hl h
      cases h
      exact hl
  | cons e events ih =>
      intro l l' hl h
      unfold RaceLoop.run at h
      cases hstep : l.step strategy isConnectionError requiredHeaderId e with
      | error exit =>
          rw [hstep] at h
          cases h
      | ok l₁ =>
          rw [hstep] at h
          exact ih l₁ l' (hl.step hstep) h

end Loop

/-- **ONE CALL PER CLIENT.** Whatever the strategy, the order in which the
    loop's futures end and the answers of its clients, every state `run`
    reaches has each client free or with exactly one call in flight: the
    loop never sets a client's future while another of its calls is in
    flight, which would drop that call. -/
theorem race_loop_one_call_per_client [DecidableEq SH] [DecidableEq TH]
    (strategy : RaceStrategy σ SH TH Pr N PP TND) (isConnectionError : CE → Bool)
    (requiredHeaderId : BT → ℕ × SH) (s : σ) (events : List (RaceEvent SH TH Pr N TND BT CE))
    {l' : RaceLoop σ SH TH Pr PP BT}
    (h : (RaceLoop.init s).run strategy isConnectionError requiredHeaderId events = .ok l') :
    l'.OneCallPerClient :=
  RaceLoop.OneCallPerClient.run events _ l' (RaceLoop.init_oneCallPerClient s) h

/-- A receiving race: the source's state, the target's, and the target's
    best nonces. -/
def receivingEvents : List (RaceEvent Unit Unit Unit RangeInclusive Unit Unit Unit) :=
  [.raceSourceUpdated (some (5, ())), .raceTargetUpdated (some ((7, ()), some (3, ()), (6, ()))),
    .targetBestNonces (.ok ((7, ()), ⟨0, ()⟩))]

/-- After them the source reads its nonces and the target its finalized
    nonces, one call each. -/
def afterThreePasses : RaceLoop (BasicStrategy Unit RangeInclusive) Unit Unit Unit Unit Unit :=
  { raceState := ⟨some (5, ()), some (3, ()), some (7, ()), some (6, ()), none, none⟩
    strategy := ⟨[], some 0⟩
    sourceClientIsOnline := false
    sourceNoncesRequired := true
    sourceRequiredHeader := none
    sourceNonces := some ((5, ()), 0)
    sourceGenerateProof := none
    sourceGoOffline := false
    targetClientIsOnline := false
    targetBestNoncesRequired := false
    targetFinalizedNoncesRequired := true
    targetBatchTransaction := none
    targetRequireSourceHeader := none
    targetBestNonces := none
    targetFinalizedNonces := some (6, ())
    targetSubmitProof := none
    targetTxTracker := false
    targetGoOffline := false }

theorem race_loop_one_call_per_client_on_receiving_race :
    (RaceLoop.init BasicStrategy.new).run BasicStrategy.raceStrategy (fun _ : Unit => true)
        (fun _ : Unit => ((0 : ℕ), ())) receivingEvents = .ok afterThreePasses ∧
      afterThreePasses.OneCallPerClient :=
  ⟨rfl, race_loop_one_call_per_client BasicStrategy.raceStrategy (fun _ : Unit => true)
    (fun _ : Unit => ((0 : ℕ), ())) BasicStrategy.new receivingEvents rfl⟩

/-! ## No `expect` that fails -/

/-- The headers the loop reads its clients' nonces at are the same in two
    race states. -/
structure RaceState.SameHeaders (raceState raceState' : RaceState SH TH Pr) : Prop where
  atSource : raceState'.bestFinalizedSourceHeaderIdAtSource = raceState.bestFinalizedSourceHeaderIdAtSource
  bestTarget : raceState'.bestTargetHeaderId = raceState.bestTargetHeaderId
  finalizedTarget : raceState'.bestFinalizedTargetHeaderId = raceState.bestFinalizedTargetHeaderId

/-- The strategy's target updates leave those headers of the race state
    alone. -/
structure RaceStrategy.KeepsHeaders (strategy : RaceStrategy σ SH TH Pr N PP TND) : Prop where
  best : ∀ s nonces raceState,
    RaceState.SameHeaders raceState (strategy.bestTargetNoncesUpdated s nonces raceState).2
  finalized : ∀ s nonces raceState,
    RaceState.SameHeaders raceState (strategy.finalizedTargetNoncesUpdated s nonces raceState).2

/-- What the three `expect`s of `run` rely on: a flag that asks a client
    to read its nonces comes with the header to read them at. -/
structure RaceLoop.Expectations (l : RaceLoop σ SH TH Pr PP BT) : Prop where
  source : l.sourceNoncesRequired = true → l.raceState.bestFinalizedSourceHeaderIdAtSource.isSome
  targetBest : l.targetBestNoncesRequired = true → l.raceState.bestTargetHeaderId.isSome
  targetFinalized : l.targetFinalizedNoncesRequired = true → l.raceState.bestFinalizedTargetHeaderId.isSome

theorem RaceLoop.init_expectations (s : σ) :
    (RaceLoop.init s : RaceLoop σ SH TH Pr PP BT).Expectations :=
  ⟨fun h => absurd h Bool.false_ne_true, fun h => absurd h Bool.false_ne_true, fun h => absurd h Bool.false_ne_true⟩

/-- Race states with the same headers keep the expectations of the same
    flags. -/
theorem RaceLoop.Expectations.of_sameHeaders {l : RaceLoop σ SH TH Pr PP BT} (hl : l.Expectations)
    {raceState : RaceState SH TH Pr} (hsame : RaceState.SameHeaders l.raceState raceState) :
    ({ l with raceState } : RaceLoop σ SH TH Pr PP BT).Expectations := by
  refine ⟨fun h => ?_, fun h => ?_, fun h => ?_⟩
  · show raceState.bestFinalizedSourceHeaderIdAtSource.isSome
    rw [hsame.atSource]
    exact hl.source h
  · show raceState.bestTargetHeaderId.isSome
    rw [hsame.bestTarget]
    exact hl.targetBest h
  · show raceState.bestFinalizedTargetHeaderId.isSome
    rw [hsame.finalizedTarget]
    exact hl.targetFinalized h

section Expect

variable {strategy : RaceStrategy σ SH TH Pr N PP TND} {isConnectionError : CE → Bool}
  {requiredHeaderId : BT → ℕ × SH}

/-- A branch ends the race only with a failed client. -/
theorem RaceLoop.branch_eq_error [DecidableEq SH] [DecidableEq TH] {l : RaceLoop σ SH TH Pr PP BT}
    {e : RaceEvent SH TH Pr N TND BT CE} {exit : RaceExit}
    (h : l.branch strategy isConnectionError e = some (.error exit)) : ∃ client, exit = .failed client := by
  cases e with
  | raceSourceUpdated _ => cases h
  | raceTargetUpdated _ => cases h
  | sourceNonces result =>
      obtain ⟨-, -, hend⟩ := Option.map_eq_some_iff.mp h
      exact ⟨_, failIfConnectionError_eq_error (except_map_eq_error hend)⟩
  | targetBestNonces result =>
      obtain ⟨-, -, hend⟩ := Option.map_eq_some_iff.mp h
      exact ⟨_, failIfConnectionError_eq_error (except_map_eq_error hend)⟩
  | targetFinalizedNonces result =>
      obtain ⟨-, -, hend⟩ := Option.map_eq_some_iff.mp h
      exact ⟨_, failIfConnectionError_eq_error (except_map_eq_error hend)⟩
  | targetRequireSourceHeader result =>
      obtain ⟨-, -, hend⟩ := Option.map_eq_some_iff.mp h
      exact ⟨_, failIfConnectionError_eq_error (except_map_eq_error hend)⟩
  | sourceGenerateProof result =>
      obtain ⟨-, -, hend⟩ := Option.map_eq_some_iff.mp h
      cases result with
      | error _ =>
          cases hend
          exact ⟨_, rfl⟩
      | ok _ => cases hend
  | targetSubmitProof result =>
      obtain ⟨-, -, hend⟩ := Option.map_eq_some_iff.mp h
      cases result with
      | error _ =>
          cases hend
          exact ⟨_, rfl⟩
      | ok _ => cases hend
  | targetTxTracker status noncesAtTarget =>
      simp only [RaceLoop.branch] at h
      split_ifs at h
      cases h
  | sourceGoOffline =>
      simp only [RaceLoop.branch] at h
      split_ifs at h
      cases h
  | targetGoOffline =>
      simp only [RaceLoop.branch] at h
      split_ifs at h
      cases h

/-- **EVERY BRANCH KEEPS THE EXPECTATIONS.** A flag is raised with its
    header, lowered when the read ends, and the strategy keeps the headers
    it is given. -/
theorem RaceLoop.Expectations.branch [DecidableEq SH] [DecidableEq TH] (hkeeps : strategy.KeepsHeaders)
    {l l' : RaceLoop σ SH TH Pr PP BT} (hl : l.Expectations) {e : RaceEvent SH TH Pr N TND BT CE}
    (h : l.branch strategy isConnectionError e = some (.ok l')) : l'.Expectations := by
  cases e with
  | raceSourceUpdated sourceState =>
      simp only [RaceLoop.branch, Option.some.injEq, Except.ok.injEq] at h
      subst h
      cases sourceState with
      | none => exact hl
      | some bestFinalizedSelf =>
          simp only [RaceLoop.raceSourceUpdated]
          split_ifs
          · -- the source's header is read with the flag that asks for its nonces
            exact ⟨fun _ => rfl, hl.targetBest, hl.targetFinalized⟩
          · exact hl
  | raceTargetUpdated targetState =>
      simp only [RaceLoop.branch, Option.some.injEq, Except.ok.injEq] at h
      subst h
      cases targetState with
      | none => exact hl
      | some targetState =>
          obtain ⟨bestSelf, bestFinalizedPeerAtBestSelf, bestFinalizedSelf⟩ := targetState
          simp only [RaceLoop.raceTargetUpdated]
          split_ifs
          · exact ⟨hl.source, fun _ => rfl, fun _ => rfl⟩
          · exact ⟨hl.source, fun _ => rfl, hl.targetFinalized⟩
          · exact ⟨hl.source, hl.targetBest, fun _ => rfl⟩
          · exact hl
  | sourceNonces result =>
      simp only [RaceLoop.branch] at h
      obtain ⟨-, -, hend⟩ := Option.map_eq_some_iff.mp h
      obtain ⟨online, -, rfl⟩ := except_map_eq_ok hend
      exact ⟨fun h => absurd h Bool.false_ne_true, hl.targetBest, hl.targetFinalized⟩
  | targetBestNonces result =>
      simp only [RaceLoop.branch] at h
      obtain ⟨-, -, hend⟩ := Option.map_eq_some_iff.mp h
      obtain ⟨online, -, rfl⟩ := except_map_eq_ok hend
      cases result with
      | ok answer =>
          obtain ⟨atBlock, nonces⟩ := answer
          -- the strategy's update keeps the headers
          have hkept := hl.of_sameHeaders (hkeeps.best l.strategy nonces l.raceState)
          exact ⟨hkept.source, fun h => absurd h Bool.false_ne_true, hkept.targetFinalized⟩
      | error _ => exact ⟨hl.source, fun h => absurd h Bool.false_ne_true, hl.targetFinalized⟩
  | targetFinalizedNonces result =>
      simp only [RaceLoop.branch] at h
      obtain ⟨-, -, hend⟩ := Option.map_eq_some_iff.mp h
      obtain ⟨online, -, rfl⟩ := except_map_eq_ok hend
      cases result with
      | ok answer =>
          obtain ⟨atBlock, nonces⟩ := answer
          have hkept := hl.of_sameHeaders (hkeeps.finalized l.strategy nonces l.raceState)
          exact ⟨hkept.source, hkept.targetBest, fun h => absurd h Bool.false_ne_true⟩
      | error _ => exact ⟨hl.source, hl.targetBest, fun h => absurd h Bool.false_ne_true⟩
  | targetRequireSourceHeader result =>
      simp only [RaceLoop.branch] at h
      obtain ⟨-, -, hend⟩ := Option.map_eq_some_iff.mp h
      obtain ⟨online, -, rfl⟩ := except_map_eq_ok hend
      exact ⟨hl.source, hl.targetBest, hl.targetFinalized⟩
  | sourceGenerateProof result =>
      simp only [RaceLoop.branch] at h
      obtain ⟨-, -, hend⟩ := Option.map_eq_some_iff.mp h
      cases result with
      | error _ => cases hend
      | ok generated =>
          cases hend
          exact ⟨hl.source, hl.targetBest, hl.targetFinalized⟩
  | targetSubmitProof result =>
      simp only [RaceLoop.branch] at h
      obtain ⟨-, -, hend⟩ := Option.map_eq_some_iff.mp h
      cases result with
      | error _ => cases hend
      | ok nonces =>
          cases hend
          exact ⟨hl.source, hl.targetBest, hl.targetFinalized⟩
  | targetTxTracker status noncesAtTarget =>
      simp only [RaceLoop.branch] at h
      split_ifs at h
      simp only [Option.some.injEq, Except.ok.injEq] at h
      subst h
      -- only the submitted nonces change
      split
      · split
        · split
          · exact ⟨hl.source, hl.targetBest, hl.targetFinalized⟩
          · exact ⟨hl.source, hl.targetBest, hl.targetFinalized⟩
        · exact ⟨hl.source, hl.targetBest, hl.targetFinalized⟩
      · exact ⟨hl.source, hl.targetBest, hl.targetFinalized⟩
      · exact ⟨hl.source, hl.targetBest, hl.targetFinalized⟩
  | sourceGoOffline =>
      simp only [RaceLoop.branch] at h
      split_ifs at h
      simp only [Option.some.injEq, Except.ok.injEq] at h
      subst h
      exact ⟨hl.source, hl.targetBest, hl.targetFinalized⟩
  | targetGoOffline =>
      simp only [RaceLoop.branch] at h
      split_ifs at h
      simp only [Option.some.injEq, Except.ok.injEq] at h
      subst h
      exact ⟨hl.source, hl.targetBest, hl.targetFinalized⟩

/-- **THE SOURCE'S `expect` HOLDS.** From a state that keeps the
    expectations, the source's part after the branch does not panic, and
    keeps them. -/
theorem RaceLoop.Expectations.scheduleSource {l : RaceLoop σ SH TH Pr PP BT} (hl : l.Expectations) :
    ∃ l', l.scheduleSource strategy requiredHeaderId = .ok l' ∧ l'.Expectations := by
  unfold RaceLoop.scheduleSource
  by_cases hon : l.sourceClientIsOnline = true
  · rw [if_pos hon]
    dsimp only
    split
    · exact ⟨_, rfl, hl.source, hl.targetBest, hl.targetFinalized⟩
    · split_ifs with hrequired
      · -- the flag comes with the source's header, and the strategy knows a nonce
        rw [Bool.and_eq_true] at hrequired
        obtain ⟨atBlock, hatBlock⟩ := Option.isSome_iff_exists.mp (hl.source hrequired.1)
        obtain ⟨best, hbest⟩ := Option.isSome_iff_exists.mp hrequired.2
        rw [hatBlock, hbest]
        exact ⟨_, rfl, hl.source, hl.targetBest, hl.targetFinalized⟩
      · exact ⟨_, rfl, hl.source, hl.targetBest, hl.targetFinalized⟩
  · rw [if_neg hon]
    exact ⟨l, rfl, hl⟩

/-- **THE TARGET'S `expect`s HOLD.** From a state that keeps the
    expectations, the target's part after the branch does not panic, and
    keeps them. -/
theorem RaceLoop.Expectations.scheduleTarget {l : RaceLoop σ SH TH Pr PP BT} (hl : l.Expectations) :
    ∃ l', l.scheduleTarget = .ok l' ∧ l'.Expectations := by
  unfold RaceLoop.scheduleTarget
  by_cases hon : l.targetClientIsOnline = true
  · rw [if_pos hon]
    dsimp only
    split
    · exact ⟨_, rfl, hl.source, hl.targetBest, hl.targetFinalized⟩
    · split
      · exact ⟨_, rfl, hl.source, hl.targetBest, hl.targetFinalized⟩
      · split_ifs with hbest hfinalized
        · obtain ⟨atBlock, hatBlock⟩ := Option.isSome_iff_exists.mp (hl.targetBest hbest)
          rw [hatBlock]
          exact ⟨_, rfl, hl.source, hl.targetBest, hl.targetFinalized⟩
        · obtain ⟨atBlock, hatBlock⟩ := Option.isSome_iff_exists.mp (hl.targetFinalized hfinalized)
          rw [hatBlock]
          exact ⟨_, rfl, hl.source, hl.targetBest, hl.targetFinalized⟩
        · exact ⟨_, rfl, hl.source, hl.targetBest, hl.targetFinalized⟩
  · rw [if_neg hon]
    exact ⟨l, rfl, hl⟩

/-- One pass from a state that keeps the expectations goes on in such a
    state, or ends with a failed client. -/
theorem RaceLoop.Expectations.step [DecidableEq SH] [DecidableEq TH] (hkeeps : strategy.KeepsHeaders)
    {l : RaceLoop σ SH TH Pr PP BT} (hl : l.Expectations) (e : RaceEvent SH TH Pr N TND BT CE) :
    (∃ l', l.step strategy isConnectionError requiredHeaderId e = .ok l' ∧ l'.Expectations) ∨
      ∃ client, l.step strategy isConnectionError requiredHeaderId e = .error (.failed client) := by
  unfold RaceLoop.step
  cases hb : l.branch strategy isConnectionError e with
  | none => exact .inl ⟨l, rfl, hl⟩
  | some afterBranch =>
      cases afterBranch with
      | error exit =>
          obtain ⟨client, rfl⟩ := RaceLoop.branch_eq_error hb
          exact .inr ⟨client, rfl⟩
      | ok l₁ =>
          -- the branch keeps the expectations, and neither client's part panics
          obtain ⟨l₂, hl₂, hexp₂⟩ :
              ∃ l₂, l₁.scheduleSource strategy requiredHeaderId = .ok l₂ ∧ l₂.Expectations :=
            (hl.branch hkeeps hb).scheduleSource
          obtain ⟨l₃, hl₃, hexp₃⟩ := hexp₂.scheduleTarget
          refine .inl ⟨l₃, ?_, hexp₃⟩
          simp only [bind, Except.bind, hl₂, hl₃]

/-- Over any passes from a state that keeps the expectations, the loop
    never panics. -/
theorem RaceLoop.Expectations.run [DecidableEq SH] [DecidableEq TH] (hkeeps : strategy.KeepsHeaders) :
    ∀ (events : List (RaceEvent SH TH Pr N TND BT CE)) (l : RaceLoop σ SH TH Pr PP BT),
      l.Expectations → l.run strategy isConnectionError requiredHeaderId events ≠ .error .panicked := by
  intro events
  induction events with
  | nil =>
      intro l _ h
      cases h
  | cons e events ih =>
      intro l hl
      unfold RaceLoop.run
      rcases hl.step hkeeps e with ⟨l', hstep, hl'⟩ | ⟨client, hstep⟩
      · rw [hstep]
        exact ih l' hl'
      · rw [hstep]
        intro h
        cases h

end Expect

/-- **THE LOOP NEVER PANICS.** With a strategy whose target updates leave
    the race state's headers alone, whatever the order in which the loop's
    futures end and whatever its clients answer, none of the three
    `expect`s of `run` fails: the loop only ends with a failed client. -/
theorem race_loop_never_panics [DecidableEq SH] [DecidableEq TH]
    (strategy : RaceStrategy σ SH TH Pr N PP TND) (hkeeps : strategy.KeepsHeaders)
    (isConnectionError : CE → Bool) (requiredHeaderId : BT → ℕ × SH) (s : σ)
    (events : List (RaceEvent SH TH Pr N TND BT CE)) :
    (RaceLoop.init s : RaceLoop σ SH TH Pr PP BT).run strategy isConnectionError requiredHeaderId events ≠
      .error .panicked :=
  RaceLoop.Expectations.run hkeeps events _ (RaceLoop.init_expectations s)

/-- The basic strategy touches only the nonces of the race state. -/
theorem BasicStrategy.raceStrategy_keepsHeaders [NoncesRange N] :
    (BasicStrategy.raceStrategy : RaceStrategy (BasicStrategy SH N) SH TH Pr N Unit Unit).KeepsHeaders := by
  refine ⟨fun s nonces raceState => ?_, fun _ _ _ => ⟨rfl, rfl, rfl⟩⟩
  show RaceState.SameHeaders raceState (s.bestTargetNoncesUpdated nonces raceState).2
  unfold BasicStrategy.bestTargetNoncesUpdated
  dsimp only
  -- a stale nonce changes nothing; a new one drops delivered nonces only
  split
  · exact ⟨rfl, rfl, rfl⟩
  · exact ⟨rfl, rfl, rfl⟩

/-- The delivery strategy hands the race state to its basic strategy. -/
theorem MessageDeliveryStrategy.raceStrategy_keepsHeaders {B : Type} :
    (MessageDeliveryStrategy.raceStrategy : RaceStrategy (MessageDeliveryStrategy SH B) SH TH Pr
      (MessageDetailsMap B) MessageProofParameters DeliveryRaceTargetNoncesData).KeepsHeaders := by
  refine ⟨fun d nonces raceState => ?_, fun _ _ _ => ⟨rfl, rfl, rfl⟩⟩
  show RaceState.SameHeaders raceState
    (d.strategy.bestTargetNoncesUpdated ⟨nonces.latestNonce, ()⟩ raceState).2
  have hbasic : (BasicStrategy.raceStrategy : RaceStrategy (BasicStrategy SH (MessageDetailsMap B)) SH TH Pr
      (MessageDetailsMap B) Unit Unit).KeepsHeaders := BasicStrategy.raceStrategy_keepsHeaders
  exact hbasic.best d.strategy _ raceState

/-- A delivery race whose target's best nonces fail to read, and whose
    target comes back. -/
def deliveryEvents :
    List (RaceEvent Unit Unit Unit (MessageDetailsMap Unit) DeliveryRaceTargetNoncesData Unit Unit) :=
  [.raceSourceUpdated (some (5, ())), .raceTargetUpdated (some ((7, ()), some (3, ()), (6, ()))),
    .targetBestNonces (.error ()), .targetGoOffline]

theorem race_loop_never_panics_on_delivery_race :
    (MessageDeliveryStrategy.raceStrategy : RaceStrategy (MessageDeliveryStrategy Unit Unit) Unit Unit Unit
      (MessageDetailsMap Unit) MessageProofParameters DeliveryRaceTargetNoncesData).KeepsHeaders ∧
    (RaceLoop.init (MessageDeliveryStrategy.new 4 8 2 ⟨100, 100⟩ 1000) :
        RaceLoop (MessageDeliveryStrategy Unit Unit) Unit Unit Unit MessageProofParameters Unit).run
      MessageDeliveryStrategy.raceStrategy (fun _ : Unit => false) (fun _ : Unit => ((0 : ℕ), ()))
      deliveryEvents ≠ .error .panicked :=
  ⟨MessageDeliveryStrategy.raceStrategy_keepsHeaders,
    race_loop_never_panics MessageDeliveryStrategy.raceStrategy
      MessageDeliveryStrategy.raceStrategy_keepsHeaders (fun _ : Unit => false)
      (fun _ : Unit => ((0 : ℕ), ())) (MessageDeliveryStrategy.new 4 8 2 ⟨100, 100⟩ 1000) deliveryEvents⟩

end MessageRace

end ParityBridge
