import ParityBridge.Parachains.Pallet

/-! # The parachains relay loop — `is_update_required` and `SubmittedHeadsTracker`

    The relay keeps one parachain's head at the target chain up to date.
    Each pass of `run_until_connection_lost` reads the parachain's head at
    the target (the runtime API over `best_parachain_head_id`), lets the
    tracker of the transaction it submitted last decide whether that
    transaction did its work, reads the source head at the relay block the
    target has finalized last, and submits a new `submit_parachain_heads`
    when `is_update_required` asks for one.

    The clients are what they answer: one pass is a function of its
    tracker and of the answers of the client calls it makes, a failed call
    ending the loop with the client that failed.  The tracker's
    transaction is polled once per pass; the model takes the poll's result
    as an answer.  The sleep between passes, the exit signal, the metrics
    and the logs are left out. -/

namespace ParityBridge

namespace ParachainsLoop

open Parachains

/-- `AvailableHeader`: the source client either reports a head, reports
    that the parachain has none (`Missing`), or asks not to update
    (`Unavailable`).  A `HeaderId` of the parachain is its number and hash. -/
inductive AvailableHeader (T : Type) where
  | unavailable
  | missing
  | available (header : T)
deriving DecidableEq, Repr

variable {PH TB RB Pf : Type}

/-- `is_update_required`: whether the head at the source should be
    submitted over the head at the target. -/
def isUpdateRequired (headAtSource : AvailableHeader (ℕ × PH)) (headAtTarget : Option (ℕ × PH)) :
    Bool :=
  match headAtSource, headAtTarget with
  | .unavailable, _ => false
  | .available headAtSource, some headAtTarget =>
      if headAtSource.1 > headAtTarget.1 then true else false
  | .available _, none => true
  -- an offboarded parachain, to be propagated to the target
  | .missing, some _ => true
  | .missing, none => false

/-- `TrackedTransactionStatus` of `relay_utils`. -/
inductive TrackedTransactionStatus (TB : Type) where
  | lost
  | finalized (atBlock : TB)
deriving DecidableEq, Repr

/-- `SubmittedHeadsTracker`: the head the transaction submitted; its
    transaction tracker is what `update` polls. -/
structure SubmittedHeadsTracker (PH : Type) where
  submittedHead : AvailableHeader (ℕ × PH)
deriving DecidableEq, Repr

/-- `SubmittedHeadStatus`. -/
inductive SubmittedHeadStatus (TB PH : Type) where
  | waiting (tracker : SubmittedHeadsTracker PH)
  | final (status : TrackedTransactionStatus TB)
deriving DecidableEq, Repr

/-- The check at the start of `SubmittedHeadsTracker::update`: the target
    holds the submitted head or a newer one, or no head for a missing one. -/
def SubmittedHeadsTracker.isHeadUpdated (tracker : SubmittedHeadsTracker PH)
    (headAtTarget : Option (ℕ × PH)) : Bool :=
  match tracker.submittedHead, headAtTarget with
  | .available submittedHead, some headAtTarget => decide (headAtTarget.1 ≥ submittedHead.1)
  | .missing, none => true
  | _, _ => false

/-- `SubmittedHeadsTracker::update`; `poll` is what polling the transaction
    tracker gives, `none` while the transaction is pending. -/
def SubmittedHeadsTracker.update (tracker : SubmittedHeadsTracker PH)
    (poll : Option (TrackedTransactionStatus TB)) (atTargetBlock : TB)
    (headAtTarget : Option (ℕ × PH)) : SubmittedHeadStatus TB PH :=
  if tracker.isHeadUpdated headAtTarget then .final (.finalized atTargetBlock)
  else
    match poll with
    | some .lost => .final .lost
    -- mined and finalized, but the head is not updated: the loop has stalled
    | some (.finalized _) => .final .lost
    | none => .waiting tracker

/-- The runtime API `best_finalized_..._header_id` of a target runtime:
    `best_parachain_head_id`, a decoding error read as no head. -/
def headAtTarget (decodeParachainHeadData : ParaStoredHeaderData → Option ℕ)
    (s : ParachainsStorage ℕ PH) (parachain : ℕ) : Option (ℕ × PH) :=
  match bestParachainHeadId decodeParachainHeadData s parachain with
  | .ok head => head
  | .error () => none

/-- `FailedClient` of `relay_utils`. -/
inductive FailedClient where
  | source
  | target
  | both
deriving DecidableEq, Repr

/-- What the clients answer during one pass, `none` for a call that fails:
    `ensure_synced`, the target's best block, the parachain head at it, the
    poll of the tracked transaction, the best relay block the target has
    finalized, the source head at it, `prove_parachain_head` there (the
    storage proof and the hash of the head it read), and whether
    `submit_parachain_head_proof` succeeded. -/
structure ClientAnswers (TB RB PH Pf : Type) where
  ensureSynced : Option Bool
  bestTargetBlock : Option TB
  headAtTarget : Option (Option (ℕ × PH))
  poll : Option (TrackedTransactionStatus TB)
  bestFinalizedRelayBlock : Option RB
  headAtSource : Option (AvailableHeader (ℕ × PH))
  proveParachainHead : Option (Pf × PH)
  submitParachainHeadProof : Bool

/-- The part of a pass after the tracker: if an update is required, prove
    the head at the target's best finalized relay block and submit it; the
    new tracker, and the call submitted. -/
def submitIfRequired (answers : ClientAnswers TB RB PH Pf) (headAtTarget : Option (ℕ × PH)) :
    Except FailedClient (Option (SubmittedHeadsTracker PH) × Option (RB × PH × Pf)) :=
  match answers.bestFinalizedRelayBlock with
  | none => .error .target
  | some bestFinalizedRelayBlock =>
      match answers.headAtSource with
      | none => .error .source
      | some headAtSource =>
          if isUpdateRequired headAtSource headAtTarget then
            match answers.proveParachainHead with
            | none => .error .source
            | some (headProof, headHash) =>
                if answers.submitParachainHeadProof then
                  .ok (some ⟨headAtSource⟩, some (bestFinalizedRelayBlock, headHash, headProof))
                else .error .target
          else .ok (none, none)

/-- One pass of the loop of `run_until_connection_lost`, after its sleep:
    the tracker it keeps and the call it submits, or the client whose
    failure ends the loop (`FailedClient::Both` when the tracked
    transaction is lost). -/
def loopPass (tracker : Option (SubmittedHeadsTracker PH)) (answers : ClientAnswers TB RB PH Pf) :
    Except FailedClient (Option (SubmittedHeadsTracker PH) × Option (RB × PH × Pf)) :=
  match answers.ensureSynced with
  | none => .error .source
  -- the source is syncing: nothing this pass
  | some false => .ok (tracker, none)
  | some true =>
      match answers.bestTargetBlock, answers.headAtTarget with
      | none, _ => .error .target
      | _, none => .error .target
      | some bestTargetBlock, some headAtTarget =>
          match tracker with
          | none => submitIfRequired answers headAtTarget
          | some tracker =>
              match tracker.update answers.poll bestTargetBlock headAtTarget with
              | .waiting tracker => .ok (some tracker, none)
              | .final (.finalized _) => submitIfRequired answers headAtTarget
              | .final .lost => .error .both

end ParachainsLoop

end ParityBridge
