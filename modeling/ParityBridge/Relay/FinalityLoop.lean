import ParityBridge.Lib.SortedSearch
import Mathlib.Data.Nat.Basic

/-! # The finality relay loop — `select_header_to_submit`

    Each pass of the finality relay looks at the headers the target chain
    misses: from the one after its best finalized header up to the best
    finalized header of the source.  A mandatory header (one that changes
    the authority set) has to be submitted before any later one, with the
    persistent finality proof the source keeps for it.  Otherwise the relay
    submits the best header it can prove: with a persistent proof, or with a
    recent proof read from the source's finality proofs stream and kept in
    a buffer between passes.  The buffer is then pruned of the proofs that
    can no longer be better than what is selected, and to its limit.

    The clients are what they answer: the source's
    `header_and_finality_proof` is a function of the header number that may
    fail with the source's error, and the stream is the list of proofs it
    has ready when the pass drains it.  The stream's restart flag, the
    fields of `FinalitySyncParams` other than the two read here, the logs
    and the metrics are left out. -/

namespace ParityBridge

namespace FinalityLoop

open SortedSearch

/-- `SourceHeader`: what the loop reads of a header. -/
class SourceHeader (H : Type) where
  number : H → ℕ
  isMandatory : H → Bool

/-- `FinalityProof`: the number of the header a proof finalizes. -/
class FinalityProof (FP : Type) where
  targetHeaderNumber : FP → ℕ

/-- `finality_loop::Error`, with the variants header selection raises. -/
inductive Error (SE : Type) where
  | source (error : SE)
  | missingMandatoryFinalityProof (number : ℕ)
deriving DecidableEq, Repr

/-- The two `FinalitySyncParams` that header selection reads. -/
structure FinalitySyncParams where
  recentFinalityProofsLimit : ℕ
  onlyMandatoryHeaders : Bool
deriving DecidableEq, Repr

/-- `SelectedFinalityProof`: what `read_missing_headers` found. -/
inductive SelectedFinalityProof (H FP : Type) where
  | mandatory (header : H) (finalityProof : FP)
  | regular (unjustifiedHeaders : List H) (header : H) (finalityProof : FP)
  | none (unjustifiedHeaders : List H)

variable {SE H FP : Type} [SourceHeader H] [FinalityProof FP]

/-! ## `read_missing_headers` -/

/-- The `while header_number <= best_number_at_source` loop of
    `read_missing_headers`, over the header numbers still to read, with the
    headers read since the last one with a persistent proof and the last
    such header with its proof.  A mandatory header ends the loop. -/
def readMissingHeadersLoop (headerAndFinalityProof : ℕ → Except SE (H × Option FP)) :
    List ℕ → List H → Option (H × FP) → Except (Error SE) (SelectedFinalityProof H FP)
  | [], unjustifiedHeaders, selectedFinalityProof =>
      .ok (match selectedFinalityProof with
        | some (header, proof) => .regular unjustifiedHeaders header proof
        | none => .none unjustifiedHeaders)
  | headerNumber :: headerNumbers, unjustifiedHeaders, selectedFinalityProof =>
      match headerAndFinalityProof headerNumber with
      | .error e => .error (.source e)
      | .ok (header, finalityProof) =>
          match SourceHeader.isMandatory header, finalityProof with
          | true, some finalityProof => .ok (.mandatory header finalityProof)
          | true, none => .error (.missingMandatoryFinalityProof (SourceHeader.number header))
          | false, some finalityProof =>
              readMissingHeadersLoop headerAndFinalityProof headerNumbers []
                (some (header, finalityProof))
          | false, none =>
              readMissingHeadersLoop headerAndFinalityProof headerNumbers
                (unjustifiedHeaders ++ [header]) selectedFinalityProof

/-- `read_missing_headers`: the headers from `best_number_at_target + 1` to
    `best_number_at_source`. -/
def readMissingHeaders (headerAndFinalityProof : ℕ → Except SE (H × Option FP))
    (bestNumberAtSource bestNumberAtTarget : ℕ) :
    Except (Error SE) (SelectedFinalityProof H FP) :=
  readMissingHeadersLoop headerAndFinalityProof
    (List.range' (bestNumberAtTarget + 1) (bestNumberAtSource - bestNumberAtTarget)) [] none

/-! ## The recent finality proofs -/

/-- `read_finality_proofs_from_stream`: every proof the stream has ready is
    pushed to the buffer under the number of the header it finalizes. -/
def readFinalityProofsFromStream (finalityProofsStream : List FP)
    (recentFinalityProofs : List (ℕ × FP)) : List (ℕ × FP) :=
  finalityProofsStream.foldl
    (fun recentFinalityProofs finalityProof =>
      recentFinalityProofs ++ [(FinalityProof.targetHeaderNumber finalityProof, finalityProof)])
    recentFinalityProofs

/-- `select_better_recent_finality_proof`: the last buffered proof for a
    header of the intersection of the unjustified headers' range with the
    buffer's, if there is one, with that header taken out of the unjustified
    ones by `swap_remove`.  Both `expect`s and the indexing panic when what
    they read is missing; they never do (`FinalityLoopProofs`), and here
    such a read leaves the selection as it is. -/
def selectBetterRecentFinalityProof (recentFinalityProofs : List (ℕ × FP))
    (unjustifiedHeaders : List H) (selectedFinalityProof : Option (H × FP)) :
    Option (H × FP) × List H :=
  match unjustifiedHeaders, recentFinalityProofs with
  | [], _ | _, [] => (selectedFinalityProof, unjustifiedHeaders)
  | firstUnjustified :: otherUnjustified, firstBuffered :: otherBuffered =>
      let unjustifiedRangeBegin := SourceHeader.number firstUnjustified
      let unjustifiedRangeEnd :=
        SourceHeader.number ((firstUnjustified :: otherUnjustified).getLast (List.cons_ne_nil _ _))
      let bufferedRangeBegin := firstBuffered.1
      let bufferedRangeEnd := ((firstBuffered :: otherBuffered).getLast (List.cons_ne_nil _ _)).1
      let intersectionBegin := max unjustifiedRangeBegin bufferedRangeBegin
      let intersectionEnd := min unjustifiedRangeEnd bufferedRangeEnd
      let selectedFinalityProofIndex :=
        unwrapOrElse (binarySearchByKey recentFinalityProofs intersectionEnd Prod.fst) (· - 1)
      match recentFinalityProofs[selectedFinalityProofIndex]? with
      | none => (selectedFinalityProof, unjustifiedHeaders)
      | some (selectedHeaderNumber, finalityProof) =>
          let hasSelectedFinalityProof :=
            decide (intersectionBegin ≤ selectedHeaderNumber ∧ selectedHeaderNumber ≤ intersectionEnd)
          if !hasSelectedFinalityProof then (selectedFinalityProof, unjustifiedHeaders)
          else
            match binarySearchByKey unjustifiedHeaders selectedHeaderNumber SourceHeader.number with
            | .error _ => (selectedFinalityProof, unjustifiedHeaders)
            | .ok selectedHeaderPosition =>
                match swapRemove unjustifiedHeaders selectedHeaderPosition with
                | none => (selectedFinalityProof, unjustifiedHeaders)
                | some (selectedHeader, unjustifiedHeaders) =>
                    (some (selectedHeader, finalityProof), unjustifiedHeaders)

/-- `prune_recent_finality_proofs`: the buffer from past the proofs for
    headers up to `justified_header_number`, or from its last
    `recent_finality_proofs_limit` proofs if that keeps fewer. -/
def pruneRecentFinalityProofs (justifiedHeaderNumber : ℕ) (recentFinalityProofs : List (ℕ × FP))
    (recentFinalityProofsLimit : ℕ) : List (ℕ × FP) :=
  let justifiedHeaderIdx :=
    unwrapOrElse ((binarySearchByKey recentFinalityProofs justifiedHeaderNumber Prod.fst).map
      (· + 1)) id
  let proofsLimitIdx := recentFinalityProofs.length - recentFinalityProofsLimit
  recentFinalityProofs.drop (max justifiedHeaderIdx proofsLimitIdx)

/-! ## `select_header_to_submit` -/

/-- The part of `select_header_to_submit` after `read_missing_headers`, for
    a selection that is not mandatory: read the stream, try a better recent
    proof, prune the buffer from the selected header (or the target's best)
    on.  The selection and the new buffer. -/
def selectFromRecentFinalityProofs (finalityProofsStream : List FP)
    (recentFinalityProofs : List (ℕ × FP)) (bestNumberAtTarget : ℕ)
    (syncParams : FinalitySyncParams) (unjustifiedHeaders : List H)
    (selectedFinalityProof : Option (H × FP)) : Option (H × FP) × List (ℕ × FP) :=
  let recentFinalityProofs := readFinalityProofsFromStream finalityProofsStream recentFinalityProofs
  let selectedFinalityProof := (selectBetterRecentFinalityProof recentFinalityProofs
    unjustifiedHeaders selectedFinalityProof).1
  let oldestFinalityProofToKeep :=
    (selectedFinalityProof.map fun selected => SourceHeader.number selected.1).getD
      bestNumberAtTarget
  (selectedFinalityProof, pruneRecentFinalityProofs oldestFinalityProofToKeep
    recentFinalityProofs syncParams.recentFinalityProofsLimit)

/-- `select_header_to_submit`: the header to submit with its proof, if any,
    and the buffer of recent proofs it leaves.  A mandatory header is
    returned at once; with `only_mandatory_headers` nothing else is; a
    failure reading the headers leaves the buffer as it was. -/
def selectHeaderToSubmit (headerAndFinalityProof : ℕ → Except SE (H × Option FP))
    (finalityProofsStream : List FP) (recentFinalityProofs : List (ℕ × FP))
    (bestNumberAtSource bestNumberAtTarget : ℕ) (syncParams : FinalitySyncParams) :
    Except (Error SE) (Option (H × FP)) × List (ℕ × FP) :=
  match readMissingHeaders headerAndFinalityProof bestNumberAtSource bestNumberAtTarget with
  | .error e => (.error e, recentFinalityProofs)
  | .ok selected =>
      match selected, syncParams.onlyMandatoryHeaders with
      | .mandatory header finalityProof, _ => (.ok (some (header, finalityProof)), recentFinalityProofs)
      | _, true => (.ok none, recentFinalityProofs)
      | .regular unjustifiedHeaders header finalityProof, false =>
          let (selectedFinalityProof, recentFinalityProofs) :=
            selectFromRecentFinalityProofs finalityProofsStream recentFinalityProofs
              bestNumberAtTarget syncParams unjustifiedHeaders (some (header, finalityProof))
          (.ok selectedFinalityProof, recentFinalityProofs)
      | .none unjustifiedHeaders, false =>
          let (selectedFinalityProof, recentFinalityProofs) :=
            selectFromRecentFinalityProofs finalityProofsStream recentFinalityProofs
              bestNumberAtTarget syncParams unjustifiedHeaders none
          (.ok selectedFinalityProof, recentFinalityProofs)

end FinalityLoop

end ParityBridge
