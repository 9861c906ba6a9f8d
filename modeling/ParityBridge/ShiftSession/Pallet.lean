import Mathlib.Data.Nat.Notation
import Mathlib.Order.Basic

/-! # The shift session manager — `select_validators` and `new_session`

    A session manager for test chains: sessions `0` and `1` keep the
    genesis validators; from session `2` on, each session is served by
    `max(1, 2n/3)` of the `n` validators of the first two sessions, a window
    that starts at `session_index % n` and wraps around the end of the list.
    The first `new_session` call for a session from `2` on reads the
    session pallet's validators and stores them in `InitialValidators`.

    The session index is a `u32` in the code, a natural number here: it
    would wrap only after `2^32` sessions.  Where the code panics (`%` by an
    empty set of validators) the model returns `none`. -/

namespace ParityBridge

namespace ShiftSession

variable {V : Type}

/-- `usize::overflowing_sub`: the difference and whether it wrapped.  The
    wrapped difference is not read where the flag is set, so it saturates
    here. -/
def overflowingSub (a b : ℕ) : ℕ × Bool := (a - b, decide (a < b))

/-- `Pallet::select_validators`: `count` validators from `offset`, the
    slice to the end and then from the start when the window wraps. -/
def selectValidators (sessionIndex : ℕ) (availableValidators : List V) : Option (List V) :=
  let availableValidatorsCount := availableValidators.length
  -- `session_index % available_validators_count` panics on an empty set
  if availableValidatorsCount = 0 then none
  else
    let count := max 1 (2 * availableValidatorsCount / 3)
    let offset := sessionIndex % availableValidatorsCount
    let «end» := offset + count
    match overflowingSub «end» availableValidatorsCount with
    | (wrappedEnd, false) =>
        if wrappedEnd ≠ 0 then
          some (availableValidators.drop offset ++ availableValidators.take wrappedEnd)
        else some ((availableValidators.take «end»).drop offset)
    | _ => some ((availableValidators.take «end»).drop offset)

/-- `SessionManager::new_session`, with `pallet_session::validators()` as
    `currentValidators` and the stored `InitialValidators`: the validators
    it gives the new session (`none`: the session pallet keeps its own)
    and the `InitialValidators` it leaves; `none` where it panics. -/
def newSession (currentValidators : List V) (initialValidators : Option (List V))
    (sessionIndex : ℕ) : Option (Option (List V) × Option (List V)) :=
  -- sessions `0` and `1` keep the genesis validators
  if sessionIndex = 0 ∨ sessionIndex = 1 then some (none, initialValidators)
  else
    -- the first call reads the session pallet's validators and stores them
    let availableValidators := initialValidators.getD currentValidators
    (selectValidators sessionIndex availableValidators).map fun sessionValidators =>
      (some sessionValidators, some availableValidators)

/-- A run of `new_session` calls, each with its session index and the
    session pallet's validators at the time: the validators each call
    gives, and the `InitialValidators` left at the end; `none` if a call
    panics. -/
def newSessions (initialValidators : Option (List V)) :
    List (ℕ × List V) → Option (List (Option (List V)) × Option (List V))
  | [] => some ([], initialValidators)
  | (sessionIndex, currentValidators) :: rest =>
      match newSession currentValidators initialValidators sessionIndex with
      | none => none
      | some (sessionValidators, initialValidators') =>
          (newSessions initialValidators' rest).map fun out => (sessionValidators :: out.1, out.2)

end ShiftSession

end ParityBridge
