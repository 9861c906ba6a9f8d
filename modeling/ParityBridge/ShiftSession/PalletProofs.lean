import ParityBridge.ShiftSession.Pallet
import ParityBridge.Lib.CyclicWindow

/-! # The shift session manager — cyclic windows, fair shifts, one store

    `select_validators` cuts its window from the validator list in one or
    two slices, by a wrapping subtraction; read as a rotation of the list it
    is a plain window, and everything else follows from that.

    The route:

    * `select_validators` is the window of `max(1, 2n/3)` validators of the
      list rotated by the session index (`selectValidators_eq_window`): its
      two slices are `CyclicWindow.take_rotate_of_wrap` and
      `CyclicWindow.take_rotate_of_le`;
    * so over any `n` consecutive sessions each of `n` distinct validators
      serves in exactly `max(1, 2n/3)` of them
      (`CyclicWindow.countP_mem_window`);
    * a run of `new_session` calls stores the session pallet's validators at
      its first session past `1`, and from then on gives every session its
      window of that stored set, whatever the session pallet holds
      (`newSessions_of_initialized`, `newSessions_from_genesis`). -/

namespace ParityBridge

namespace ShiftSession

open CyclicWindow

variable {V : Type}

/-! ## `select_validators` -/

/-- `select_validators` panics on an empty set. -/
theorem selectValidators_nil (sessionIndex : ℕ) : selectValidators sessionIndex ([] : List V) = none :=
  rfl

/-- A nonempty set gives the first `max(1, 2n/3)` of its validators rotated
    by the session index: the code's one or two slices are the window. -/
theorem selectValidators_of_ne_nil {vs : List V} (hne : vs ≠ []) (sessionIndex : ℕ) :
    selectValidators sessionIndex vs =
      some ((vs.rotate sessionIndex).take (max 1 (2 * vs.length / 3))) := by
  have hpos : 0 < vs.length := List.length_pos_of_ne_nil hne
  have hoff : sessionIndex % vs.length < vs.length := Nat.mod_lt _ hpos
  have hcount : max 1 (2 * vs.length / 3) ≤ vs.length := by omega
  unfold selectValidators
  rw [if_neg (by omega), ← List.rotate_mod vs sessionIndex]
  dsimp only [overflowingSub]
  split
  · -- no borrow: the window reaches the end of the list
    rename_i wrappedEnd heq
    simp only [Prod.mk.injEq, decide_eq_false_iff_not, Nat.not_lt] at heq
    obtain ⟨rfl, hreach⟩ := heq
    split
    · rw [take_rotate_of_wrap (Nat.le_of_lt hoff) hcount hreach]
    · rw [take_rotate_of_le (by omega)]
  · -- a borrow: the window ends before the end of the list
    rename_i hborrow
    have hshort : sessionIndex % vs.length + max 1 (2 * vs.length / 3) < vs.length := by
      by_contra hlong
      exact hborrow (sessionIndex % vs.length + max 1 (2 * vs.length / 3) - vs.length)
        (by simp [hlong])
    rw [take_rotate_of_le (by omega)]

/-- **SELECTION IS A CYCLIC WINDOW.** `select_validators` panics on an empty
    set, and otherwise returns the first `max(1, 2n/3)` validators of the
    set rotated by the session index. -/
theorem selectValidators_eq_window (sessionIndex : ℕ) (vs : List V) :
    selectValidators sessionIndex vs =
      if vs = [] then none
      else some ((vs.rotate sessionIndex).take (max 1 (2 * vs.length / 3))) := by
  by_cases hnil : vs = []
  · rw [if_pos hnil, hnil, selectValidators_nil]
  · rw [if_neg hnil, selectValidators_of_ne_nil hnil]

/-- **FAIR SHIFTS.** Over any `n` consecutive sessions, each of `n`
    distinct validators is selected in exactly `max(1, 2n/3)` of them. -/
theorem select_validators_fair_over_rotation [DecidableEq V] {vs : List V} (hnd : vs.Nodup)
    (firstSession : ℕ) {v : V} (hv : v ∈ vs) :
    (List.range vs.length).countP
        (fun k => (selectValidators (firstSession + k) vs).any fun sel => decide (v ∈ sel)) =
      max 1 (2 * vs.length / 3) := by
  have hne : vs ≠ [] := List.ne_nil_of_mem hv
  have hcount : max 1 (2 * vs.length / 3) ≤ vs.length := by
    have hpos : 0 < vs.length := List.length_pos_of_ne_nil hne
    omega
  simp only [selectValidators_of_ne_nil hne, Option.any_some]
  exact countP_mem_window hnd hcount firstSession hv

theorem select_validators_fair_on_three_validators :
    ([7, 8, 9] : List ℕ).Nodup ∧ 8 ∈ ([7, 8, 9] : List ℕ) ∧
      (List.range ([7, 8, 9] : List ℕ).length).countP
          (fun k => (selectValidators (5 + k) ([7, 8, 9] : List ℕ)).any fun sel => decide (8 ∈ sel)) =
        max 1 (2 * ([7, 8, 9] : List ℕ).length / 3) :=
  ⟨by decide, by decide, select_validators_fair_over_rotation (by decide) 5 (by decide)⟩

/-! ## `new_session` over runs -/

/-- What `new_session` gives a session from a stored set. -/
theorem newSession_of_initialized (currentValidators : List V) {vs : List V} (hne : vs ≠ [])
    (sessionIndex : ℕ) :
    newSession currentValidators (some vs) sessionIndex =
      some (if sessionIndex = 0 ∨ sessionIndex = 1 then none
        else some ((vs.rotate sessionIndex).take (max 1 (2 * vs.length / 3))), some vs) := by
  unfold newSession
  split
  · rfl
  · rw [Option.getD_some]
    dsimp only
    rw [selectValidators_of_ne_nil hne]
    rfl

/-- **STORED SET KEPT.** From a stored nonempty set, a run of `new_session`
    calls never panics, keeps the set, and gives every session from `2` its
    window of the set, whatever validators the session pallet holds. -/
theorem newSessions_of_initialized {vs : List V} (hne : vs ≠ []) :
    ∀ calls : List (ℕ × List V),
      newSessions (some vs) calls =
        some (calls.map (fun call => if call.1 = 0 ∨ call.1 = 1 then none
          else some ((vs.rotate call.1).take (max 1 (2 * vs.length / 3)))), some vs) := by
  intro calls
  induction calls with
  | nil => rfl
  | cons call calls ih =>
      obtain ⟨sessionIndex, currentValidators⟩ := call
      rw [newSessions, newSession_of_initialized currentValidators hne sessionIndex]
      dsimp only
      rw [ih]
      rfl

/-- Sessions `0` and `1` change nothing. -/
theorem newSessions_genesis_cons (initialValidators : Option (List V)) (sessionIndex : ℕ)
    (currentValidators : List V) (hgenesis : sessionIndex = 0 ∨ sessionIndex = 1)
    (rest : List (ℕ × List V)) :
    newSessions initialValidators ((sessionIndex, currentValidators) :: rest) =
      (newSessions initialValidators rest).map fun out => (none :: out.1, out.2) := by
  rw [newSessions, newSession, if_pos hgenesis]

/-- **ONE STORE.** A run of `new_session` calls from genesis, whose first
    call past session `1` finds the validators `current` in the session
    pallet, stores `current` there for good: it panics if `current` is
    empty, and otherwise gives sessions `0` and `1` nothing and every later
    session its window of `current`, whatever the session pallet holds
    then. -/
theorem newSessions_from_genesis (genesis : List (ℕ × List V))
    (hgenesis : ∀ call ∈ genesis, call.1 = 0 ∨ call.1 = 1) (sessionIndex : ℕ)
    (current : List V) (hfirst : 2 ≤ sessionIndex) (rest : List (ℕ × List V)) :
    newSessions none (genesis ++ (sessionIndex, current) :: rest) =
      if current = [] then none
      else some (genesis.map (fun _ => none) ++
        (((sessionIndex, current) :: rest).map fun call => if call.1 = 0 ∨ call.1 = 1 then none
          else some ((current.rotate call.1).take (max 1 (2 * current.length / 3)))), some current) := by
  induction genesis with
  | nil =>
      rw [List.nil_append, newSessions, newSession, if_neg (by omega)]
      dsimp only
      rw [Option.getD_none]
      by_cases hne : current = []
      · rw [if_pos hne, hne, selectValidators_nil]
        rfl
      · rw [if_neg hne, selectValidators_of_ne_nil hne, Option.map_some]
        dsimp only
        rw [newSessions_of_initialized hne]
        simp [show ¬(sessionIndex = 0 ∨ sessionIndex = 1) by omega]
  | cons call genesis ih =>
      obtain ⟨callIndex, callValidators⟩ := call
      have hcall := hgenesis _ List.mem_cons_self
      rw [List.cons_append, newSessions_genesis_cons none callIndex callValidators hcall,
        ih (fun c hc => hgenesis c (List.mem_cons_of_mem _ hc))]
      by_cases hne : current = []
      · rw [if_pos hne, if_pos hne]
        rfl
      · rw [if_neg hne, if_neg hne]
        rfl

/-- Two genesis sessions, then sessions `2` to `4` over three validators. -/
theorem newSessions_from_genesis_on_three_validators :
    (∀ call ∈ [(0, [7, 8, 9]), (1, [7, 8, 9])], call.1 = 0 ∨ call.1 = 1) ∧ 2 ≤ 2 ∧
      newSessions none ([(0, [7, 8, 9]), (1, [7, 8, 9])] ++ (2, [7, 8, 9]) :: [(3, []), (4, [1])]) =
        if ([7, 8, 9] : List ℕ) = [] then none
        else some ([(0, [7, 8, 9]), (1, [7, 8, 9])].map (fun _ => none) ++
          (((2, [7, 8, 9]) :: [(3, []), (4, [1])]).map fun call =>
            if call.1 = 0 ∨ call.1 = 1 then none
            else some (([7, 8, 9].rotate call.1).take (max 1 (2 * [7, 8, 9].length / 3)))),
          some [7, 8, 9]) :=
  ⟨by decide, by decide,
    newSessions_from_genesis [(0, [7, 8, 9]), (1, [7, 8, 9])] (by decide) 2 [7, 8, 9] (by decide)
      [(3, []), (4, [1])]⟩

end ShiftSession

end ParityBridge
