import ParityBridge.Lib.Reach
import ParityBridge.Lib.Ledger

/-! # Request budgets refilled by a clock

    A system counts the requests it lets through: a request is admitted
    only while the count is below a limit, and each admitted request adds
    one; a tick of the clock takes one back (saturating at zero); every
    other call leaves the count alone (`Budgeted`).

    Then the count never leaves the budget, and over any run the admitted
    requests are at most the budget left at its start plus the ticks of the
    run (`Budgeted.admittedCount_le`).  Since any stretch of a longer run
    is a run from a reachable state, this bounds the admissions of every
    window of ticks. -/

namespace RateLimit

variable {σ κ : Type} (step : σ → κ → σ) (count : σ → ℕ) (admitted : σ → κ → Bool)
  (tick : κ → Bool) (limit : ℕ)

/-- The calls of a run that are admitted, each judged in the state it is
    made in. -/
def admittedCount : σ → List κ → ℕ :=
  Ledger.runSum step fun s c => if admitted s c then 1 else 0

@[simp] theorem admittedCount_nil (s : σ) : admittedCount step admitted s [] = 0 := rfl

@[simp] theorem admittedCount_cons (s : σ) (c : κ) (cs : List κ) :
    admittedCount step admitted s (c :: cs) =
      (if admitted s c then 1 else 0) + admittedCount step admitted (step s c) cs := rfl

/-- A count kept by the admitted calls below `limit` and taken down by the
    ticks. -/
structure Budgeted : Prop where
  onAdmit : ∀ s c, admitted s c = true → count s < limit ∧ count (step s c) = count s + 1
  onTick : ∀ s c, tick c = true → admitted s c = false ∧ count (step s c) = count s - 1
  onOther : ∀ s c, admitted s c = false → tick c = false → count (step s c) = count s

variable {step count admitted tick limit}

/-- One call keeps the count within the budget. -/
theorem Budgeted.count_le_step (h : Budgeted step count admitted tick limit) {s : σ}
    (hs : count s ≤ limit) (c : κ) : count (step s c) ≤ limit := by
  cases hadmit : admitted s c
  · cases htick : tick c
    · rw [h.onOther s c hadmit htick]
      exact hs
    · rw [(h.onTick s c htick).2]
      omega
  · obtain ⟨hlt, hcount⟩ := h.onAdmit s c hadmit
    rw [hcount]
    exact hlt

/-- **THE COUNT STAYS IN BUDGET** over any run. -/
theorem Budgeted.count_le (h : Budgeted step count admitted tick limit) (cs : List κ) {s : σ}
    (hs : count s ≤ limit) : count (cs.foldl step s) ≤ limit :=
  Reach.foldl_invariant (fun s => count s ≤ limit) (fun _ => True)
    (fun _ c _ hs => h.count_le_step hs c) cs s (fun _ _ => trivial) hs

/-- One call: an admission adds one to the count, and a tick takes off
    at most one. -/
theorem Budgeted.count_add_le_step (h : Budgeted step count admitted tick limit) (s : σ) (c : κ) :
    count s + (if admitted s c then 1 else 0) ≤ count (step s c) + if tick c then 1 else 0 := by
  cases hadmit : admitted s c
  · cases htick : tick c
    · have hcount := h.onOther s c hadmit htick
      simp only [Bool.false_eq_true, if_false]
      omega
    · have hcount := (h.onTick s c htick).2
      simp only [Bool.false_eq_true, if_false, if_true]
      omega
  · -- an admitted call is no tick
    have hnotick : tick c = false := by
      cases htick : tick c
      · rfl
      · rw [(h.onTick s c htick).1] at hadmit
        cases hadmit
    have hcount := (h.onAdmit s c hadmit).2
    simp only [hnotick, Bool.false_eq_true, if_false, if_true]
    omega

/-- The ticks of a run, as a flow of one per tick. -/
theorem runSum_tick (s : σ) (cs : List κ) :
    Ledger.runSum step (fun _ c => if tick c then 1 else 0) s cs = cs.countP tick := by
  rw [Ledger.runSum_of_call]
  induction cs with
  | nil => rfl
  | cons c cs ih =>
      rw [List.map_cons, List.sum_cons, ih, List.countP_cons]
      omega

/-- The admitted calls of a run and the count it starts from are at most
    the count it ends with and its ticks. -/
theorem Budgeted.admittedCount_add_le (h : Budgeted step count admitted tick limit)
    (cs : List κ) (s : σ) :
    admittedCount step admitted s cs + count s ≤ count (cs.foldl step s) + cs.countP tick := by
  have hrun := Ledger.balance_add_le count (fun s c => if admitted s c then 1 else 0)
    (fun _ c => if tick c then 1 else 0) h.count_add_le_step cs s
  rw [runSum_tick] at hrun
  unfold admittedCount
  omega

/-- **BUDGET OF A RUN.** From a state within budget, a run admits at most
    the budget left and one request per tick. -/
theorem Budgeted.admittedCount_le (h : Budgeted step count admitted tick limit) (cs : List κ)
    {s : σ} (hs : count s ≤ limit) :
    admittedCount step admitted s cs ≤ limit - count s + cs.countP tick := by
  have hadd := h.admittedCount_add_le cs s
  have hend := h.count_le cs hs
  omega

end RateLimit
