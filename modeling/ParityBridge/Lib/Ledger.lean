import Mathlib.Algebra.BigOperators.Group.List.Basic
import Mathlib.Data.Nat.Notation
import Mathlib.Algebra.GroupWithZero.Nat

/-! # Balances along runs — what flows in and what flows out

    A system given by `step : σ → κ → σ`, and a quantity of its state
    (`balance`) that every call changes by what it brings in less what it
    takes out.  `runSum` adds up a per-call quantity over a run, each call
    read in the state it is made in.

    The route:

    * **CONSERVATION RULE** (`balance_conserved`): a balance that every step
      changes by its inflow less its outflow ends, plus all that flowed
      out, at its first value plus all that flowed in;
    * **BALANCE BOUND** (`balance_add_le`): the same as an inequality, for a
      step that may take out more than it counts;
    * **CAP RULE** (`runSum_eq_zero_of_le`): a flow that only runs once the
      balance and the inflow pass a cap never runs along a run whose first
      balance and total inflow stay within it. -/

namespace Ledger

variable {σ κ : Type} (step : σ → κ → σ)

/-- The sum of `flow` over the calls of a run from `s`, each call read in
    the state it is made in. -/
def runSum (flow : σ → κ → ℕ) : σ → List κ → ℕ
  | _, [] => 0
  | s, c :: cs => flow s c + runSum flow (step s c) cs

variable {step}

@[simp] theorem runSum_nil (flow : σ → κ → ℕ) (s : σ) : runSum step flow s [] = 0 := rfl

@[simp] theorem runSum_cons (flow : σ → κ → ℕ) (s : σ) (c : κ) (cs : List κ) :
    runSum step flow s (c :: cs) = flow s c + runSum step flow (step s c) cs := rfl

/-- A flow that reads only the call adds up over the calls alone. -/
theorem runSum_of_call (g : κ → ℕ) : ∀ (cs : List κ) (s : σ),
    runSum step (fun _ c => g c) s cs = (cs.map g).sum := by
  intro cs
  induction cs with
  | nil => intro s; rfl
  | cons c cs ih =>
      intro s
      rw [runSum_cons, ih, List.map_cons, List.sum_cons]

section Balance

variable (balance : σ → ℕ) (inflow outflow : σ → κ → ℕ)

/-- **CONSERVATION RULE**: what every step keeps, each run keeps. -/
theorem balance_conserved
    (h : ∀ s c, balance (step s c) + outflow s c = balance s + inflow s c) :
    ∀ (cs : List κ) (s : σ),
      balance (cs.foldl step s) + runSum step outflow s cs =
        balance s + runSum step inflow s cs := by
  intro cs
  induction cs with
  | nil => intro s; rfl
  | cons c cs ih =>
      intro s
      have hrest := ih (step s c)
      have hc := h s c
      rw [List.foldl_cons, runSum_cons, runSum_cons]
      omega

/-- **BALANCE BOUND**: a step that brings in no more than it keeps and
    takes out does so over every run. -/
theorem balance_add_le
    (h : ∀ s c, balance s + inflow s c ≤ balance (step s c) + outflow s c) :
    ∀ (cs : List κ) (s : σ),
      balance s + runSum step inflow s cs ≤
        balance (cs.foldl step s) + runSum step outflow s cs := by
  intro cs
  induction cs with
  | nil => intro s; exact Nat.le_refl _
  | cons c cs ih =>
      intro s
      have hrest := ih (step s c)
      have hc := h s c
      rw [List.foldl_cons, runSum_cons, runSum_cons]
      omega

/-- **CAP RULE**: a flow that is zero while the balance plus the inflow
    stays within `cap` sums to zero over a run whose first balance and
    total inflow stay within it, the balance growing by at most the inflow
    at each step. -/
theorem runSum_eq_zero_of_le (cap : ℕ) (overflow : σ → κ → ℕ)
    (hgrow : ∀ s c, balance (step s c) ≤ balance s + inflow s c)
    (hcap : ∀ s c, balance s + inflow s c ≤ cap → overflow s c = 0) :
    ∀ (cs : List κ) (s : σ), balance s + runSum step inflow s cs ≤ cap →
      runSum step overflow s cs = 0 := by
  intro cs
  induction cs with
  | nil => intro s _; rfl
  | cons c cs ih =>
      intro s hle
      rw [runSum_cons] at hle ⊢
      -- the step itself stays within the cap, and so does the rest of the run
      have hstep : overflow s c = 0 := hcap s c (by omega)
      have hrest : runSum step overflow (step s c) cs = 0 :=
        ih (step s c) (Nat.le_trans (Nat.add_le_add_right (hgrow s c) _) (by omega))
      rw [hstep, hrest]

end Balance

end Ledger
