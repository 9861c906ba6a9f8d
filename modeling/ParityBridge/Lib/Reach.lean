import Mathlib.Data.List.Induction

/-! # Reachability under a step function

    A deterministic system given by `step : σ → κ → σ` (state, call) and an
    initial state.  `Reachable step init s` says some finite sequence of
    calls leads from `init` to `s`.  The rules kept here are the ones every
    model in this development proves its invariants with: the invariant
    rule, reachability of a fold over any call list, the run rule and its
    monotone form for a count no call lowers, and composition of two
    segments.  `ReachableBy` admits a call only where a predicate of the
    state it is made in allows it, for a system whose environment makes
    some calls only in some states. -/

namespace Reach

variable {σ κ : Type} (step : σ → κ → σ)

/-- The states some sequence of calls leads to from `init`. -/
inductive Reachable (init : σ) : σ → Prop
  | initial : Reachable init init
  | next {s : σ} (c : κ) : Reachable init s → Reachable init (step s c)

/-- The states some sequence of calls leads to from `init`, each call
    admitted in the state it is made in. -/
inductive ReachableBy (Admitted : σ → κ → Prop) (init : σ) : σ → Prop
  | initial : ReachableBy Admitted init init
  | next {s : σ} (c : κ) : ReachableBy Admitted init s → Admitted s c →
      ReachableBy Admitted init (step s c)

variable {step} {init s t : σ}

/-- **INVARIANT RULE**: what holds initially and is kept by every step from
    a reachable state holds in every reachable state. -/
theorem Reachable.invariant (Inv : σ → Prop) (h0 : Inv init)
    (hstep : ∀ s c, Reachable step init s → Inv s → Inv (step s c))
    (h : Reachable step init s) : Inv s := by
  induction h with
  | initial => exact h0
  | next c hs ih => exact hstep _ c hs ih

/-- Running any list of calls reaches the state it ends in. -/
theorem reachable_foldl (init : σ) (cs : List κ) :
    Reachable step init (cs.foldl step init) := by
  induction cs using List.reverseRecOn with
  | nil => exact .initial
  | append_singleton cs c ih =>
      rw [List.foldl_append, List.foldl_cons, List.foldl_nil]
      exact .next c ih

/-- **RUN RULE**: an invariant kept by every admitted call holds after any
    list of admitted calls. -/
theorem foldl_invariant (Inv : σ → Prop) (Admitted : κ → Prop)
    (hstep : ∀ s c, Admitted c → Inv s → Inv (step s c)) :
    ∀ (cs : List κ) (s : σ), (∀ c ∈ cs, Admitted c) → Inv s → Inv (cs.foldl step s) := by
  intro cs
  induction cs with
  | nil => intro s _ hs; exact hs
  | cons c cs ih =>
      intro s hall hs
      exact ih (step s c) (fun c' hc' => hall c' (List.mem_cons_of_mem c hc'))
        (hstep s c (hall c (List.mem_cons_self ..)) hs)

/-- **MONOTONE RULE**: a count no call lowers is not lowered by any list of
    calls, from any state. -/
theorem le_foldl_of_le_step (μ : σ → ℕ) (hstep : ∀ s c, μ s ≤ μ (step s c)) (cs : List κ)
    (s : σ) : μ s ≤ μ (cs.foldl step s) :=
  foldl_invariant (fun t => μ s ≤ μ t) (fun _ => True)
    (fun t c _ ht => Nat.le_trans ht (hstep t c)) cs s (fun _ _ => trivial) (Nat.le_refl _)

/-- Two segments compose. -/
theorem Reachable.trans (h₁ : Reachable step init s) (h₂ : Reachable step s t) :
    Reachable step init t := by
  induction h₂ with
  | initial => exact h₁
  | next c _ ih => exact .next c ih

/-- **GUARDED INVARIANT RULE**: what holds initially and is kept by every
    admitted step holds in every state admitted calls reach. -/
theorem ReachableBy.invariant {Admitted : σ → κ → Prop} (Inv : σ → Prop) (h0 : Inv init)
    (hstep : ∀ s c, Admitted s c → Inv s → Inv (step s c))
    (h : ReachableBy step Admitted init s) : Inv s := by
  induction h with
  | initial => exact h0
  | next c _ hc ih => exact hstep _ c hc ih

end Reach
