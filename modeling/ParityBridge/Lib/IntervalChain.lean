import Mathlib.Data.List.Chain
import Mathlib.Order.Interval.Finset.Nat
import Mathlib.Algebra.BigOperators.Group.List.Basic
import Mathlib.Algebra.GroupWithZero.Nat

/-! # Chains of consecutive intervals

    A list of closed intervals `[lo a, hi a]` over `ℕ`, each non-empty and
    starting right after its predecessor ends.  Such a chain covers exactly
    the interval from its first lower bound to its last upper bound, and
    every covered point lies in exactly one member, so a sum over the
    members of per-interval counts is a count over the covered interval.

    The operations kept here are the ones a queue of ranges needs: drop a
    prefix (`dropWhile`), push a new interval at the back, widen the back
    interval upwards and narrow the front one from below. -/

namespace IntervalChain

variable {α : Type} (lo hi : α → ℕ)

/-- Every interval is non-empty and starts right after its predecessor. -/
def Consecutive (l : List α) : Prop :=
  (∀ a ∈ l, lo a ≤ hi a) ∧ l.IsChain (fun a b => lo b = hi a + 1)

/-- The points covered by the intervals of a list. -/
def cover : List α → Finset ℕ
  | [] => ∅
  | a :: l => Finset.Icc (lo a) (hi a) ∪ cover l

variable {lo hi} {l : List α} {a b : α}

theorem consecutive_nil : Consecutive lo hi ([] : List α) :=
  ⟨fun _ h => (nomatch h), .nil⟩

theorem consecutive_singleton (h : lo a ≤ hi a) : Consecutive lo hi [a] := by
  refine ⟨?_, .singleton a⟩
  intro x hx
  rw [List.mem_singleton.mp hx]
  exact h

theorem consecutive_cons_cons :
    Consecutive lo hi (a :: b :: l) ↔
      lo a ≤ hi a ∧ lo b = hi a + 1 ∧ Consecutive lo hi (b :: l) := by
  simp only [Consecutive, List.isChain_cons_cons, List.forall_mem_cons]
  tauto

theorem Consecutive.tail (h : Consecutive lo hi l) : Consecutive lo hi l.tail :=
  ⟨fun x hx => h.1 x (List.mem_of_mem_tail hx), h.2.tail⟩

theorem Consecutive.le_of_mem (h : Consecutive lo hi l) (ha : a ∈ l) :
    lo a ≤ hi a :=
  h.1 a ha

/-- A suffix of a chain is a chain; in particular what `dropWhile` leaves. -/
theorem Consecutive.dropWhile (h : Consecutive lo hi l) (p : α → Bool) :
    Consecutive lo hi (l.dropWhile p) := by
  have hs := List.dropWhile_suffix p (l := l)
  exact ⟨fun x hx => h.1 x (hs.subset hx), h.2.suffix hs⟩

/-- Dropping the members that end at or below `c` leaves a first member that
    starts at or below `c + 1`, provided the old first member did. -/
theorem Consecutive.lo_head_dropWhile_le (h : Consecutive lo hi l) {c : ℕ}
    (hhead : ∀ a ∈ l.head?, lo a ≤ c + 1) :
    ∀ b ∈ (l.dropWhile fun a => hi a ≤ c).head?, lo b ≤ c + 1 := by
  induction l with
  | nil => simp
  | cons a l ih =>
      by_cases ha : hi a ≤ c
      · rw [List.dropWhile_cons_of_pos (by simpa using ha)]
        apply ih h.tail
        intro b hb
        cases l with
        | nil => exact nomatch hb
        | cons b' l =>
            -- the second member starts right after the dropped first one
            obtain ⟨-, hab, -⟩ := consecutive_cons_cons.mp h
            rw [List.head?_cons, Option.mem_some_iff] at hb
            rw [← hb]
            omega
      · rw [List.dropWhile_cons_of_neg (by simpa using ha)]
        exact hhead

/-- Pushing an interval that starts right after the last one. -/
theorem Consecutive.concat (h : Consecutive lo hi l) (hb : lo b ≤ hi b)
    (hnext : ∀ x ∈ l.getLast?, lo b = hi x + 1) :
    Consecutive lo hi (l ++ [b]) := by
  refine ⟨?_, h.2.append (.singleton b) ?_⟩
  · intro x hx
    rcases List.mem_append.mp hx with hx | hx
    · exact h.1 x hx
    · rw [List.mem_singleton.mp hx]
      exact hb
  · intro x hx y hy
    rw [List.head?_cons, Option.mem_some_iff] at hy
    rw [← hy]
    exact hnext x hx

/-- Replacing the last interval by one with the same start and a later end. -/
theorem Consecutive.widen_last (h : Consecutive lo hi (l ++ [a]))
    (hlo : lo b = lo a) (hhi : hi a ≤ hi b) : Consecutive lo hi (l ++ [b]) := by
  obtain ⟨hne, hc⟩ := h
  rw [List.isChain_append] at hc
  obtain ⟨hl, -, hjoin⟩ := hc
  refine Consecutive.concat ⟨fun x hx => hne x (List.mem_append_left _ hx), hl⟩ ?_ ?_
  · have := hne a (List.mem_append_right _ (List.mem_singleton_self a))
    omega
  · intro x hx
    rw [hlo]
    exact hjoin x hx a (by simp)

/-- Replacing the first interval by one with the same end and a later,
    still non-empty, start. -/
theorem Consecutive.narrow_head (h : Consecutive lo hi (a :: l))
    (hhi : hi b = hi a) (hb : lo b ≤ hi b) : Consecutive lo hi (b :: l) := by
  cases l with
  | nil => exact consecutive_singleton hb
  | cons c l =>
      obtain ⟨-, hc, hrest⟩ := consecutive_cons_cons.mp h
      exact consecutive_cons_cons.mpr ⟨hb, by rw [hhi]; exact hc, hrest⟩

/-- Every member of a chain ends at or before the last one. -/
theorem Consecutive.hi_le_getLast (h : Consecutive lo hi l) (ha : a ∈ l)
    (hz : b ∈ l.getLast?) : hi a ≤ hi b := by
  induction l generalizing a with
  | nil => exact nomatch ha
  | cons c l ih =>
      cases l with
      | nil =>
          rw [List.mem_singleton.mp ha]
          rw [List.getLast?_singleton, Option.mem_some_iff] at hz
          rw [hz]
      | cons d l =>
          obtain ⟨-, hcd, hrest⟩ := consecutive_cons_cons.mp h
          rw [List.getLast?_cons_cons] at hz
          rcases List.mem_cons.mp ha with rfl | ha
          · -- the head ends before the second member, which ends before the last
            have := ih hrest (List.mem_cons_self ..) hz
            have := hrest.le_of_mem (List.mem_cons_self ..)
            omega
          · exact ih hrest ha hz

/-- Every point covered by a chain lies at or above its first start. -/
theorem Consecutive.lo_le_of_mem_cover (h : Consecutive lo hi (a :: l)) {n : ℕ}
    (hn : n ∈ cover lo hi (a :: l)) : lo a ≤ n := by
  induction l generalizing a with
  | nil =>
      simp only [cover, Finset.union_empty, Finset.mem_Icc] at hn
      exact hn.1
  | cons b l ih =>
      obtain ⟨ha, hab, hrest⟩ := consecutive_cons_cons.mp h
      rw [cover, Finset.mem_union, Finset.mem_Icc] at hn
      rcases hn with hn | hn
      · exact hn.1
      · have := ih hrest hn
        omega

/-- **COVER**: a non-empty chain covers exactly the interval from its first
    start to its last end. -/
theorem Consecutive.cover_eq (h : Consecutive lo hi (a :: l)) :
    cover lo hi (a :: l) = Finset.Icc (lo a) (hi ((a :: l).getLast (List.cons_ne_nil a l))) := by
  induction l generalizing a with
  | nil => simp [cover]
  | cons b l ih =>
      obtain ⟨ha, hab, hrest⟩ := consecutive_cons_cons.mp h
      have hb := hrest.le_of_mem (List.mem_cons_self ..)
      have hlast : hi b ≤ hi ((b :: l).getLast (List.cons_ne_nil b l)) :=
        hrest.hi_le_getLast (List.mem_cons_self ..) (List.getLast_mem_getLast? _)
      rw [cover, ih hrest, List.getLast_cons (List.cons_ne_nil b l)]
      ext n
      simp only [Finset.mem_union, Finset.mem_Icc]
      omega

/-- **COUNT**: counting points of the cover is summing counts per interval,
    since the intervals of a chain are pairwise disjoint. -/
theorem Consecutive.card_filter_cover (h : Consecutive lo hi l) (P : ℕ → Prop)
    [DecidablePred P] :
    ((cover lo hi l).filter P).card =
      (l.map fun a => ((Finset.Icc (lo a) (hi a)).filter P).card).sum := by
  induction l with
  | nil => simp [cover]
  | cons a l ih =>
      have hdisj : Disjoint (Finset.Icc (lo a) (hi a)) (cover lo hi l) := by
        cases l with
        | nil => simp [cover]
        | cons b l =>
            obtain ⟨-, hab, hrest⟩ := consecutive_cons_cons.mp h
            rw [Finset.disjoint_left]
            intro n hn hn'
            have := hrest.lo_le_of_mem_cover hn'
            rw [Finset.mem_Icc] at hn
            omega
      rw [cover, Finset.filter_union, Finset.card_union_of_disjoint
        (Finset.disjoint_filter_filter hdisj), ih h.tail, List.map_cons, List.sum_cons]

end IntervalChain
