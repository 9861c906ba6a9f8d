import Mathlib.Data.List.Rotate

/-! # Windows of a cyclic list — every element served equally often

    The window of `c` elements of a list `l` of length `n` from offset `o`,
    read cyclically, is `(l.rotate o).take c`.  Over any `n` consecutive
    offsets, every element of a list without duplicates lies in exactly
    `c` of the windows (`countP_mem_window`).

    The route:

    * a window is one slice of the list, or a tail and a head of it where it
      wraps (`take_rotate_of_le`, `take_rotate_of_wrap`);
    * an element's place in the rotated list (`mem_window_iff`): the element
      at `i` lies in the window at `o` exactly when
      `(i + n - o % n) % n < c`;
    * shifting a periodic predicate along `n` consecutive offsets does not
      change how often it holds (`countP_range_shift`);
    * from the offset just after the element, its places run
      `n - 1, n - 2, …, 0`, and `c` of them are below `c`
      (`countP_range_le_add`). -/

namespace CyclicWindow

variable {α : Type}

/-! ## Residues -/

/-- Modulo `n` on `[0, 2n)`. -/
theorem mod_of_lt_two_mul {x n : ℕ} (h : x < 2 * n) : x % n = if x < n then x else x - n := by
  split
  · exact Nat.mod_eq_of_lt ‹_›
  · rw [Nat.mod_eq_sub_mod (by omega), Nat.mod_eq_of_lt (by omega)]

/-- On residues, adding `a` and taking `a` back are inverse. -/
theorem add_mod_eq_iff {n a i j : ℕ} (ha : a < n) (hi : i < n) (hj : j < n) :
    (j + a) % n = i ↔ (i + n - a) % n = j := by
  rw [mod_of_lt_two_mul (by omega : j + a < 2 * n),
    mod_of_lt_two_mul (by omega : i + n - a < 2 * n)]
  split <;> split <;> omega

/-! ## One window -/

/-- A window that wraps is the tail from `o` and a head of the list. -/
theorem take_rotate_of_wrap {l : List α} {o c : ℕ} (ho : o ≤ l.length) (hc : c ≤ l.length)
    (hwrap : l.length ≤ o + c) :
    (l.rotate o).take c = l.drop o ++ l.take (o + c - l.length) := by
  rw [List.rotate_eq_drop_append_take ho, List.take_append,
    List.take_of_length_le (by rw [List.length_drop]; omega), List.take_take, List.length_drop]
  congr 2
  omega

/-- A window that does not wrap is a slice. -/
theorem take_rotate_of_le {l : List α} {o c : ℕ} (hoc : o + c ≤ l.length) :
    (l.rotate o).take c = (l.take (o + c)).drop o := by
  rw [List.rotate_eq_drop_append_take (by omega),
    List.take_append_of_le_length (by rw [List.length_drop]; omega), List.drop_take]
  congr 1
  omega

/-- **PLACE IN A WINDOW.** The element at `i` of a list without duplicates
    lies in the window at `o` exactly when its place in the rotated list is
    below the window's length. -/
theorem mem_window_iff {l : List α} (hnd : l.Nodup) (c o : ℕ) {i : ℕ} (hi : i < l.length) :
    l[i] ∈ (l.rotate o).take c ↔ (i + l.length - o % l.length) % l.length < c := by
  have hpos : 0 < l.length := by omega
  have ha : o % l.length < l.length := Nat.mod_lt o hpos
  constructor
  · intro hmem
    obtain ⟨j, hj, hget⟩ := List.getElem_of_mem hmem
    rw [List.getElem_take, List.getElem_rotate] at hget
    rw [List.length_take, List.length_rotate] at hj
    -- the rotated list holds `l[i]` at `j` only
    have hidx : (j + o) % l.length = i := hnd.getElem_inj_iff.mp hget
    rw [← Nat.add_mod_mod] at hidx
    rw [(add_mod_eq_iff ha hi (by omega)).mp hidx]
    omega
  · intro hlt
    have hj : (i + l.length - o % l.length) % l.length < l.length := Nat.mod_lt _ hpos
    have hidx : ((i + l.length - o % l.length) % l.length + o) % l.length = i := by
      rw [← Nat.add_mod_mod]
      exact (add_mod_eq_iff ha hi hj).mpr rfl
    have hlen : (i + l.length - o % l.length) % l.length < ((l.rotate o).take c).length := by
      rw [List.length_take, List.length_rotate]
      omega
    have hget : ((l.rotate o).take c)[(i + l.length - o % l.length) % l.length] = l[i] := by
      rw [List.getElem_take, List.getElem_rotate]
      simp only [hidx]
    rw [← hget]
    exact List.getElem_mem hlen

/-! ## Counting over consecutive offsets -/

/-- Shifting `n` consecutive offsets by one changes nothing for a
    predicate that repeats after `n`. -/
theorem countP_range_shift (q : ℕ → Bool) (n s : ℕ) (hper : q (s + n) = q s) :
    (List.range n).countP (fun k => q (s + 1 + k)) = (List.range n).countP (fun k => q (s + k)) := by
  cases n with
  | zero => rfl
  | succ m =>
      -- drop the last offset on the left, the first on the right
      conv_rhs => rw [List.range_succ_eq_map, List.countP_cons, List.countP_map]
      rw [List.range_succ, List.countP_append]
      have hshift : (fun k => q (s + k)) ∘ Nat.succ = fun k => q (s + 1 + k) := by
        funext k
        simp only [Function.comp_apply]
        congr 1
        omega
      have hlast : q (s + 1 + m) = q (s + 0) := by
        show q (s + 1 + m) = q s
        rw [show s + 1 + m = s + (m + 1) by omega, hper]
      rw [hshift]
      simp [hlast]

/-- A predicate that repeats after `n` holds as often over any `n`
    consecutive offsets. -/
theorem countP_range_periodic (q : ℕ → Bool) (n : ℕ) (hper : ∀ x, q (x + n) = q x) :
    ∀ s t, (List.range n).countP (fun k => q (s + k)) = (List.range n).countP (fun k => q (t + k)) := by
  -- every start gives the count from `0`
  have hzero : ∀ s, (List.range n).countP (fun k => q (s + k)) =
      (List.range n).countP (fun k => q (0 + k)) := by
    intro s
    induction s with
    | zero => rfl
    | succ s ih =>
        rw [← ih, ← countP_range_shift q n s (hper s)]
  intro s t
  rw [hzero s, hzero t]

/-- Of the offsets `0, …, n - 1`, those `k` with `n ≤ k + c` are `min c n`. -/
theorem countP_range_le_add (c : ℕ) : ∀ n, (List.range n).countP (fun k => decide (n ≤ k + c)) = min c n := by
  intro n
  induction n with
  | zero => simp
  | succ n ih =>
      rw [List.range_succ_eq_map, List.countP_cons, List.countP_map]
      have hpred : (fun k => decide (n + 1 ≤ k + c)) ∘ Nat.succ = fun k => decide (n ≤ k + c) := by
        funext k
        simp only [Function.comp_apply, decide_eq_decide]
        omega
      rw [hpred, ih]
      by_cases hc : n + 1 ≤ c
      · simp only [Nat.zero_add, hc, decide_true, if_true]
        omega
      · simp only [Nat.zero_add, hc, decide_false, Bool.false_eq_true, if_false]
        omega

variable [DecidableEq α]

/-- **EVERY ELEMENT SERVED `c` TIMES.** Over any `n` consecutive offsets of
    a list of `n` distinct elements, each element lies in exactly `c` of
    the windows of `c ≤ n` elements. -/
theorem countP_mem_window {l : List α} (hnd : l.Nodup) {c : ℕ} (hc : c ≤ l.length) (s : ℕ)
    {v : α} (hv : v ∈ l) :
    (List.range l.length).countP (fun k => decide (v ∈ (l.rotate (s + k)).take c)) = c := by
  obtain ⟨i, hi, rfl⟩ := List.getElem_of_mem hv
  -- a window repeats after `n` offsets
  have hper : ∀ x, decide (l[i] ∈ (l.rotate (x + l.length)).take c) =
      decide (l[i] ∈ (l.rotate x).take c) := by
    intro x
    rw [← List.rotate_mod l (x + l.length), Nat.add_mod_right, List.rotate_mod]
  have hstart := countP_range_periodic (fun x => decide (l[i] ∈ (l.rotate x).take c)) l.length hper
    s (i + 1)
  rw [hstart]
  -- from just after `i`, the places of `l[i]` run down from `n - 1`
  have hplace : ∀ k ∈ List.range l.length,
      decide (l[i] ∈ (l.rotate (i + 1 + k)).take c) = true ↔
        decide (l.length ≤ k + c) = true := by
    intro k hk
    rw [List.mem_range] at hk
    rw [decide_eq_true_iff, decide_eq_true_iff, mem_window_iff hnd c (i + 1 + k) hi,
      mod_of_lt_two_mul (by omega : i + 1 + k < 2 * l.length)]
    split
    · rw [Nat.mod_eq_of_lt (by omega)]
      omega
    · rw [mod_of_lt_two_mul (by omega : i + l.length - (i + 1 + k - l.length) < 2 * l.length)]
      split <;> omega
  rw [List.countP_congr hplace, countP_range_le_add c l.length]
  exact Nat.min_eq_left hc

end CyclicWindow
