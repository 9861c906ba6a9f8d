import Mathlib.Order.Lattice
import Mathlib.Data.List.Basic

/-! # Search in a vector sorted by key — `binary_search_by_key` by its contract

    `slice::binary_search_by_key` on a slice sorted by a key answers `Ok`
    with a position holding the key searched, or `Err` with the position
    where an element of that key would be inserted, keeping the order.  The
    standard library fixes the answer and not the order of the probes, so
    the search is modelled by its answer: the first position whose key is
    not below the one searched, `Ok` when its key is that one.  On a slice
    sorted strictly by key the answer is the only one the contract allows.

    Two uses of the answer recur in callers: one past the position of the
    last key at most the one searched (`map (+ 1)` then `unwrap_or_else`),
    and the position of that last key itself (`unwrap_or_else` with a
    saturating step back).  Each is given here as what it selects.  With
    them, `Result::unwrap_or_else` and `Vec::swap_remove`. -/

namespace SortedSearch

variable {α β ε : Type}

/-- `Result::unwrap_or_else`. -/
def unwrapOrElse (r : Except ε α) (op : ε → α) : α :=
  match r with
  | .ok a => a
  | .error e => op e

@[simp] theorem unwrapOrElse_ok (a : α) (op : ε → α) : unwrapOrElse (.ok a) op = a := rfl

@[simp] theorem unwrapOrElse_error (e : ε) (op : ε → α) : unwrapOrElse (.error e) op = op e := rfl

/-- `Vec::swap_remove`: the element at `index`, and the vector with its last
    element moved into that place; `none` is the panic of an index out of
    bounds. -/
def swapRemove (l : List α) (index : ℕ) : Option (α × List α) :=
  match l[index]? with
  | some a => some (a, (l.set index (l.getLast?.getD a)).dropLast)
  | none => none

@[simp] theorem swapRemove_map_fst (l : List α) (index : ℕ) :
    (swapRemove l index).map Prod.fst = l[index]? := by
  unfold swapRemove
  cases l[index]? <;> rfl

variable [LinearOrder β]

/-- `binary_search_by_key(b, f)`: the first position whose key is not below
    `b`, found (`Ok`) when its key is `b`. -/
def binarySearchByKey (l : List α) (b : β) (f : α → β) : Except ℕ ℕ :=
  let index := l.findIdx fun a => b ≤ f a
  match l[index]? with
  | some a => if f a = b then .ok index else .error index
  | none => .error index

section Sorted

variable {l : List α} {f : α → β} {b : β}

/-- Every key before the first one not below `b` is below `b`. -/
theorem lt_of_lt_findIdx {j : ℕ} (hj : j < l.length)
    (hlt : j < l.findIdx fun a => b ≤ f a) : f l[j] < b := by
  have h := List.not_of_lt_findIdx hlt
  simpa using h

/-- A filter that fails before `k` and holds from `k` on is a drop. -/
theorem filter_eq_drop_of_getElem {q : α → Bool} (k : ℕ) (l : List α)
    (hlt : ∀ j (hj : j < l.length), j < k → q l[j] = false)
    (hge : ∀ j (hj : j < l.length), k ≤ j → q l[j] = true) :
    l.filter q = l.drop k := by
  conv_lhs => rw [← List.take_append_drop k l]
  rw [List.filter_append, List.filter_eq_nil_iff.2, List.filter_eq_self.2, List.nil_append]
  · intro a ha
    obtain ⟨j, hj, rfl⟩ := List.mem_iff_getElem.1 ha
    rw [List.getElem_drop]
    exact hge (k + j) _ (Nat.le_add_right k j)
  · intro a ha
    obtain ⟨j, hj, rfl⟩ := List.mem_iff_getElem.1 ha
    rw [List.length_take] at hj
    rw [List.getElem_take]
    simpa using hlt j _ (Nat.lt_of_lt_of_le hj (Nat.min_le_left _ _))

/-- A key absent from the list is not found; the answer is the first position
    whose key is above it. -/
theorem binarySearchByKey_eq_error (hb : ∀ a ∈ l, f a ≠ b) :
    binarySearchByKey l b f = .error (l.findIdx fun a => b ≤ f a) := by
  unfold binarySearchByKey
  dsimp only
  cases hget : l[l.findIdx fun a => b ≤ f a]? with
  | none => rfl
  | some a =>
      have ha : a ∈ l := List.mem_of_getElem? hget
      dsimp only
      rw [if_neg (hb a ha)]

variable (hs : l.Pairwise fun a c => f a < f c)
include hs

/-- Keys grow with the position. -/
theorem key_le_of_le {j k : ℕ} (hj : j < l.length) (hk : k < l.length) (hjk : j ≤ k) :
    f l[j] ≤ f l[k] := by
  rcases Nat.lt_or_eq_of_le hjk with hlt | rfl
  · exact le_of_lt (List.pairwise_iff_getElem.1 hs j k hj hk hlt)
  · exact le_rfl

/-- The first key is the least. -/
theorem key_head_le (hne : l ≠ []) {a : α} (ha : a ∈ l) : f (l.head hne) ≤ f a := by
  obtain ⟨k, hk, rfl⟩ := List.mem_iff_getElem.1 ha
  rw [List.head_eq_getElem]
  exact key_le_of_le hs _ hk (Nat.zero_le k)

/-- The last key is the greatest. -/
theorem key_le_getLast (hne : l ≠ []) {a : α} (ha : a ∈ l) : f a ≤ f (l.getLast hne) := by
  obtain ⟨k, hk, rfl⟩ := List.mem_iff_getElem.1 ha
  rw [List.getLast_eq_getElem]
  exact key_le_of_le hs hk _ (Nat.le_sub_one_of_lt hk)

/-- On a sorted list every key from the first one not below `b` on is not
    below `b`. -/
theorem le_of_findIdx_le {j : ℕ} (hj : j < l.length)
    (hle : (l.findIdx fun a => b ≤ f a) ≤ j) : b ≤ f l[j] := by
  have hlt : (l.findIdx fun a => b ≤ f a) < l.length := Nat.lt_of_le_of_lt hle hj
  have hfirst : b ≤ f l[l.findIdx fun a => b ≤ f a] := by
    simpa using List.findIdx_getElem (w := hlt)
  exact le_trans hfirst (key_le_of_le hs hlt hj hle)

/-- A key present at position `i` is found there. -/
theorem binarySearchByKey_eq_ok {i : ℕ} (hi : i < l.length) (hb : f l[i] = b) :
    binarySearchByKey l b f = .ok i := by
  -- the first key not below `b` is the one at `i`: earlier keys are smaller
  have hidx : (l.findIdx fun a => b ≤ f a) = i := by
    apply Nat.le_antisymm
    · refine Nat.le_of_not_lt fun hlt => ?_
      have := lt_of_lt_findIdx hi hlt
      exact lt_irrefl _ (hb ▸ this)
    · refine Nat.le_of_not_lt fun hlt => ?_
      have hfirst : b ≤ f l[l.findIdx fun a => b ≤ f a] := by
        simpa using List.findIdx_getElem (w := Nat.lt_trans hlt hi)
      have hbelow := List.pairwise_iff_getElem.1 hs _ i (Nat.lt_trans hlt hi) hi hlt
      exact lt_irrefl _ (lt_of_le_of_lt hfirst (hb ▸ hbelow))
  simp only [binarySearchByKey, hidx, List.getElem?_eq_getElem hi, hb, if_pos]

/-- **PAST THE LAST KEY AT MOST `b`.** Dropping up to one past the position
    found, or up to the insertion point, keeps exactly the keys above `b`. -/
theorem drop_searchPast :
    l.drop (unwrapOrElse ((binarySearchByKey l b f).map (· + 1)) id) =
      l.filter fun a => b < f a := by
  by_cases hmem : ∃ a ∈ l, f a = b
  case pos =>
    obtain ⟨a, ha, hb⟩ := hmem
    obtain ⟨i, hi, rfl⟩ := List.mem_iff_getElem.1 ha
    rw [binarySearchByKey_eq_ok hs hi hb]
    refine (filter_eq_drop_of_getElem (i + 1) l (fun j hj hji => ?_) (fun j hj hij => ?_)).symm
    · simpa [← hb] using key_le_of_le hs hj hi (Nat.le_of_lt_succ hji)
    · simpa [← hb] using List.pairwise_iff_getElem.1 hs i j hi hj hij
  case neg =>
    have habsent : ∀ a ∈ l, f a ≠ b := fun a ha hab => hmem ⟨a, ha, hab⟩
    rw [binarySearchByKey_eq_error habsent]
    refine (filter_eq_drop_of_getElem _ l (fun j hj hji => ?_) (fun j hj hij => ?_)).symm
    · simpa using le_of_lt (lt_of_lt_findIdx hj hji)
    · have hle := le_of_findIdx_le hs hj hij
      have hne := habsent l[j] (List.getElem_mem hj)
      simpa using lt_of_le_of_ne hle (Ne.symm hne)

/-- **THE LAST KEY AT MOST `b`.** When some key is at most `b`, the position
    found, or the one before the insertion point, holds the greatest such
    key. -/
theorem getElem?_searchBefore {a : α} (ha : a ∈ l) (hab : f a ≤ b) :
    ∃ e, l[unwrapOrElse (binarySearchByKey l b f) (· - 1)]? = some e ∧ f e ≤ b ∧
      ∀ c ∈ l, f c ≤ b → f c ≤ f e := by
  by_cases hmem : ∃ c ∈ l, f c = b
  case pos =>
    obtain ⟨c, hc, hb⟩ := hmem
    obtain ⟨i, hi, rfl⟩ := List.mem_iff_getElem.1 hc
    rw [binarySearchByKey_eq_ok hs hi hb, unwrapOrElse_ok, List.getElem?_eq_getElem hi]
    exact ⟨l[i], rfl, hb.le, fun c _ hc => hb ▸ hc⟩
  case neg =>
    have habsent : ∀ c ∈ l, f c ≠ b := fun c hc hcb => hmem ⟨c, hc, hcb⟩
    rw [binarySearchByKey_eq_error habsent, unwrapOrElse_error]
    -- a key at most `b` lies before the insertion point, which is then past 0
    have hbefore : ∀ c ∈ l, f c ≤ b → ∃ j, ∃ hj : j < l.length,
        l[j] = c ∧ j < l.findIdx fun a => b ≤ f a := by
      intro c hc hcb
      obtain ⟨j, hj, rfl⟩ := List.mem_iff_getElem.1 hc
      refine ⟨j, hj, rfl, Nat.lt_of_not_le fun hle => ?_⟩
      exact habsent _ hc (le_antisymm hcb (le_of_findIdx_le hs hj hle))
    obtain ⟨ja, hja, -, hjaP⟩ := hbefore a ha hab
    have hlast : (l.findIdx fun a => b ≤ f a) - 1 < l.length :=
      Nat.lt_of_lt_of_le (Nat.sub_lt (Nat.zero_lt_of_lt hjaP) Nat.one_pos) List.findIdx_le_length
    refine ⟨l[_], List.getElem?_eq_getElem hlast, ?_, fun c hc hcb => ?_⟩
    · exact le_of_lt (lt_of_lt_findIdx hlast (Nat.sub_lt (Nat.zero_lt_of_lt hjaP) Nat.one_pos))
    · obtain ⟨j, hj, rfl, hjP⟩ := hbefore c hc hcb
      exact key_le_of_le hs hj hlast (Nat.le_sub_one_of_lt hjP)

end Sorted

end SortedSearch
