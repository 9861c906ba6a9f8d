import Mathlib.Order.Lattice

/-! # Sorted association lists — the entries of an ordered map

    An ordered map (a B-tree map, say) seen through its entries: an
    association list whose keys strictly increase.  `insert` puts an entry
    where its key belongs and replaces the entry of the same key, so the
    entries stay sorted whatever is inserted.

    The route:

    * the keys after an insertion are the inserted key and the old keys
      (`mem_keys_insert`);
    * insertion keeps the keys strictly increasing (`sorted_insert`);
    * a key above every key goes to the end (`insert_of_lt`), so inserting
      the entries of a sorted list one by one rebuilds that list
      (`foldl_insert_of_sorted`). -/

namespace SortedMap

variable {κ β : Type} [LinearOrder κ]

/-- The keys of the entries strictly increase. -/
def Sorted (l : List (κ × β)) : Prop :=
  (l.map Prod.fst).Pairwise (· < ·)

/-- Insert an entry: before the first greater key, or in place of the entry
    of the same key. -/
def insert (k : κ) (v : β) : List (κ × β) → List (κ × β)
  | [] => [(k, v)]
  | e :: rest =>
      if k < e.1 then (k, v) :: e :: rest
      else if k = e.1 then (k, v) :: rest
      else e :: insert k v rest

/-- Every key after an insertion is the inserted key or an old key. -/
theorem mem_keys_insert {k x : κ} {v : β} {l : List (κ × β)}
    (hx : x ∈ (insert k v l).map Prod.fst) : x = k ∨ x ∈ l.map Prod.fst := by
  induction l with
  | nil =>
      simp only [insert, List.map_cons, List.map_nil, List.mem_singleton] at hx
      exact .inl hx
  | cons e rest ih =>
      simp only [insert] at hx
      split_ifs at hx with hlt heq
      · -- inserted in front: the old entries follow unchanged
        rcases List.mem_cons.mp hx with rfl | hx
        · exact .inl rfl
        · exact .inr hx
      · rcases List.mem_cons.mp hx with rfl | hx
        · exact .inl rfl
        · exact .inr (List.mem_cons_of_mem _ hx)
      · rcases List.mem_cons.mp hx with rfl | hx
        · exact .inr (List.mem_cons_self ..)
        · rcases ih hx with rfl | hx
          · exact .inl rfl
          · exact .inr (List.mem_cons_of_mem _ hx)

/-- **INSERTION KEEPS THE MAP SORTED.** -/
theorem sorted_insert (k : κ) (v : β) {l : List (κ × β)} (h : Sorted l) : Sorted (insert k v l) := by
  induction l with
  | nil => simp [Sorted, insert]
  | cons e rest ih =>
      unfold Sorted at h ⊢
      rw [List.map_cons, List.pairwise_cons] at h
      simp only [insert]
      split_ifs with hlt heq
      · -- `k` is below `e.1`, hence below every later key
        rw [List.map_cons, List.map_cons, List.pairwise_cons, List.pairwise_cons]
        refine ⟨?_, h⟩
        intro x hx
        rcases List.mem_cons.mp hx with rfl | hx
        · exact hlt
        · exact lt_trans hlt (h.1 x hx)
      · -- `k` takes the place of `e.1`
        subst heq
        rw [List.map_cons, List.pairwise_cons]
        exact h
      · -- `k` is above `e.1`: it goes into the rest
        have hgt : e.1 < k := lt_of_le_of_ne (not_lt.mp hlt) (Ne.symm heq)
        rw [List.map_cons, List.pairwise_cons]
        refine ⟨?_, ih h.2⟩
        intro x hx
        rcases mem_keys_insert hx with rfl | hx
        · exact hgt
        · exact h.1 x hx

/-- A key above every key is inserted at the end. -/
theorem insert_of_lt {k : κ} {v : β} {l : List (κ × β)} (h : ∀ e ∈ l, e.1 < k) :
    insert k v l = l ++ [(k, v)] := by
  induction l with
  | nil => rfl
  | cons e rest ih =>
      have hgt : e.1 < k := h e (List.mem_cons_self ..)
      rw [insert, if_neg (lt_asymm hgt), if_neg (ne_of_gt hgt),
        ih fun e' he' => h e' (List.mem_cons_of_mem _ he'), List.cons_append]

/-- **ONE BY ONE, IN ORDER**: inserting the entries of `l` in turn after
    `acc`, where `acc ++ l` is sorted, appends them. -/
theorem foldl_insert_of_sorted (l : List (κ × β)) :
    ∀ acc : List (κ × β), Sorted (acc ++ l) →
      l.foldl (fun m e => insert e.1 e.2 m) acc = acc ++ l := by
  induction l with
  | nil => intro acc _; rw [List.foldl_nil, List.append_nil]
  | cons e rest ih =>
      intro acc hsorted
      -- every key of `acc` is below `e.1`
      have hbelow : ∀ e' ∈ acc, e'.1 < e.1 := by
        unfold Sorted at hsorted
        rw [List.map_append, List.pairwise_append] at hsorted
        intro e' he'
        exact hsorted.2.2 e'.1 (List.mem_map_of_mem he') e.1 (List.mem_map_of_mem (List.mem_cons_self ..))
      rw [List.foldl_cons, insert_of_lt hbelow]
      have hnext : acc ++ [e] ++ rest = acc ++ e :: rest := by simp
      rw [ih (acc ++ [(e.1, e.2)]) (by simpa [hnext] using hsorted), List.append_assoc]
      rfl

end SortedMap
