import Mathlib.Data.Finset.Card
import Mathlib.Logic.Function.Basic

/-! # Ring buffers over a keyed store — which keys survive

    A store keeps values under keys, and a ring of `K` slots remembers the
    keys written last.  A write (`push`) stores its value, puts its key into
    the slot under the pointer, advances the pointer modulo `K` and removes
    from the store the key that slot held before.

    Against the list `w` of writes made from the empty ring, `Tracks K r w`
    says where everything is: the pointer is `w.length % K`, slot `m % K`
    holds the key of write `m` for each of the last `K` writes, the other
    slots are empty, and the store holds exactly the last `K` writes.  A push
    of a key that no earlier write used keeps it (`Tracks.push`); a key that
    is written again can be removed by the very push that stores it, which
    is why the freshness hypothesis is there. -/

namespace RingBuffer

/-- The slots, the pointer and the store of a ring buffer. -/
structure Ring (κ β : Type) where
  slots : ℕ → Option κ
  pointer : ℕ
  store : κ → Option β

variable {κ β : Type}

/-- No slot filled, nothing stored. -/
def empty : Ring κ β := ⟨fun _ => none, 0, fun _ => none⟩

/-- Store `k ↦ v`, remember `k` in the slot under the pointer, advance the
    pointer, and remove the key the slot held before, if any. -/
def push [DecidableEq κ] (K : ℕ) (r : Ring κ β) (k : κ) (v : β) : Ring κ β where
  slots := Function.update r.slots r.pointer (some k)
  pointer := (r.pointer + 1) % K
  store :=
    match r.slots r.pointer with
    | some old => Function.update (Function.update r.store k (some v)) old none
    | none => Function.update r.store k (some v)

section PushSpec

variable [DecidableEq κ] {K : ℕ} (r : Ring κ β) (k : κ) (v : β)

@[simp] theorem push_slots : (push K r k v).slots = Function.update r.slots r.pointer (some k) :=
  rfl

@[simp] theorem push_pointer : (push K r k v).pointer = (r.pointer + 1) % K := rfl

/-- The store after a push: the key the slot held is pruned, the pushed key
    holds its value, and every other key keeps its own. -/
theorem push_store (k' : κ) :
    (push K r k v).store k' =
      if r.slots r.pointer = some k' then none else if k' = k then some v else r.store k' := by
  unfold push
  dsimp only
  cases r.slots r.pointer with
  | none =>
      rw [if_neg (nomatch ·)]
      exact Function.update_apply ..
  | some old =>
      by_cases hold : k' = old
      · subst hold
        rw [if_pos rfl]
        exact Function.update_self ..
      · rw [if_neg (fun hs => hold (Option.some.inj hs).symm)]
        show Function.update (Function.update r.store k (some v)) old none k' = _
        rw [Function.update_of_ne hold]
        exact Function.update_apply ..

end PushSpec

/-- Where every write of `w` is, in a ring that received exactly `w`: write
    `m` is retained when it is one of the last `K`, `w.length - K ≤ m`. -/
structure Tracks (K : ℕ) (r : Ring κ β) (w : List (κ × β)) : Prop where
  pointer_eq : r.pointer = w.length % K
  slot_retained : ∀ m (hm : m < w.length), w.length - K ≤ m → r.slots (m % K) = some w[m].1
  slot_empty : ∀ i, min K w.length ≤ i → r.slots i = none
  store_iff : ∀ k v, r.store k = some v ↔
    ∃ m, ∃ hm : m < w.length, w.length - K ≤ m ∧ w[m] = (k, v)

theorem tracks_empty (K : ℕ) : Tracks K (empty : Ring κ β) [] where
  pointer_eq := by simp [empty]
  slot_retained := fun _ hm => absurd hm (Nat.not_lt_zero _)
  slot_empty := fun _ _ => rfl
  store_iff := by
    intro k v
    simp only [empty, reduceCtorEq, false_iff]
    rintro ⟨m, hm, -⟩
    exact Nat.not_lt_zero _ hm

/-- Two writes with one key are one write, when no key is written twice. -/
theorem index_eq_of_key_eq {w : List (κ × β)} (hnd : (w.map Prod.fst).Nodup) {m m' : ℕ}
    (hm : m < w.length) (hm' : m' < w.length) (heq : w[m].1 = w[m'].1) : m = m' := by
  have hm₁ : m < (w.map Prod.fst).length := by rw [List.length_map]; exact hm
  have hm₁' : m' < (w.map Prod.fst).length := by rw [List.length_map]; exact hm'
  apply (@List.Nodup.getElem_inj_iff _ _ hnd m hm₁ m' hm₁').mp
  rw [List.getElem_map, List.getElem_map]
  exact heq

/-- The writes after one more: the old ones below the old length, the new
    one at it. -/
theorem getElem_concat_cases (w : List (κ × β)) (p : κ × β) (m : ℕ)
    (hm : m < (w ++ [p]).length) :
    (∃ hlt : m < w.length, (w ++ [p])[m] = w[m]) ∨ (m = w.length ∧ (w ++ [p])[m] = p) := by
  rw [List.length_append, List.length_singleton] at hm
  by_cases hlt : m < w.length
  · exact .inl ⟨hlt, List.getElem_append_left hlt⟩
  · have hmn : m = w.length := by omega
    subst hmn
    exact .inr ⟨rfl, List.getElem_concat_length rfl _⟩

section Push

variable {K : ℕ} {r : Ring κ β} {w : List (κ × β)}

/-- The slot under the pointer holds the key of the write `K` back, once the
    ring has gone round. -/
theorem Tracks.slot_pointer (h : Tracks K r w) (hK : 0 < K) :
    r.slots r.pointer = if hfull : K ≤ w.length then some w[w.length - K].1 else none := by
  rw [h.pointer_eq]
  split
  · rename_i hfull
    have hmod : (w.length - K) % K = w.length % K := by
      conv_rhs => rw [show w.length = w.length - K + K by omega]
      rw [Nat.add_mod_right]
    rw [← hmod]
    exact h.slot_retained _ (by omega) le_rfl
  · rename_i hfull
    apply h.slot_empty
    rw [Nat.mod_eq_of_lt (by omega)]
    omega

/-- The writes retained after a push: the new one, or an old one from
    `n + 1 - K` on. -/
theorem retained_concat_iff (hK : 0 < K) (w : List (κ × β)) (k k' : κ) (v v' : β) :
    (∃ m, ∃ hm : m < (w ++ [(k, v)]).length, (w ++ [(k, v)]).length - K ≤ m ∧
        (w ++ [(k, v)])[m] = (k', v')) ↔
      (k' = k ∧ v' = v) ∨ ∃ m, ∃ hm : m < w.length, w.length + 1 - K ≤ m ∧ w[m] = (k', v') := by
  have hlen : (w ++ [(k, v)]).length = w.length + 1 := by simp
  constructor
  · rintro ⟨m, hm, hlow, hget⟩
    rw [hlen] at hlow
    rcases getElem_concat_cases w (k, v) m hm with ⟨hlt, hold⟩ | ⟨rfl, hnew⟩
    · exact .inr ⟨m, hlt, hlow, hold ▸ hget⟩
    · rw [hnew, Prod.mk.injEq] at hget
      exact .inl ⟨hget.1.symm, hget.2.symm⟩
  · rintro (⟨rfl, rfl⟩ | ⟨m, hm, hlow, hget⟩)
    · exact ⟨w.length, by rw [hlen]; omega, by rw [hlen]; omega,
        List.getElem_concat_length rfl _⟩
    · refine ⟨m, by rw [hlen]; omega, by rw [hlen]; exact hlow, ?_⟩
      rw [List.getElem_append_left hm]
      exact hget

variable [DecidableEq κ]

theorem Tracks.push_pointer (h : Tracks K r w) (k : κ) (v : β) :
    (push K r k v).pointer = (w ++ [(k, v)]).length % K := by
  rw [RingBuffer.push_pointer, h.pointer_eq, List.length_append, List.length_singleton, Nat.mod_add_mod]

theorem Tracks.push_slot_retained (h : Tracks K r w) (k : κ) (v : β) :
    ∀ m (hm : m < (w ++ [(k, v)]).length), (w ++ [(k, v)]).length - K ≤ m →
      (push K r k v).slots (m % K) = some (w ++ [(k, v)])[m].1 := by
  intro m hm hlow
  rw [List.length_append, List.length_singleton] at hlow
  rw [push_slots, h.pointer_eq]
  rcases getElem_concat_cases w (k, v) m hm with ⟨hlt, hget⟩ | ⟨rfl, hget⟩
  · -- an older retained write is less than a round behind, so the pointer
    -- is not on its slot
    have hne : m % K ≠ w.length % K := by
      intro hmod
      obtain ⟨c, hc⟩ := Nat.dvd_of_mod_eq_zero (Nat.sub_mod_eq_zero_of_mod_eq hmod.symm)
      rcases c with _ | c
      · omega
      · have : K ≤ K * (c + 1) := Nat.le_mul_of_pos_right K (Nat.succ_pos c)
        omega
    rw [Function.update_of_ne hne, hget]
    exact h.slot_retained m hlt (by omega)
  · rw [Function.update_self, hget]

theorem Tracks.push_slot_empty (h : Tracks K r w) (hK : 0 < K) (k : κ) (v : β) :
    ∀ i, min K (w ++ [(k, v)]).length ≤ i → (push K r k v).slots i = none := by
  intro i hi
  rw [List.length_append, List.length_singleton] at hi
  have hne : i ≠ r.pointer := by
    rw [h.pointer_eq]
    have := Nat.mod_lt w.length hK
    have := Nat.mod_le w.length K
    omega
  rw [push_slots, Function.update_of_ne hne]
  exact h.slot_empty i (by omega)

/-- The store after a push of a fresh key holds exactly the last `K` writes. -/
theorem Tracks.push_store_iff (h : Tracks K r w) (hK : 0 < K)
    (hnd : (w.map Prod.fst).Nodup) {k : κ} (hfresh : k ∉ w.map Prod.fst) (v : β) :
    ∀ k' v', (push K r k v).store k' = some v' ↔
      ∃ m, ∃ hm : m < (w ++ [(k, v)]).length, (w ++ [(k, v)]).length - K ≤ m ∧
        (w ++ [(k, v)])[m] = (k', v') := by
  have hnotk : ∀ m (hm : m < w.length), w[m].1 ≠ k := by
    intro m hm heq
    apply hfresh
    rw [List.mem_map]
    exact ⟨w[m], List.getElem_mem hm, heq⟩
  intro k' v'
  rw [retained_concat_iff hK, push_store, h.slot_pointer hK]
  -- the store before the pruned key is removed: the new write, or an old one
  have hstored : (if k' = k then some v else r.store k') = some v' ↔
      (k' = k ∧ v' = v) ∨ ∃ m, ∃ hm : m < w.length, w.length - K ≤ m ∧ w[m] = (k', v') := by
    by_cases hk : k' = k
    · subst hk
      rw [if_pos rfl, Option.some.injEq]
      constructor
      · intro hv
        exact .inl ⟨rfl, hv.symm⟩
      · rintro (⟨-, hv⟩ | ⟨m, hm, -, hget⟩)
        · exact hv.symm
        · exact absurd (congrArg Prod.fst hget) (hnotk m hm)
    · rw [if_neg hk, h.store_iff]
      constructor
      · exact .inr
      · rintro (⟨hk', -⟩ | hold)
        · exact absurd hk' hk
        · exact hold
  by_cases hfull : K ≤ w.length
  · -- the ring has gone round: the write `K` back is pruned
    rw [dif_pos hfull]
    by_cases hk' : k' = w[w.length - K].1
    · -- nothing is stored under the pruned key, and no other retained
      -- write has it
      rw [if_pos (congrArg some hk'.symm)]
      have hne : w[w.length - K].1 ≠ k := hnotk _ _
      constructor
      · intro hnone
        exact nomatch hnone
      · rintro (⟨hk, -⟩ | ⟨m, hm, hlow, hget⟩)
        · exact absurd (hk'.symm.trans hk) hne
        · have hkey : w[m].1 = w[w.length - K].1 := by rw [hget, hk']
          have := index_eq_of_key_eq hnd hm _ hkey
          omega
    · rw [if_neg (fun hs => hk' (Option.some.inj hs).symm), hstored]
      constructor
      · rintro (hnew | ⟨m, hm, hlow, hget⟩)
        · exact .inl hnew
        · -- the pruned write is the one old retained write that is gone
          refine .inr ⟨m, hm, ?_, hget⟩
          rcases Nat.lt_or_ge (w.length - K) m with hlt | hle
          · omega
          · have hmk : m = w.length - K := by omega
            subst hmk
            exact absurd (by rw [hget]) hk'
      · rintro (hnew | ⟨m, hm, hlow, hget⟩)
        · exact .inl hnew
        · exact .inr ⟨m, hm, by omega, hget⟩
  · -- the ring has not gone round: nothing is pruned, and every write is
    -- retained before and after
    rw [dif_neg hfull, if_neg (nomatch ·), hstored]
    constructor
    · rintro (hnew | ⟨m, hm, -, hget⟩)
      · exact .inl hnew
      · exact .inr ⟨m, hm, by omega, hget⟩
    · rintro (hnew | ⟨m, hm, -, hget⟩)
      · exact .inl hnew
      · exact .inr ⟨m, hm, by omega, hget⟩

/-- **PUSH**: a push of a key no earlier write used keeps the buffer
    tracking its writes. -/
theorem Tracks.push (h : Tracks K r w) (hK : 0 < K) (hnd : (w.map Prod.fst).Nodup)
    {k : κ} (hfresh : k ∉ w.map Prod.fst) (v : β) :
    Tracks K (push K r k v) (w ++ [(k, v)]) :=
  ⟨h.push_pointer k v, h.push_slot_retained k v, h.push_slot_empty hK k v,
    h.push_store_iff hK hnd hfresh v⟩

end Push

section Consequences

variable {K : ℕ} {r : Ring κ β} {w : List (κ × β)}

theorem Tracks.pointer_lt (h : Tracks K r w) (hK : 0 < K) : r.pointer < K := by
  rw [h.pointer_eq]
  exact Nat.mod_lt _ hK

/-- The stored keys are exactly the keys in the slots. -/
theorem Tracks.stored_iff_slot (h : Tracks K r w) (hK : 0 < K) (k : κ) :
    (r.store k).isSome ↔ ∃ i, r.slots i = some k := by
  rw [Option.isSome_iff_exists]
  constructor
  · rintro ⟨v, hv⟩
    obtain ⟨m, hm, hlow, hget⟩ := (h.store_iff k v).mp hv
    refine ⟨m % K, ?_⟩
    rw [h.slot_retained m hm hlow, hget]
  · rintro ⟨i, hi⟩
    -- a filled slot is below `min K n`; the last write of its residue owns it
    have hlt : i < min K w.length := by
      by_contra hge
      rw [h.slot_empty i (by omega)] at hi
      exact nomatch hi
    have hdiv := Nat.div_add_mod (w.length - 1 - i) K
    have hmod := Nat.mod_lt (w.length - 1 - i) hK
    set m := i + K * ((w.length - 1 - i) / K) with hmdef
    have hmi : m % K = i := by
      rw [hmdef, Nat.add_mul_mod_self_left, Nat.mod_eq_of_lt (by omega)]
    have hm : m < w.length := by omega
    have hlow : w.length - K ≤ m := by omega
    rw [← hmi, h.slot_retained m hm hlow, Option.some.injEq] at hi
    exact ⟨w[m].2, (h.store_iff k _).mpr ⟨m, hm, hlow, by rw [← hi]⟩⟩

/-- The last `K` writes are stored, each with its value. -/
theorem Tracks.store_retained (h : Tracks K r w) {m : ℕ} (hm : m < w.length)
    (hlow : w.length - K ≤ m) : r.store w[m].1 = some w[m].2 :=
  (h.store_iff _ _).mpr ⟨m, hm, hlow, rfl⟩

/-- The last write is stored, when the ring has a slot. -/
theorem Tracks.store_getLast (h : Tracks K r w) (hK : 0 < K) {p : κ × β}
    (hp : w.getLast? = some p) : r.store p.1 = some p.2 := by
  obtain ⟨ys, rfl⟩ := List.getLast?_eq_some_iff.mp hp
  have hlen : ys.length < (ys ++ [p]).length := by simp
  have hlast : (ys ++ [p])[ys.length] = p := List.getElem_concat_length rfl hlen
  have := h.store_retained hlen (by simp; omega)
  rwa [hlast] at this

end Consequences

/-! ## Whatever keys are written

    A key written again while the ring still holds it breaks `Tracks`: the
    push that stores it can prune it (`push_store_self`).  What survives any
    writes is `Bounded`: the pointer and the filled slots stay below `K`, and
    a stored key sits in a slot, so at most `K` keys are stored. -/

section Bounded

variable {K : ℕ} {r : Ring κ β}

/-- What a ring keeps whatever keys were written to it. -/
structure Bounded (K : ℕ) (r : Ring κ β) : Prop where
  pointer_lt : r.pointer < K
  slot_empty : ∀ i, K ≤ i → r.slots i = none
  stored_slot : ∀ k, (r.store k).isSome → ∃ i, r.slots i = some k

theorem bounded_empty (hK : 0 < K) : Bounded K (empty : Ring κ β) :=
  ⟨hK, fun _ _ => rfl, fun _ h => nomatch h⟩

/-- A filled slot is one of the first `K`. -/
theorem Bounded.slot_lt (h : Bounded K r) {i : ℕ} {k : κ} (hi : r.slots i = some k) : i < K := by
  by_contra hge
  rw [h.slot_empty i (by omega)] at hi
  exact nomatch hi

variable [DecidableEq κ]

/-- The pushed key is stored, unless the slot it goes into held it. -/
theorem push_store_self (r : Ring κ β) (k : κ) (v : β) :
    (push K r k v).store k = if r.slots r.pointer = some k then none else some v := by
  rw [push_store, if_pos (rfl : k = k)]

/-- Another key keeps its value, unless it was the one pruned. -/
theorem push_store_of_ne (r : Ring κ β) {k k' : κ} (hk : k' ≠ k) (v : β) :
    (push K r k v).store k' = if r.slots r.pointer = some k' then none else r.store k' := by
  rw [push_store, if_neg hk]

/-- **PUSH, ANY KEY**: every push keeps a ring bounded. -/
theorem Bounded.push (h : Bounded K r) (k : κ) (v : β) : Bounded K (push K r k v) where
  pointer_lt := Nat.mod_lt _ (Nat.zero_lt_of_lt h.pointer_lt)
  slot_empty := by
    intro i hi
    have hne : i ≠ r.pointer := by
      have := h.pointer_lt
      omega
    rw [push_slots, Function.update_of_ne hne]
    exact h.slot_empty i hi
  stored_slot := by
    intro k' hk'
    by_cases hkk : k' = k
    · subst hkk
      exact ⟨r.pointer, by rw [push_slots, Function.update_self]⟩
    rw [push_store_of_ne r hkk] at hk'
    split at hk'
    · exact nomatch hk'
    · -- an old key kept its slot: the one under the pointer held another key
      rename_i hnot
      obtain ⟨i, hi⟩ := h.stored_slot k' hk'
      have hne : i ≠ r.pointer := by
        rintro rfl
        exact hnot hi
      exact ⟨i, by rw [push_slots, Function.update_of_ne hne, hi]⟩

/-- The stored keys form a set of at most `K` keys. -/
theorem Bounded.card_stored_le (h : Bounded K r) :
    ∃ s : Finset κ, s.card ≤ K ∧ ∀ k, (r.store k).isSome ↔ k ∈ s := by
  -- the keys in the first `K` slots, of which the stored ones
  let inSlots := ((List.range K).filterMap r.slots).toFinset
  refine ⟨inSlots.filter fun k => (r.store k).isSome, ?_, ?_⟩
  · calc (inSlots.filter fun k => (r.store k).isSome).card
        ≤ inSlots.card := Finset.card_filter_le _ _
      _ ≤ ((List.range K).filterMap r.slots).length := List.toFinset_card_le _
      _ ≤ (List.range K).length := List.length_filterMap_le _ _
      _ = K := List.length_range
  · intro k
    rw [Finset.mem_filter, List.mem_toFinset, List.mem_filterMap]
    constructor
    · intro hk
      obtain ⟨i, hi⟩ := h.stored_slot k hk
      exact ⟨⟨i, List.mem_range.mpr (h.slot_lt hi), hi⟩, hk⟩
    · exact fun hk => hk.2

end Bounded

/-- A ring that tracks its writes is bounded. -/
theorem Tracks.bounded {K : ℕ} {r : Ring κ β} {w : List (κ × β)} (h : Tracks K r w)
    (hK : 0 < K) : Bounded K r where
  pointer_lt := h.pointer_lt hK
  slot_empty := fun i hi => h.slot_empty i (le_trans (min_le_left _ _) hi)
  stored_slot := fun k hk => (h.stored_iff_slot hK k).mp hk

end RingBuffer
