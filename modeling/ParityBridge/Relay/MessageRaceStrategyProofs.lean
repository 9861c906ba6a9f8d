import ParityBridge.Lib.Reach
import ParityBridge.Lib.IntervalChain
import ParityBridge.Relay.MessageRaceDelivery

/-! # The source queue of `BasicStrategy` — no nonce lost or queued twice

    The race loop updates a `BasicStrategy` from both clients in any order:
    the target's best and finalized nonces, stale ones included, and the
    source's new nonces, which the loop asks for only while `best_at_source`
    is known, and which start at most one above it.  Whatever the order, the
    queue holds, range after range, exactly the nonces from one above the
    best target nonce to `best_at_source`, and neither best nonce ever
    decreases.

    The argument needs of `NoncesRange::greater_than` only that on a block
    of consecutive nonces it answers the block of those above its argument
    (`GreaterThanLaws`).  Both implementations satisfy it: `RangeInclusive`
    by range arithmetic, `MessageDetailsMap` by `split_off` on consecutive
    keys. -/

namespace ParityBridge

namespace MessageRace

open IntervalChain

variable {SH TH Pr : Type} {N : Type} [NoncesRange N]

namespace BasicStrategy

/-- The last nonce of a queue. -/
def queueEnd (q : List ((ℕ × SH) × N)) : Option ℕ :=
  q.getLast?.map (NoncesRange.end ·.2)

@[simp] theorem queueEnd_nil : queueEnd ([] : List ((ℕ × SH) × N)) = none := rfl

@[simp] theorem queueEnd_concat (q : List ((ℕ × SH) × N)) (x : (ℕ × SH) × N) :
    queueEnd (q ++ [x]) = some (NoncesRange.end x.2) := by
  rw [queueEnd, List.getLast?_concat, Option.map_some]

theorem queueEnd_singleton (x : (ℕ × SH) × N) : queueEnd [x] = some (NoncesRange.end x.2) :=
  queueEnd_concat [] x

theorem queueEnd_cons_cons (x y : (ℕ × SH) × N) (q : List ((ℕ × SH) × N)) :
    queueEnd (x :: y :: q) = queueEnd (y :: q) := by
  rw [queueEnd, queueEnd, List.getLast?_cons_cons]

/-- Replacing the front by a range with the same end keeps the last nonce. -/
theorem queueEnd_cons_of_end_eq {x y : (ℕ × SH) × N} (q : List ((ℕ × SH) × N))
    (hend : NoncesRange.end y.2 = NoncesRange.end x.2) : queueEnd (y :: q) = queueEnd (x :: q) := by
  cases q with
  | nil => rw [queueEnd_singleton, queueEnd_singleton, hend]
  | cons z q => rw [queueEnd_cons_cons, queueEnd_cons_cons]

/-- A last nonce above `nonce` is kept by the filter of the trim loops. -/
theorem filter_lt_eq_self {o : Option ℕ} {nonce : ℕ} (h : ∀ e ∈ o, nonce < e) :
    o.filter (nonce < ·) = o := by
  cases o with
  | none => rfl
  | some e => exact Option.filter_some_pos (by simpa using h e rfl)

/-- Neither best nonce is lower in `s'` than in `s`. -/
def Grows (s s' : BasicStrategy SH N) : Prop :=
  (∀ t ∈ s.bestTargetNonce, ∃ t' ∈ s'.bestTargetNonce, t ≤ t') ∧
    (∀ q ∈ s.bestAtSource, ∃ q' ∈ s'.bestAtSource, q ≤ q')

theorem grows_refl (s : BasicStrategy SH N) : Grows s s :=
  ⟨fun t ht => ⟨t, ht, le_refl t⟩, fun q hq => ⟨q, hq, le_refl q⟩⟩

/-- Before the target reports a nonce, the source's best nonce is unknown. -/
theorem bestAtSource_of_none {s : BasicStrategy SH N} (h : s.bestTargetNonce = none) :
    s.bestAtSource = none := by
  rw [bestAtSource, h]
  split
  · contradiction
  · contradiction
  · rfl

section Laws

variable (nonces : N → List ℕ)

/-- A range holding exactly the consecutive nonces from its first to its
    last one. -/
def IsBlock (r : N) : Prop :=
  nonces r = List.range' (NoncesRange.begin r) (NoncesRange.end r + 1 - NoncesRange.begin r)

/-- What the strategy needs of `greater_than`: on a non-empty block it
    answers `None` exactly when no nonce of the block is above its argument,
    and otherwise the block of those above it. -/
structure GreaterThanLaws : Prop where
  eq_none_iff : ∀ r n, IsBlock nonces r → NoncesRange.begin r ≤ NoncesRange.end r →
    (NoncesRange.greaterThan r n = none ↔ NoncesRange.end r ≤ n)
  of_eq_some : ∀ r n r', IsBlock nonces r → NoncesRange.begin r ≤ NoncesRange.end r →
    NoncesRange.greaterThan r n = some r' →
      IsBlock nonces r' ∧ NoncesRange.begin r' = max (NoncesRange.begin r) (n + 1) ∧
        NoncesRange.end r' = NoncesRange.end r

/-- A queue of blocks, each starting right after the one before ends, the
    first at `b`. -/
structure QueueFrom (b : ℕ) (q : List ((ℕ × SH) × N)) : Prop where
  blocks : ∀ e ∈ q, IsBlock nonces e.2
  consecutive : Consecutive (fun e => NoncesRange.begin e.2) (fun e => NoncesRange.end e.2) q
  head_begin : ∀ e ∈ q.head?, NoncesRange.begin e.2 = b

/-- What the two loops that trim the queue's front leave of it: from a
    queue starting at `b`, one starting at `max b (nonce + 1)`, ending where
    the old one ended if that was above `nonce`, and empty otherwise. -/
def Trims (nonce : ℕ) (q q' : List ((ℕ × SH) × N)) : Prop :=
  ∀ b, QueueFrom nonces b q →
    QueueFrom nonces (max b (nonce + 1)) q' ∧ queueEnd q' = (queueEnd q).filter (nonce < ·)

variable {nonces}

theorem queueFrom_nil (b : ℕ) : QueueFrom nonces b ([] : List ((ℕ × SH) × N)) :=
  ⟨fun _ h => (nomatch h), consecutive_nil, fun _ h => (nomatch h)⟩

/-- The front of a queue is a non-empty block starting at `b`. -/
theorem QueueFrom.front {b : ℕ} {x : (ℕ × SH) × N} {q : List ((ℕ × SH) × N)}
    (h : QueueFrom nonces b (x :: q)) :
    IsBlock nonces x.2 ∧ NoncesRange.begin x.2 = b ∧ NoncesRange.begin x.2 ≤ NoncesRange.end x.2 :=
  ⟨h.blocks x (List.mem_cons_self ..), h.head_begin x rfl,
    h.consecutive.le_of_mem (List.mem_cons_self ..)⟩

/-- Behind its front, a queue starts right after the front ends. -/
theorem QueueFrom.tail {b : ℕ} {x : (ℕ × SH) × N} {q : List ((ℕ × SH) × N)}
    (h : QueueFrom nonces b (x :: q)) : QueueFrom nonces (NoncesRange.end x.2 + 1) q := by
  refine ⟨fun e he => h.blocks e (List.mem_cons_of_mem x he), h.consecutive.tail, ?_⟩
  intro y hy
  cases q with
  | nil => exact nomatch hy
  | cons z q =>
      obtain ⟨-, hxz, -⟩ := consecutive_cons_cons.mp h.consecutive
      rw [List.head?_cons, Option.mem_some_iff] at hy
      rw [← hy]
      exact hxz

/-- Every range of a queue ends at or before the queue's last nonce. -/
theorem QueueFrom.end_le_queueEnd {b : ℕ} {q : List ((ℕ × SH) × N)} (h : QueueFrom nonces b q)
    {x : (ℕ × SH) × N} (hx : x ∈ q) : ∀ e ∈ queueEnd q, NoncesRange.end x.2 ≤ e := by
  intro e he
  obtain ⟨z, hz, rfl⟩ := Option.mem_map.mp he
  exact h.consecutive.hi_le_getLast hx hz

/-- A non-empty queue ends at or above its start. -/
theorem QueueFrom.le_queueEnd {b : ℕ} {q : List ((ℕ × SH) × N)} (h : QueueFrom nonces b q) :
    ∀ e ∈ queueEnd q, b ≤ e := by
  intro e he
  cases q with
  | nil => exact nomatch he
  | cons x q =>
      obtain ⟨-, hb, hle⟩ := h.front
      have := h.end_le_queueEnd (List.mem_cons_self ..) e he
      omega

/-- A block whose start follows the queue's last nonce, or the queue's
    start for an empty queue, extends the queue at its back. -/
theorem QueueFrom.concat {b : ℕ} {q : List ((ℕ × SH) × N)} (h : QueueFrom nonces b q)
    {x : (ℕ × SH) × N} (hx : IsBlock nonces x.2)
    (hle : NoncesRange.begin x.2 ≤ NoncesRange.end x.2)
    (hnext : ∀ e ∈ queueEnd q, NoncesRange.begin x.2 = e + 1)
    (hfirst : q = [] → NoncesRange.begin x.2 = b) : QueueFrom nonces b (q ++ [x]) := by
  refine ⟨?_, h.consecutive.concat hle ?_, ?_⟩
  · intro e he
    rcases List.mem_append.mp he with he | he
    · exact h.blocks e he
    · rw [List.mem_singleton.mp he]
      exact hx
  · intro z hz
    exact hnext _ (Option.mem_map_of_mem _ hz)
  · intro e he
    cases q with
    | nil =>
        rw [List.nil_append, List.head?_cons, Option.mem_some_iff] at he
        rw [← he]
        exact hfirst rfl
    | cons y q =>
        rw [List.cons_append, List.head?_cons, Option.mem_some_iff] at he
        exact h.head_begin e (by rw [he]; rfl)

/-- One call of `greater_than` on a non-empty block: nothing is above the
    nonce, or the block of what is above it. -/
theorem GreaterThanLaws.cases (laws : GreaterThanLaws nonces) {r : N} (hr : IsBlock nonces r)
    (hle : NoncesRange.begin r ≤ NoncesRange.end r) (n : ℕ) :
    (NoncesRange.end r ≤ n ∧ NoncesRange.greaterThan r n = none) ∨
      (n < NoncesRange.end r ∧ ∃ r', NoncesRange.greaterThan r n = some r' ∧
        IsBlock nonces r' ∧ NoncesRange.begin r' = max (NoncesRange.begin r) (n + 1) ∧
          NoncesRange.end r' = NoncesRange.end r) := by
  cases hgt : NoncesRange.greaterThan r n with
  | none => exact .inl ⟨(laws.eq_none_iff r n hr hle).mp hgt, rfl⟩
  | some r' =>
      have hlt : n < NoncesRange.end r := by
        by_contra hge
        have hnone := (laws.eq_none_iff r n hr hle).mpr (by omega)
        rw [hgt] at hnone
        cases hnone
      exact .inr ⟨hlt, r', rfl, laws.of_eq_some r n r' hr hle hgt⟩

/-! ## The two trim loops -/

theorem trims_nil (nonce : ℕ) : Trims nonces nonce ([] : List ((ℕ × SH) × N)) [] :=
  fun _ _ => ⟨queueFrom_nil _, rfl⟩

/-- Requeueing what is above `nonce` of the front range. -/
theorem trims_requeue (laws : GreaterThanLaws nonces) {nonce : ℕ} {x : (ℕ × SH) × N}
    {q : List ((ℕ × SH) × N)} {r' : N} (hgt : NoncesRange.greaterThan x.2 nonce = some r') :
    Trims nonces nonce (x :: q) ((x.1, r') :: q) := by
  intro b h
  obtain ⟨hx, hb, hle⟩ := h.front
  obtain ⟨hend, hnone⟩ | ⟨hlt, r'', hgt', hr', hbegin, hend⟩ := laws.cases hx hle nonce
  · rw [hgt] at hnone
    cases hnone
  rw [hgt] at hgt'
  cases hgt'
  have hle' : NoncesRange.begin r' ≤ NoncesRange.end r' := by
    rw [hbegin, hend]
    omega
  refine ⟨⟨?_, h.consecutive.narrow_head hend hle', ?_⟩, ?_⟩
  · intro e he
    rcases List.mem_cons.mp he with rfl | he
    · exact hr'
    · exact h.blocks e (List.mem_cons_of_mem x he)
  · intro e he
    rw [List.head?_cons, Option.mem_some_iff] at he
    rw [← he, hbegin, hb]
  · -- the queue still ends where it ended, above `nonce`
    rw [queueEnd_cons_of_end_eq q hend, filter_lt_eq_self]
    intro e he
    have := h.end_le_queueEnd (List.mem_cons_self ..) e he
    omega

/-- Popping a front range that ends at or below `nonce`. -/
theorem trims_pop (laws : GreaterThanLaws nonces) {nonce : ℕ} {x : (ℕ × SH) × N}
    {q q' : List ((ℕ × SH) × N)} (hgt : NoncesRange.greaterThan x.2 nonce = none)
    (ih : Trims nonces nonce q q') : Trims nonces nonce (x :: q) q' := by
  intro b h
  obtain ⟨hx, hb, hle⟩ := h.front
  have hend : NoncesRange.end x.2 ≤ nonce := (laws.eq_none_iff _ nonce hx hle).mp hgt
  obtain ⟨hfrom, hlast⟩ := ih _ h.tail
  have hmax : max (NoncesRange.end x.2 + 1) (nonce + 1) = max b (nonce + 1) := by omega
  refine ⟨hmax ▸ hfrom, ?_⟩
  rw [hlast]
  cases q with
  | nil =>
      -- the popped range was the last one, and all of it was delivered
      rw [queueEnd_singleton, queueEnd_nil, Option.filter_none, Option.filter_some,
        if_neg (by simp only [decide_eq_true_eq]; omega)]
  | cons y q => rw [queueEnd_cons_cons]

/-- Keeping a front range that starts above `nonce`. -/
theorem trims_keep {nonce : ℕ} {x : (ℕ × SH) × N} {q : List ((ℕ × SH) × N)}
    (hbegin : nonce < NoncesRange.begin x.2) : Trims nonces nonce (x :: q) (x :: q) := by
  intro b h
  obtain ⟨-, hb, hle⟩ := h.front
  have hmax : max b (nonce + 1) = b := by omega
  refine ⟨by rw [hmax]; exact h, ?_⟩
  rw [filter_lt_eq_self]
  intro e he
  have := h.end_le_queueEnd (List.mem_cons_self ..) e he
  omega

/-- **REMOVE**: `remove_le_nonces_from_source_queue` trims the queue. -/
theorem removeLeNonces_trims (laws : GreaterThanLaws nonces) (nonce : ℕ) :
    ∀ q : List ((ℕ × SH) × N), Trims nonces nonce q (removeLeNonces nonce q) := by
  intro q
  induction q with
  | nil => exact trims_nil nonce
  | cons x q ih =>
      obtain ⟨queuedAt, queuedRange⟩ := x
      cases hgt : NoncesRange.greaterThan queuedRange nonce with
      | some r' =>
          simp only [removeLeNonces, hgt]
          exact trims_requeue laws hgt
      | none =>
          simp only [removeLeNonces, hgt]
          exact trims_pop laws hgt ih

/-- **DROP**: the loop of `best_target_nonces_updated` trims the queue. -/
theorem dropDelivered_trims (laws : GreaterThanLaws nonces) (nonce : ℕ) :
    ∀ q : List ((ℕ × SH) × N), Trims nonces nonce q (dropDelivered nonce q) := by
  intro q
  induction q with
  | nil => exact trims_nil nonce
  | cons x q ih =>
      obtain ⟨atBlock, range⟩ := x
      by_cases hbegin : NoncesRange.begin range ≤ nonce
      · cases hgt : NoncesRange.greaterThan range nonce with
        | some r' =>
            simp only [dropDelivered, if_pos hbegin, hgt]
            exact trims_requeue laws hgt
        | none =>
            simp only [dropDelivered, if_pos hbegin, hgt]
            exact trims_pop laws hgt ih
      · rw [dropDelivered, if_neg hbegin]
        exact trims_keep (show nonce < NoncesRange.begin range by omega)

/-! ## The invariant, step by step -/

variable (nonces) in
/-- **SOURCE QUEUE INVARIANT**: with no best target nonce the queue is
    empty; with best target nonce `t` it is a queue of blocks starting at
    `t + 1`. -/
structure SourceQueueInvariant (s : BasicStrategy SH N) : Prop where
  empty_of_none : s.bestTargetNonce = none → s.sourceQueue = []
  from_best : ∀ t ∈ s.bestTargetNonce, QueueFrom nonces (t + 1) s.sourceQueue

variable (nonces) in
/-- The answers the race loop may get from the source, above `q`: a
    non-empty block starting at most one above `q`, or a range with nothing
    above `q`. -/
def SourceAdmitted (q : ℕ) (r : N) : Prop :=
  (IsBlock nonces r ∧ NoncesRange.begin r ≤ NoncesRange.end r ∧ NoncesRange.begin r ≤ q + 1) ∨
    NoncesRange.greaterThan r q = none

variable {s : BasicStrategy SH N}

/-- Under the invariant, with best target nonce `t`, `best_at_source` is
    the queue's last nonce, or `t` for an empty queue. -/
theorem SourceQueueInvariant.bestAtSource_eq (hinv : SourceQueueInvariant nonces s) {t : ℕ}
    (ht : s.bestTargetNonce = some t) :
    s.bestAtSource = some ((queueEnd s.sourceQueue).getD t) := by
  have hlt := (hinv.from_best t ht).le_queueEnd
  have hq : s.sourceQueue.getLast?.map (NoncesRange.end ·.2) = queueEnd s.sourceQueue := rfl
  rw [bestAtSource, hq, ht]
  cases he : queueEnd s.sourceQueue with
  | none => rfl
  | some e =>
      have := hlt e he
      show (if e > t then some e else some t) = some e
      rw [if_pos (by omega)]

/-- **SOURCE STEP**: an update the loop may get from the source appends the
    block above `best_at_source`, if any, keeping the invariant and lowering
    neither best nonce. -/
theorem SourceQueueInvariant.sourceNoncesUpdated (laws : GreaterThanLaws nonces)
    (hinv : SourceQueueInvariant nonces s) {q : ℕ} (hq : s.bestAtSource = some q)
    {n : SourceClientNonces N} (hadm : SourceAdmitted nonces q n.newNonces) (atBlock : ℕ × SH) :
    SourceQueueInvariant nonces (s.sourceNoncesUpdated atBlock n) ∧
      Grows s (s.sourceNoncesUpdated atBlock n) := by
  obtain ⟨t, ht⟩ : ∃ t, s.bestTargetNonce = some t := by
    cases h : s.bestTargetNonce with
    | none => rw [bestAtSource_of_none h] at hq; cases hq
    | some t => exact ⟨t, rfl⟩
  have hend : (queueEnd s.sourceQueue).getD t = q := by
    have := hinv.bestAtSource_eq ht
    rw [hq, Option.some.injEq] at this
    exact this.symm
  -- `best_in_queue` of the source is `best_at_source`
  have hbest : ((s.sourceQueue.getLast?.map (NoncesRange.end ·.2)).or s.bestTargetNonce).getD 0 = q := by
    show ((queueEnd s.sourceQueue).or s.bestTargetNonce).getD 0 = q
    rw [ht, ← hend]
    cases queueEnd s.sourceQueue <;> rfl
  have hupd : s.sourceNoncesUpdated atBlock n = { s with sourceQueue := s.sourceQueue ++
      ((NoncesRange.greaterThan n.newNonces q).toList.map fun range => (atBlock, range)) } := by
    rw [BasicStrategy.sourceNoncesUpdated, hbest]
  -- nothing above `q`: the update changes nothing
  have hnothing : NoncesRange.greaterThan n.newNonces q = none →
      SourceQueueInvariant nonces (s.sourceNoncesUpdated atBlock n) ∧
        Grows s (s.sourceNoncesUpdated atBlock n) := by
    intro hnone
    rw [hupd, hnone, Option.toList_none, List.map_nil, List.append_nil]
    exact ⟨hinv, grows_refl s⟩
  rcases hadm with ⟨hr, hle, hbegin⟩ | hnone
  · obtain ⟨-, hnone⟩ | ⟨hlt, r', hgt, hr', hbegin', hend'⟩ := laws.cases hr hle q
    · exact hnothing hnone
    rw [hupd, hgt, Option.toList_some, List.map_cons, List.map_nil]
    have hnext : NoncesRange.begin r' = q + 1 := by omega
    have hinv' : SourceQueueInvariant nonces
        { s with sourceQueue := s.sourceQueue ++ [(atBlock, r')] } := by
      refine ⟨(fun h => by rw [ht] at h; cases h), ?_⟩
      intro t' ht'
      rw [ht, Option.mem_some_iff] at ht'
      subst ht'
      refine (hinv.from_best t ht).concat hr'
        (show NoncesRange.begin r' ≤ NoncesRange.end r' by omega) ?_ ?_
      · -- the block starts right after the queue's last nonce, which is `q`
        intro e he
        rw [he, Option.getD_some] at hend
        show NoncesRange.begin r' = e + 1
        rw [hnext, hend]
      · intro hempty
        rw [hempty, queueEnd_nil, Option.getD_none] at hend
        show NoncesRange.begin r' = t + 1
        rw [hnext, hend]
    refine ⟨hinv', ⟨fun t' ht' => ⟨t', ht', le_refl t'⟩, ?_⟩⟩
    intro q' hq'
    rw [hq, Option.mem_some_iff] at hq'
    refine ⟨NoncesRange.end r', ?_, by omega⟩
    rw [hinv'.bestAtSource_eq ht, queueEnd_concat, Option.getD_some]
    exact Option.mem_some_iff.mpr rfl
  · exact hnothing hnone

/-- **TARGET STEP**: a trim of the queue at `nonce`, with the best target
    nonce raised to `nonce`, keeps the invariant and lowers neither best
    nonce, whatever `nonce` is. -/
theorem SourceQueueInvariant.trim (hinv : SourceQueueInvariant nonces s) {nonce : ℕ}
    {q' : List ((ℕ × SH) × N)} (htrims : Trims nonces nonce s.sourceQueue q') :
    SourceQueueInvariant nonces ⟨q', some (max (s.bestTargetNonce.getD nonce) nonce)⟩ ∧
      Grows s ⟨q', some (max (s.bestTargetNonce.getD nonce) nonce)⟩ := by
  cases ht : s.bestTargetNonce with
  | none =>
      -- the first nonce the target reports
      have hempty := hinv.empty_of_none ht
      rw [hempty] at htrims
      obtain ⟨hfrom, -⟩ := htrims (nonce + 1) (queueFrom_nil _)
      refine ⟨⟨(fun h => by cases h), ?_⟩, ?_, ?_⟩
      · intro t' ht'
        rw [Option.getD_none, Option.mem_some_iff] at ht'
        rw [← ht', max_self]
        simpa using hfrom
      · intro t' ht'
        rw [ht] at ht'
        exact absurd ht' (Option.not_mem_none t')
      · intro q hq
        rw [bestAtSource_of_none ht] at hq
        exact absurd hq (Option.not_mem_none q)
  | some t =>
      obtain ⟨hfrom, hlast⟩ := htrims (t + 1) (hinv.from_best t ht)
      have hinv' : SourceQueueInvariant nonces ⟨q', some (max t nonce)⟩ := by
        refine ⟨(fun h => by cases h), ?_⟩
        intro t' ht'
        rw [Option.mem_some_iff] at ht'
        rw [← ht', show max t nonce + 1 = max (t + 1) (nonce + 1) by omega]
        exact hfrom
      refine ⟨hinv', fun t' ht' => ⟨max t nonce, rfl, ?_⟩, ?_⟩
      · rw [ht, Option.mem_some_iff] at ht'
        omega
      intro q hq
      rw [hinv.bestAtSource_eq ht, Option.mem_some_iff] at hq
      refine ⟨_, hinv'.bestAtSource_eq rfl, ?_⟩
      show q ≤ (queueEnd q').getD (max t nonce)
      rw [hlast, ← hq]
      -- the last nonce stays if it is above `nonce`; otherwise `nonce` is the best
      cases he : queueEnd s.sourceQueue with
      | none => simp
      | some e =>
          by_cases hlt : nonce < e
          · rw [Option.filter_some_pos (by simpa using hlt)]
            simp
          · rw [Option.filter_some_neg (by simpa using hlt)]
            simp only [Option.getD_some, Option.getD_none]
            omega

/-- The calls the race loop makes: it asks the source for nonces only while
    `best_at_source` is some `q`, and the source answers the nonces
    `p + 1 ..= l` above some `p ≤ q` (`carries r p l`); the target reports
    any nonce, stale ones included. -/
def LoopAdmits (carries : N → ℕ → ℕ → Prop) (s : BasicStrategy SH N) :
    Update SH TH Pr N → Prop
  | .sourceNoncesUpdated _ n => ∃ q ∈ s.bestAtSource, ∃ p ≤ q, ∃ l, carries n.newNonces p l
  | .bestTargetNoncesUpdated _ _ => True
  | .finalizedTargetNoncesUpdated _ => True

section Run

variable {carries : N → ℕ → ℕ → Prop} (laws : GreaterThanLaws nonces)
  (hcarries : ∀ r p q l, carries r p l → p ≤ q → SourceAdmitted nonces q r)
include laws hcarries

/-- **STEP**: every call the loop may make keeps the invariant and lowers
    neither best nonce. -/
theorem SourceQueueInvariant.update (hinv : SourceQueueInvariant nonces s)
    {c : Update SH TH Pr N} (hadm : LoopAdmits carries s c) :
    SourceQueueInvariant nonces (s.update c) ∧ Grows s (s.update c) := by
  cases c with
  | sourceNoncesUpdated atBlock n =>
      obtain ⟨q, hq, p, hp, l, hcar⟩ := hadm
      exact hinv.sourceNoncesUpdated laws hq (hcarries _ p q l hcar hp) atBlock
  | bestTargetNoncesUpdated n raceState =>
      show SourceQueueInvariant nonces (s.bestTargetNoncesUpdated n raceState).1 ∧
        Grows s (s.bestTargetNoncesUpdated n raceState).1
      by_cases hstale : s.bestTargetNonce.any (n.latestNonce < ·)
      · -- a stale nonce is ignored
        rw [bestTargetNoncesUpdated, if_pos hstale]
        exact ⟨hinv, grows_refl s⟩
      · simp only [bestTargetNoncesUpdated, if_neg hstale]
        exact hinv.trim (dropDelivered_trims laws _ _)
  | finalizedTargetNoncesUpdated n =>
      exact hinv.trim (removeLeNonces_trims laws _ _)

end Run

end Laws

/-! ## The source queue property -/

end BasicStrategy

/-! ## The two `NoncesRange`s -/

namespace RangeInclusive

/-- The nonces `start ..= end`. -/
def nonces (r : RangeInclusive) : List ℕ :=
  List.range' r.start (r.end + 1 - r.start)

end RangeInclusive

namespace MessageDetailsMap

variable {B : Type}

/-- The nonces of a map, in increasing order. -/
def nonces (m : MessageDetailsMap B) : List ℕ :=
  m.entries.map Prod.fst

end MessageDetailsMap

end MessageRace

end ParityBridge
