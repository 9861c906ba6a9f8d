import ParityBridge.Lib.Reach
import ParityBridge.Messages.InboundLaneProofs
import ParityBridge.Relay.MessageRaceDelivery

/-! # Message delivery race proofs — the batch limits, and the lane's entry count

    `MessageRaceLimits::decide` takes the first ready message whatever its
    weight and size, and never more messages than the batch allows; the
    selection of `select_nonces_to_deliver` is therefore a non-empty range
    of at most `max_messages_in_single_batch` nonces.

    The strategy waits for rewards only once the target's relayer queue is
    full.  One entry short of full it selects a batch of several nonces,
    and the inbound lane, which counts its entries before it looks at who
    delivers, refuses the second nonce of the batch even from the relayer
    that delivered the first. -/

namespace ParityBridge

namespace MessageRace

open InboundLane

variable {SH TH Pr B : Type}

/-! ## `MessageRaceLimits::decide` -/

section Decide

variable (M : ℕ) (W : Weight) (S : ℕ)

/-- The ready nonces of `decide` are indexed from `0` on. -/
theorem map_fst_readyNonces (l : List (ℕ × MessageDetails B)) :
    (l.zipIdx.map fun e => (e.2, e.1)).map Prod.fst = List.range' 0 l.length := by
  rw [List.map_map]
  exact List.zipIdx_map_snd 0 l

/-- The ready nonces after the first are indexed from the next index. -/
theorem range'_of_cons {index : ℕ} {x : ℕ × MessageDetails B}
    {rest : List (ℕ × ℕ × MessageDetails B)} {c : ℕ}
    (hidx : ((index, x) :: rest).map Prod.fst = List.range' c (rest.length + 1)) :
    index = c ∧ rest.map Prod.fst = List.range' (c + 1) rest.length := by
  rw [List.map_cons, List.range'_succ, List.cons.injEq] at hidx
  exact hidx

/-- One message of the loop: it stops the batch, or it is taken, the count
    growing by one and staying within `M`. -/
theorem decideLoop_cons (w : Weight) (sz c h index nonce : ℕ) (details : MessageDetails B)
    (rest : List (ℕ × ℕ × MessageDetails B)) :
    MessageRaceLimits.decideLoop M W S w sz c h ((index, nonce, details) :: rest) = h ∨
      (c + 1 ≤ M ∧
        MessageRaceLimits.decideLoop M W S w sz c h ((index, nonce, details) :: rest) =
          MessageRaceLimits.decideLoop M W S (w + details.dispatchWeight) (sz + details.size)
            (c + 1) (index + 1) rest) := by
  rw [MessageRaceLimits.decideLoop.eq_2]
  split_ifs with hweight hsize hcount
  · exact .inl rfl               -- the count limit
  · exact .inr ⟨by omega, rfl⟩   -- the message is taken
  · exact .inl rfl               -- the size limit
  · exact .inl rfl               -- the weight limit

/-- **COUNT BOUNDS**: started with `c` messages selected, on ready nonces
    indexed from `c`, the loop selects at least `c` messages and never more
    than the larger of `c` and the batch's count. -/
theorem decideLoop_bounds :
    ∀ (xs : List (ℕ × ℕ × MessageDetails B)) (w : Weight) (sz c : ℕ),
      xs.map Prod.fst = List.range' c xs.length →
        c ≤ MessageRaceLimits.decideLoop M W S w sz c c xs ∧
          MessageRaceLimits.decideLoop M W S w sz c c xs ≤ max c M := by
  intro xs
  induction xs with
  | nil => intro w sz c _; exact ⟨le_rfl, le_max_left c M⟩
  | cons x rest ih =>
      intro w sz c hidx
      obtain ⟨index, nonce, details⟩ := x
      obtain ⟨rfl, hrest⟩ := range'_of_cons hidx
      rcases decideLoop_cons M W S w sz index index index nonce details rest with
        hstop | ⟨hcount, hnext⟩
      · rw [hstop]
        exact ⟨le_rfl, le_max_left _ _⟩
      · -- the message is taken: the count grows by one and stays within `M`
        have hrec := ih (w + details.dispatchWeight) (sz + details.size) (index + 1) hrest
        rw [hnext]
        omega

/-- What `decide` answers: the last nonce of a range from the front range's
    first nonce, of at most `M` messages. -/
theorem decide_eq_some {noncesQueue : List ((ℕ × SH) × MessageDetailsMap B)} {queueEnd e : ℕ}
    (h : MessageRaceLimits.decide M W S noncesQueue queueEnd = some e) :
    let b := (noncesQueue.head?.map (·.2.begin)).getD 0
    b ≤ e ∧ e + 1 - b ≤ M := by
  intro b
  unfold MessageRaceLimits.decide at h
  dsimp only at h
  set ready := (noncesQueue.take queueEnd).flatMap (·.2.entries)
  have hle := (decideLoop_bounds M W S _ Weight.zero 0 0
    ((map_fst_readyNonces ready).trans (by rw [List.length_map, List.length_zipIdx]))).2
  split_ifs at h with hcount
  rw [Option.some.injEq] at h
  omega

/-! ### The prefix `decide` selects -/

/-- The check of one message of the loop, with `selectedCount` messages
    taken before it and the weight and size the batch would have with it. -/
def admitsMessage (selectedCount : ℕ) (newSelectedWeight : Weight) (newSelectedSize : ℕ) : Bool :=
  (newSelectedWeight.allLte W || decide (selectedCount = 0)) &&
    (decide (newSelectedSize ≤ S) || decide (selectedCount = 0)) &&
    !decide (selectedCount + 1 > M)

/-- The loop's step on a message, as one test. -/
theorem decideLoop_cons_eq (w : Weight) (sz c h index nonce : ℕ) (details : MessageDetails B)
    (rest : List (ℕ × ℕ × MessageDetails B)) :
    MessageRaceLimits.decideLoop M W S w sz c h ((index, nonce, details) :: rest) =
      if admitsMessage M W S c (w + details.dispatchWeight) (sz + details.size) then
        MessageRaceLimits.decideLoop M W S (w + details.dispatchWeight) (sz + details.size)
          (c + 1) (index + 1) rest
      else h := by
  rw [MessageRaceLimits.decideLoop.eq_2, admitsMessage]
  by_cases hweight : ((w + details.dispatchWeight).allLte W || decide (c = 0)) = true
  · by_cases hsize : (decide (sz + details.size ≤ S) || decide (c = 0)) = true
    · by_cases hcount : c + 1 > M
      · simp [hweight, hsize, hcount]
      · simp [hweight, hsize, hcount]
    · simp [hweight, hsize]
  · simp [hweight]

/-- **PREFIX**: on ready messages indexed from `c`, with `c` taken before
    them, the loop takes `j` more exactly when there are `j` messages and each
    of the first `j` passes its check, the batch's weight and size then
    summed over the messages up to it. -/
theorem le_decideLoop_iff (l : List (ℕ × MessageDetails B)) :
    ∀ (w : Weight) (sz c j : ℕ),
      c + j ≤ MessageRaceLimits.decideLoop M W S w sz c c ((l.zipIdx c).map fun e => (e.2, e.1)) ↔
        j ≤ l.length ∧ ∀ i < j, admitsMessage M W S (c + i)
          ((l.take (i + 1)).foldl (fun total m => total + m.2.dispatchWeight) w)
          ((l.take (i + 1)).foldl (fun total m => total + m.2.size) sz) = true := by
  induction l with
  | nil =>
      intro w sz c j
      rw [List.zipIdx_nil, List.map_nil, MessageRaceLimits.decideLoop, List.length_nil]
      constructor
      · intro hj
        exact ⟨by omega, fun i hi => absurd hi (by omega)⟩
      · intro hj
        omega
  | cons m rest ih =>
      intro w sz c j
      obtain ⟨nonce, details⟩ := m
      rw [List.zipIdx_cons, List.map_cons, decideLoop_cons_eq]
      dsimp only
      by_cases hfirst : admitsMessage M W S c (w + details.dispatchWeight) (sz + details.size) = true
      · rw [if_pos hfirst]
        cases j with
        | zero =>
            -- nothing more is asked for: the rest only adds to the count
            have h0 := (ih (w + details.dispatchWeight) (sz + details.size) (c + 1) 0).mpr
              ⟨Nat.zero_le _, fun i hi => absurd hi (Nat.not_lt_zero i)⟩
            exact ⟨fun _ => ⟨Nat.zero_le _, fun i hi => absurd hi (Nat.not_lt_zero i)⟩,
              fun _ => by omega⟩
        | succ j =>
            rw [show c + (j + 1) = c + 1 + j by omega, ih, List.length_cons]
            constructor
            · rintro ⟨hj, hrest⟩
              refine ⟨by omega, fun i hi => ?_⟩
              cases i with
              | zero => exact hfirst
              | succ i =>
                  rw [show c + (i + 1) = c + 1 + i by omega]
                  exact hrest i (by omega)
            · rintro ⟨hj, hall⟩
              refine ⟨by omega, fun i hi => ?_⟩
              have hi' := hall (i + 1) (by omega)
              rw [show c + (i + 1) = c + 1 + i by omega] at hi'
              exact hi'
      · rw [if_neg hfirst]
        constructor
        · intro hj
          refine ⟨by omega, fun i hi => absurd hi (by omega)⟩
        · rintro ⟨-, hall⟩
          cases j with
          | zero => exact Nat.le_refl _
          | succ j => exact absurd (hall 0 (Nat.succ_pos j)) (by simpa using hfirst)

end Decide

/-- The messages `decide` reads: those of the first `queueEnd` ranges of the
    queue, in order. -/
def readyMessages (noncesQueue : List ((ℕ × SH) × MessageDetailsMap B)) (queueEnd : ℕ) :
    List (ℕ × MessageDetails B) :=
  (noncesQueue.take queueEnd).flatMap (·.2.entries)

/-- `hard_selected_begin_nonce`: the first nonce of the front range. -/
def hardSelectedBeginNonce (noncesQueue : List ((ℕ × SH) × MessageDetailsMap B)) : ℕ :=
  (noncesQueue.head?.map (·.2.begin)).getD 0

/-- The dispatch weight of messages, summed as `decide` sums it. -/
def cumulativeWeight (msgs : List (ℕ × MessageDetails B)) : Weight :=
  msgs.foldl (fun total m => total + m.2.dispatchWeight) Weight.zero

/-- The size of messages, summed as `decide` sums it. -/
def cumulativeSize (msgs : List (ℕ × MessageDetails B)) : ℕ :=
  msgs.foldl (fun total m => total + m.2.size) 0

/-- The first `k` messages make a batch within the count `C`, and, unless
    `k = 1`, within the weight `W` and the size `S`. -/
def FitsBatch (C : ℕ) (W : Weight) (S : ℕ) (msgs : List (ℕ × MessageDetails B)) (k : ℕ) : Prop :=
  k ≤ C ∧ (k = 1 ∨ ((cumulativeWeight (msgs.take k)).allLte W = true ∧
    cumulativeSize (msgs.take k) ≤ S))

/-- A number of messages `decide` may select: at least one, at most the
    ready ones, and fitting the batch. -/
def AdmissiblePrefix (C : ℕ) (W : Weight) (S : ℕ) (msgs : List (ℕ × MessageDetails B))
    (k : ℕ) : Prop :=
  1 ≤ k ∧ k ≤ msgs.length ∧ FitsBatch C W S msgs k

section Prefix

variable {C : ℕ} {W : Weight} {S : ℕ}

/-- A sum from `w` over messages has the components of `w` plus those of
    the messages. -/
theorem foldl_dispatchWeight (l : List (ℕ × MessageDetails B)) :
    ∀ w : Weight, (l.foldl (fun total m => total + m.2.dispatchWeight) w).refTime =
        w.refTime + (l.map (·.2.dispatchWeight.refTime)).sum ∧
      (l.foldl (fun total m => total + m.2.dispatchWeight) w).proofSize =
        w.proofSize + (l.map (·.2.dispatchWeight.proofSize)).sum := by
  induction l with
  | nil => intro w; simp
  | cons m rest ih =>
      intro w
      obtain ⟨href, hproof⟩ := ih (w + m.2.dispatchWeight)
      rw [List.foldl_cons, href, hproof]
      simp only [Weight.add_refTime, Weight.add_proofSize, List.map_cons, List.sum_cons]
      omega

theorem foldl_size (l : List (ℕ × MessageDetails B)) :
    ∀ sz : ℕ, l.foldl (fun total m => total + m.2.size) sz = sz + (l.map (·.2.size)).sum := by
  induction l with
  | nil => intro sz; simp
  | cons m rest ih =>
      intro sz
      rw [List.foldl_cons, ih, List.map_cons, List.sum_cons]
      omega

/-- A longer prefix weighs and measures at least as much. -/
theorem cumulative_take_le (msgs : List (ℕ × MessageDetails B)) {k k' : ℕ} (hk : k' ≤ k) :
    (cumulativeWeight (msgs.take k')).refTime ≤ (cumulativeWeight (msgs.take k)).refTime ∧
      (cumulativeWeight (msgs.take k')).proofSize ≤ (cumulativeWeight (msgs.take k)).proofSize ∧
      cumulativeSize (msgs.take k') ≤ cumulativeSize (msgs.take k) := by
  have hsplit : msgs.take k = msgs.take k' ++ (msgs.take k).drop k' := by
    have h := List.take_append_drop k' (msgs.take k)
    rw [List.take_take, Nat.min_eq_left hk] at h
    exact h.symm
  obtain ⟨href, hproof⟩ := foldl_dispatchWeight (msgs.take k') Weight.zero
  obtain ⟨href', hproof'⟩ := foldl_dispatchWeight (msgs.take k) Weight.zero
  have hsize := foldl_size (msgs.take k') 0
  have hsize' := foldl_size (msgs.take k) 0
  simp only [cumulativeWeight, cumulativeSize]
  rw [href, hproof, href', hproof', hsize, hsize', hsplit]
  simp only [List.map_append, List.sum_append]
  omega

/-- Fitting the batch is closed downward: the messages of a shorter prefix
    weigh and measure less. -/
theorem FitsBatch.mono {msgs : List (ℕ × MessageDetails B)} {k k' : ℕ}
    (h : FitsBatch C W S msgs k) (hk' : 1 ≤ k') (hk : k' ≤ k) : FitsBatch C W S msgs k' := by
  obtain ⟨hC, hone | ⟨hweight, hsize⟩⟩ := h
  · exact ⟨by omega, .inl (by omega)⟩
  refine ⟨by omega, ?_⟩
  by_cases h1 : k' = 1
  · exact .inl h1
  · obtain ⟨href, hproof, hsz⟩ := cumulative_take_le msgs hk
    simp only [Weight.allLte, Bool.and_eq_true, decide_eq_true_eq] at hweight ⊢
    exact .inr ⟨⟨by omega, by omega⟩, by omega⟩

/-- The loop's check of the message at position `i` is fitting the batch
    with the first `i + 1` messages. -/
theorem admitsMessage_iff (msgs : List (ℕ × MessageDetails B)) (i : ℕ) :
    admitsMessage C W S i (cumulativeWeight (msgs.take (i + 1)))
        (cumulativeSize (msgs.take (i + 1))) = true ↔
      FitsBatch C W S msgs (i + 1) := by
  rw [admitsMessage, FitsBatch]
  by_cases hi : i = 0
  · subst hi
    simp
    omega
  · simp only [hi, decide_false, Bool.or_false, Bool.and_eq_true, decide_eq_true_eq,
      Bool.not_eq_true', decide_eq_false_iff_not, Nat.not_lt, Nat.add_eq_right, false_or]
    exact and_comm

/-- On messages of consecutive nonces from `b`, the message at position `i`
    has nonce `b + i`. -/
theorem fst_get_of_consecutive {msgs : List (ℕ × MessageDetails B)} {b : ℕ}
    (hconsecutive : msgs.map Prod.fst = List.range' b msgs.length) (i : ℕ) (hi : i < msgs.length) :
    (msgs.get ⟨i, hi⟩).1 = b + i := by
  have h := congrArg (fun l => l[i]?) hconsecutive
  simp only [List.getElem?_map, List.getElem?_range', hi, List.getElem?_eq_getElem,
    Option.map_some, Option.some.injEq] at h
  simpa using h

/-- The count the loop of `decide` selects: `j` messages or more exactly when
    there are `j` ready messages and every prefix of them up to `j` fits the
    batch. -/
theorem le_decideLoop_readyMessages_iff (msgs : List (ℕ × MessageDetails B)) (j : ℕ) :
    j ≤ MessageRaceLimits.decideLoop C W S Weight.zero 0 0 0 (msgs.zipIdx.map fun e => (e.2, e.1)) ↔
      j ≤ msgs.length ∧ ∀ i < j, FitsBatch C W S msgs (i + 1) := by
  have h := le_decideLoop_iff C W S msgs Weight.zero 0 0 j
  rw [Nat.zero_add] at h
  rw [h]
  refine and_congr Iff.rfl (forall_congr' fun i => imp_congr_right fun _ => ?_)
  rw [Nat.zero_add]
  exact admitsMessage_iff msgs i

end Prefix

/-- **MAXIMAL PREFIX**: on ready messages of consecutive nonces from the
    front range's first one, `decide` selects nothing exactly when the batch
    may hold no message or no message is ready; otherwise it selects the
    greatest admissible number `k` of messages, and answers `b + k - 1`,
    which is the nonce of the `k`-th ready message. -/
theorem decide_selects_maximal_prefix (C : ℕ) (W : Weight) (S : ℕ)
    (noncesQueue : List ((ℕ × SH) × MessageDetailsMap B)) (queueEnd : ℕ)
    (hconsecutive : (readyMessages noncesQueue queueEnd).map Prod.fst =
      List.range' (hardSelectedBeginNonce noncesQueue) (readyMessages noncesQueue queueEnd).length) :
    (MessageRaceLimits.decide C W S noncesQueue queueEnd = none ↔
      C = 0 ∨ readyMessages noncesQueue queueEnd = []) ∧
    ∀ e, MessageRaceLimits.decide C W S noncesQueue queueEnd = some e →
      ∃ k, IsGreatest {k | AdmissiblePrefix C W S (readyMessages noncesQueue queueEnd) k} k ∧
        e = hardSelectedBeginNonce noncesQueue + k - 1 ∧
        ∃ hk : k - 1 < (readyMessages noncesQueue queueEnd).length,
          ((readyMessages noncesQueue queueEnd).get ⟨k - 1, hk⟩).1 = e := by
  set msgs := readyMessages noncesQueue queueEnd with hmsgs
  set r := MessageRaceLimits.decideLoop C W S Weight.zero 0 0 0
    (msgs.zipIdx.map fun e => (e.2, e.1)) with hr
  have hdecide : MessageRaceLimits.decide C W S noncesQueue queueEnd =
      if r ≠ 0 then some (hardSelectedBeginNonce noncesQueue + r - 1) else none := rfl
  have hle := le_decideLoop_readyMessages_iff (C := C) (W := W) (S := S) msgs
  -- the loop selects some message exactly when the first one fits
  have hpos : 1 ≤ r ↔ 1 ≤ msgs.length ∧ 1 ≤ C := by
    rw [hle 1]
    constructor
    · rintro ⟨hlen, hfit⟩
      exact ⟨hlen, (hfit 0 Nat.one_pos).1⟩
    · rintro ⟨hlen, hC⟩
      exact ⟨hlen, fun i hi => ⟨by omega, .inl (by omega)⟩⟩
  refine ⟨?_, ?_⟩
  · rw [hdecide]
    by_cases hr0 : r = 0
    · rw [if_neg (not_not_intro hr0)]
      have hnot : ¬ (1 ≤ msgs.length ∧ 1 ≤ C) := fun h => absurd (hpos.mpr h) (by omega)
      refine ⟨fun _ => ?_, fun _ => rfl⟩
      by_cases hC : C = 0
      · exact .inl hC
      · exact .inr (List.eq_nil_of_length_eq_zero (by omega))
    · rw [if_pos hr0]
      refine ⟨fun h => (nomatch h), ?_⟩
      rintro (hC | hnil)
      · exact absurd (hpos.mp (by omega)).2 (by omega)
      · have := (hpos.mp (by omega)).1
        rw [hnil, List.length_nil] at this
        omega
  · intro e he
    rw [hdecide] at he
    by_cases hr0 : r = 0
    · rw [if_neg (not_not_intro hr0)] at he
      exact nomatch he
    rw [if_pos hr0, Option.some.injEq] at he
    obtain ⟨hlen, hfits⟩ := (hle r).mp le_rfl
    refine ⟨r, ⟨⟨by omega, hlen, ?_⟩, ?_⟩, he.symm, by omega, ?_⟩
    · -- the loop's own count fits
      have h := hfits (r - 1) (by omega)
      rwa [Nat.sub_add_cancel (by omega)] at h
    · -- any admissible count is reached by the loop, fitting being closed downward
      rintro k ⟨hk1, hklen, hkfit⟩
      exact (hle k).mpr ⟨hklen, fun i hi => hkfit.mono (by omega) (by omega)⟩
    · rw [fst_get_of_consecutive hconsecutive (r - 1) (by omega), ← he]
      omega

/-- Messages `5`, `6` and `7` at source header `1`; the first weighs more
    than a batch of weight `(4, 4)` may. -/
def oversizedFirstQueue : List ((ℕ × ℕ) × MessageDetailsMap ℕ) :=
  [((1, 0), ⟨[(5, ⟨⟨10, 10⟩, 1, 0⟩), (6, ⟨⟨1, 1⟩, 1, 0⟩), (7, ⟨⟨1, 1⟩, 1, 0⟩)], by decide⟩)]

theorem decide_selects_maximal_prefix_on_oversized_first :
    (readyMessages oversizedFirstQueue 1).map Prod.fst =
        List.range' (hardSelectedBeginNonce oversizedFirstQueue)
          (readyMessages oversizedFirstQueue 1).length ∧
      (MessageRaceLimits.decide 4 ⟨4, 4⟩ 100 oversizedFirstQueue 1 = none ↔
        4 = 0 ∨ readyMessages oversizedFirstQueue 1 = []) ∧
      ∀ e, MessageRaceLimits.decide 4 ⟨4, 4⟩ 100 oversizedFirstQueue 1 = some e →
        ∃ k, IsGreatest {k | AdmissiblePrefix 4 ⟨4, 4⟩ 100 (readyMessages oversizedFirstQueue 1) k} k ∧
          e = hardSelectedBeginNonce oversizedFirstQueue + k - 1 ∧
          ∃ hk : k - 1 < (readyMessages oversizedFirstQueue 1).length,
            ((readyMessages oversizedFirstQueue 1).get ⟨k - 1, hk⟩).1 = e :=
  ⟨by decide, decide_selects_maximal_prefix 4 ⟨4, 4⟩ 100 oversizedFirstQueue 1 (by decide)⟩

/-! ## `select_nonces_to_deliver` -/

namespace MessageDeliveryStrategy

/-- A selection is what `decide` answers over the source queue, with a count
    at most `max_messages_in_single_batch`, from the front range's first
    nonce. -/
theorem selectNoncesToDeliver_eq_some (d : MessageDeliveryStrategy SH B)
    (raceState : RaceState SH TH Pr) {b e : ℕ} {params : MessageProofParameters}
    (h : d.selectNoncesToDeliver raceState = some ((b, e), params)) :
    ∃ maxNonces queueEnd, maxNonces ≤ d.maxMessagesInSingleBatch ∧
      MessageRaceLimits.decide maxNonces d.maxMessagesWeightInSingleBatch
        d.maxMessagesSizeInSingleBatch d.strategy.sourceQueue queueEnd = some e ∧
      b = (d.strategy.sourceQueue.head?.map (·.2.begin)).getD 0 := by
  unfold selectNoncesToDeliver at h
  simp only [bind, Option.bind_eq_some_iff] at h
  obtain ⟨bestAtTarget, -, confirmedAtSource, -, targetNonces, -, h⟩ := h
  -- past both waits, the batch is what `decide` cuts
  split at h
  · cases h
  split at h
  · cases h
  obtain ⟨queueIndex, -, h⟩ := Option.bind_eq_some_iff.mp h
  obtain ⟨rangeEnd, hdecide, hsel⟩ := Option.bind_eq_some_iff.mp h
  rw [Option.some.injEq, Prod.mk.injEq, Prod.mk.injEq] at hsel
  obtain ⟨⟨hb, rfl⟩, -⟩ := hsel
  exact ⟨_, queueIndex + 1, min_le_right _ _, hdecide, hb.symm⟩

end MessageDeliveryStrategy

/-! ## The relayer entries limit at the target -/

section EntriesLimit

variable {R A P D : Type}

/-- The target's inbound lane as the strategy last read it: its last
    delivered and confirmed nonces, its relayer entries and the messages of
    the oldest one, and the two limits the relayer is configured with. -/
def MatchesTargetNonces (d : MessageDeliveryStrategy SH B) (lane : InboundLane R A P)
    (t : TargetClientNonces DeliveryRaceTargetNoncesData) : Prop :=
  lane.data.lastDeliveredNonce = t.latestNonce ∧
    lane.data.lastConfirmedNonce = t.noncesData.confirmedNonce ∧
    lane.data.relayers.length = t.noncesData.unrewardedRelayers.unrewardedRelayerEntries ∧
    (lane.data.relayers.head?.map (·.messages.totalMessages)).getD 0 =
      t.noncesData.unrewardedRelayers.messagesInOldestEntry ∧
    lane.storage.maxUnrewardedRelayerEntries = d.maxUnrewardedRelayerEntriesAtTarget ∧
    lane.storage.maxUnconfirmedMessages = d.maxUnconfirmedNoncesAtTarget

instance (d : MessageDeliveryStrategy SH B) (lane : InboundLane R A P)
    (t : TargetClientNonces DeliveryRaceTargetNoncesData) :
    Decidable (MatchesTargetNonces d lane t) := by
  unfold MatchesTargetNonces
  infer_instance

/-- The target after one delivery: nonce `1` delivered and unconfirmed, one
    relayer entry of one message. -/
def oneEntryTarget : TargetClientNonces DeliveryRaceTargetNoncesData :=
  ⟨1, ⟨0, ⟨1, 1, 1, 1⟩⟩⟩

/-- Messages `2` and `3` at the source, each of weight `(1, 1)` and size `1`. -/
def twoMessages : MessageDetailsMap ℕ :=
  ⟨[(2, ⟨⟨1, 1⟩, 1, 0⟩), (3, ⟨⟨1, 1⟩, 1, 0⟩)], by decide⟩

/-- A race that has seen nothing yet. -/
def emptyRaceState : RaceState ℕ Unit Unit :=
  ⟨none, none, none, none, none, none⟩

/-- A race whose target has finalized the source header `1`, with nothing
    selected or submitted. -/
def headerOneRaceState : RaceState ℕ Unit Unit :=
  ⟨some (1, 0), some (1, 0), some (1, ()), some (1, ()), none, none⟩

/-- What a relayer for a lane of at most `2` unrewarded relayer entries and
    `8` unconfirmed messages reads: the target, then the two new messages at
    source header `1`, where the confirmed nonce is `0`. -/
def oneEntryShortRun : List (StrategyUpdate ℕ Unit Unit ℕ) :=
  [.bestTargetNoncesUpdated oneEntryTarget emptyRaceState,
    .finalizedTargetNoncesUpdated oneEntryTarget emptyRaceState,
    .sourceNoncesUpdated (1, 0) ⟨twoMessages, some 0⟩]

/-- The relayer's strategy after `oneEntryShortRun`, with batches of at most
    `4` messages. -/
def oneEntryShortStrategy : MessageDeliveryStrategy ℕ ℕ :=
  oneEntryShortRun.foldl MessageDeliveryStrategy.update (.new 2 8 4 ⟨100, 100⟩ 100)

/-- The target lane of `oneEntryTarget`: relayer `0` delivered nonce `1`. -/
def oneEntryLane (id : LaneId) : InboundLane ℕ A P :=
  ⟨⟨id, 2, 8, ⟨[⟨0, ⟨1, 1⟩⟩], 0⟩⟩, []⟩

/-- One entry short of the limit, the strategy selects two nonces; relayer
    `1` delivers the first, taking the last entry, and the lane refuses the
    second from the same relayer. -/
theorem selection_refused_at_relayer_entries_limit (id : LaneId)
    (dispatch : A → DispatchMessage P → D) (a : A) (m₂ m₃ : P) :
    Reach.Reachable
        (MessageDeliveryStrategy.update : _ → StrategyUpdate ℕ Unit Unit ℕ → _)
        (.new 2 8 4 ⟨100, 100⟩ 100) oneEntryShortStrategy ∧
      oneEntryShortStrategy.selectNoncesToDeliver headerOneRaceState =
        some ((2, 3), ⟨false, ⟨2, 2⟩⟩) ∧
      oneEntryShortStrategy.targetNonces = some oneEntryTarget ∧
      MatchesTargetNonces oneEntryShortStrategy (oneEntryLane id : InboundLane ℕ A P)
        oneEntryTarget ∧
      (receiveMessage dispatch (oneEntryLane id) 1 a 2 m₂).1 =
        .dispatched (dispatch a ⟨⟨id, 2⟩, m₂⟩) ∧
      (receiveMessage dispatch (receiveMessage dispatch (oneEntryLane id) 1 a 2 m₂).2 1 a 3
        m₃).1 = .tooManyUnrewardedRelayers := by
  have hfirst : (receiveMessage dispatch (oneEntryLane id) 1 a 2 m₂).1 =
      .dispatched (dispatch a ⟨⟨id, 2⟩, m₂⟩) := rfl
  refine ⟨Reach.reachable_foldl _ _, by decide, rfl, ⟨rfl, rfl, rfl, rfl, rfl, rfl⟩, hfirst, ?_⟩
  -- relayer `0` is at the back, so relayer `1` pushes the second entry
  apply receiveMessage_next_tooManyUnrewardedRelayers dispatch _ 1 a 2 m₂ 1 a m₃ rfl
  · intro e he
    cases he
    decide
  · rw [hfirst]
    rfl

end EntriesLimit

/-! ## The batch limit -/

/-- **BATCH LIMIT**: every batch the delivery strategy selects is a
    non-empty range of nonces, from the first nonce of the source queue's
    front range, of at most `max_messages_in_single_batch` messages. -/
theorem select_nonces_to_deliver_within_batch_limit (d : MessageDeliveryStrategy SH B)
    (raceState : RaceState SH TH Pr) {b e : ℕ} {params : MessageProofParameters}
    (h : d.selectNoncesToDeliver raceState = some ((b, e), params)) :
    b = (d.strategy.sourceQueue.head?.map (·.2.begin)).getD 0 ∧ b ≤ e ∧
      e + 1 - b ≤ d.maxMessagesInSingleBatch := by
  obtain ⟨maxNonces, queueEnd, hmax, hdecide, rfl⟩ :=
    MessageDeliveryStrategy.selectNoncesToDeliver_eq_some d raceState h
  -- `decide` cut the batch at `maxNonces`, which the batch limit bounds
  obtain ⟨hle, hcount⟩ := decide_eq_some maxNonces _ _ hdecide
  exact ⟨rfl, hle, hcount.trans hmax⟩

/-- The batch of `oneEntryShortStrategy`: nonces `2` and `3`, within its
    limit of `4`. -/
theorem select_nonces_to_deliver_within_batch_limit_on_one_entry_short :
    oneEntryShortStrategy.selectNoncesToDeliver headerOneRaceState =
        some ((2, 3), ⟨false, ⟨2, 2⟩⟩) ∧
      2 ≤ 3 ∧ 3 + 1 - 2 ≤ oneEntryShortStrategy.maxMessagesInSingleBatch := by
  have hsel : oneEntryShortStrategy.selectNoncesToDeliver headerOneRaceState =
      some ((2, 3), ⟨false, ⟨2, 2⟩⟩) := by
    decide
  exact ⟨hsel, (select_nonces_to_deliver_within_batch_limit _ _ hsel).2⟩

end MessageRace

end ParityBridge
