import Mathlib.Algebra.Order.BigOperators.Group.List
import Mathlib.Algebra.Order.Group.Nat
import ParityBridge.Relay.MessagesSource

/-! # The messages source client — what `generated_message_details` returns

    `generated_message_details` answers the delivery race with the details
    of a nonce range.  Its three steps each promise something, and the
    answer is what they promise together.

    The route:

    * `validate_out_msgs_details` accepts exactly the details of a final
      part of the range — all of it but possibly its first nonces — and
      never none of a non-empty range
      (`validate_out_msgs_details_accepts_range_end`);
    * `split_msgs_to_refine` cuts the messages, in order, into non-empty
      batches that each fit in a target extrinsic and that could not take
      the next message (`split_msgs_to_refine_batches`), and fails exactly
      when a message does not fit alone (`split_msgs_to_refine_fails_iff`);
    * the weights the target answers land on the details in the order of
      the batches (`refineBatches_eq_ok`), so the map has an entry for each
      nonce of the final part of the range, with the source's size
      (`generated_message_details_covers_range_end`) and the target's
      weight (`generated_message_details_target_weights`). -/

namespace ParityBridge

namespace MessagesSource

open MessageRace RuntimeCommon

variable {E : Type}

/-! ## `validate_out_msgs_details` -/

/-- The loop from the back passes exactly when the details are the first
    nonces it walks, that is the last nonces of the range. -/
theorem checkNoncesFromBack_eq_ok (nonces : RangeInclusive) :
    ∀ (outMsgsDetails : List OutboundMessageDetails) (noncesIter : List ℕ),
      outMsgsDetails.length ≤ noncesIter.length →
      (checkNoncesFromBack (E := E) nonces outMsgsDetails noncesIter = .ok () ↔
        outMsgsDetails.map (·.nonce) = noncesIter.take outMsgsDetails.length) := by
  intro outMsgsDetails
  induction outMsgsDetails with
  | nil => intro noncesIter _; simp [checkNoncesFromBack]
  | cons outMsgDetails outMsgsDetails ih =>
      intro noncesIter hlen
      cases noncesIter with
      | nil => simp at hlen
      | cons nonce noncesIter =>
          rw [checkNoncesFromBack]
          by_cases hnonce : outMsgDetails.nonce = nonce
          · -- the nonces agree: the loop goes on
            rw [if_neg (not_not.mpr hnonce), ih noncesIter (by simpa using hlen)]
            simp [hnonce]
          · rw [if_pos hnonce]
            simp [hnonce]

/-- The range's nonces from `start + count - length` on are the `length`
    last ones, which end at the range's end. -/
theorem range'_drop_eq {start «end» length : ℕ} (hlength : length ≤ «end» + 1 - start) :
    (List.range' start («end» + 1 - start)).drop («end» + 1 - start - length) =
      List.range' («end» + 1 - length) length := by
  rw [List.drop_range']
  rcases Nat.eq_zero_or_pos length with rfl | hpos
  · simp
  · -- a non-empty final part: the range is not empty
    congr 1 <;> omega

/-- Past its two early errors, the check passes exactly when the details'
    nonces are the last nonces of the range. -/
theorem checkNoncesFromBack_range_iff (outMsgsDetails : List OutboundMessageDetails)
    (nonces : RangeInclusive) (hlength : outMsgsDetails.length ≤ noncesCount nonces) :
    checkNoncesFromBack (E := E) nonces outMsgsDetails.reverse
        (List.range' nonces.start (noncesCount nonces)).reverse = .ok () ↔
      outMsgsDetails.map (·.nonce) =
        List.range' (nonces.end + 1 - outMsgsDetails.length) outMsgsDetails.length := by
  rw [checkNoncesFromBack_eq_ok _ _ _ (by simpa using hlength)]
  -- both walks from the back: compare the lists the right way round
  rw [List.map_reverse, List.length_reverse, List.take_reverse, List.reverse_inj,
    List.length_range', noncesCount, range'_drop_eq hlength]

/-- What validation promises: no more details than nonces, at least one
    for a non-empty range, and the details' nonces the last of the range. -/
theorem validateOutMsgsDetails_eq_ok {outMsgsDetails : List OutboundMessageDetails}
    {nonces : RangeInclusive} (h : validateOutMsgsDetails (E := E) outMsgsDetails nonces = .ok ()) :
    outMsgsDetails.length ≤ noncesCount nonces ∧
      (nonces.start ≤ nonces.end → outMsgsDetails ≠ []) ∧
      outMsgsDetails.map (·.nonce) =
        List.range' (nonces.end + 1 - outMsgsDetails.length) outMsgsDetails.length := by
  unfold validateOutMsgsDetails at h
  by_cases hmore : outMsgsDetails.length > noncesCount nonces
  · rw [if_pos hmore] at h
    cases h
  rw [if_neg hmore] at h
  by_cases hempty : outMsgsDetails.isEmpty ∧ nonces.start ≤ nonces.end
  · rw [if_pos hempty] at h
    cases h
  rw [if_neg hempty] at h
  have hlength : outMsgsDetails.length ≤ noncesCount nonces := Nat.le_of_not_lt hmore
  exact ⟨hlength, fun hle hnil => hempty ⟨List.isEmpty_iff.mpr hnil, hle⟩,
    (checkNoncesFromBack_range_iff outMsgsDetails nonces hlength).mp h⟩

/-- **THE ACCEPTED DETAILS ARE THE END OF THE RANGE.**
    `validate_out_msgs_details` accepts the details exactly when there are
    no more of them than nonces in the range, there is at least one for a
    non-empty range, and their nonces are the last nonces of the range, in
    order: the range with at most its first nonces missing. -/
theorem validate_out_msgs_details_accepts_range_end (outMsgsDetails : List OutboundMessageDetails)
    (nonces : RangeInclusive) :
    validateOutMsgsDetails (E := E) outMsgsDetails nonces = .ok () ↔
      outMsgsDetails.length ≤ noncesCount nonces ∧
      (nonces.start ≤ nonces.end → outMsgsDetails ≠ []) ∧
      outMsgsDetails.map (·.nonce) =
        List.range' (nonces.end + 1 - outMsgsDetails.length) outMsgsDetails.length := by
  refine ⟨validateOutMsgsDetails_eq_ok, ?_⟩
  rintro ⟨hlength, hnonempty, hnonces⟩
  unfold validateOutMsgsDetails
  rw [if_neg (Nat.not_lt.mpr hlength), if_neg ?_,
    (checkNoncesFromBack_range_iff outMsgsDetails nonces hlength).mpr hnonces]
  -- the range is empty, or the details are not
  rintro ⟨hempty, hle⟩
  exact hnonempty hle (List.isEmpty_iff.mp hempty)

/-! ## `split_msgs_to_refine` -/

section Split

variable {α : Type} (encodeMsg : α → List UInt8) (maxBatchSize : ℕ)

/-- The size of a batch: the lane id, the batch's length and its messages. -/
theorem encodedSize_eq (batch : List α) :
    encodedSize encodeMsg batch =
      4 + Scale.compactLength batch.length + (batch.map fun msg => (encodeMsg msg).length).sum := by
  rw [encodedSize, Scale.length_encodeSeq, Nat.add_assoc]

/-- A message alone is no larger than a batch that holds it. -/
theorem encodedSize_singleton_le {batch : List α} {msg : α} (hmsg : msg ∈ batch) :
    encodedSize encodeMsg [msg] ≤ encodedSize encodeMsg batch := by
  rw [encodedSize_eq, encodedSize_eq]
  have hlength : Scale.compactLength [msg].length ≤ Scale.compactLength batch.length :=
    Scale.compactLength_mono (List.length_pos_of_mem hmsg)
  have hmsgSize : (encodeMsg msg).length ≤ (batch.map fun msg => (encodeMsg msg).length).sum :=
    List.le_sum_of_mem (List.mem_map_of_mem hmsg)
  simp only [List.map_cons, List.map_nil, List.sum_cons, List.sum_nil, Nat.add_zero]
  omega

/-- **THE INNER LOOP.**  Given a non-empty batch and enough fuel, the loop
    returns the messages it was given, split in two: a non-empty batch that
    fits, and the rest; if it moved any message, the batch with the first
    moved message did not fit. -/
theorem popWhileTooLarge_eq_ok :
    ∀ (fuel : ℕ) (currentMsgsBatch nextMsgsBatch : List α), currentMsgsBatch ≠ [] →
      currentMsgsBatch.length ≤ fuel → ∀ {res : List α × List α},
      popWhileTooLarge (E := E) encodeMsg maxBatchSize fuel currentMsgsBatch nextMsgsBatch = .ok res →
      res.1 ++ res.2 = currentMsgsBatch ++ nextMsgsBatch ∧ res.1 ≠ [] ∧
        encodedSize encodeMsg res.1 ≤ maxBatchSize ∧
        (res.2 = nextMsgsBatch ∨ maxBatchSize < encodedSize encodeMsg (res.1 ++ res.2.take 1)) := by
  intro fuel
  induction fuel with
  | zero =>
      intro currentMsgsBatch _ hne hfuel
      exact absurd (List.eq_nil_of_length_eq_zero (by omega)) hne
  | succ fuel ih =>
      intro currentMsgsBatch nextMsgsBatch hne hfuel res h
      rw [popWhileTooLarge] at h
      by_cases hlarge : encodedSize encodeMsg currentMsgsBatch > maxBatchSize
      · rw [if_pos hlarge] at h
        by_cases hsingle : currentMsgsBatch.length ≤ 1
        · rw [if_pos hsingle] at h
          cases h
        rw [if_neg hsingle] at h
        -- the last message moves: the batch is its front and that message
        obtain ⟨front, last, rfl⟩ : ∃ front last, currentMsgsBatch = front ++ [last] :=
          ⟨currentMsgsBatch.dropLast, currentMsgsBatch.getLast hne,
            (List.dropLast_append_getLast hne).symm⟩
        simp only [List.dropLast_concat, List.getLast?_concat, Option.toList_some,
          List.singleton_append] at h
        have hfront : front ≠ [] := by
          rintro rfl
          simp at hsingle
        obtain ⟨hsplit, hres, hfits, hmoved⟩ :=
          ih front (last :: nextMsgsBatch) hfront (by simp at hfuel; omega) h
        refine ⟨by simpa using hsplit, hres, hfits, .inr ?_⟩
        rcases hmoved with hnext | hlarger
        · -- the last move was this one: the batch was `front ++ [last]`
          have hfrontEq : res.1 = front := by
            rw [hnext] at hsplit
            exact (List.append_inj' hsplit rfl).1
          rw [hnext, hfrontEq]
          simpa using hlarge
        · exact hlarger
      · rw [if_neg hlarge] at h
        cases h
        exact ⟨rfl, hne, Nat.le_of_not_lt hlarge, .inl rfl⟩

/-- The inner loop fails only on a message too large alone. -/
theorem popWhileTooLarge_eq_error :
    ∀ (fuel : ℕ) (currentMsgsBatch nextMsgsBatch : List α), currentMsgsBatch ≠ [] →
      ∀ {e : SubstrateError E},
      popWhileTooLarge encodeMsg maxBatchSize fuel currentMsgsBatch nextMsgsBatch = .error e →
      e = .singleMessageTooLarge maxBatchSize ∧
        ∃ msg ∈ currentMsgsBatch, maxBatchSize < encodedSize encodeMsg [msg] := by
  intro fuel
  induction fuel with
  | zero => intro _ _ _ _ h; cases h
  | succ fuel ih =>
      intro currentMsgsBatch nextMsgsBatch hne e h
      rw [popWhileTooLarge] at h
      by_cases hlarge : encodedSize encodeMsg currentMsgsBatch > maxBatchSize
      · rw [if_pos hlarge] at h
        by_cases hsingle : currentMsgsBatch.length ≤ 1
        · -- the batch is one message, and it does not fit
          rw [if_pos hsingle] at h
          obtain ⟨msg, rfl⟩ : ∃ msg, currentMsgsBatch = [msg] :=
            List.length_eq_one_iff.mp (by have := List.length_pos_iff.mpr hne; omega)
          cases h
          exact ⟨rfl, msg, List.mem_singleton_self msg, hlarge⟩
        · rw [if_neg hsingle] at h
          have hfront : currentMsgsBatch.dropLast ≠ [] := by
            intro hnil
            have := congrArg List.length hnil
            simp at this
            omega
          obtain ⟨he, msg, hmsg, hmsgLarge⟩ := ih _ _ hfront h
          exact ⟨he, msg, List.mem_of_mem_dropLast hmsg, hmsgLarge⟩
      · rw [if_neg hlarge] at h
        cases h

/-- **THE OUTER LOOP.**  With enough fuel, the batches the loop adds are
    the messages it was given, in order, in non-empty batches that fit, and
    each batch could not take the first message of the next one. -/
theorem splitLoop_eq_ok :
    ∀ (fuel : ℕ) (batches : List (List α)) (currentMsgsBatch : List α),
      currentMsgsBatch.length ≤ fuel → ∀ {res : List (List α)},
      splitLoop (E := E) encodeMsg maxBatchSize fuel batches currentMsgsBatch = .ok res →
      ∃ newBatches, res = batches ++ newBatches ∧ newBatches.flatten = currentMsgsBatch ∧
        (∀ batch ∈ newBatches, batch ≠ [] ∧ encodedSize encodeMsg batch ≤ maxBatchSize) ∧
        newBatches.IsChain fun batch nextBatch =>
          maxBatchSize < encodedSize encodeMsg (batch ++ nextBatch.take 1) := by
  intro fuel
  induction fuel with
  | zero =>
      intro batches currentMsgsBatch hfuel res h
      cases h
      refine ⟨[], by simp, ?_, by simp, .nil⟩
      simpa using (List.eq_nil_of_length_eq_zero (by omega)).symm
  | succ fuel ih =>
      intro batches currentMsgsBatch hfuel res h
      rw [splitLoop] at h
      by_cases hnil : currentMsgsBatch.isEmpty
      · rw [if_pos hnil] at h
        cases h
        exact ⟨[], by simp, by simpa using (List.isEmpty_iff.mp hnil).symm, by simp, .nil⟩
      rw [if_neg hnil] at h
      have hne : currentMsgsBatch ≠ [] := fun h => hnil (List.isEmpty_iff.mpr h)
      cases hpop : popWhileTooLarge (E := E) encodeMsg maxBatchSize currentMsgsBatch.length
          currentMsgsBatch [] with
      | error e => rw [hpop] at h; cases h
      | ok pop =>
          obtain ⟨batch, nextMsgsBatch⟩ := pop
          rw [hpop] at h
          obtain ⟨hsplit, hbatch, hfits, hmoved⟩ :=
            popWhileTooLarge_eq_ok encodeMsg maxBatchSize _ _ _ hne le_rfl hpop
          dsimp only at hsplit hbatch hfits hmoved
          rw [List.append_nil] at hsplit
          -- the batch is not empty, so fewer messages are left
          have hleft : nextMsgsBatch.length ≤ fuel := by
            have hlength := congrArg List.length hsplit
            have := List.length_pos_iff.mpr hbatch
            rw [List.length_append] at hlength
            omega
          obtain ⟨newBatches, rfl, hflat, hall, hchain⟩ := ih _ nextMsgsBatch hleft h
          refine ⟨batch :: newBatches, by simp, by rw [List.flatten_cons, hflat]; exact hsplit, ?_, ?_⟩
          · intro b hb
            rcases List.mem_cons.mp hb with rfl | hb
            · exact ⟨hbatch, hfits⟩
            · exact hall b hb
          · refine List.isChain_cons.mpr ⟨?_, hchain⟩
            intro nextBatch hnext
            -- the next batch starts the messages left, which are not empty
            obtain ⟨rest, hrest⟩ : ∃ rest, newBatches = nextBatch :: rest := by
              cases newBatches with
              | nil => simp at hnext
              | cons b rest => simp at hnext; exact ⟨rest, by rw [hnext]⟩
            have hnextNe : nextBatch ≠ [] := (hall nextBatch (by simp [hrest])).1
            have htake : nextMsgsBatch.take 1 = nextBatch.take 1 := by
              rw [← hflat, hrest, List.flatten_cons, List.take_append_of_le_length
                (List.length_pos_iff.mpr hnextNe)]
            rcases hmoved with hnone | hlarger
            · rw [← hflat, hrest, List.flatten_cons] at hnone
              simp [hnextNe] at hnone
            · rwa [← htake]

/-- The outer loop fails only on a message too large alone. -/
theorem splitLoop_eq_error :
    ∀ (fuel : ℕ) (batches : List (List α)) (currentMsgsBatch : List α) {e : SubstrateError E},
      splitLoop encodeMsg maxBatchSize fuel batches currentMsgsBatch = .error e →
      e = .singleMessageTooLarge maxBatchSize ∧
        ∃ msg ∈ currentMsgsBatch, maxBatchSize < encodedSize encodeMsg [msg] := by
  intro fuel
  induction fuel with
  | zero => intro _ _ _ h; cases h
  | succ fuel ih =>
      intro batches currentMsgsBatch e h
      rw [splitLoop] at h
      by_cases hnil : currentMsgsBatch.isEmpty
      · rw [if_pos hnil] at h
        cases h
      rw [if_neg hnil] at h
      have hne : currentMsgsBatch ≠ [] := fun h => hnil (List.isEmpty_iff.mpr h)
      cases hpop : popWhileTooLarge (E := E) encodeMsg maxBatchSize currentMsgsBatch.length
          currentMsgsBatch [] with
      | error e' =>
          rw [hpop] at h
          cases h
          exact popWhileTooLarge_eq_error encodeMsg maxBatchSize _ _ _ hne hpop
      | ok pop =>
          obtain ⟨batch, nextMsgsBatch⟩ := pop
          rw [hpop] at h
          obtain ⟨hsplit, -⟩ := popWhileTooLarge_eq_ok encodeMsg maxBatchSize _ _ _ hne le_rfl hpop
          -- the messages left are messages of the batch given
          obtain ⟨he, msg, hmsg, hmsgLarge⟩ := ih _ _ h
          refine ⟨he, msg, ?_, hmsgLarge⟩
          rw [List.append_nil] at hsplit
          exact hsplit ▸ List.mem_append_right batch hmsg

/-- **THE BATCHES.**  When `split_msgs_to_refine` succeeds, its batches are
    the messages, in order, each batch non-empty and fitting in the target's
    extrinsic, and none could have taken the first message of the next:
    the batches are as large as the order of the messages allows. -/
theorem split_msgs_to_refine_batches (maxExtrinsicSize : ℕ) (msgsToRefine : List α)
    {batches : List (List α)}
    (h : splitMsgsToRefine (E := E) encodeMsg maxExtrinsicSize msgsToRefine = .ok batches) :
    batches.flatten = msgsToRefine ∧
      (∀ batch ∈ batches, batch ≠ [] ∧ encodedSize encodeMsg batch ≤ maxExtrinsicSize) ∧
      batches.IsChain fun batch nextBatch =>
        maxExtrinsicSize < encodedSize encodeMsg (batch ++ nextBatch.take 1) := by
  obtain ⟨newBatches, hres, hflat, hall, hchain⟩ :=
    splitLoop_eq_ok encodeMsg maxExtrinsicSize _ [] msgsToRefine le_rfl h
  rw [List.nil_append] at hres
  subst hres
  exact ⟨hflat, hall, hchain⟩

/-- Three messages of sizes three, two and two fit in twelve bytes with the
    lane id and the length; the fourth goes to the next batch. -/
theorem split_msgs_to_refine_batches_on_six_messages :
    ([[3, 2, 2], [4, 1, 1]] : List (List ℕ)).flatten = [3, 2, 2, 4, 1, 1] ∧
      (∀ batch ∈ ([[3, 2, 2], [4, 1, 1]] : List (List ℕ)),
        batch ≠ [] ∧ encodedSize (fun n => List.replicate n (0 : UInt8)) batch ≤ 12) ∧
      ([[3, 2, 2], [4, 1, 1]] : List (List ℕ)).IsChain fun batch nextBatch =>
        12 < encodedSize (fun n => List.replicate n (0 : UInt8)) (batch ++ nextBatch.take 1) :=
  split_msgs_to_refine_batches (E := Unit) (fun n => List.replicate n (0 : UInt8)) 12
    [3, 2, 2, 4, 1, 1] (by decide)

/-- **WHEN THE SPLIT FAILS.**  `split_msgs_to_refine` fails, with the
    single-message error, exactly when some message does not fit in the
    target's extrinsic even alone. -/
theorem split_msgs_to_refine_fails_iff (maxExtrinsicSize : ℕ) (msgsToRefine : List α) :
    splitMsgsToRefine (E := E) encodeMsg maxExtrinsicSize msgsToRefine =
        .error (.singleMessageTooLarge maxExtrinsicSize) ↔
      ∃ msg ∈ msgsToRefine, maxExtrinsicSize < encodedSize encodeMsg [msg] := by
  constructor
  · intro h
    exact (splitLoop_eq_error encodeMsg maxExtrinsicSize _ _ _ h).2
  · rintro ⟨msg, hmsg, hlarge⟩
    cases hsplit : splitMsgsToRefine (E := E) encodeMsg maxExtrinsicSize msgsToRefine with
    | error e => rw [(splitLoop_eq_error encodeMsg maxExtrinsicSize _ _ _ hsplit).1]
    | ok batches =>
        -- a successful split puts the message in a batch that fits
        exfalso
        obtain ⟨newBatches, hres, hflat, hall, -⟩ :=
          splitLoop_eq_ok encodeMsg maxExtrinsicSize _ [] msgsToRefine le_rfl hsplit
        obtain ⟨batch, hbatch, hmem⟩ := List.mem_flatten.mp (hflat ▸ hmsg)
        have hle := encodedSize_singleton_le encodeMsg hmem
        have hfits := (hall batch hbatch).2
        omega

end Split

/-! ## `generated_message_details` -/

/-- The payloads read: an entry for each details, in order, pointing at
    consecutive positions from `position`. -/
theorem readMsgsToRefine_eq_ok (messagePayload : ℕ → Except E (Option MessagePayload)) :
    ∀ (outMsgsDetails : List OutboundMessageDetails) (position : ℕ)
      {msgsToRefine : List MessageToRefine},
      readMsgsToRefine messagePayload position outMsgsDetails = .ok msgsToRefine →
      msgsToRefine.map (·.details) = outMsgsDetails ∧
        msgsToRefine.map (·.position) = List.range' position outMsgsDetails.length := by
  intro outMsgsDetails
  induction outMsgsDetails with
  | nil =>
      intro position msgsToRefine h
      cases h
      exact ⟨rfl, rfl⟩
  | cons outMsgDetails outMsgsDetails ih =>
      intro position msgsToRefine h
      rw [readMsgsToRefine] at h
      cases hpayload : messagePayload outMsgDetails.nonce with
      | error e => rw [hpayload] at h; cases h
      | ok payload =>
          rw [hpayload] at h
          cases payload with
          | none => cases h
          | some msgPayload =>
              cases hrest : readMsgsToRefine messagePayload (position + 1) outMsgsDetails with
              | error e => rw [hrest] at h; cases h
              | ok rest =>
                  rw [hrest] at h
                  cases h
                  obtain ⟨hdetails, hpositions⟩ := ih (position + 1) hrest
                  refine ⟨by rw [List.map_cons, hdetails], ?_⟩
                  rw [List.map_cons, hpositions, List.length_cons, List.range'_succ]

/-- Modifying the entry right after a prefix. -/
theorem modify_append_length {β : Type} (pre rest : List β) (entry : β) (f : β → β) :
    (pre ++ entry :: rest).modify pre.length f = pre ++ f entry :: rest := by
  induction pre with
  | nil => simp
  | cons first pre ih => simp [ih]

/-- **ONE BATCH'S ANSWERS.**  A batch pointing at the positions right after
    `pre` writes its answers' weights there, one for each message, and
    nowhere else. -/
theorem refineWeights_eq :
    ∀ (msgsToRefineBatch : List MessageToRefine) (pre written rest : List OutboundMessageDetails)
      (inMsgsDetails : List InboundMessageDetails),
      msgsToRefineBatch.map (·.position) = List.range' pre.length msgsToRefineBatch.length →
      written.length = msgsToRefineBatch.length → inMsgsDetails.length = msgsToRefineBatch.length →
      refineWeights (pre ++ written ++ rest) msgsToRefineBatch inMsgsDetails =
        pre ++ List.zipWith OutboundMessageDetails.refine written inMsgsDetails ++ rest := by
  intro msgsToRefineBatch
  induction msgsToRefineBatch with
  | nil =>
      intro pre written rest inMsgsDetails _ hwritten hin
      rw [List.eq_nil_of_length_eq_zero hwritten, List.eq_nil_of_length_eq_zero hin]
      simp [refineWeights]
  | cons msgToRefine msgsToRefineBatch ih =>
      intro pre written rest inMsgsDetails hpositions hwritten hin
      obtain ⟨outMsgDetails, written, rfl⟩ : ∃ outMsgDetails tail, written = outMsgDetails :: tail :=
        List.exists_cons_of_length_eq_add_one hwritten
      obtain ⟨inMsgDetails, inMsgsDetails, rfl⟩ :
          ∃ inMsgDetails tail, inMsgsDetails = inMsgDetails :: tail :=
        List.exists_cons_of_length_eq_add_one hin
      rw [List.map_cons, List.length_cons, List.range'_succ, List.cons.injEq] at hpositions
      -- the first message points right after `pre`; the rest after it
      rw [refineWeights, hpositions.1, List.append_assoc, List.cons_append,
        modify_append_length, ← List.singleton_append, ← List.append_assoc,
        ← List.append_assoc, ih (pre ++ [outMsgDetails.refine inMsgDetails]) written rest
          inMsgsDetails (by simpa using hpositions.2) (by simpa using hwritten)
          (by simpa using hin)]
      simp

/-- **THE ANSWERS OF ALL BATCHES.**  When the batches point, in order, at
    the positions after `pre`, the refinement succeeds only with an answer
    of the target for each batch, one entry per message, and the weights of
    the answers, in order, replace those of the details after `pre`. -/
theorem refineBatches_eq_ok
    (fromChainMessageDetails :
      List (MessagePayload × OutboundMessageDetails) → Except E (List InboundMessageDetails)) :
    ∀ (batches : List (List MessageToRefine)) (pre rest : List OutboundMessageDetails),
      batches.flatten.map (·.position) = List.range' pre.length rest.length →
      ∀ {outMsgsDetails : List OutboundMessageDetails},
      refineBatches fromChainMessageDetails (pre ++ rest) batches = .ok outMsgsDetails →
      ∃ insPerBatch : List (List InboundMessageDetails),
        List.Forall₂ (fun msgsToRefineBatch inMsgsDetails =>
            fromChainMessageDetails (msgsToRefineBatch.map fun msg => (msg.payload, msg.details)) =
              .ok inMsgsDetails) batches insPerBatch ∧
        insPerBatch.flatten.length = rest.length ∧
        outMsgsDetails =
          pre ++ List.zipWith OutboundMessageDetails.refine rest insPerBatch.flatten := by
  intro batches
  induction batches with
  | nil =>
      intro pre rest hpositions outMsgsDetails h
      cases h
      -- no batch points anywhere: nothing is left to write
      have hrest : rest = [] := by
        have := congrArg List.length hpositions
        simp only [List.flatten_nil, List.map_nil, List.length_nil, List.length_range'] at this
        exact List.eq_nil_of_length_eq_zero this.symm
      subst hrest
      exact ⟨[], .nil, rfl, by simp⟩
  | cons msgsToRefineBatch batches ih =>
      intro pre rest hpositions outMsgsDetails h
      rw [refineBatches] at h
      cases hanswer : fromChainMessageDetails
          (msgsToRefineBatch.map fun msg => (msg.payload, msg.details)) with
      | error e => rw [hanswer] at h; cases h
      | ok inMsgsDetails =>
          rw [hanswer] at h
          dsimp only at h
          by_cases hcount : inMsgsDetails.length ≠ msgsToRefineBatch.length
          · rw [if_pos hcount] at h
            cases h
          rw [if_neg hcount] at h
          have hin : inMsgsDetails.length = msgsToRefineBatch.length := not_not.mp hcount
          -- the batch points at the first positions, the later batches at the others
          have hlength : msgsToRefineBatch.length ≤ rest.length := by
            have := congrArg List.length hpositions
            simp only [List.flatten_cons, List.map_append, List.length_append, List.length_map,
              List.length_range'] at this
            omega
          obtain ⟨written, rest, rfl, hwritten⟩ :
              ∃ written tail, rest = written ++ tail ∧ written.length = msgsToRefineBatch.length :=
            ⟨rest.take msgsToRefineBatch.length, rest.drop msgsToRefineBatch.length,
              (List.take_append_drop _ _).symm, by simp [hlength]⟩
          rw [List.flatten_cons, List.map_append, List.length_append, ← List.range'_append,
            Nat.one_mul] at hpositions
          obtain ⟨hfirst, hlater⟩ := List.append_inj hpositions (by simp [hwritten])
          rw [← List.append_assoc, refineWeights_eq msgsToRefineBatch pre written rest
            inMsgsDetails (by rw [hfirst, hwritten]) hwritten hin] at h
          have hpre : (pre ++ List.zipWith OutboundMessageDetails.refine written inMsgsDetails).length =
              pre.length + written.length := by
            simp [hwritten, hin]
          obtain ⟨insPerBatch, hanswers, hinLength, rfl⟩ :=
            ih (pre ++ List.zipWith OutboundMessageDetails.refine written inMsgsDetails) rest
              (by rw [hpre]; exact hlater) h
          refine ⟨inMsgsDetails :: insPerBatch, .cons hanswer hanswers, ?_, ?_⟩
          · simp [hinLength, hin, hwritten]
          · rw [List.flatten_cons, List.zipWith_append (by rw [hwritten, hin]), List.append_assoc]

/-- Refining keeps each details' nonce and size. -/
theorem map_zipWith_refine {β : Type} (f : OutboundMessageDetails → β)
    (hf : ∀ outMsgDetails inMsgDetails, f (outMsgDetails.refine inMsgDetails) = f outMsgDetails) :
    ∀ (outMsgsDetails : List OutboundMessageDetails) (inMsgsDetails : List InboundMessageDetails),
      inMsgsDetails.length = outMsgsDetails.length →
      (List.zipWith OutboundMessageDetails.refine outMsgsDetails inMsgsDetails).map f =
        outMsgsDetails.map f
  | [], _, _ => rfl
  | _ :: _, [], h => by simp at h
  | outMsgDetails :: outMsgsDetails, inMsgDetails :: inMsgsDetails, h => by
      simp only [List.zipWith_cons_cons, List.map_cons, hf]
      rw [map_zipWith_refine f hf outMsgsDetails inMsgsDetails (by simpa using h)]

/-- Refining gives the answers' weights. -/
theorem map_zipWith_refine_dispatchWeight :
    ∀ (outMsgsDetails : List OutboundMessageDetails) (inMsgsDetails : List InboundMessageDetails),
      inMsgsDetails.length = outMsgsDetails.length →
      (List.zipWith OutboundMessageDetails.refine outMsgsDetails inMsgsDetails).map (·.dispatchWeight) =
        inMsgsDetails.map (·.dispatchWeight)
  | [], [], _ => rfl
  | [], _ :: _, h => by simp at h
  | _ :: _, [], h => by simp at h
  | outMsgDetails :: outMsgsDetails, inMsgDetails :: inMsgsDetails, h => by
      simp only [List.zipWith_cons_cons, List.map_cons]
      rw [map_zipWith_refine_dispatchWeight outMsgsDetails inMsgsDetails (by simpa using h)]
      rfl

variable {B : Type}

/-- The map's entries are the sorted insertions of the details, one by one. -/
theorem entries_foldl_insert [Zero B] :
    ∀ (outMsgsDetails : List OutboundMessageDetails) (msgsDetailsMap : MessageDetailsMap B),
      (outMsgsDetails.foldl (fun msgsDetailsMap outMsgDetails =>
          msgsDetailsMap.insert outMsgDetails.nonce
            ⟨outMsgDetails.dispatchWeight, outMsgDetails.size, 0⟩) msgsDetailsMap).entries =
        (outMsgsDetails.map fun outMsgDetails =>
            (outMsgDetails.nonce, (⟨outMsgDetails.dispatchWeight, outMsgDetails.size, 0⟩ :
              MessageDetails B))).foldl
          (fun entries entry => SortedMap.insert entry.1 entry.2 entries) msgsDetailsMap.entries
  | [], _ => rfl
  | outMsgDetails :: outMsgsDetails, msgsDetailsMap =>
      entries_foldl_insert outMsgsDetails (msgsDetailsMap.insert outMsgDetails.nonce _)

/-- **WHAT A SUCCESSFUL CALL DID.**  `generated_message_details` succeeds
    only when the source's details pass validation, the batches of their
    messages each got an answer of the target with one entry per message,
    and then the map is the details, in order, with the answers' weights. -/
theorem generatedMessageDetails_eq_ok [Zero B]
    {encodeMsg : MessagePayload × OutboundMessageDetails → List UInt8} {maxExtrinsicSize : ℕ}
    {toChainMessageDetails : Except E (List OutboundMessageDetails)}
    {messagePayload : ℕ → Except E (Option MessagePayload)}
    {fromChainMessageDetails :
      List (MessagePayload × OutboundMessageDetails) → Except E (List InboundMessageDetails)}
    {nonces : RangeInclusive} {msgsDetailsMap : MessageDetailsMap B}
    (h : generatedMessageDetails encodeMsg maxExtrinsicSize toChainMessageDetails messagePayload
      fromChainMessageDetails nonces = .ok msgsDetailsMap) :
    ∃ (outMsgsDetails : List OutboundMessageDetails) (batches : List (List MessageToRefine))
      (insPerBatch : List (List InboundMessageDetails)),
      toChainMessageDetails = .ok outMsgsDetails ∧
      validateOutMsgsDetails (E := E) outMsgsDetails nonces = .ok () ∧
      batches.flatten.map (·.details) = outMsgsDetails ∧
      List.Forall₂ (fun msgsToRefineBatch inMsgsDetails =>
          fromChainMessageDetails (msgsToRefineBatch.map fun msg => (msg.payload, msg.details)) =
            .ok inMsgsDetails) batches insPerBatch ∧
      insPerBatch.flatten.length = outMsgsDetails.length ∧
      msgsDetailsMap.entries =
        (List.zipWith OutboundMessageDetails.refine outMsgsDetails insPerBatch.flatten).map
          fun outMsgDetails => (outMsgDetails.nonce,
            (⟨outMsgDetails.dispatchWeight, outMsgDetails.size, 0⟩ : MessageDetails B)) := by
  unfold generatedMessageDetails at h
  -- peel the steps off in order
  cases hsource : toChainMessageDetails with
  | error e => simp [hsource] at h
  | ok outMsgsDetails =>
  simp only [hsource] at h
  cases hvalid : validateOutMsgsDetails (E := E) outMsgsDetails nonces with
  | error e => simp [hvalid] at h
  | ok u =>
  cases u
  simp only [hvalid] at h
  cases hread : readMsgsToRefine messagePayload 0 outMsgsDetails with
  | error e => simp [hread] at h
  | ok msgsToRefine =>
  simp only [hread] at h
  cases hsplit : splitMsgsToRefine (E := E)
      (fun msg : MessageToRefine => encodeMsg (msg.payload, msg.details)) maxExtrinsicSize
      msgsToRefine with
  | error e => simp [hsplit] at h
  | ok batches =>
  simp only [hsplit] at h
  cases hrefine : refineBatches fromChainMessageDetails outMsgsDetails batches with
  | error e => simp [hrefine] at h
  | ok refined =>
  simp only [hrefine, Except.ok.injEq] at h
  subst h
  obtain ⟨hdetails, hpositions⟩ := readMsgsToRefine_eq_ok messagePayload _ 0 hread
  obtain ⟨newBatches, hres, hflat, -⟩ := splitLoop_eq_ok _ _ _ [] msgsToRefine le_rfl hsplit
  rw [List.nil_append] at hres
  subst hres
  -- the batches point at every position of the details, in order
  obtain ⟨insPerBatch, hanswers, hinLength, rfl⟩ :=
    refineBatches_eq_ok fromChainMessageDetails batches [] outMsgsDetails
      (by rw [hflat, hpositions]; rfl) (by rwa [List.nil_append])
  refine ⟨outMsgsDetails, batches, insPerBatch, rfl, hvalid, by rw [hflat, hdetails], hanswers,
    hinLength, ?_⟩
  -- the nonces are the end of the range, so they come in increasing order
  have hsorted : ((List.zipWith OutboundMessageDetails.refine outMsgsDetails
      insPerBatch.flatten).map (·.nonce)).Pairwise (· < ·) := by
    rw [map_zipWith_refine (·.nonce) (fun _ _ => rfl) _ _ hinLength,
      (validateOutMsgsDetails_eq_ok hvalid).2.2]
    exact List.pairwise_lt_range'
  rw [entries_foldl_insert, List.nil_append]
  refine SortedMap.foldl_insert_of_sorted _ [] ?_
  rw [List.nil_append, SortedMap.Sorted, List.map_map]
  exact hsorted

/-- **AN ENTRY FOR EACH NONCE OF THE RANGE'S END.**  When
    `generated_message_details` succeeds, its map has an entry for each
    details the source chain reported, in order, with the source's nonce
    and size and a zero reward; its nonces are the last of the requested
    range — all of it but possibly its first nonces, pruned at the source —
    and a non-empty range never gets an empty map. -/
theorem generated_message_details_covers_range_end [Zero B]
    (encodeMsg : MessagePayload × OutboundMessageDetails → List UInt8) (maxExtrinsicSize : ℕ)
    (toChainMessageDetails : Except E (List OutboundMessageDetails))
    (messagePayload : ℕ → Except E (Option MessagePayload))
    (fromChainMessageDetails :
      List (MessagePayload × OutboundMessageDetails) → Except E (List InboundMessageDetails))
    (nonces : RangeInclusive) {msgsDetailsMap : MessageDetailsMap B}
    (h : generatedMessageDetails encodeMsg maxExtrinsicSize toChainMessageDetails messagePayload
      fromChainMessageDetails nonces = .ok msgsDetailsMap) :
    ∃ outMsgsDetails, toChainMessageDetails = .ok outMsgsDetails ∧
      msgsDetailsMap.entries.map (fun entry => (entry.1, entry.2.size, entry.2.reward)) =
        outMsgsDetails.map (fun outMsgDetails => (outMsgDetails.nonce, outMsgDetails.size, (0 : B))) ∧
      msgsDetailsMap.entries.length ≤ noncesCount nonces ∧
      (nonces.start ≤ nonces.end → msgsDetailsMap.entries ≠ []) ∧
      msgsDetailsMap.entries.map Prod.fst =
        List.range' (nonces.end + 1 - msgsDetailsMap.entries.length) msgsDetailsMap.entries.length := by
  obtain ⟨outMsgsDetails, -, insPerBatch, hsource, hvalid, -, -, hinLength, hentries⟩ :=
    generatedMessageDetails_eq_ok h
  obtain ⟨hlength, hnonempty, hnonces⟩ := validateOutMsgsDetails_eq_ok hvalid
  -- the entries are the details, refined: refining keeps nonces and sizes
  have hsame : msgsDetailsMap.entries.map (fun entry => (entry.1, entry.2.size, entry.2.reward)) =
      outMsgsDetails.map (fun outMsgDetails => (outMsgDetails.nonce, outMsgDetails.size, (0 : B))) := by
    rw [hentries, List.map_map]
    exact map_zipWith_refine (fun outMsgDetails => (outMsgDetails.nonce, outMsgDetails.size, (0 : B)))
      (fun _ _ => rfl) _ _ hinLength
  have hcount : msgsDetailsMap.entries.length = outMsgsDetails.length := by
    simpa using congrArg List.length hsame
  have hkeys : msgsDetailsMap.entries.map Prod.fst = outMsgsDetails.map (·.nonce) := by
    have hfst := congrArg (List.map Prod.fst) hsame
    simp only [List.map_map, Function.comp_def] at hfst
    exact hfst
  refine ⟨outMsgsDetails, hsource, hsame, hcount ▸ hlength, ?_, ?_⟩
  · intro hle hnil
    exact hnonempty hle (List.eq_nil_of_length_eq_zero (by rw [← hcount, hnil]; rfl))
  · rw [hkeys, hcount, hnonces]

/-- The source's details of nonces four and five, the third pruned. -/
def prunedRangeDetails : List OutboundMessageDetails :=
  [⟨4, ⟨1, 1⟩, 10⟩, ⟨5, ⟨1, 1⟩, 20⟩]

/-- The map of the two messages, with the weights the target computes. -/
def prunedRangeMap : MessageDetailsMap ℕ :=
  ⟨[(4, ⟨⟨40, 0⟩, 10, 0⟩), (5, ⟨⟨50, 0⟩, 20, 0⟩)], by decide⟩

/-- A source storing each message as the one byte of its nonce. -/
def nonceBytePayload (nonce : ℕ) : Except Unit (Option MessagePayload) :=
  .ok (some [UInt8.ofNat nonce])

/-- A target that computes ten times the nonce as a message's weight. -/
def tenfoldWeights (msgsToRefineBatch : List (MessagePayload × OutboundMessageDetails)) :
    Except Unit (List InboundMessageDetails) :=
  .ok (msgsToRefineBatch.map fun msg => ⟨⟨msg.2.nonce * 10, 0⟩⟩)

/-- Nonces three to five asked for, the third pruned; one-byte payloads
    and six-byte extrinsics, so each message goes in a batch of its own. -/
theorem generated_message_details_covers_range_end_on_pruned_range :
    generatedMessageDetails (fun msg => msg.1) 6 (.ok prunedRangeDetails) nonceBytePayload
        tenfoldWeights ⟨3, 5⟩ = .ok prunedRangeMap ∧
    ∃ outMsgsDetails, (.ok prunedRangeDetails : Except Unit _) = .ok outMsgsDetails ∧
      prunedRangeMap.entries.map (fun entry => (entry.1, entry.2.size, entry.2.reward)) =
        outMsgsDetails.map (fun outMsgDetails => (outMsgDetails.nonce, outMsgDetails.size, 0)) ∧
      prunedRangeMap.entries.length ≤ noncesCount ⟨3, 5⟩ ∧
      (3 ≤ 5 → prunedRangeMap.entries ≠ []) ∧
      prunedRangeMap.entries.map Prod.fst =
        List.range' (5 + 1 - prunedRangeMap.entries.length) prunedRangeMap.entries.length :=
  ⟨rfl, generated_message_details_covers_range_end (fun msg => msg.1) 6 (.ok prunedRangeDetails)
    nonceBytePayload tenfoldWeights ⟨3, 5⟩ rfl⟩

/-- **THE TARGET'S WEIGHTS.**  When `generated_message_details` succeeds,
    the target chain's runtime API was asked about the messages in
    batches and answered each; the batches' messages, in order, are the
    map's nonces, and the map's dispatch weights are the answers' weights
    in the same order: each message has the weight the target computed
    for it. -/
theorem generated_message_details_target_weights [Zero B]
    (encodeMsg : MessagePayload × OutboundMessageDetails → List UInt8) (maxExtrinsicSize : ℕ)
    (toChainMessageDetails : Except E (List OutboundMessageDetails))
    (messagePayload : ℕ → Except E (Option MessagePayload))
    (fromChainMessageDetails :
      List (MessagePayload × OutboundMessageDetails) → Except E (List InboundMessageDetails))
    (nonces : RangeInclusive) {msgsDetailsMap : MessageDetailsMap B}
    (h : generatedMessageDetails encodeMsg maxExtrinsicSize toChainMessageDetails messagePayload
      fromChainMessageDetails nonces = .ok msgsDetailsMap) :
    ∃ (batches : List (List MessageToRefine)) (insPerBatch : List (List InboundMessageDetails)),
      List.Forall₂ (fun msgsToRefineBatch inMsgsDetails =>
          fromChainMessageDetails (msgsToRefineBatch.map fun msg => (msg.payload, msg.details)) =
            .ok inMsgsDetails) batches insPerBatch ∧
      batches.flatten.map (·.details.nonce) = msgsDetailsMap.entries.map Prod.fst ∧
      insPerBatch.flatten.map (·.dispatchWeight) =
        msgsDetailsMap.entries.map (·.2.dispatchWeight) := by
  obtain ⟨outMsgsDetails, batches, insPerBatch, -, -, hdetails, hanswers, hinLength, hentries⟩ :=
    generatedMessageDetails_eq_ok h
  refine ⟨batches, insPerBatch, hanswers, ?_, ?_⟩
  · -- the batches hold the details, whose nonces refining keeps
    have hnonces : batches.flatten.map (·.details.nonce) = outMsgsDetails.map (·.nonce) := by
      rw [← hdetails, List.map_map]
      rfl
    rw [hnonces, hentries, List.map_map]
    exact (map_zipWith_refine (·.nonce) (fun _ _ => rfl) _ _ hinLength).symm
  · rw [hentries, List.map_map]
    exact (map_zipWith_refine_dispatchWeight _ _ hinLength).symm

/-- The same two messages: two batches, answered forty and fifty. -/
theorem generated_message_details_target_weights_on_pruned_range :
    generatedMessageDetails (fun msg => msg.1) 6 (.ok prunedRangeDetails) nonceBytePayload
        tenfoldWeights ⟨3, 5⟩ = .ok prunedRangeMap ∧
    ∃ (batches : List (List MessageToRefine)) (insPerBatch : List (List InboundMessageDetails)),
      List.Forall₂ (fun msgsToRefineBatch inMsgsDetails =>
          tenfoldWeights (msgsToRefineBatch.map fun msg => (msg.payload, msg.details)) =
            .ok inMsgsDetails) batches insPerBatch ∧
      batches.flatten.map (·.details.nonce) = prunedRangeMap.entries.map Prod.fst ∧
      insPerBatch.flatten.map (·.dispatchWeight) = prunedRangeMap.entries.map (·.2.dispatchWeight) :=
  ⟨rfl, generated_message_details_target_weights (fun msg => msg.1) 6 (.ok prunedRangeDetails)
    nonceBytePayload tenfoldWeights ⟨3, 5⟩ rfl⟩

end MessagesSource

end ParityBridge
