import ParityBridge.Relay.FinalityLoop

/-! # Header selection of the finality relay — mandatory first, then the best justified

    Over a source chain that answers every header of `(t, s]` (`t` the
    target's best number, `s` the source's), `select_header_to_submit`
    returns the first mandatory header of the range with its persistent
    proof, or fails naming it when the source keeps none, leaving the
    buffer of recent proofs alone.  With no mandatory header it returns the
    highest header of the range that has a proof, persistent or buffered,
    or nothing when none has one, and cuts the buffer to its latest proofs
    above what it selected.

    The route:

    * the header loop of `read_missing_headers` keeps `ScannedFrom`: the
      selection is the last header read with a persistent proof, and the
      unjustified headers are those read after it (`ScannedFrom.next`, run
      by `scannedFrom_run`);
    * `select_better_recent_finality_proof` either finds the last buffered
      proof above that header, through the two searches of
      `SortedSearch`, or keeps the selection when there is none;
    * `prune_recent_finality_proofs` keeps the latest proofs above the
      selected header, by `SortedSearch.drop_searchPast`.

    Across passes, every buffered proof stays filed under the number of the
    header it finalizes (`Keyed.selectHeaderToSubmit`). -/

namespace ParityBridge

namespace FinalityLoop

open SortedSearch

variable {SE H FP : Type}

/-! ## The header loop, one header at a time -/

section Step

variable [SourceHeader H] (headerAndFinalityProof : ℕ → Except SE (H × Option FP)) {headerNumber : ℕ}
  {headerNumbers : List ℕ} {unjustifiedHeaders : List H} {selectedFinalityProof : Option (H × FP)}
  {header : H}

/-- A header without a persistent proof joins the unjustified ones. -/
theorem readMissingHeadersLoop_cons_unjustified
    (hread : headerAndFinalityProof headerNumber = .ok (header, none))
    (hregular : SourceHeader.isMandatory header = false) :
    readMissingHeadersLoop headerAndFinalityProof (headerNumber :: headerNumbers)
        unjustifiedHeaders selectedFinalityProof =
      readMissingHeadersLoop headerAndFinalityProof headerNumbers
        (unjustifiedHeaders ++ [header]) selectedFinalityProof := by
  rw [readMissingHeadersLoop, hread]
  simp only [hregular]

/-- A header with a persistent proof is selected, and the unjustified
    headers are cleared. -/
theorem readMissingHeadersLoop_cons_justified {proof : FP}
    (hread : headerAndFinalityProof headerNumber = .ok (header, some proof))
    (hregular : SourceHeader.isMandatory header = false) :
    readMissingHeadersLoop headerAndFinalityProof (headerNumber :: headerNumbers)
        unjustifiedHeaders selectedFinalityProof =
      readMissingHeadersLoop headerAndFinalityProof headerNumbers [] (some (header, proof)) := by
  rw [readMissingHeadersLoop, hread]
  simp only [hregular]

/-- A mandatory header with its proof ends the loop with it. -/
theorem readMissingHeadersLoop_cons_mandatory {proof : FP}
    (hread : headerAndFinalityProof headerNumber = .ok (header, some proof))
    (hmandatory : SourceHeader.isMandatory header = true) :
    readMissingHeadersLoop headerAndFinalityProof (headerNumber :: headerNumbers)
        unjustifiedHeaders selectedFinalityProof = .ok (.mandatory header proof) := by
  rw [readMissingHeadersLoop, hread]
  simp only [hmandatory]

/-- A mandatory header without a proof fails the loop, naming it. -/
theorem readMissingHeadersLoop_cons_mandatory_missing
    (hread : headerAndFinalityProof headerNumber = .ok (header, none))
    (hmandatory : SourceHeader.isMandatory header = true) :
    readMissingHeadersLoop headerAndFinalityProof (headerNumber :: headerNumbers)
        unjustifiedHeaders selectedFinalityProof =
      .error (.missingMandatoryFinalityProof (SourceHeader.number header)) := by
  rw [readMissingHeadersLoop, hread]
  simp only [hmandatory]

/-- Past a header that is not mandatory the loop goes on. -/
theorem readMissingHeadersLoop_cons_regular (headerNumbers : List ℕ) (unjustifiedHeaders : List H)
    (selectedFinalityProof : Option (H × FP)) {finalityProof : Option FP}
    (hread : headerAndFinalityProof headerNumber = .ok (header, finalityProof))
    (hregular : SourceHeader.isMandatory header = false) :
    ∃ unjustifiedHeaders' selectedFinalityProof',
      readMissingHeadersLoop headerAndFinalityProof (headerNumber :: headerNumbers)
          unjustifiedHeaders selectedFinalityProof =
        readMissingHeadersLoop headerAndFinalityProof headerNumbers unjustifiedHeaders'
          selectedFinalityProof' := by
  cases finalityProof with
  | none => exact ⟨_, _, readMissingHeadersLoop_cons_unjustified _ hread hregular⟩
  | some proof => exact ⟨_, _, readMissingHeadersLoop_cons_justified _ hread hregular⟩

end Step

/-! ## What the header loop holds -/

section Scan

variable (chain : ℕ → H × Option FP)

/-- The headers of `(b, e]`, in order. -/
def headersBetween (b e : ℕ) : List H :=
  (List.range' (b + 1) (e - b)).map fun n => (chain n).1

@[simp] theorem length_headersBetween (b e : ℕ) : (headersBetween chain b e).length = e - b := by
  simp [headersBetween]

@[simp] theorem getElem_headersBetween {b e i : ℕ} (hi : i < (headersBetween chain b e).length) :
    (headersBetween chain b e)[i] = (chain (b + 1 + i)).1 := by
  simp [headersBetween, List.getElem_range']

theorem headersBetween_self (b : ℕ) : headersBetween chain b b = [] := by
  simp [headersBetween]

theorem headersBetween_ne_nil {b e : ℕ} (hbe : b < e) : headersBetween chain b e ≠ [] := by
  intro hnil
  have hlen := congrArg List.length hnil
  rw [length_headersBetween, List.length_nil] at hlen
  omega

theorem headersBetween_succ {b e : ℕ} (hbe : b ≤ e) :
    headersBetween chain b (e + 1) = headersBetween chain b e ++ [(chain (e + 1)).1] := by
  have hlen : e + 1 - b = (e - b) + 1 := by omega
  have hlast : b + 1 + (e - b) = e + 1 := by omega
  rw [headersBetween, headersBetween, hlen, List.range'_concat, List.map_append]
  simp [hlast]

/-- The loop has read the headers of `(t, e]`, none of them mandatory, and
    `b` is the last of them with a persistent proof (`t` when none has one):
    the selection is that header with its proof, and the unjustified
    headers are those after it. -/
structure ScannedFrom (t b e : ℕ) (unjustifiedHeaders : List H)
    (selectedFinalityProof : Option (H × FP)) : Prop where
  base_le : t ≤ b
  le_last : b ≤ e
  unjustified : unjustifiedHeaders = headersBetween chain b e
  no_persistent : ∀ n, b < n → n ≤ e → (chain n).2 = none
  selected : selectedFinalityProof = none ∧ b = t ∨
    t < b ∧ ∃ proof, (chain b).2 = some proof ∧ selectedFinalityProof = some ((chain b).1, proof)

theorem scannedFrom_start (t : ℕ) : ScannedFrom chain t t t [] none :=
  ⟨le_rfl, le_rfl, (headersBetween_self chain t).symm, fun _ h h' => absurd h' (by omega),
    .inl ⟨rfl, rfl⟩⟩

variable [SourceHeader H]

/-- Headers numbered by their position are sorted by number. -/
theorem headersBetween_sorted {b e : ℕ}
    (hnumber : ∀ n, b < n → n ≤ e → SourceHeader.number (chain n).1 = n) :
    (headersBetween chain b e).Pairwise fun x y => SourceHeader.number x < SourceHeader.number y := by
  rw [headersBetween, List.pairwise_map]
  refine (List.pairwise_lt_range' 1).imp_of_mem fun {m n} hm hn hmn => ?_
  rw [List.mem_range'_1] at hm hn
  rw [hnumber m (by omega) (by omega), hnumber n (by omega) (by omega)]
  exact hmn

/-- `m` is the first mandatory header of `(t, s]`. -/
def IsFirstMandatory (t s m : ℕ) : Prop :=
  t < m ∧ m ≤ s ∧ SourceHeader.isMandatory (chain m).1 = true ∧
    ∀ n, t < n → n < m → SourceHeader.isMandatory (chain n).1 = false

variable {chain} {headerAndFinalityProof : ℕ → Except SE (H × Option FP)}
  (hchain : ∀ n, headerAndFinalityProof n = .ok (chain n))
include hchain

/-- **ONE HEADER.** Reading one more header, not mandatory, keeps the scan
    invariant. -/
theorem ScannedFrom.next {t b e : ℕ} {unjustifiedHeaders : List H}
    {selectedFinalityProof : Option (H × FP)} (headerNumbers : List ℕ)
    (h : ScannedFrom chain t b e unjustifiedHeaders selectedFinalityProof)
    (hregular : SourceHeader.isMandatory (chain (e + 1)).1 = false) :
    ∃ b' unjustifiedHeaders' selectedFinalityProof',
      ScannedFrom chain t b' (e + 1) unjustifiedHeaders' selectedFinalityProof' ∧
        readMissingHeadersLoop headerAndFinalityProof ((e + 1) :: headerNumbers)
            unjustifiedHeaders selectedFinalityProof =
          readMissingHeadersLoop headerAndFinalityProof headerNumbers
            unjustifiedHeaders' selectedFinalityProof' := by
  cases hproof : (chain (e + 1)).2 with
  | none =>
      -- the header joins the unjustified ones after `b`
      have hread : headerAndFinalityProof (e + 1) = .ok ((chain (e + 1)).1, none) := by
        rw [hchain, ← hproof]
      refine ⟨b, _, _, ⟨h.base_le, by have := h.le_last; omega, ?_, fun n hbn hne => ?_,
        h.selected⟩, readMissingHeadersLoop_cons_unjustified _ hread hregular⟩
      · rw [h.unjustified, headersBetween_succ chain h.le_last]
      · rcases Nat.lt_or_ge n (e + 1) with hlt | hge
        · exact h.no_persistent n hbn (by omega)
        · rw [show n = e + 1 by omega]
          exact hproof
  | some proof =>
      -- the header becomes the selection
      have hread : headerAndFinalityProof (e + 1) = .ok ((chain (e + 1)).1, some proof) := by
        rw [hchain, ← hproof]
      have hte : t < e + 1 := by have := h.base_le; have := h.le_last; omega
      refine ⟨e + 1, [], _, ⟨hte.le, le_rfl, (headersBetween_self chain _).symm,
        fun _ h h' => absurd h' (by omega), .inr ⟨hte, proof, hproof, rfl⟩⟩,
        readMissingHeadersLoop_cons_justified _ hread hregular⟩

/-- **THE SCAN.** Over headers none of which is mandatory, the loop reaches
    its end with the scan invariant at the last header. -/
theorem scannedFrom_run {t : ℕ} :
    ∀ (k b e : ℕ) (unjustifiedHeaders : List H) (selectedFinalityProof : Option (H × FP)),
      ScannedFrom chain t b e unjustifiedHeaders selectedFinalityProof →
      (∀ n, e < n → n ≤ e + k → SourceHeader.isMandatory (chain n).1 = false) →
      ∃ b' unjustifiedHeaders' selectedFinalityProof',
        ScannedFrom chain t b' (e + k) unjustifiedHeaders' selectedFinalityProof' ∧
          readMissingHeadersLoop headerAndFinalityProof (List.range' (e + 1) k)
              unjustifiedHeaders selectedFinalityProof =
            readMissingHeadersLoop headerAndFinalityProof [] unjustifiedHeaders'
              selectedFinalityProof' := by
  intro k
  induction k with
  | zero =>
      intro b e unjustifiedHeaders selectedFinalityProof h _
      exact ⟨b, unjustifiedHeaders, selectedFinalityProof, h, rfl⟩
  | succ k ih =>
      intro b e unjustifiedHeaders selectedFinalityProof h hregular
      obtain ⟨b₁, unjustified₁, selected₁, h₁, hstep⟩ :=
        h.next hchain (List.range' (e + 1 + 1) k) (hregular (e + 1) (by omega) (by omega))
      obtain ⟨b₂, unjustified₂, selected₂, h₂, hrun⟩ :=
        ih b₁ (e + 1) unjustified₁ selected₁ h₁ fun n hlo hhi => hregular n (by omega) (by omega)
      refine ⟨b₂, unjustified₂, selected₂, by rwa [Nat.add_right_comm] at h₂, ?_⟩
      rw [List.range'_succ, hstep, hrun]

/-- Up to the first mandatory header the loop only reads on. -/
theorem readMissingHeadersLoop_to_mandatory {m : ℕ} :
    ∀ (k e : ℕ) (unjustifiedHeaders : List H) (selectedFinalityProof : Option (H × FP)),
      e < m → m ≤ e + k →
      (∀ n, e < n → n < m → SourceHeader.isMandatory (chain n).1 = false) →
      ∃ unjustifiedHeaders' selectedFinalityProof',
        readMissingHeadersLoop headerAndFinalityProof (List.range' (e + 1) k)
            unjustifiedHeaders selectedFinalityProof =
          readMissingHeadersLoop headerAndFinalityProof
            (m :: List.range' (m + 1) (e + k - m)) unjustifiedHeaders' selectedFinalityProof' := by
  intro k
  induction k with
  | zero => intro e _ _ hem hme _; omega
  | succ k ih =>
      intro e unjustifiedHeaders selectedFinalityProof hem hme hregular
      rw [List.range'_succ]
      rcases Nat.lt_or_ge (e + 1) m with hlt | hge
      · -- a header before the mandatory one
        obtain ⟨unjustified₁, selected₁, hstep⟩ := readMissingHeadersLoop_cons_regular
          headerAndFinalityProof (List.range' (e + 1 + 1) k) unjustifiedHeaders
          selectedFinalityProof (hchain (e + 1)) (hregular (e + 1) (by omega) hlt)
        obtain ⟨unjustified₂, selected₂, hrun⟩ := ih (e + 1) unjustified₁ selected₁ hlt (by omega)
          fun n hlo hhi => hregular n (by omega) hhi
        refine ⟨unjustified₂, selected₂, ?_⟩
        rw [hstep, hrun, show e + 1 + k - m = e + (k + 1) - m by omega]
      · -- the mandatory header is the next one
        have hm : e + 1 = m := by omega
        subst hm
        exact ⟨unjustifiedHeaders, selectedFinalityProof,
          by rw [show e + (k + 1) - (e + 1) = k by omega]⟩

/-- **MANDATORY FIRST.** The first mandatory header of the range is read
    with its proof, or fails the pass naming it. -/
theorem readMissingHeaders_of_first_mandatory {t s m : ℕ} (hm : IsFirstMandatory chain t s m) :
    (∀ proof, (chain m).2 = some proof →
      readMissingHeaders headerAndFinalityProof s t = .ok (.mandatory (chain m).1 proof)) ∧
    ((chain m).2 = none →
      readMissingHeaders headerAndFinalityProof s t =
        .error (.missingMandatoryFinalityProof (SourceHeader.number (chain m).1))) := by
  obtain ⟨htm, hms, hmandatory, hbefore⟩ := hm
  obtain ⟨unjustifiedHeaders, selectedFinalityProof, hrun⟩ :=
    readMissingHeadersLoop_to_mandatory hchain (s - t) t [] none htm (by omega) hbefore
  refine ⟨fun proof hproof => ?_, fun hproof => ?_⟩
  · rw [readMissingHeaders, hrun]
    exact readMissingHeadersLoop_cons_mandatory _ (by rw [hchain, ← hproof]) hmandatory
  · rw [readMissingHeaders, hrun]
    exact readMissingHeadersLoop_cons_mandatory_missing _ (by rw [hchain, ← hproof]) hmandatory

end Scan

/-! ## The specification -/

section Spec

variable (chain : ℕ → H × Option FP) (buffer : List (ℕ × FP))

/-- A proof of header `n`: the source's persistent one, or one buffered
    under `n`. -/
def ProofFor (n : ℕ) (proof : FP) : Prop :=
  (chain n).2 = some proof ∨ (n, proof) ∈ buffer

/-- The best justified choice among the headers of `(t, s]`: nothing when
    none of them has a proof, else the highest that has one, with a proof of
    it. -/
def IsBestJustified (t s : ℕ) : Option (H × FP) → Prop
  | none => ∀ n proof, t < n → n ≤ s → ¬ProofFor chain buffer n proof
  | some (header, proof) =>
      ∃ n, t < n ∧ n ≤ s ∧ header = (chain n).1 ∧ ProofFor chain buffer n proof ∧
        ∀ n' proof', n < n' → n' ≤ s → ¬ProofFor chain buffer n' proof'

/-- The proofs of `buffer` for headers above `j`, the latest `limit` of them. -/
def latestAbove (j limit : ℕ) : List (ℕ × FP) :=
  (buffer.filter fun e => j < e.1).drop ((buffer.filter fun e => j < e.1).length - limit)

variable {chain buffer}

/-- After the scan's selection a header has no persistent proof: a proof of
    it is a buffered one. -/
theorem ScannedFrom.proofFor_iff {t b s n : ℕ} {unjustifiedHeaders : List H}
    {selectedFinalityProof : Option (H × FP)} {proof : FP}
    (h : ScannedFrom chain t b s unjustifiedHeaders selectedFinalityProof)
    (hbn : b < n) (hns : n ≤ s) :
    ProofFor chain buffer n proof ↔ (n, proof) ∈ buffer := by
  rw [ProofFor, h.no_persistent n hbn hns]
  simp

/-- With no buffered proof above `b`, the scan's selection is the best
    justified choice. -/
theorem ScannedFrom.isBestJustified {t b s : ℕ} {unjustifiedHeaders : List H}
    {selectedFinalityProof : Option (H × FP)}
    (h : ScannedFrom chain t b s unjustifiedHeaders selectedFinalityProof)
    (hnone : ∀ n proof, b < n → n ≤ s → (n, proof) ∉ buffer) :
    IsBestJustified chain buffer t s selectedFinalityProof := by
  -- no header after `b` has a proof of either kind
  have hafter : ∀ n proof, b < n → n ≤ s → ¬ProofFor chain buffer n proof :=
    fun n proof hbn hns hfor => hnone n proof hbn hns ((h.proofFor_iff hbn hns).1 hfor)
  rcases h.selected with ⟨rfl, rfl⟩ | ⟨htb, proof, hproof, rfl⟩
  · exact hafter
  · exact ⟨b, htb, h.le_last, rfl, .inl hproof, hafter⟩

/-- A buffered proof above the scan's selection, the last in the range, is
    the best justified choice. -/
theorem ScannedFrom.isBestJustified_of_buffered {t b s n : ℕ} {unjustifiedHeaders : List H}
    {selectedFinalityProof : Option (H × FP)} {proof : FP}
    (h : ScannedFrom chain t b s unjustifiedHeaders selectedFinalityProof)
    (hbn : b < n) (hns : n ≤ s) (hmem : (n, proof) ∈ buffer)
    (habove : ∀ n' proof', n < n' → n' ≤ s → (n', proof') ∉ buffer) :
    IsBestJustified chain buffer t s (some ((chain n).1, proof)) := by
  refine ⟨n, lt_of_le_of_lt h.base_le hbn, hns, rfl, .inr hmem, fun n' proof' hnn' hn's hfor => ?_⟩
  exact habove n' proof' hnn' hn's ((h.proofFor_iff (lt_trans hbn hnn') hn's).1 hfor)

variable (chain buffer) [SourceHeader H]

/-- What header selection should answer over `(t, s]`, from the buffer
    `recent` and the buffer `buffer` it has once the stream is read.  For
    the first mandatory header: that header with its persistent proof, or
    the error naming it, and `recent` untouched.  With no mandatory header:
    the best justified choice, and the buffer cut to its latest proofs above
    the header chosen (above `t` when none is). -/
structure SelectsMandatoryFirst (recent : List (ℕ × FP)) (t s limit : ℕ)
    (result : Except (Error SE) (Option (H × FP)) × List (ℕ × FP)) : Prop where
  mandatory_proved : ∀ m proof, IsFirstMandatory chain t s m → (chain m).2 = some proof →
    result = (.ok (some ((chain m).1, proof)), recent)
  mandatory_missing : ∀ m, IsFirstMandatory chain t s m → (chain m).2 = none →
    result = (.error (.missingMandatoryFinalityProof m), recent)
  best_justified : (∀ n, t < n → n ≤ s → SourceHeader.isMandatory (chain n).1 = false) →
    ∃ selected, result.1 = .ok selected ∧ IsBestJustified chain buffer t s selected ∧
      result.2 = latestAbove buffer
        ((selected.map fun selected => SourceHeader.number selected.1).getD t) limit ∧
      result.2 <:+ buffer

end Spec

/-! ## `select_better_recent_finality_proof` -/

section Better

variable [SourceHeader H] {chain : ℕ → H × Option FP} {buffer : List (ℕ × FP)} {b s : ℕ}
  (hnumber : ∀ n, b < n → n ≤ s → SourceHeader.number (chain n).1 = n)
include hnumber

/-- The unjustified headers of a non-empty range run from `b + 1` to `s`. -/
theorem headersBetween_ends {firstUnjustified : H} {otherUnjustified : List H}
    (hheaders : headersBetween chain b s = firstUnjustified :: otherUnjustified) :
    SourceHeader.number firstUnjustified = b + 1 ∧
      SourceHeader.number ((firstUnjustified :: otherUnjustified).getLast (List.cons_ne_nil _ _)) =
        s := by
  have hlen : 0 < s - b := by
    rw [← length_headersBetween chain b s, hheaders]
    exact Nat.succ_pos _
  constructor
  · have hfirst := getElem_headersBetween chain (b := b) (e := s) (i := 0) (by simp; omega)
    rw [List.getElem_of_eq hheaders] at hfirst
    rw [List.getElem_cons_zero] at hfirst
    rw [hfirst, hnumber (b + 1 + 0) (by omega) (by omega)]
  · rw [List.getLast_eq_getElem]
    have hlength : (firstUnjustified :: otherUnjustified).length = s - b := by
      rw [← hheaders, length_headersBetween]
    have hlast := getElem_headersBetween chain (b := b) (e := s) (i := s - b - 1) (by simp; omega)
    rw [List.getElem_of_eq hheaders] at hlast
    simp only [hlength, hlast]
    rw [hnumber _ (by omega) (by omega)]
    omega

/-- **NO BETTER PROOF.** With no buffered proof for a header after `b`, the
    selection stays as it is. -/
theorem selectBetterRecentFinalityProof_fst_of_none_after (selectedFinalityProof : Option (H × FP))
    (hnone : ∀ n proof, b < n → n ≤ s → (n, proof) ∉ buffer) :
    (selectBetterRecentFinalityProof buffer (headersBetween chain b s) selectedFinalityProof).1 =
      selectedFinalityProof := by
  cases hheaders : headersBetween chain b s with
  | nil => cases buffer <;> rfl
  | cons firstUnjustified otherUnjustified =>
      obtain ⟨hfirst, hlast⟩ := headersBetween_ends hnumber hheaders
      cases buffer with
      | nil => rfl
      | cons firstBuffered otherBuffered =>
          dsimp only [selectBetterRecentFinalityProof]
          split
          · rfl
          · rename_i selectedHeaderNumber finalityProof hget
            have hmem := List.mem_of_getElem? hget
            -- the proof found lies outside `(b, s]`, hence outside the intersection
            have hout : ¬(max (SourceHeader.number firstUnjustified) firstBuffered.1 ≤
                  selectedHeaderNumber ∧ selectedHeaderNumber ≤
                    min (SourceHeader.number ((firstUnjustified :: otherUnjustified).getLast
                      (List.cons_ne_nil _ _))) ((firstBuffered :: otherBuffered).getLast
                        (List.cons_ne_nil _ _)).1) := by
              rintro ⟨hbegin, hend⟩
              rw [hfirst] at hbegin
              rw [hlast] at hend
              exact hnone selectedHeaderNumber finalityProof (by omega) (by omega) hmem
            simp only [hout, decide_false, Bool.not_false, if_true]

/-- **A BETTER PROOF.** With a buffered proof for a header after `b`, the
    selection becomes the last header of `(b, s]` with a buffered proof,
    with that proof. -/
theorem selectBetterRecentFinalityProof_fst_of_buffered (selectedFinalityProof : Option (H × FP))
    (hsorted : buffer.Pairwise fun x y => x.1 < y.1) {n₀ : ℕ} {proof₀ : FP}
    (hmem₀ : (n₀, proof₀) ∈ buffer) (hbn₀ : b < n₀) (hn₀s : n₀ ≤ s) :
    ∃ n proof,
      (selectBetterRecentFinalityProof buffer (headersBetween chain b s) selectedFinalityProof).1 =
          some ((chain n).1, proof) ∧
        (n, proof) ∈ buffer ∧ b < n ∧ n ≤ s ∧
        ∀ n' proof', n < n' → n' ≤ s → (n', proof') ∉ buffer := by
  obtain ⟨firstUnjustified, otherUnjustified, hheaders⟩ :=
    List.exists_cons_of_ne_nil (headersBetween_ne_nil chain (lt_of_lt_of_le hbn₀ hn₀s))
  obtain ⟨hfirst, hlast⟩ := headersBetween_ends hnumber hheaders
  obtain ⟨firstBuffered, otherBuffered, rfl⟩ := List.exists_cons_of_ne_nil (List.ne_nil_of_mem hmem₀)
  -- every buffered key is at most the last one
  have hbufferLast : ∀ e ∈ firstBuffered :: otherBuffered,
      e.1 ≤ ((firstBuffered :: otherBuffered).getLast (List.cons_ne_nil _ _)).1 :=
    fun e he => key_le_getLast hsorted (List.cons_ne_nil _ _) he
  -- the last buffered proof not past the intersection's end, which `n₀` is not past
  have hin₀ : n₀ ≤ min (SourceHeader.number ((firstUnjustified :: otherUnjustified).getLast
      (List.cons_ne_nil _ _))) ((firstBuffered :: otherBuffered).getLast (List.cons_ne_nil _ _)).1 := by
    rw [hlast]
    exact le_min hn₀s (hbufferLast _ hmem₀)
  obtain ⟨⟨n, proof⟩, hget, hle, hmax⟩ := getElem?_searchBefore hsorted hmem₀ hin₀
  have hmem : (n, proof) ∈ firstBuffered :: otherBuffered := List.mem_of_getElem? hget
  have hn₀n : n₀ ≤ n := hmax _ hmem₀ hin₀
  have hfirstBuffered : firstBuffered.1 ≤ n := key_head_le hsorted (List.cons_ne_nil _ _) hmem
  rw [hlast] at hle
  have hns : n ≤ s := le_trans hle (min_le_left _ _)
  -- the header of `n` sits at position `n - (b + 1)` of the unjustified ones
  have hpos : n - (b + 1) < (headersBetween chain b s).length := by
    rw [length_headersBetween]
    omega
  have hsearch : binarySearchByKey (firstUnjustified :: otherUnjustified) n SourceHeader.number =
      .ok (n - (b + 1)) := by
    rw [← hheaders]
    refine binarySearchByKey_eq_ok (headersBetween_sorted chain hnumber) hpos ?_
    rw [getElem_headersBetween, hnumber _ (by omega) (by omega)]
    omega
  have hswap : (swapRemove (firstUnjustified :: otherUnjustified) (n - (b + 1))).map Prod.fst =
      some (chain n).1 := by
    rw [swapRemove_map_fst, ← hheaders, List.getElem?_eq_getElem hpos, getElem_headersBetween]
    congr 3
    omega
  obtain ⟨⟨selectedHeader, unjustifiedHeaders⟩, hremove, hselected⟩ := Option.map_eq_some_iff.1 hswap
  refine ⟨n, proof, ?_, hmem, by omega, hns, fun n' proof' hnn' hn's hmem' => ?_⟩
  · rw [hheaders]
    dsimp only [selectBetterRecentFinalityProof]
    rw [hget]
    dsimp only
    have hin : max (SourceHeader.number firstUnjustified) firstBuffered.1 ≤ n ∧
        n ≤ min (SourceHeader.number ((firstUnjustified :: otherUnjustified).getLast
          (List.cons_ne_nil _ _))) ((firstBuffered :: otherBuffered).getLast
            (List.cons_ne_nil _ _)).1 := by
      rw [hfirst, hlast]
      exact ⟨max_le (by omega) hfirstBuffered, hle⟩
    simp only [hin, and_self, decide_true, Bool.not_true, Bool.false_eq_true, if_false, hsearch,
      hremove]
    rw [← hselected]
  · have := hmax _ hmem' (le_min (by rw [hlast]; exact hn's) (hbufferLast _ hmem'))
    omega

end Better

/-! ## `prune_recent_finality_proofs` -/

/-- **THE PRUNED BUFFER.** On a buffer sorted by header number, pruning from
    `j` keeps the latest `limit` proofs for headers above `j`. -/
theorem pruneRecentFinalityProofs_eq {buffer : List (ℕ × FP)}
    (hsorted : buffer.Pairwise fun x y => x.1 < y.1) (j limit : ℕ) :
    pruneRecentFinalityProofs j buffer limit = latestAbove buffer j limit := by
  have habove := drop_searchPast (b := j) hsorted
  rw [pruneRecentFinalityProofs, latestAbove, ← habove, List.drop_drop, List.length_drop]
  congr 1
  omega

/-- Pruning keeps a suffix of the buffer. -/
theorem pruneRecentFinalityProofs_suffix (j : ℕ) (buffer : List (ℕ × FP)) (limit : ℕ) :
    pruneRecentFinalityProofs j buffer limit <:+ buffer :=
  List.drop_suffix _ _

/-! ## `select_header_to_submit` -/

section Select

variable [SourceHeader H] [FinalityProof FP] (chain : ℕ → H × Option FP) (finalityProofsStream : List FP)
  (recentFinalityProofs : List (ℕ × FP)) (syncParams : FinalitySyncParams)

@[simp] theorem selectFromRecentFinalityProofs_fst (bestNumberAtTarget : ℕ)
    (unjustifiedHeaders : List H) (selectedFinalityProof : Option (H × FP)) :
    (selectFromRecentFinalityProofs finalityProofsStream recentFinalityProofs bestNumberAtTarget
        syncParams unjustifiedHeaders selectedFinalityProof).1 =
      (selectBetterRecentFinalityProof
        (readFinalityProofsFromStream finalityProofsStream recentFinalityProofs) unjustifiedHeaders
        selectedFinalityProof).1 := rfl

@[simp] theorem selectFromRecentFinalityProofs_snd (bestNumberAtTarget : ℕ)
    (unjustifiedHeaders : List H) (selectedFinalityProof : Option (H × FP)) :
    (selectFromRecentFinalityProofs finalityProofsStream recentFinalityProofs bestNumberAtTarget
        syncParams unjustifiedHeaders selectedFinalityProof).2 =
      pruneRecentFinalityProofs
        (((selectBetterRecentFinalityProof
          (readFinalityProofsFromStream finalityProofsStream recentFinalityProofs)
            unjustifiedHeaders selectedFinalityProof).1.map
              fun selected => SourceHeader.number selected.1).getD bestNumberAtTarget)
        (readFinalityProofsFromStream finalityProofsStream recentFinalityProofs)
        syncParams.recentFinalityProofsLimit := rfl

/-- A selection that is not mandatory goes on to the recent proofs. -/
theorem selectHeaderToSubmit_of_loop_end {headerAndFinalityProof : ℕ → Except SE (H × Option FP)}
    {bestNumberAtSource bestNumberAtTarget : ℕ} {unjustifiedHeaders : List H}
    {selectedFinalityProof : Option (H × FP)}
    (hread : readMissingHeaders headerAndFinalityProof bestNumberAtSource bestNumberAtTarget =
      readMissingHeadersLoop headerAndFinalityProof [] unjustifiedHeaders selectedFinalityProof)
    (honly : syncParams.onlyMandatoryHeaders = false) :
    selectHeaderToSubmit headerAndFinalityProof finalityProofsStream recentFinalityProofs
        bestNumberAtSource bestNumberAtTarget syncParams =
      (.ok (selectFromRecentFinalityProofs finalityProofsStream recentFinalityProofs
          bestNumberAtTarget syncParams unjustifiedHeaders selectedFinalityProof).1,
        (selectFromRecentFinalityProofs finalityProofsStream recentFinalityProofs
          bestNumberAtTarget syncParams unjustifiedHeaders selectedFinalityProof).2) := by
  rw [selectHeaderToSubmit, hread]
  cases selectedFinalityProof with
  | none => simp only [readMissingHeadersLoop, honly]
  | some selected => simp only [readMissingHeadersLoop, honly]

/-- **HEADER SELECTION.** Mandatory first, then the best justified, with the
    buffer cut to the latest proofs above it. -/
theorem header_selection_mandatory_first_then_best_justified {bestNumberAtSource bestNumberAtTarget : ℕ}
    (hlt : bestNumberAtTarget < bestNumberAtSource)
    (hnumber : ∀ n, bestNumberAtTarget < n → n ≤ bestNumberAtSource →
      SourceHeader.number (chain n).1 = n)
    (hsorted : (readFinalityProofsFromStream finalityProofsStream recentFinalityProofs).Pairwise
      fun x y => x.1 < y.1)
    (honly : syncParams.onlyMandatoryHeaders = false) :
    SelectsMandatoryFirst chain (readFinalityProofsFromStream finalityProofsStream recentFinalityProofs)
      recentFinalityProofs bestNumberAtTarget bestNumberAtSource syncParams.recentFinalityProofsLimit
      (selectHeaderToSubmit (fun n => (.ok (chain n) : Except SE _)) finalityProofsStream
        recentFinalityProofs bestNumberAtSource bestNumberAtTarget syncParams) := by
  have hchain : ∀ n, (fun n => (.ok (chain n) : Except SE _)) n = .ok (chain n) := fun _ => rfl
  refine ⟨fun m proof hm hproof => ?_, fun m hm hproof => ?_, fun hregular => ?_⟩
  · rw [selectHeaderToSubmit, (readMissingHeaders_of_first_mandatory hchain hm).1 proof hproof]
  · have hmissing := (readMissingHeaders_of_first_mandatory hchain hm).2 hproof
    rw [hnumber m hm.1 hm.2.1] at hmissing
    rw [selectHeaderToSubmit, hmissing]
  · -- no mandatory header: the scan reaches the source's best header
    obtain ⟨b, unjustifiedHeaders, selectedFinalityProof, hscan, hrun⟩ :=
      scannedFrom_run hchain (bestNumberAtSource - bestNumberAtTarget) bestNumberAtTarget
        bestNumberAtTarget [] none (scannedFrom_start chain bestNumberAtTarget)
        fun n hlo hhi => hregular n hlo (by omega)
    rw [Nat.add_sub_cancel' hlt.le] at hscan
    have hread : readMissingHeaders (fun n => (.ok (chain n) : Except SE _)) bestNumberAtSource
        bestNumberAtTarget = readMissingHeadersLoop (fun n => (.ok (chain n) : Except SE _)) []
          unjustifiedHeaders selectedFinalityProof := hrun
    rw [selectHeaderToSubmit_of_loop_end _ _ syncParams hread honly,
      selectFromRecentFinalityProofs_fst, selectFromRecentFinalityProofs_snd]
    have hnumberAfter : ∀ n, b < n → n ≤ bestNumberAtSource → SourceHeader.number (chain n).1 = n :=
      fun n hbn hns => hnumber n (lt_of_le_of_lt hscan.base_le hbn) hns
    rw [hscan.unjustified]
    refine ⟨_, rfl, ?_, pruneRecentFinalityProofs_eq hsorted _ _,
      pruneRecentFinalityProofs_suffix _ _ _⟩
    by_cases hbuffered : ∃ n proof, b < n ∧ n ≤ bestNumberAtSource ∧
        (n, proof) ∈ readFinalityProofsFromStream finalityProofsStream recentFinalityProofs
    · obtain ⟨n₀, proof₀, hbn₀, hn₀s, hmem₀⟩ := hbuffered
      obtain ⟨n, proof, hselect, hmem, hbn, hns, habove⟩ :=
        selectBetterRecentFinalityProof_fst_of_buffered hnumberAfter selectedFinalityProof hsorted
          hmem₀ hbn₀ hn₀s
      rw [hselect]
      exact hscan.isBestJustified_of_buffered hbn hns hmem habove
    · have hnone : ∀ n proof, b < n → n ≤ bestNumberAtSource →
          (n, proof) ∉ readFinalityProofsFromStream finalityProofsStream recentFinalityProofs :=
        fun n proof hbn hns hmem => hbuffered ⟨n, proof, hbn, hns, hmem⟩
      rw [selectBetterRecentFinalityProof_fst_of_none_after hnumberAfter selectedFinalityProof hnone]
      exact hscan.isBestJustified hnone

/-! ## The buffer across passes -/

/-- Every buffered proof is filed under the number of the header it
    finalizes. -/
def Keyed (buffer : List (ℕ × FP)) : Prop :=
  ∀ entry ∈ buffer, entry.1 = FinalityProof.targetHeaderNumber entry.2

/-- Reading the stream appends its proofs, each under its header's number. -/
theorem readFinalityProofsFromStream_eq :
    ∀ (finalityProofsStream : List FP) (recentFinalityProofs : List (ℕ × FP)),
      readFinalityProofsFromStream finalityProofsStream recentFinalityProofs =
        recentFinalityProofs ++ finalityProofsStream.map fun finalityProof =>
          (FinalityProof.targetHeaderNumber finalityProof, finalityProof)
  | [], recentFinalityProofs => by simp [readFinalityProofsFromStream]
  | finalityProof :: finalityProofsStream, recentFinalityProofs => by
      rw [readFinalityProofsFromStream, List.foldl_cons, ← readFinalityProofsFromStream,
        readFinalityProofsFromStream_eq finalityProofsStream]
      simp

theorem Keyed.readFinalityProofsFromStream (h : Keyed recentFinalityProofs) :
    Keyed (readFinalityProofsFromStream finalityProofsStream recentFinalityProofs) := by
  intro entry hentry
  rw [readFinalityProofsFromStream_eq, List.mem_append] at hentry
  rcases hentry with hrecent | hstream
  · exact h entry hrecent
  · obtain ⟨finalityProof, -, rfl⟩ := List.mem_map.1 hstream
    rfl

/-- **THE BUFFER STAYS KEYED.** A pass of header selection leaves every
    buffered proof under the number of the header it finalizes. -/
theorem Keyed.selectHeaderToSubmit {headerAndFinalityProof : ℕ → Except SE (H × Option FP)}
    {bestNumberAtSource bestNumberAtTarget : ℕ} (h : Keyed recentFinalityProofs) :
    Keyed (selectHeaderToSubmit headerAndFinalityProof finalityProofsStream recentFinalityProofs
      bestNumberAtSource bestNumberAtTarget syncParams).2 := by
  -- what the recent proofs leave is a suffix of the buffer once the stream is read
  have hpruned : ∀ (unjustifiedHeaders : List H) selectedFinalityProof,
      Keyed (selectFromRecentFinalityProofs finalityProofsStream recentFinalityProofs
        bestNumberAtTarget syncParams unjustifiedHeaders selectedFinalityProof).2 := by
    intro unjustifiedHeaders selectedFinalityProof entry hentry
    rw [selectFromRecentFinalityProofs_snd] at hentry
    exact Keyed.readFinalityProofsFromStream finalityProofsStream recentFinalityProofs h entry
      ((pruneRecentFinalityProofs_suffix _ _ _).subset hentry)
  rw [FinalityLoop.selectHeaderToSubmit]
  -- a failure, a mandatory header and the only-mandatory mode leave the buffer
  split
  · exact h
  · split
    all_goals first
      | exact h
      | exact hpruned _ _

end Select

/-! ## A pass over three headers -/

/-- A header as the relay reads it: its number and whether it is mandatory. -/
structure NumberedHeader where
  number : ℕ
  mandatory : Bool
deriving DecidableEq, Repr

instance : SourceHeader NumberedHeader := ⟨NumberedHeader.number, NumberedHeader.mandatory⟩

/-- A finality proof given by the number of the header it finalizes. -/
structure NumberedProof where
  target : ℕ
deriving DecidableEq, Repr

instance : FinalityProof NumberedProof := ⟨NumberedProof.target⟩

/-- Three headers, none mandatory, the first with a persistent proof. -/
def threeHeaders (n : ℕ) : NumberedHeader × Option NumberedProof :=
  (⟨n, false⟩, if n = 1 then some ⟨1⟩ else none)

/-- The stream has the proof of header 3 ready; header 2's is buffered. -/
def threeHeadersStream : List NumberedProof := [⟨3⟩]

def threeHeadersBuffer : List (ℕ × NumberedProof) := [(2, ⟨2⟩)]

theorem header_selection_on_three_headers :
    (readFinalityProofsFromStream threeHeadersStream threeHeadersBuffer).Pairwise
        (fun x y => x.1 < y.1) ∧
      SelectsMandatoryFirst threeHeaders
        (readFinalityProofsFromStream threeHeadersStream threeHeadersBuffer) threeHeadersBuffer 0 3 1
        (selectHeaderToSubmit (fun n => (.ok (threeHeaders n) : Except Unit _)) threeHeadersStream
          threeHeadersBuffer 3 0 ⟨1, false⟩) :=
  ⟨by decide, header_selection_mandatory_first_then_best_justified threeHeaders threeHeadersStream
    threeHeadersBuffer ⟨1, false⟩ (by decide) (fun _ _ _ => rfl) (by decide) rfl⟩

/-- The recent proof of header 3 beats the persistent proof of header 1,
    and no proof above header 3 is left to keep. -/
example :
    selectHeaderToSubmit (fun n => (.ok (threeHeaders n) : Except Unit _)) threeHeadersStream
      threeHeadersBuffer 3 0 ⟨1, false⟩ = (.ok (some (⟨3, false⟩, ⟨3⟩)), []) := by
  rfl

end FinalityLoop

end ParityBridge
