import ParityBridge.Grandpa.Justification

/-! # Justification proofs — the optimizer keeps what a justification needs

    The relay optimizes a justification before it submits it; the pallet
    verifies strictly.  What the optimizer keeps is said here once, apart
    from the loop: a precommit is needed while the weight counted so far is
    below the threshold, its authority is in the set and the authority has
    not voted yet (`verdict`, `neededPrecommits`).  Then:

    * the optimising run over all precommits and the strict run over the
      needed ones pass through the same loop states, the skipped precommits
      changing nothing (`verifyPrecommits_optimization`);
    * the indices the optimising run records are the skipped ones, so
      removing them, the last first, leaves exactly the needed precommits;
    * a strict run that succeeds skips nothing, so the optimising run
      records nothing (`verifyPrecommits_strict`).

    Together: an optimized justification verifies strictly and differs
    from the original in its precommits only, which are the needed ones;
    a justification that verifies strictly comes back unchanged. -/

namespace ParityBridge

namespace Grandpa

variable {H Id Sig C : Type}

/-! ## Removing recorded positions -/

section EraseIdx

variable {α : Type}

/-- Removing positions shifted by one keeps the head. -/
theorem foldl_eraseIdx_map_succ (x : α) (xs : List α) (is : List ℕ) :
    (is.map (· + 1)).reverse.foldl List.eraseIdx (x :: xs) = x :: is.reverse.foldl List.eraseIdx xs := by
  rw [List.foldl_reverse, List.foldl_reverse]
  induction is with
  | nil => rfl
  | cons i is ih =>
      rw [List.map_cons, List.foldr_cons, List.foldr_cons, ih, List.eraseIdx_cons_succ]

/-- Removing the head and positions shifted by one drops the head. -/
theorem foldl_eraseIdx_zero_cons (x : α) (xs : List α) (is : List ℕ) :
    (0 :: is.map (· + 1)).reverse.foldl List.eraseIdx (x :: xs) = is.reverse.foldl List.eraseIdx xs := by
  rw [List.reverse_cons, List.foldl_append, foldl_eraseIdx_map_succ, List.foldl_cons,
    List.foldl_nil, List.eraseIdx_cons_zero]

end EraseIdx

/-! ## What a justification needs -/

/-- What the loop makes of a precommit, given the authorities that voted and
    their weight: a vote after the threshold, of an unknown authority, a
    second vote of an authority, or an accepted vote of the given weight. -/
inductive Verdict where
  | redundant
  | unknownAuthority
  | duplicateVote
  | accepted (weight : ℕ)
deriving DecidableEq, Repr

/-- The weight an accepted precommit adds; nothing for a skipped one. -/
def Verdict.acceptedWeight : Verdict → Option ℕ
  | .accepted weight => some weight
  | _ => none

section Needed

variable [DecidableEq Id] (authoritiesSet : VoterSet Id)

/-- The verdict on a precommit. -/
def verdict (votes : List Id) (cumulativeWeight : ℕ) (signed : SignedPrecommit H Id Sig) :
    Verdict :=
  if cumulativeWeight ≥ authoritiesSet.threshold then .redundant
  else
    match authoritiesSet.get signed.id with
    | none => .unknownAuthority
    | some weight => if signed.id ∈ votes then .duplicateVote else .accepted weight

/-- The precommits a justification needs, in order: the accepted ones, each
    counting its authority's vote and weight for the precommits after it. -/
def neededPrecommits : List Id → ℕ → List (SignedPrecommit H Id Sig) →
    List (SignedPrecommit H Id Sig)
  | _, _, [] => []
  | votes, cumulativeWeight, signed :: rest =>
      match (verdict authoritiesSet votes cumulativeWeight signed).acceptedWeight with
      | some weight =>
          signed :: neededPrecommits (signed.id :: votes) (cumulativeWeight + weight) rest
      | none => neededPrecommits votes cumulativeWeight rest

/-- The needed precommits are some of the precommits, in their order. -/
theorem neededPrecommits_sublist (votes : List Id) (cumulativeWeight : ℕ)
    (precommits : List (SignedPrecommit H Id Sig)) :
    (neededPrecommits authoritiesSet votes cumulativeWeight precommits).Sublist precommits := by
  induction precommits generalizing votes cumulativeWeight with
  | nil => exact .slnil
  | cons signed rest ih =>
      rw [neededPrecommits]
      cases (verdict authoritiesSet votes cumulativeWeight signed).acceptedWeight with
      | some weight => exact (ih _ _).cons_cons signed
      | none => exact (ih _ _).cons signed

end Needed

/-! ## One round of the loop -/

section Round

variable [DecidableEq H] [DecidableEq Id]
  (checkSignature : Precommit H → Id → Sig → ℕ → ℕ → Bool) (authoritiesSetId : ℕ)
  (justification : GrandpaJustification H Id Sig) (authoritiesSet : VoterSet Id)

/-- A round goes by the verdict on its precommit: a callback for a skipped
    one, the acceptance for an accepted one. -/
theorem precommitStep_eq (callbacks : VerificationCallbacks C) (st : VotesState H Id) (c : C)
    (precommitIdx : ℕ) (signed : SignedPrecommit H Id Sig) :
    precommitStep checkSignature authoritiesSetId justification authoritiesSet callbacks (st, c)
        precommitIdx signed =
      match verdict authoritiesSet st.votes st.cumulativeWeight signed with
      | .redundant => (callbacks.onRedundantAuthorityVote c precommitIdx).map (st, ·)
      | .unknownAuthority => (callbacks.onUnkownAuthority c precommitIdx).map (st, ·)
      | .duplicateVote => (callbacks.onDuplicateAuthorityVote c precommitIdx).map (st, ·)
      | .accepted weight =>
          (acceptPrecommit checkSignature authoritiesSetId justification st signed weight).map
            (·, c) := by
  unfold precommitStep verdict
  dsimp only
  by_cases hredundant : st.cumulativeWeight ≥ authoritiesSet.threshold
  · rw [if_pos hredundant, if_pos hredundant]
  rw [if_neg hredundant, if_neg hredundant]
  cases authoritiesSet.get signed.id with
  | none => rfl
  | some weight =>
      by_cases hdup : signed.id ∈ st.votes
      · simp only [if_pos hdup]
      · simp only [if_neg hdup]

/-- The optimising round records a skipped precommit's index. -/
theorem precommitStep_optimization (st : VotesState H Id) (recorded : List ℕ)
    (precommitIdx : ℕ) (signed : SignedPrecommit H Id Sig) :
    precommitStep checkSignature authoritiesSetId justification authoritiesSet
        optimizationCallbacks (st, recorded) precommitIdx signed =
      match (verdict authoritiesSet st.votes st.cumulativeWeight signed).acceptedWeight with
      | some weight =>
          (acceptPrecommit checkSignature authoritiesSetId justification st signed weight).map
            (·, recorded)
      | none => .ok (st, recorded ++ [precommitIdx]) := by
  rw [precommitStep_eq]
  cases verdict authoritiesSet st.votes st.cumulativeWeight signed <;> rfl

/-- The strict round fails on a skipped precommit. -/
theorem precommitStep_strict (st : VotesState H Id) (precommitIdx : ℕ)
    (signed : SignedPrecommit H Id Sig) :
    precommitStep checkSignature authoritiesSetId justification authoritiesSet
        strictVerificationCallbacks (st, ()) precommitIdx signed =
      match (verdict authoritiesSet st.votes st.cumulativeWeight signed).acceptedWeight with
      | some weight =>
          (acceptPrecommit checkSignature authoritiesSetId justification st signed weight).map
            (·, ())
      | none => .error (match verdict authoritiesSet st.votes st.cumulativeWeight signed with
          | .redundant => .redundantVotesInJustification
          | .unknownAuthority => .unknownAuthorityVote
          | _ => .duplicateAuthorityVote) := by
  rw [precommitStep_eq]
  cases verdict authoritiesSet st.votes st.cumulativeWeight signed <;> rfl

omit [DecidableEq Id] in
/-- An accepted precommit records its authority's vote and weight. -/
theorem acceptPrecommit_ok {st st' : VotesState H Id} {signed : SignedPrecommit H Id Sig}
    {weight : ℕ}
    (h : acceptPrecommit checkSignature authoritiesSetId justification st signed weight = .ok st') :
    st'.votes = signed.id :: st.votes ∧ st'.cumulativeWeight = st.cumulativeWeight + weight := by
  unfold acceptPrecommit at h
  dsimp only at h
  by_cases hnumber : signed.precommit.targetNumber < justification.commit.targetNumber
  · rw [if_pos hnumber] at h
    exact nomatch h
  rw [if_neg hnumber] at h
  cases hchain : st.chain.ensureDescendant justification.commit.targetHash
      signed.precommit.targetHash with
  | error e =>
      rw [hchain] at h
      exact nomatch h
  | ok chain =>
      rw [hchain] at h
      dsimp only at h
      by_cases hsignature : (!checkSignature signed.precommit signed.id signed.signature
          justification.round authoritiesSetId) = true
      · rw [if_pos hsignature] at h
        exact nomatch h
      rw [if_neg hsignature, Except.ok.injEq] at h
      rw [← h]
      exact ⟨rfl, rfl⟩

end Round

/-! ## The two runs of the loop -/

section Runs

variable [DecidableEq H] [DecidableEq Id]
  (checkSignature : Precommit H → Id → Sig → ℕ → ℕ → Bool) (authoritiesSetId : ℕ)
  (justification : GrandpaJustification H Id Sig) (authoritiesSet : VoterSet Id)

/-- **SKIPPED CHANGES NOTHING**: an optimising run that succeeds passes
    through the states of the strict run over the needed precommits, and
    records the positions whose removal leaves the needed precommits. -/
theorem verifyPrecommits_optimization (precommits : List (SignedPrecommit H Id Sig))
    (precommitIdx : ℕ) (st st' : VotesState H Id) (recorded recorded' : List ℕ)
    (h : verifyPrecommits checkSignature authoritiesSetId justification authoritiesSet
      optimizationCallbacks precommitIdx precommits (st, recorded) = .ok (st', recorded')) :
    (∀ k, verifyPrecommits checkSignature authoritiesSetId justification authoritiesSet
      strictVerificationCallbacks k
        (neededPrecommits authoritiesSet st.votes st.cumulativeWeight precommits) (st, ()) =
      .ok (st', ())) ∧
    ∃ skipped : List ℕ, recorded' = recorded ++ skipped.map (· + precommitIdx) ∧
      skipped.reverse.foldl List.eraseIdx precommits =
        neededPrecommits authoritiesSet st.votes st.cumulativeWeight precommits := by
  induction precommits generalizing precommitIdx st recorded with
  | nil =>
      rw [verifyPrecommits, Except.ok.injEq, Prod.mk.injEq] at h
      obtain ⟨rfl, rfl⟩ := h
      exact ⟨fun _ => rfl, [], by simp, rfl⟩
  | cons signed rest ih =>
      rw [verifyPrecommits, precommitStep_optimization] at h
      rw [neededPrecommits]
      cases hweight : (verdict authoritiesSet st.votes st.cumulativeWeight signed).acceptedWeight with
      | none =>
          -- skipped: the index is recorded and the state stays
          simp only [hweight] at h
          obtain ⟨hstrict, skipped, hrecorded, herase⟩ := ih (precommitIdx + 1) st _ h
          refine ⟨hstrict, 0 :: skipped.map (· + 1), ?_, ?_⟩
          · rw [hrecorded, List.append_assoc, List.map_cons, List.map_map]
            simp only [Nat.zero_add, List.singleton_append, Function.comp_def, Nat.add_assoc,
              Nat.add_comm 1 precommitIdx]
          · rw [foldl_eraseIdx_zero_cons, herase]
      | some weight =>
          -- accepted: both runs take the same step
          simp only [hweight] at h
          cases haccept : acceptPrecommit checkSignature authoritiesSetId justification st signed
              weight with
          | error e =>
              rw [haccept] at h
              exact nomatch h
          | ok st₁ =>
              rw [haccept] at h
              obtain ⟨hvotes, hcumulative⟩ := acceptPrecommit_ok checkSignature authoritiesSetId
                justification haccept
              obtain ⟨hstrict, skipped, hrecorded, herase⟩ := ih (precommitIdx + 1) st₁ recorded h
              rw [hvotes, hcumulative] at hstrict herase
              refine ⟨fun k => ?_, skipped.map (· + 1), ?_, ?_⟩
              · rw [verifyPrecommits, precommitStep_strict]
                simp only [hweight, haccept]
                exact hstrict (k + 1)
              · rw [hrecorded, List.map_map]
                simp only [Function.comp_def, Nat.add_assoc, Nat.add_comm 1 precommitIdx]
              · rw [foldl_eraseIdx_map_succ, herase]

/-- **NOTHING TO SKIP**: a strict run that succeeds is an optimising run
    that records nothing. -/
theorem verifyPrecommits_strict (precommits : List (SignedPrecommit H Id Sig))
    (k precommitIdx : ℕ) (st st' : VotesState H Id) (recorded : List ℕ)
    (h : verifyPrecommits checkSignature authoritiesSetId justification authoritiesSet
      strictVerificationCallbacks k precommits (st, ()) = .ok (st', ())) :
    verifyPrecommits checkSignature authoritiesSetId justification authoritiesSet
      optimizationCallbacks precommitIdx precommits (st, recorded) = .ok (st', recorded) := by
  induction precommits generalizing k precommitIdx st with
  | nil =>
      rw [verifyPrecommits, Except.ok.injEq, Prod.mk.injEq] at h
      rw [verifyPrecommits, h.1]
  | cons signed rest ih =>
      rw [verifyPrecommits, precommitStep_strict] at h
      rw [verifyPrecommits, precommitStep_optimization]
      cases hweight : (verdict authoritiesSet st.votes st.cumulativeWeight signed).acceptedWeight with
      | none =>
          -- a skipped precommit fails the strict run
          simp only [hweight] at h
          exact nomatch h
      | some weight =>
          simp only [hweight] at h
          cases haccept : acceptPrecommit checkSignature authoritiesSetId justification st signed
              weight with
          | error e =>
              rw [haccept] at h
              exact nomatch h
          | ok st₁ =>
              rw [haccept] at h
              simp only [haccept]
              exact ih (k + 1) (precommitIdx + 1) st₁ h

/-- The loop reads of the justification its target and round only, which
    `optimize` keeps. -/
theorem verifyPrecommits_optimize (recorded : List ℕ) (callbacks : VerificationCallbacks C)
    (precommits : List (SignedPrecommit H Id Sig)) (precommitIdx : ℕ)
    (st : VotesState H Id × C) :
    verifyPrecommits checkSignature authoritiesSetId (optimize recorded justification)
        authoritiesSet callbacks precommitIdx precommits st =
      verifyPrecommits checkSignature authoritiesSetId justification authoritiesSet callbacks
        precommitIdx precommits st := by
  induction precommits generalizing precommitIdx st with
  | nil => rfl
  | cons signed rest ih =>
      rw [verifyPrecommits, verifyPrecommits]
      -- the round reads the same target and round of both justifications
      have hstep : precommitStep checkSignature authoritiesSetId (optimize recorded justification)
          authoritiesSet callbacks st precommitIdx signed =
        precommitStep checkSignature authoritiesSetId justification authoritiesSet callbacks st
          precommitIdx signed := rfl
      rw [hstep]
      cases precommitStep checkSignature authoritiesSetId justification authoritiesSet callbacks st
          precommitIdx signed with
      | error e => rfl
      | ok st₁ => exact ih (precommitIdx + 1) st₁

end Runs

/-! ## The whole justification -/

section Verify

variable [DecidableEq H] [DecidableEq Id] (hasher : Header H → H)
  (checkSignature : Precommit H → Id → Sig → ℕ → ℕ → Bool) (finalizedTarget : H × ℕ)
  (authoritiesSetId : ℕ) (authoritiesSet : VoterSet Id)

/-- A justification passes when it targets the finalized header, the loop
    goes through, no ancestry header is left unvisited and the counted
    weight reaches the threshold. -/
theorem verifyJustificationWithCallbacks_eq_ok (justification : GrandpaJustification H Id Sig)
    (callbacks : VerificationCallbacks C) (c c' : C) :
    verifyJustificationWithCallbacks hasher checkSignature finalizedTarget authoritiesSetId
        authoritiesSet justification callbacks c = .ok c' ↔
      (justification.commit.targetHash, justification.commit.targetNumber) = finalizedTarget ∧
      ∃ votesState, verifyPrecommits checkSignature authoritiesSetId justification authoritiesSet
          callbacks 0 justification.commit.precommits
          (⟨AncestryChain.new hasher justification.votesAncestries, [], 0⟩, c) =
          .ok (votesState, c') ∧
        votesState.chain.unvisited = [] ∧ authoritiesSet.threshold ≤ votesState.cumulativeWeight := by
  unfold verifyJustificationWithCallbacks
  by_cases htarget :
      (justification.commit.targetHash, justification.commit.targetNumber) = finalizedTarget
  · rw [if_neg (not_not.mpr htarget)]
    dsimp only
    cases hrun : verifyPrecommits checkSignature authoritiesSetId justification authoritiesSet
        callbacks 0 justification.commit.precommits
        (⟨AncestryChain.new hasher justification.votesAncestries, [], 0⟩, c) with
    | error e => simp
    | ok result =>
        obtain ⟨votesState, c₁⟩ := result
        -- the two checks after the loop, in the order of the source
        by_cases hunvisited : votesState.chain.unvisited = []
        · by_cases hweight : authoritiesSet.threshold ≤ votesState.cumulativeWeight
          · simp [hunvisited, hweight, htarget]
          · simp [hunvisited, hweight]
        · simp [hunvisited]
  · rw [if_pos htarget]
    simp [htarget]

/-- **SOUND**: an optimized justification verifies strictly; it is the
    original one with the needed precommits only. -/
theorem verifyAndOptimizeJustification_sound {justification optimized : GrandpaJustification H Id Sig}
    (h : verifyAndOptimizeJustification hasher checkSignature finalizedTarget authoritiesSetId
      authoritiesSet justification = .ok optimized) :
    verifyJustification hasher checkSignature finalizedTarget authoritiesSetId authoritiesSet
        optimized = .ok () ∧
      optimized = { justification with commit := { justification.commit with
        precommits := optimized.commit.precommits } } ∧
      optimized.commit.precommits =
        neededPrecommits authoritiesSet [] 0 justification.commit.precommits := by
  unfold verifyAndOptimizeJustification at h
  split at h
  · exact nomatch h
  next recorded hoptimizing =>
  rw [← Except.ok.inj h]
  obtain ⟨htarget, votesState, hrun, hunvisited, hweight⟩ :=
    (verifyJustificationWithCallbacks_eq_ok hasher checkSignature finalizedTarget authoritiesSetId
      authoritiesSet justification optimizationCallbacks [] recorded).mp hoptimizing
  obtain ⟨hstrict, skipped, hrecorded, herase⟩ := verifyPrecommits_optimization checkSignature
    authoritiesSetId justification authoritiesSet _ 0 _ _ [] recorded hrun
  -- the recorded indices are the skipped positions, counted from zero
  have hprecommits : (optimize recorded justification).commit.precommits =
      neededPrecommits authoritiesSet [] 0 justification.commit.precommits := by
    show recorded.reverse.foldl List.eraseIdx justification.commit.precommits = _
    rw [hrecorded, List.nil_append, List.map_congr_left (fun i _ => Nat.add_zero i), List.map_id']
    exact herase
  refine ⟨?_, rfl, hprecommits⟩
  unfold verifyJustification
  rw [verifyJustificationWithCallbacks_eq_ok]
  refine ⟨htarget, votesState, ?_, hunvisited, hweight⟩
  rw [verifyPrecommits_optimize, hprecommits]
  exact hstrict 0

/-- **COMPLETE**: a justification that verifies strictly comes out of the
    optimizer unchanged. -/
theorem verifyAndOptimizeJustification_complete {justification : GrandpaJustification H Id Sig}
    (h : verifyJustification hasher checkSignature finalizedTarget authoritiesSetId authoritiesSet
      justification = .ok ()) :
    verifyAndOptimizeJustification hasher checkSignature finalizedTarget authoritiesSetId
      authoritiesSet justification = .ok justification := by
  obtain ⟨htarget, votesState, hrun, hunvisited, hweight⟩ :=
    (verifyJustificationWithCallbacks_eq_ok hasher checkSignature finalizedTarget authoritiesSetId
      authoritiesSet justification strictVerificationCallbacks () ()).mp h
  have hoptimizing := verifyPrecommits_strict checkSignature authoritiesSetId justification
    authoritiesSet _ 0 0 _ _ [] hrun
  unfold verifyAndOptimizeJustification
  rw [(verifyJustificationWithCallbacks_eq_ok hasher checkSignature finalizedTarget authoritiesSetId
    authoritiesSet justification optimizationCallbacks [] []).mpr
    ⟨htarget, votesState, hoptimizing, hunvisited, hweight⟩]
  -- nothing was recorded, so nothing is removed
  rfl

end Verify

/-- **OPTIMIZATION SOUND AND COMPLETE**: a justification the relay optimizes
    verifies strictly in the pallet, differs from the original in its
    precommits only, and keeps of them exactly the needed ones, in order —
    the precommits of unknown authorities, the second votes of an authority
    and those after the threshold are removed; a justification that
    verifies strictly is returned unchanged. -/
theorem justification_optimization_sound_and_complete [DecidableEq H] [DecidableEq Id]
    (hasher : Header H → H) (checkSignature : Precommit H → Id → Sig → ℕ → ℕ → Bool)
    (finalizedTarget : H × ℕ) (authoritiesSetId : ℕ) (authoritiesSet : VoterSet Id)
    (justification : GrandpaJustification H Id Sig) :
    (∀ optimized, verifyAndOptimizeJustification hasher checkSignature finalizedTarget
        authoritiesSetId authoritiesSet justification = .ok optimized →
      verifyJustification hasher checkSignature finalizedTarget authoritiesSetId authoritiesSet
          optimized = .ok () ∧
        optimized = { justification with commit := { justification.commit with
          precommits := optimized.commit.precommits } } ∧
        optimized.commit.precommits =
          neededPrecommits authoritiesSet [] 0 justification.commit.precommits ∧
        optimized.commit.precommits.Sublist justification.commit.precommits) ∧
    (verifyJustification hasher checkSignature finalizedTarget authoritiesSetId authoritiesSet
        justification = .ok () →
      verifyAndOptimizeJustification hasher checkSignature finalizedTarget authoritiesSetId
        authoritiesSet justification = .ok justification) := by
  refine ⟨fun optimized h => ?_, verifyAndOptimizeJustification_complete hasher checkSignature
    finalizedTarget authoritiesSetId authoritiesSet⟩
  obtain ⟨hverify, hshape, hneeded⟩ := verifyAndOptimizeJustification_sound hasher checkSignature
    finalizedTarget authoritiesSetId authoritiesSet h
  refine ⟨hverify, hshape, hneeded, ?_⟩
  rw [hneeded]
  exact neededPrecommits_sublist authoritiesSet [] 0 justification.commit.precommits

/-- Authorities 1 to 4 of weight one and threshold three: an unknown
    authority's precommit, a second vote and a vote after the threshold are
    removed. -/
example :
    verifyAndOptimizeJustification (H := ℕ) (fun _ => 0) (fun _ _ _ _ _ => true) (5, 10) 0
        ⟨fun id => if 0 < id ∧ id ≤ 4 then some 1 else none, 3⟩
        ⟨0, ⟨5, 10, [1, 9, 1, 2, 3, 4].map fun id => ⟨⟨5, 10⟩, (), id⟩⟩, []⟩ =
      .ok ⟨0, ⟨5, 10, [1, 2, 3].map fun id => ⟨⟨5, 10⟩, (), id⟩⟩, []⟩ := by
  decide

end Grandpa

end ParityBridge
