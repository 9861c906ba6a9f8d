import ParityBridge.Grandpa.JustificationProofs
import ParityBridge.Lib.ParentPath
import Mathlib.Algebra.GroupWithZero.Nat

/-! # Justification proofs — `verify_justification` against its path specification

    What the strict check of a justification for the header `(hash,
    number)` accepts, said without the loop: the commit targets the header;
    read in order, every precommit is of an authority of the set, its first
    vote, and comes while the weight of the ones before it is below the
    threshold; every precommit targets a header at least as high, whose
    hash reaches `hash` through the parents of the ancestry headers, and is
    signed; every ancestry header lies on one of these paths; and the
    precommits' weight reaches the threshold (`JustificationSpec`).

    The loop shares the ancestry's `unvisited` set between its walks and
    stops a walk at a header an earlier walk visited.  On an acyclic parent
    map the walks still do what the paths say (`WalkedFrom`):

    * after walks from some targets, all of which reach `hash`, the
      unvisited headers are those on none of their paths, and the visited
      ones are closed under their paths (`WalkedFrom.closed`);
    * one more walk succeeds exactly when its target reaches `hash`, and
      leaves unvisited the headers not on its path either
      (`ensureDescendantLoop_spec`, by induction on the unvisited headers,
      with the headers of the walk so far as an exception set).

    The route from there: one strict round succeeds exactly on a precommit
    admissible after the ones before it and keeps `PathsVisited`
    (`PathsVisited.step`), so the loop succeeds exactly on a scan of
    admissible precommits (`PathsVisited.run`), and the checks after the
    loop are the last two fields of the specification.

    A path is the list of headers whose parent link is followed, so the
    commit target is on none: an ancestry holding it is refused. -/

namespace ParityBridge

namespace Grandpa

open ParentPath

variable {H Id Sig : Type}

/-! ## The ancestry's parent map -/

section Ancestry

variable [DecidableEq H] (hasher : Header H → H)

/-- The parent of a hash through the ancestry: that of the last ancestry
    header of that hash. -/
def ancestryParents (ancestry : List (Header H)) (hash : H) : Option H :=
  (ancestry.reverse.find? fun ancestor => hasher ancestor = hash).map Header.parentHash

theorem ancestryParents_concat (ancestry : List (Header H)) (ancestor : Header H) (hash : H) :
    ancestryParents hasher (ancestry ++ [ancestor]) hash =
      if hasher ancestor = hash then some ancestor.parentHash
      else ancestryParents hasher ancestry hash := by
  by_cases hhash : hasher ancestor = hash
  · simp [ancestryParents, hhash]
  · simp [ancestryParents, hhash]

theorem ancestryParents_isSome (ancestry : List (Header H)) (hash : H) :
    (ancestryParents hasher ancestry hash).isSome ↔ ∃ ancestor ∈ ancestry, hasher ancestor = hash := by
  simp [ancestryParents, List.find?_isSome]

theorem new_concat (ancestry : List (Header H)) (ancestor : Header H) :
    AncestryChain.new hasher (ancestry ++ [ancestor]) =
      ⟨fun h => if h = hasher ancestor then some ancestor.parentHash
        else (AncestryChain.new hasher ancestry).parents h,
        (AncestryChain.new hasher ancestry).unvisited.insert (hasher ancestor)⟩ := by
  rw [AncestryChain.new, List.foldl_append]
  rfl

/-- `AncestryChain::new` maps a hash to the parent of its last ancestry
    header, and leaves every ancestry hash unvisited, once. -/
theorem new_spec (ancestry : List (Header H)) :
    (AncestryChain.new hasher ancestry).parents = ancestryParents hasher ancestry ∧
      (AncestryChain.new hasher ancestry).unvisited.Nodup ∧
      ∀ h, h ∈ (AncestryChain.new hasher ancestry).unvisited ↔ ∃ ancestor ∈ ancestry, hasher ancestor = h := by
  induction ancestry using List.reverseRecOn with
  | nil => exact ⟨funext fun _ => rfl, List.nodup_nil, by simp [AncestryChain.new]⟩
  | append_singleton ancestry ancestor ih =>
      obtain ⟨hparents, hnodup, hmem⟩ := ih
      rw [new_concat]
      refine ⟨funext fun h => ?_, hnodup.insert, fun h => ?_⟩
      · dsimp only
        rw [ancestryParents_concat, hparents]
        by_cases hhash : h = hasher ancestor
        · rw [if_pos hhash, if_pos hhash.symm]
        · rw [if_neg hhash, if_neg (Ne.symm hhash)]
      · rw [List.mem_insert_iff, hmem]
        constructor
        · rintro (rfl | ⟨a, ha, rfl⟩)
          · exact ⟨ancestor, by simp, rfl⟩
          · exact ⟨a, by simp [ha], rfl⟩
        · rintro ⟨a, ha, rfl⟩
          rw [List.mem_append, List.mem_singleton] at ha
          rcases ha with ha | rfl
          · exact .inr ⟨a, ha, rfl⟩
          · exact .inl rfl

end Ancestry

/-! ## One walk up the ancestry -/

section Walk

variable [DecidableEq H] {P : H → Option H} {t : H}

/-- At the target the walk stops, leaving the ancestry as it is. -/
theorem ensureDescendantLoop_target (fuel : ℕ) (chain : AncestryChain H) :
    AncestryChain.ensureDescendantLoop t (fuel + 1) chain t = .ok chain := by
  rw [AncestryChain.ensureDescendantLoop, if_pos rfl]

/-- A header without a parent fails the walk. -/
theorem ensureDescendantLoop_of_parent_none (fuel : ℕ) (U : List H) {x : H} (htarget : x ≠ t)
    (hparent : P x = none) :
    AncestryChain.ensureDescendantLoop t (fuel + 1) ⟨P, U⟩ x =
      .error .precommitIsNotCommitDescendant := by
  rw [AncestryChain.ensureDescendantLoop, if_neg htarget]
  dsimp only
  rw [hparent]

/-- A header with a parent that was visited before ends the walk. -/
theorem ensureDescendantLoop_of_visited (fuel : ℕ) {U : List H} {x y : H} (htarget : x ≠ t)
    (hparent : P x = some y) (hvisited : x ∉ U) :
    AncestryChain.ensureDescendantLoop t (fuel + 1) ⟨P, U⟩ x = .ok ⟨P, U⟩ := by
  have hcontains : U.contains x = false := by
    simpa using hvisited
  rw [AncestryChain.ensureDescendantLoop, if_neg htarget]
  dsimp only
  rw [hparent]
  simp only [hcontains, Bool.not_false, if_true, List.erase_of_not_mem hvisited]

/-- A header with a parent that was not visited yet: the walk goes on from
    the parent, the header now visited. -/
theorem ensureDescendantLoop_of_unvisited (fuel : ℕ) {U : List H} {x y : H} (htarget : x ≠ t)
    (hparent : P x = some y) (hunvisited : x ∈ U) :
    AncestryChain.ensureDescendantLoop t (fuel + 1) ⟨P, U⟩ x =
      AncestryChain.ensureDescendantLoop t fuel ⟨P, U.erase x⟩ y := by
  have hcontains : U.contains x = true := List.contains_iff_mem.2 hunvisited
  rw [AncestryChain.ensureDescendantLoop, if_neg htarget]
  dsimp only
  rw [hparent]
  simp only [hcontains, Bool.not_true, Bool.false_eq_true, if_false]

/-- The rounds that end a walk, at any fuel: at the target, at a header
    without a parent, and at a header visited before, whose path an earlier
    walk followed to the target. -/
theorem ensureDescendantLoop_stop (fuel : ℕ) {U : List H} {S : H → Prop} {x : H} (hnodup : U.Nodup)
    (hclosed : ∀ v, (P v).isSome → v ∉ U → S v ∨ (Reaches P t v ∧ ∀ w, OnPath P t v w → w ∉ U))
    (hS : ∀ v, S v → ¬OnPath P t x v) (hstop : x = t ∨ P x = none ∨ x ∉ U) :
    (Reaches P t x → ∃ U', AncestryChain.ensureDescendantLoop t (fuel + 1) ⟨P, U⟩ x = .ok ⟨P, U'⟩ ∧
        U'.Nodup ∧ ∀ h, h ∈ U' ↔ h ∈ U ∧ ¬OnPath P t x h) ∧
      (¬Reaches P t x → AncestryChain.ensureDescendantLoop t (fuel + 1) ⟨P, U⟩ x =
        .error .precommitIsNotCommitDescendant) := by
  by_cases htarget : x = t
  · subst htarget
    refine ⟨fun _ => ⟨U, ensureDescendantLoop_target _ _, hnodup, fun h => ?_⟩,
      fun hnot => absurd .target hnot⟩
    exact ⟨fun hh => ⟨hh, not_onPath_target⟩, And.left⟩
  cases hparent : P x with
  | none =>
      refine ⟨fun hreach => ?_, fun _ => ensureDescendantLoop_of_parent_none _ _ htarget hparent⟩
      obtain ⟨y, hy, -⟩ := hreach.of_ne htarget
      rw [hparent] at hy
      cases hy
  | some y =>
      -- neither at the target nor without a parent: `x` was visited before
      have hvisited : x ∉ U := by
        rcases hstop with h | h | h
        · exact absurd h htarget
        · rw [hparent] at h
          cases h
        · exact h
      rw [ensureDescendantLoop_of_visited _ htarget hparent hvisited]
      rcases hclosed x (by rw [hparent]; rfl) hvisited with hSx | ⟨hreach, hpath⟩
      · exact absurd (OnPath.start htarget) (hS x hSx)
      · refine ⟨fun _ => ⟨U, rfl, hnodup, fun h => ?_⟩, fun hnot => absurd hreach hnot⟩
        exact ⟨fun hh => ⟨hh, fun hon => hpath h hon hh⟩, And.left⟩

/-- **THE WALK.** From unvisited headers `U` whose visited headers reach the
    target and are closed under their paths, except those of the set `S`
    of the walk so far, which are not on the path ahead: a walk from `x`
    succeeds exactly when `x` reaches the target, and then leaves unvisited
    the headers of `U` not on `x`'s path. -/
theorem ensureDescendantLoop_spec (hacyclic : Acyclic P) :
    ∀ (n : ℕ) (U : List H) (S : H → Prop) (x : H), U.length = n → U.Nodup →
      (∀ v, (P v).isSome → v ∉ U → S v ∨ (Reaches P t v ∧ ∀ w, OnPath P t v w → w ∉ U)) →
      (∀ v, S v → ¬OnPath P t x v) →
      (Reaches P t x → ∃ U', AncestryChain.ensureDescendantLoop t (n + 1) ⟨P, U⟩ x = .ok ⟨P, U'⟩ ∧
        U'.Nodup ∧ ∀ h, h ∈ U' ↔ h ∈ U ∧ ¬OnPath P t x h) ∧
      (¬Reaches P t x → AncestryChain.ensureDescendantLoop t (n + 1) ⟨P, U⟩ x =
        .error .precommitIsNotCommitDescendant) := by
  -- induction on the number of unvisited headers, which each round that
  -- goes on lowers by one
  intro n
  induction n with
  | zero =>
      intro U S x hlen hnodup hclosed hS
      obtain rfl : U = [] := List.eq_nil_of_length_eq_zero hlen
      exact ensureDescendantLoop_stop 0 hnodup hclosed hS (.inr (.inr List.not_mem_nil))
  | succ n ih =>
      intro U S x hlen hnodup hclosed hS
      by_cases htarget : x = t
      · exact ensureDescendantLoop_stop _ hnodup hclosed hS (.inl htarget)
      cases hparent : P x with
      | none => exact ensureDescendantLoop_stop _ hnodup hclosed hS (.inr (.inl hparent))
      | some y =>
          by_cases hunvisited : x ∈ U
          case neg => exact ensureDescendantLoop_stop _ hnodup hclosed hS (.inr (.inr hunvisited))
          -- a header not visited before: walk on from its parent, with `x`
          -- joining the walk so far
          rw [ensureDescendantLoop_of_unvisited _ htarget hparent hunvisited]
          have hlen' : (U.erase x).length = n := by
            rw [List.length_erase_of_mem hunvisited, hlen]
            rfl
          have hclosed' : ∀ v, (P v).isSome → v ∉ U.erase x →
              (S v ∨ v = x) ∨ (Reaches P t v ∧ ∀ w, OnPath P t v w → w ∉ U.erase x) := by
            intro v hv hnot
            by_cases hvx : v = x
            · exact .inl (.inr hvx)
            · have hnotU : v ∉ U := fun hmem => hnot ((hnodup.mem_erase_iff).2 ⟨hvx, hmem⟩)
              rcases hclosed v hv hnotU with hSv | ⟨hreach, hpath⟩
              · exact .inl (.inl hSv)
              · exact .inr ⟨hreach, fun w hw hmem => hpath w hw (List.mem_of_mem_erase hmem)⟩
          have hS' : ∀ v, S v ∨ v = x → ¬OnPath P t y v := by
            rintro v (hSv | rfl) hpath
            · exact hS v hSv (.parent htarget hparent hpath)
            · exact hacyclic.not_onPath_parent hparent hpath
          obtain ⟨hok, herror⟩ :=
            ih (U.erase x) (fun v => S v ∨ v = x) y hlen' (hnodup.erase x) hclosed' hS'
          refine ⟨fun hreach => ?_, fun hnot => herror fun hy => hnot (.parent htarget hparent hy)⟩
          obtain ⟨y', hy', hreach'⟩ := hreach.of_ne htarget
          rw [hparent] at hy'
          cases hy'
          obtain ⟨U', hrun, hnodup', hmem'⟩ := hok hreach'
          refine ⟨U', hrun, hnodup', fun h => ?_⟩
          rw [hmem', hnodup.mem_erase_iff, onPath_iff_of_parent htarget hparent]
          tauto

/-- The ancestry after walks from the hashes `targets`, all of which reach
    `t`: the unvisited headers are those of the ancestry on none of their
    paths. -/
structure WalkedFrom (P : H → Option H) (t : H) (targets : List H) (chain : AncestryChain H) :
    Prop where
  parents : chain.parents = P
  nodup : chain.unvisited.Nodup
  unvisited_iff : ∀ h, h ∈ chain.unvisited ↔ (P h).isSome ∧ ∀ x ∈ targets, ¬OnPath P t x h
  reaches : ∀ x ∈ targets, Reaches P t x

omit [DecidableEq H] in
/-- A visited header with a parent is on the path of one of the targets. -/
theorem WalkedFrom.exists_onPath {targets : List H} {chain : AncestryChain H}
    (hwalked : WalkedFrom P t targets chain) {v : H} (hv : (P v).isSome)
    (hnot : v ∉ chain.unvisited) : ∃ x ∈ targets, OnPath P t x v := by
  by_contra hnone
  exact hnot ((hwalked.unvisited_iff v).2 ⟨hv, fun x hx hxv => hnone ⟨x, hx, hxv⟩⟩)

omit [DecidableEq H] in
/-- The visited headers reach the target and their paths are visited. -/
theorem WalkedFrom.closed {targets : List H} {chain : AncestryChain H}
    (hwalked : WalkedFrom P t targets chain) :
    ∀ v, (P v).isSome → v ∉ chain.unvisited →
      Reaches P t v ∧ ∀ w, OnPath P t v w → w ∉ chain.unvisited := by
  intro v hv hnot
  obtain ⟨x, hx, hxv⟩ := hwalked.exists_onPath hv hnot
  refine ⟨(hwalked.reaches x hx).of_onPath hxv, fun w hvw hw => ?_⟩
  exact ((hwalked.unvisited_iff w).1 hw).2 x hx (hxv.trans hvw)

omit [DecidableEq H] in
/-- No header is left unvisited exactly when every header with a parent is
    on the path of a target. -/
theorem WalkedFrom.unvisited_eq_nil_iff {targets : List H} {chain : AncestryChain H}
    (hwalked : WalkedFrom P t targets chain) :
    chain.unvisited = [] ↔ ∀ h, (P h).isSome → ∃ x ∈ targets, OnPath P t x h := by
  constructor
  · intro hnil h hh
    exact hwalked.exists_onPath hh (by rw [hnil]; exact List.not_mem_nil)
  · intro hall
    rw [List.eq_nil_iff_forall_not_mem]
    intro h hmem
    obtain ⟨hh, hoff⟩ := (hwalked.unvisited_iff h).1 hmem
    obtain ⟨x, hx, hxh⟩ := hall h hh
    exact hoff x hx hxh

/-- The walk from the ancestry after earlier walks: it succeeds exactly
    when `x` reaches `t`, and leaves unvisited the headers off `x`'s path. -/
theorem WalkedFrom.ensureDescendant_spec (hacyclic : Acyclic P) {targets : List H}
    {chain : AncestryChain H} (hwalked : WalkedFrom P t targets chain) (x : H) :
    (Reaches P t x → ∃ U', chain.ensureDescendant t x = .ok ⟨P, U'⟩ ∧ U'.Nodup ∧
        ∀ h, h ∈ U' ↔ h ∈ chain.unvisited ∧ ¬OnPath P t x h) ∧
      (¬Reaches P t x → chain.ensureDescendant t x = .error .precommitIsNotCommitDescendant) := by
  have hchain : chain = ⟨P, chain.unvisited⟩ := by
    rw [← hwalked.parents]
  rw [AncestryChain.ensureDescendant, hchain]
  -- no walk is under way: the exception set is empty
  exact ensureDescendantLoop_spec hacyclic chain.unvisited.length chain.unvisited (fun _ => False) x
    rfl hwalked.nodup (fun v hv hnot => .inr (hwalked.closed v hv hnot)) (fun _ h => h.elim)

/-- **ONE MORE WALK.** A walk that succeeds starts from a target that
    reaches `t`, and extends the walked targets by it. -/
theorem WalkedFrom.of_ensureDescendant (hacyclic : Acyclic P) {targets : List H}
    {chain chain' : AncestryChain H} {x : H} (hwalked : WalkedFrom P t targets chain)
    (hok : chain.ensureDescendant t x = .ok chain') :
    Reaches P t x ∧ WalkedFrom P t (targets ++ [x]) chain' := by
  obtain ⟨hrun, herror⟩ := hwalked.ensureDescendant_spec hacyclic x
  by_cases hreach : Reaches P t x
  case neg =>
    rw [herror hreach] at hok
    cases hok
  obtain ⟨U', hrun', hnodup', hmem'⟩ := hrun hreach
  rw [hrun', Except.ok.injEq] at hok
  subst hok
  refine ⟨hreach, rfl, hnodup', fun h => ?_, fun y hy => ?_⟩
  · rw [hmem', hwalked.unvisited_iff, List.forall_mem_append, List.forall_mem_singleton]
    tauto
  · rw [List.mem_append, List.mem_singleton] at hy
    rcases hy with hy | rfl
    · exact hwalked.reaches y hy
    · exact hreach

/-- A walk from a target that reaches `t` succeeds. -/
theorem WalkedFrom.ensureDescendant_ok (hacyclic : Acyclic P) {targets : List H}
    {chain : AncestryChain H} {x : H} (hwalked : WalkedFrom P t targets chain)
    (hreach : Reaches P t x) : ∃ chain', chain.ensureDescendant t x = .ok chain' := by
  obtain ⟨U', hrun, -⟩ := (hwalked.ensureDescendant_spec hacyclic x).1 hreach
  exact ⟨_, hrun⟩

end Walk

/-! ## The loop over the precommits -/

/-- The weight of the authorities of some precommits. -/
def weightOf (authoritiesSet : VoterSet Id) (precommits : List (SignedPrecommit H Id Sig)) : ℕ :=
  (precommits.map fun signed => (authoritiesSet.get signed.id).getD 0).sum

@[simp] theorem weightOf_nil (authoritiesSet : VoterSet Id) :
    weightOf authoritiesSet ([] : List (SignedPrecommit H Id Sig)) = 0 := rfl

@[simp] theorem weightOf_concat (authoritiesSet : VoterSet Id)
    (precommits : List (SignedPrecommit H Id Sig)) (signed : SignedPrecommit H Id Sig) :
    weightOf authoritiesSet (precommits ++ [signed]) =
      weightOf authoritiesSet precommits + (authoritiesSet.get signed.id).getD 0 := by
  simp [weightOf]

section Loop

variable [DecidableEq H] [DecidableEq Id]
  (checkSignature : Precommit H → Id → Sig → ℕ → ℕ → Bool) (authoritiesSetId : ℕ)
  (justification : GrandpaJustification H Id Sig) (authoritiesSet : VoterSet Id)
  (P : H → Option H)

/-- What the strict loop requires of the precommit after `done`. -/
def Admissible (done : List (SignedPrecommit H Id Sig)) (signed : SignedPrecommit H Id Sig) :
    Prop :=
  (authoritiesSet.get signed.id).isSome ∧ signed.id ∉ done.map (·.id) ∧
    weightOf authoritiesSet done < authoritiesSet.threshold ∧
    justification.commit.targetNumber ≤ signed.precommit.targetNumber ∧
    Reaches P justification.commit.targetHash signed.precommit.targetHash ∧
    checkSignature signed.precommit signed.id signed.signature justification.round
      authoritiesSetId = true

/-- Every precommit of `rest` admissible after those before it. -/
def Scan : List (SignedPrecommit H Id Sig) → List (SignedPrecommit H Id Sig) → Prop
  | _, [] => True
  | done, signed :: rest =>
      Admissible checkSignature authoritiesSetId justification authoritiesSet P done signed ∧
        Scan (done ++ [signed]) rest

omit [DecidableEq H] [DecidableEq Id] in
/-- The scan read by position. -/
theorem scan_iff (done rest : List (SignedPrecommit H Id Sig)) :
    Scan checkSignature authoritiesSetId justification authoritiesSet P done rest ↔
      ∀ i (hi : i < rest.length), Admissible checkSignature authoritiesSetId justification
        authoritiesSet P (done ++ rest.take i) rest[i] := by
  induction rest generalizing done with
  | nil => simp [Scan]
  | cons signed rest ih =>
      rw [Scan, ih]
      constructor
      · rintro ⟨hfirst, hrest⟩ i hi
        cases i with
        | zero => simpa using hfirst
        | succ i =>
            have := hrest i (by simpa using hi)
            simpa [List.append_assoc] using this
      · intro hall
        have hfirst := hall 0 (by simp)
        rw [List.take_zero, List.append_nil, List.getElem_cons_zero] at hfirst
        refine ⟨hfirst, fun i hi => ?_⟩
        have := hall (i + 1) (by simpa using hi)
        simpa [List.append_assoc] using this

omit [DecidableEq H] [DecidableEq Id] in
/-- The scan from the first precommit, split into what it asks of the
    order of the precommits, of each target and of each signature. -/
theorem scan_nil_iff (precommits : List (SignedPrecommit H Id Sig)) :
    Scan checkSignature authoritiesSetId justification authoritiesSet P [] precommits ↔
      (∀ i (hi : i < precommits.length), (authoritiesSet.get precommits[i].id).isSome ∧
        precommits[i].id ∉ (precommits.take i).map (·.id) ∧
        weightOf authoritiesSet (precommits.take i) < authoritiesSet.threshold) ∧
      (∀ signed ∈ precommits, justification.commit.targetNumber ≤ signed.precommit.targetNumber ∧
        Reaches P justification.commit.targetHash signed.precommit.targetHash) ∧
      ∀ signed ∈ precommits, checkSignature signed.precommit signed.id signed.signature
        justification.round authoritiesSetId = true := by
  rw [scan_iff]
  simp only [List.nil_append, Admissible, List.forall_mem_iff_getElem, ← forall_and, and_assoc]

/-- The loop state after the precommits `done`, all accepted: the ancestry
    walked from their targets, their authorities as the votes and their
    weight as the cumulative weight. -/
structure PathsVisited (done : List (SignedPrecommit H Id Sig)) (st : VotesState H Id) : Prop where
  walked : WalkedFrom P justification.commit.targetHash (done.map (·.precommit.targetHash)) st.chain
  votes : ∀ id, id ∈ st.votes ↔ id ∈ done.map (·.id)
  cumulativeWeight : st.cumulativeWeight = weightOf authoritiesSet done

omit [DecidableEq Id] in
/-- The loop starts with no ancestry header visited, no vote and no
    weight. -/
theorem pathsVisited_new (hasher : Header H → H) :
    PathsVisited justification authoritiesSet (ancestryParents hasher justification.votesAncestries)
      [] ⟨AncestryChain.new hasher justification.votesAncestries, [], 0⟩ := by
  obtain ⟨hparents, hnodup, hmem⟩ := new_spec hasher justification.votesAncestries
  refine ⟨⟨hparents, hnodup, fun h => ?_, fun x hx => ?_⟩, fun id => ?_, rfl⟩
  · rw [hmem, ← ancestryParents_isSome]
    simp
  · simp at hx
  · simp

omit [DecidableEq H] in
/-- The weight the verdict accepts, when it accepts. -/
theorem acceptedWeight_verdict_eq_some {votes : List Id} {cumulativeWeight weight : ℕ}
    {signed : SignedPrecommit H Id Sig} :
    (verdict authoritiesSet votes cumulativeWeight signed).acceptedWeight = some weight ↔
      cumulativeWeight < authoritiesSet.threshold ∧ authoritiesSet.get signed.id = some weight ∧
        signed.id ∉ votes := by
  unfold verdict
  by_cases hredundant : cumulativeWeight ≥ authoritiesSet.threshold
  · simp [hredundant, Verdict.acceptedWeight]
  · rw [if_neg hredundant]
    cases hget : authoritiesSet.get signed.id with
    | none => simp [Verdict.acceptedWeight]
    | some w =>
        by_cases hdup : signed.id ∈ votes
        · simp [hdup, Verdict.acceptedWeight]
        · simp [hdup, Verdict.acceptedWeight]
          omega

omit [DecidableEq Id] in
/-- An accepted precommit passes the target number, the walk and the
    signature. -/
theorem acceptPrecommit_eq_ok_iff {st st' : VotesState H Id} {signed : SignedPrecommit H Id Sig}
    {weight : ℕ} :
    acceptPrecommit checkSignature authoritiesSetId justification st signed weight = .ok st' ↔
      justification.commit.targetNumber ≤ signed.precommit.targetNumber ∧
      ∃ chain, st.chain.ensureDescendant justification.commit.targetHash
          signed.precommit.targetHash = .ok chain ∧
        checkSignature signed.precommit signed.id signed.signature justification.round
          authoritiesSetId = true ∧
        st' = ⟨chain, signed.id :: st.votes, st.cumulativeWeight + weight⟩ := by
  unfold acceptPrecommit
  dsimp only
  by_cases hnumber : signed.precommit.targetNumber < justification.commit.targetNumber
  · rw [if_pos hnumber]
    simp only [reduceCtorEq, false_iff, not_and]
    intro hle
    omega
  rw [if_neg hnumber]
  cases hchain : st.chain.ensureDescendant justification.commit.targetHash
      signed.precommit.targetHash with
  | error e => simp
  | ok chain =>
      by_cases hsignature : checkSignature signed.precommit signed.id signed.signature
          justification.round authoritiesSetId = true
      · simp [hsignature, eq_comm]
        omega
      · simp [hsignature]

/-- The strict round succeeds exactly on a precommit the verdict accepts,
    whose acceptance succeeds. -/
theorem precommitStep_strict_eq_ok_iff {st st' : VotesState H Id}
    {precommitIdx : ℕ} {signed : SignedPrecommit H Id Sig} :
    precommitStep checkSignature authoritiesSetId justification authoritiesSet
        strictVerificationCallbacks (st, ()) precommitIdx signed = .ok (st', ()) ↔
      ∃ weight, (verdict authoritiesSet st.votes st.cumulativeWeight signed).acceptedWeight =
          some weight ∧
        acceptPrecommit checkSignature authoritiesSetId justification st signed weight = .ok st' := by
  rw [precommitStep_strict]
  cases (verdict authoritiesSet st.votes st.cumulativeWeight signed).acceptedWeight with
  | none => simp
  | some weight =>
      dsimp only
      cases haccept : acceptPrecommit checkSignature authoritiesSetId justification st signed
          weight with
      | error e => simp [Except.map, haccept]
      | ok st₁ => simp [Except.map, haccept]

variable {checkSignature authoritiesSetId justification authoritiesSet P}

/-- **ONE PRECOMMIT.** The strict round succeeds exactly on an admissible
    precommit, and keeps the state invariant. -/
theorem PathsVisited.step (hacyclic : Acyclic P)
    {done : List (SignedPrecommit H Id Sig)} {st : VotesState H Id}
    (hvisited : PathsVisited justification authoritiesSet P done st) (precommitIdx : ℕ)
    (signed : SignedPrecommit H Id Sig) :
    (∀ st', precommitStep checkSignature authoritiesSetId justification authoritiesSet
        strictVerificationCallbacks (st, ()) precommitIdx signed = .ok (st', ()) →
      Admissible checkSignature authoritiesSetId justification authoritiesSet P done signed ∧
        PathsVisited justification authoritiesSet P (done ++ [signed]) st') ∧
    (Admissible checkSignature authoritiesSetId justification authoritiesSet P done signed →
      ∃ st', precommitStep checkSignature authoritiesSetId justification authoritiesSet
        strictVerificationCallbacks (st, ()) precommitIdx signed = .ok (st', ())) := by
  -- the invariant after a walk that succeeds
  have hafter : ∀ chain weight, st.chain.ensureDescendant justification.commit.targetHash
        signed.precommit.targetHash = .ok chain → authoritiesSet.get signed.id = some weight →
      Reaches P justification.commit.targetHash signed.precommit.targetHash ∧
        PathsVisited justification authoritiesSet P (done ++ [signed])
          ⟨chain, signed.id :: st.votes, st.cumulativeWeight + weight⟩ := by
    intro chain weight hchain hget
    obtain ⟨hreach, hwalked⟩ := hvisited.walked.of_ensureDescendant hacyclic hchain
    refine ⟨hreach, ⟨by simpa using hwalked, fun id => ?_, ?_⟩⟩
    · simp [hvisited.votes, or_comm]
    · simp [hvisited.cumulativeWeight, hget]
  constructor
  · intro st' hstep
    obtain ⟨weight, hweight, haccept⟩ :=
      (precommitStep_strict_eq_ok_iff checkSignature authoritiesSetId justification
        authoritiesSet).1 hstep
    obtain ⟨hbelow, hget, hfirst⟩ := (acceptedWeight_verdict_eq_some authoritiesSet).1 hweight
    obtain ⟨hnumber, chain, hchain, hsignature, rfl⟩ :=
      (acceptPrecommit_eq_ok_iff checkSignature authoritiesSetId justification).1 haccept
    obtain ⟨hreach, hvisited'⟩ := hafter chain weight hchain hget
    refine ⟨⟨by rw [hget]; rfl, fun hmem => hfirst ((hvisited.votes _).2 hmem), ?_, hnumber,
      hreach, hsignature⟩, hvisited'⟩
    rw [← hvisited.cumulativeWeight]
    exact hbelow
  · rintro ⟨hknown, hfirst, hbelow, hnumber, hreach, hsignature⟩
    obtain ⟨weight, hget⟩ := Option.isSome_iff_exists.1 hknown
    have hweight : (verdict authoritiesSet st.votes st.cumulativeWeight signed).acceptedWeight =
        some weight := by
      refine (acceptedWeight_verdict_eq_some authoritiesSet).2 ⟨?_, hget, fun hmem => ?_⟩
      · rw [hvisited.cumulativeWeight]
        exact hbelow
      · exact hfirst ((hvisited.votes _).1 hmem)
    obtain ⟨chain, hchain⟩ := hvisited.walked.ensureDescendant_ok hacyclic hreach
    have haccept : acceptPrecommit checkSignature authoritiesSetId justification st signed weight =
        .ok ⟨chain, signed.id :: st.votes, st.cumulativeWeight + weight⟩ :=
      (acceptPrecommit_eq_ok_iff checkSignature authoritiesSetId justification).2
        ⟨hnumber, chain, hchain, hsignature, rfl⟩
    exact ⟨_, (precommitStep_strict_eq_ok_iff checkSignature authoritiesSetId justification
      authoritiesSet).2 ⟨weight, hweight, haccept⟩⟩

/-- **THE LOOP.** The strict loop over `rest` succeeds exactly when every
    precommit of it is admissible after those before it, and ends with the
    state invariant over all of them. -/
theorem PathsVisited.run (hacyclic : Acyclic P) :
    ∀ (rest done : List (SignedPrecommit H Id Sig)) (st : VotesState H Id) (precommitIdx : ℕ),
      PathsVisited justification authoritiesSet P done st →
      (∀ st', verifyPrecommits checkSignature authoritiesSetId justification authoritiesSet
          strictVerificationCallbacks precommitIdx rest (st, ()) = .ok (st', ()) →
        Scan checkSignature authoritiesSetId justification authoritiesSet P done rest ∧
          PathsVisited justification authoritiesSet P (done ++ rest) st') ∧
      (Scan checkSignature authoritiesSetId justification authoritiesSet P done rest →
        ∃ st', verifyPrecommits checkSignature authoritiesSetId justification authoritiesSet
            strictVerificationCallbacks precommitIdx rest (st, ()) = .ok (st', ()) ∧
          PathsVisited justification authoritiesSet P (done ++ rest) st') := by
  intro rest
  induction rest with
  | nil =>
      intro done st precommitIdx hvisited
      refine ⟨fun st' hrun => ?_, fun _ => ⟨st, rfl, by simpa using hvisited⟩⟩
      rw [Grandpa.verifyPrecommits, Except.ok.injEq, Prod.mk.injEq] at hrun
      rw [← hrun.1, List.append_nil]
      exact ⟨trivial, hvisited⟩
  | cons signed rest ih =>
      intro done st precommitIdx hvisited
      obtain ⟨hsound, hcomplete⟩ := hvisited.step hacyclic precommitIdx signed
      rw [Grandpa.verifyPrecommits]
      constructor
      · intro st' hrun
        -- the round succeeded, and so did the rest of the loop
        cases hstep : precommitStep checkSignature authoritiesSetId justification authoritiesSet
            strictVerificationCallbacks (st, ()) precommitIdx signed with
        | error e =>
            rw [hstep] at hrun
            cases hrun
        | ok result =>
            obtain ⟨st₁, ⟨⟩⟩ := result
            rw [hstep] at hrun
            obtain ⟨hadmissible, hvisited₁⟩ := hsound st₁ hstep
            obtain ⟨hscan, hvisited'⟩ :=
              (ih (done ++ [signed]) st₁ (precommitIdx + 1) hvisited₁).1 st' hrun
            exact ⟨⟨hadmissible, hscan⟩, by simpa using hvisited'⟩
      · rintro ⟨hadmissible, hscan⟩
        -- the round succeeds, keeping the invariant for the rest of the loop
        obtain ⟨st₁, hstep⟩ := hcomplete hadmissible
        obtain ⟨-, hvisited₁⟩ := hsound st₁ hstep
        obtain ⟨st', hrun, hvisited'⟩ :=
          (ih (done ++ [signed]) st₁ (precommitIdx + 1) hvisited₁).2 hscan
        refine ⟨st', ?_, by simpa using hvisited'⟩
        rw [hstep]
        exact hrun

end Loop

/-! ## The specification -/

section Spec

variable [DecidableEq H] [DecidableEq Id] (hasher : Header H → H)
  (checkSignature : Precommit H → Id → Sig → ℕ → ℕ → Bool) (hash : H) (number : ℕ)
  (authoritiesSetId : ℕ) (authoritiesSet : VoterSet Id)

/-- What `verify_justification` of the header `(hash, number)` accepts,
    with the paths through the parents of the ancestry headers in place of
    the shared walks.  The path from a precommit's target is the list of
    hashes whose parent link is followed on the way to `hash`, so `hash`
    itself is on none. -/
structure JustificationSpec (justification : GrandpaJustification H Id Sig) : Prop where
  target : justification.commit.targetHash = hash ∧ justification.commit.targetNumber = number
  scan : ∀ i (hi : i < justification.commit.precommits.length),
    (authoritiesSet.get justification.commit.precommits[i].id).isSome ∧
    justification.commit.precommits[i].id ∉ (justification.commit.precommits.take i).map (·.id) ∧
    weightOf authoritiesSet (justification.commit.precommits.take i) < authoritiesSet.threshold
  descendant : ∀ signed ∈ justification.commit.precommits, number ≤ signed.precommit.targetNumber ∧
    Reaches (ancestryParents hasher justification.votesAncestries) hash signed.precommit.targetHash
  signed : ∀ signed ∈ justification.commit.precommits,
    checkSignature signed.precommit signed.id signed.signature justification.round
      authoritiesSetId = true
  ancestry : ∀ ancestor ∈ justification.votesAncestries, ∃ signed ∈ justification.commit.precommits,
    OnPath (ancestryParents hasher justification.votesAncestries) hash signed.precommit.targetHash
      (hasher ancestor)
  weight : authoritiesSet.threshold ≤ weightOf authoritiesSet justification.commit.precommits

/-- **PATH SPECIFICATION.** On an ancestry whose parent map is acyclic,
    `verify_justification` accepts exactly the justifications of its
    specification. -/
theorem verify_justification_iff_path_spec (justification : GrandpaJustification H Id Sig)
    (hacyclic : Acyclic (ancestryParents hasher justification.votesAncestries)) :
    verifyJustification hasher checkSignature (hash, number) authoritiesSetId authoritiesSet
        justification = .ok () ↔
      JustificationSpec hasher checkSignature hash number authoritiesSetId authoritiesSet
        justification := by
  -- the loop from the state `AncestryChain::new` starts, over all the precommits
  have hinit := pathsVisited_new justification authoritiesSet hasher
  rw [verifyJustification, verifyJustificationWithCallbacks_eq_ok]
  constructor
  · rintro ⟨htarget, votesState, hrun, hunvisited, hweight⟩
    obtain ⟨rfl, rfl⟩ := Prod.mk.inj htarget
    obtain ⟨hscan, hvisited⟩ := (hinit.run hacyclic _ [] _ 0).1 votesState hrun
    rw [List.nil_append] at hvisited
    obtain ⟨horder, hdescendant, hsigned⟩ := (scan_nil_iff _ _ _ _ _ _).1 hscan
    refine ⟨⟨rfl, rfl⟩, horder, hdescendant, hsigned, fun ancestor hancestor => ?_, ?_⟩
    · -- an ancestry header has a parent, so a walk visited it
      have hparent := (ancestryParents_isSome hasher justification.votesAncestries
        (hasher ancestor)).2 ⟨ancestor, hancestor, rfl⟩
      obtain ⟨x, hx, hpath⟩ := (hvisited.walked.unvisited_eq_nil_iff).1 hunvisited _ hparent
      obtain ⟨signed, hsigned, rfl⟩ := List.mem_map.1 hx
      exact ⟨signed, hsigned, hpath⟩
    · rw [← hvisited.cumulativeWeight]
      exact hweight
  · rintro ⟨⟨rfl, rfl⟩, horder, hdescendant, hsigned, hancestry, hweight⟩
    obtain ⟨votesState, hrun, hvisited⟩ := (hinit.run hacyclic _ [] _ 0).2
      ((scan_nil_iff checkSignature authoritiesSetId _ _ _ _).2 ⟨horder, hdescendant, hsigned⟩)
    rw [List.nil_append] at hvisited
    refine ⟨rfl, votesState, hrun, ?_, ?_⟩
    · -- every hash with a parent is an ancestry header's, on a precommit's path
      rw [hvisited.walked.unvisited_eq_nil_iff]
      intro h hparent
      obtain ⟨ancestor, hancestor, rfl⟩ :=
        (ancestryParents_isSome hasher justification.votesAncestries h).1 hparent
      obtain ⟨signed, hsigned, hpath⟩ := hancestry ancestor hancestor
      exact ⟨_, List.mem_map_of_mem hsigned, hpath⟩
    · rw [hvisited.cumulativeWeight]
      exact hweight

/-- One ancestry header, of hash (its number) 1 and parent 0. -/
def oneHeaderJustification : GrandpaJustification ℕ ℕ Unit :=
  ⟨0, ⟨0, 0, [⟨⟨1, 1⟩, (), 1⟩]⟩, [⟨0, 1, 0, []⟩]⟩

/-- The single authority 1, of weight 1 and threshold 1. -/
def oneVoter : VoterSet ℕ :=
  ⟨fun id => if id = 1 then some 1 else none, 1⟩

theorem path_spec_on_one_header :
    Acyclic (ancestryParents Header.number oneHeaderJustification.votesAncestries) ∧
      verifyJustification Header.number (fun _ _ _ _ _ => true) (0, 0) 0 oneVoter
        oneHeaderJustification = .ok () ∧
      (verifyJustification Header.number (fun _ _ _ _ _ => true) (0, 0) 0 oneVoter
          oneHeaderJustification = .ok () ↔
        JustificationSpec Header.number (fun _ _ _ _ _ => true) 0 0 0 oneVoter
          oneHeaderJustification) := by
  -- the only link goes from 1 down to 0
  have hacyclic : Acyclic (ancestryParents Header.number oneHeaderJustification.votesAncestries) := by
    refine Acyclic.of_rank id fun a b hab => ?_
    by_cases ha : a = 1
    · subst ha
      simp [ancestryParents, oneHeaderJustification] at hab
      simp [← hab]
    · simp [ancestryParents, oneHeaderJustification, Ne.symm ha] at hab
  exact ⟨hacyclic, rfl, verify_justification_iff_path_spec Header.number (fun _ _ _ _ _ => true)
    0 0 0 oneVoter oneHeaderJustification hacyclic⟩

end Spec

end Grandpa

end ParityBridge
