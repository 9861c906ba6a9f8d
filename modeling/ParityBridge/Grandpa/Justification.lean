import ParityBridge.Grandpa.Pallet

/-! # GRANDPA justifications — `bp_header_chain::justification`

    A justification proves that a header of the bridged chain is final: a
    commit for the header, signed by authorities of the current set whose
    weights reach the set's threshold, with the headers that link every
    precommit's target back to the committed one.

    `verify_justification_with_callbacks` is one loop over the precommits
    for two callers.  The pallet verifies strictly
    (`StrictVerificationCallbacks`): a precommit of an unknown authority, a
    second precommit of an authority, or one after the threshold is reached
    fails the justification.  The relay optimizes
    (`OptimizationCallbacks`): such a precommit is skipped and its index
    recorded, and `optimize` then removes the recorded indices, the last
    first.  A precommit that is neither is accepted, which alters the loop
    state: its target must descend from the committed header through the
    ancestry (`AncestryChain::ensure_descendant`), its weight is counted and
    its signature checked.

    The callbacks are a record of three functions over the caller's state,
    so the loop is one definition for both callers.  `VoterSet` is
    `finality_grandpa`'s: the loop reads an authority's weight and the set's
    threshold of it, nothing else.  `ensure_descendant` walks up the parents
    and stops at a header it visited before; a step that goes on removes the
    header from `unvisited`, so `unvisited`'s length plus one bounds the
    walk, and that is its fuel.  The signature check is the parameter
    `checkSignature`, the header hash the parameter `hasher`.  The pallet's
    own `verify_justification` builds the voter set of its stored
    authorities and calls the strict check; it is the
    `verifyJustification` parameter of the pallet model. -/

namespace ParityBridge

namespace Grandpa

/-- `finality_grandpa::Precommit`. -/
structure Precommit (H : Type) where
  targetHash : H
  targetNumber : ℕ
deriving DecidableEq, Repr

/-- `finality_grandpa::SignedPrecommit`: a precommit with the authority's
    signature and id. -/
structure SignedPrecommit (H Id Sig : Type) where
  precommit : Precommit H
  signature : Sig
  id : Id
deriving DecidableEq, Repr

/-- `finality_grandpa::Commit`. -/
structure Commit (H Id Sig : Type) where
  targetHash : H
  targetNumber : ℕ
  precommits : List (SignedPrecommit H Id Sig)
deriving DecidableEq, Repr

/-- `GrandpaJustification`. -/
structure GrandpaJustification (H Id Sig : Type) where
  round : ℕ
  commit : Commit H Id Sig
  votesAncestries : List (Header H)
deriving DecidableEq, Repr

/-- The justification `Error`. -/
inductive JustificationError where
  | justificationDecode
  | invalidJustificationTarget
  | redundantVotesInJustification
  | unknownAuthorityVote
  | duplicateAuthorityVote
  | invalidAuthoritySignature
  | precommitIsNotCommitDescendant
  | tooLowCumulativeWeight
  | extraHeadersInVotesAncestries
deriving DecidableEq, Repr

/-- What the loop reads of `finality_grandpa::VoterSet`: the weight of an
    authority of the set, and the set's threshold. -/
structure VoterSet (Id : Type) where
  get : Id → Option ℕ
  threshold : ℕ

variable {H Id Sig C : Type}

/-! ## The ancestry of the votes -/

/-- `AncestryChain`: each ancestry header's parent by hash (`BTreeMap`, the
    last insert winning), and the hashes not visited yet (`BTreeSet`, a list
    without repeats). -/
structure AncestryChain (H : Type) where
  parents : H → Option H
  unvisited : List H

namespace AncestryChain

variable [DecidableEq H]

/-- `AncestryChain::new`. -/
def new (hasher : Header H → H) (ancestry : List (Header H)) : AncestryChain H :=
  ancestry.foldl (fun chain ancestor =>
    let hash := hasher ancestor
    ⟨fun h => if h = hash then some ancestor.parentHash else chain.parents h,
      chain.unvisited.insert hash⟩) ⟨fun _ => none, []⟩

/-- The loop of `ensure_descendant` from `currentHash`, with `fuel` rounds;
    running out of fuel, which `ensureDescendant`'s fuel rules out, fails. -/
def ensureDescendantLoop (commitTarget : H) : ℕ → AncestryChain H → H →
    Except JustificationError (AncestryChain H)
  | 0, _, _ => .error .precommitIsNotCommitDescendant
  | fuel + 1, chain, currentHash =>
      if currentHash = commitTarget then .ok chain
      else
        let isVisitedBefore := !chain.unvisited.contains currentHash
        let chain := { chain with unvisited := chain.unvisited.erase currentHash }
        match chain.parents currentHash with
        | some parentHash =>
            -- a header visited before was shown to descend from the target
            if isVisitedBefore then .ok chain
            else ensureDescendantLoop commitTarget fuel chain parentHash
        | none => .error .precommitIsNotCommitDescendant

/-- `AncestryChain::ensure_descendant`. -/
def ensureDescendant (chain : AncestryChain H) (commitTarget precommitTarget : H) :
    Except JustificationError (AncestryChain H) :=
  ensureDescendantLoop commitTarget (chain.unvisited.length + 1) chain precommitTarget

end AncestryChain

/-! ## The verification loop -/

/-- `VerificationCallbacks`: what the loop does, given the caller's state,
    with a precommit of an unknown authority, a duplicate vote, and a vote
    after the threshold, each by the precommit's index. -/
structure VerificationCallbacks (C : Type) where
  onUnkownAuthority : C → ℕ → Except JustificationError C
  onDuplicateAuthorityVote : C → ℕ → Except JustificationError C
  onRedundantAuthorityVote : C → ℕ → Except JustificationError C

/-- `StrictVerificationCallbacks`: every such precommit fails. -/
def strictVerificationCallbacks : VerificationCallbacks Unit :=
  ⟨fun _ _ => .error .unknownAuthorityVote, fun _ _ => .error .duplicateAuthorityVote,
    fun _ _ => .error .redundantVotesInJustification⟩

/-- `OptimizationCallbacks`: every such precommit's index is recorded. -/
def optimizationCallbacks : VerificationCallbacks (List ℕ) :=
  ⟨fun recorded idx => .ok (recorded ++ [idx]), fun recorded idx => .ok (recorded ++ [idx]),
    fun recorded idx => .ok (recorded ++ [idx])⟩

/-- The loop state: the ancestry, the authorities that voted, and the
    cumulative weight of their votes. -/
structure VotesState (H Id : Type) where
  chain : AncestryChain H
  votes : List Id
  cumulativeWeight : ℕ

section Loop

variable [DecidableEq H] [DecidableEq Id]
  (checkSignature : Precommit H → Id → Sig → ℕ → ℕ → Bool) (authoritiesSetId : ℕ)
  (justification : GrandpaJustification H Id Sig)

/-- The part of the loop body after a precommit of a known authority's
    first vote is accepted: the target number and the ancestry are checked,
    the weight counted and the signature checked; any failure fails the
    justification. -/
def acceptPrecommit (st : VotesState H Id) (signed : SignedPrecommit H Id Sig) (weight : ℕ) :
    Except JustificationError (VotesState H Id) :=
  let votes := signed.id :: st.votes
  -- precommits aren't allowed for block lower than the target
  if signed.precommit.targetNumber < justification.commit.targetNumber then
    .error .precommitIsNotCommitDescendant
  else
    match st.chain.ensureDescendant justification.commit.targetHash signed.precommit.targetHash with
    | .error e => .error e
    | .ok chain =>
        let cumulativeWeight := st.cumulativeWeight + weight
        if !checkSignature signed.precommit signed.id signed.signature justification.round
            authoritiesSetId then
          .error .invalidAuthoritySignature
        else .ok ⟨chain, votes, cumulativeWeight⟩

variable (authoritiesSet : VoterSet Id) (callbacks : VerificationCallbacks C)

/-- One round of the loop, for the precommit of index `precommitIdx`. -/
def precommitStep (st : VotesState H Id × C) (precommitIdx : ℕ)
    (signed : SignedPrecommit H Id Sig) : Except JustificationError (VotesState H Id × C) :=
  let (votesState, c) := st
  if votesState.cumulativeWeight ≥ authoritiesSet.threshold then
    (callbacks.onRedundantAuthorityVote c precommitIdx).map (votesState, ·)
  else
    match authoritiesSet.get signed.id with
    | none => (callbacks.onUnkownAuthority c precommitIdx).map (votesState, ·)
    | some weight =>
        if signed.id ∈ votesState.votes then
          (callbacks.onDuplicateAuthorityVote c precommitIdx).map (votesState, ·)
        else (acceptPrecommit checkSignature authoritiesSetId justification votesState signed
          weight).map (·, c)

/-- The loop over the precommits from index `precommitIdx` on. -/
def verifyPrecommits : ℕ → List (SignedPrecommit H Id Sig) → VotesState H Id × C →
    Except JustificationError (VotesState H Id × C)
  | _, [], st => .ok st
  | precommitIdx, signed :: rest, st =>
      match precommitStep checkSignature authoritiesSetId justification authoritiesSet callbacks st
          precommitIdx signed with
      | .error e => .error e
      | .ok st => verifyPrecommits (precommitIdx + 1) rest st

end Loop

section Verify

variable [DecidableEq H] [DecidableEq Id] (hasher : Header H → H)
  (checkSignature : Precommit H → Id → Sig → ℕ → ℕ → Bool) (finalizedTarget : H × ℕ)
  (authoritiesSetId : ℕ) (authoritiesSet : VoterSet Id)

/-- `verify_justification_with_callbacks`: the callbacks' state it leaves. -/
def verifyJustificationWithCallbacks (justification : GrandpaJustification H Id Sig)
    (callbacks : VerificationCallbacks C) (c : C) : Except JustificationError C :=
  -- ensure that it is justification for the expected header
  if (justification.commit.targetHash, justification.commit.targetNumber) ≠ finalizedTarget then
    .error .invalidJustificationTarget
  else
    let chain := AncestryChain.new hasher justification.votesAncestries
    match verifyPrecommits checkSignature authoritiesSetId justification authoritiesSet callbacks 0
        justification.commit.precommits (⟨chain, [], 0⟩, c) with
    | .error e => .error e
    | .ok (votesState, c) =>
        -- check that there are no extra headers in the justification
        if !votesState.chain.unvisited.isEmpty then .error .extraHeadersInVotesAncestries
        else if votesState.cumulativeWeight ≥ authoritiesSet.threshold then .ok c
        else .error .tooLowCumulativeWeight

/-- `OptimizationCallbacks::optimize`: the recorded precommits removed, the
    last first. -/
def optimize (recorded : List ℕ) (justification : GrandpaJustification H Id Sig) :
    GrandpaJustification H Id Sig :=
  { justification with commit := { justification.commit with
      precommits := recorded.reverse.foldl List.eraseIdx justification.commit.precommits } }

/-- `verify_justification`. -/
def verifyJustification (justification : GrandpaJustification H Id Sig) :
    Except JustificationError Unit :=
  verifyJustificationWithCallbacks hasher checkSignature finalizedTarget authoritiesSetId
    authoritiesSet justification strictVerificationCallbacks ()

/-- `verify_and_optimize_justification`. -/
def verifyAndOptimizeJustification (justification : GrandpaJustification H Id Sig) :
    Except JustificationError (GrandpaJustification H Id Sig) :=
  match verifyJustificationWithCallbacks hasher checkSignature finalizedTarget authoritiesSetId
      authoritiesSet justification optimizationCallbacks [] with
  | .error e => .error e
  | .ok recorded => .ok (optimize recorded justification)

/-- `Pallet::verify_justification` of the GRANDPA pallet: the voter set of
    the stored authorities (`VoterSet::new`, the parameter `voterSet`, which
    refuses a set without weight) and `verify_justification` of the header,
    any failure of it becoming `InvalidJustification`.  This is the pallet's
    `verifyJustification`. -/
def palletVerifyJustification (voterSet : List (Id × ℕ) → Option (VoterSet Id))
    (justification : GrandpaJustification H Id Sig) (hash : H) (number : ℕ)
    (authoritySet : StoredAuthoritySet Id) : Except GrandpaError Unit :=
  match voterSet authoritySet.authorities with
  | none => .error .invalidAuthoritySet
  | some voterSet =>
      match verifyJustification hasher checkSignature (hash, number) authoritySet.setId voterSet
          justification with
      | .ok () => .ok ()
      | .error _ => .error .invalidJustification

end Verify

end Grandpa

end ParityBridge
