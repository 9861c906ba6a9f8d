import ParityBridge.Lib.RateLimit
import ParityBridge.Grandpa.PalletProofs
import ParityBridge.Beefy.PalletProofs

/-! # Request budgets of the finality pallets — `MaxRequests` over whole runs

    The GRANDPA and BEEFY pallets refuse a finality proof once
    `RequestCount` reaches `MaxRequests`, count every proof they accept, and
    take one request back in `on_initialize`, at every block.  So over any
    run, from a state within budget, a pallet accepts at most the budget
    left and one proof per block: what bounds the free imports a relayer
    can make the chain run.

    The route: each pallet's step is `RateLimit.Budgeted` in its
    `RequestCount` (`GrandpaChain.budgeted`, `BeefyChain.budgeted`), and
    every accepted proof is the one entry the step adds to the imported
    list; the bound is `RateLimit.Budgeted.admittedCount_le`. -/

namespace ParityBridge

open RateLimit

namespace Grandpa

variable {H A J : Type}

/-- `on_initialize`, the clock of the budget. -/
def Call.isOnInitialize : Call H A J → Bool
  | .onInitialize => true
  | _ => false

section Budget

variable [DecidableEq H] (cfg : GrandpaConfig) (hasher : Header H → H)
  (decode : List UInt8 → Option (ConsensusLog A))
  (verifyJustification : J → H → ℕ → StoredAuthoritySet A → Except GrandpaError Unit)

/-- Whether the call is a finality proof the pallet accepts. -/
def GrandpaChain.acceptsProof (c : GrandpaChain H A) : Call H A J → Bool
  | .submitFinalityProof header justification =>
      (submitFinalityProof cfg hasher decode verifyJustification c.storage header
        justification).1.isOk
  | _ => false

/-- `initialize` leaves `RequestCount` alone. -/
theorem initializeCall_requestCount (s : GrandpaStorage H A) (initData : InitializationData H A) :
    (initializeCall cfg hasher s initData).2.requestCount = s.requestCount := by
  rcases initializeCall_cases cfg hasher s initData with ⟨e, hres⟩ | ⟨-, -, hres⟩
  · rw [hres]
  · rw [hres]
    exact insertHeader_requestCount cfg _ _ _

/-- An accepted proof is counted, and was under the limit. -/
theorem submitFinalityProof_requestCount_of_ok {s s' : GrandpaStorage H A} {header : Header H}
    {justification : J} {enacted : Bool}
    (hres : submitFinalityProof cfg hasher decode verifyJustification s header justification =
      (.ok enacted, s')) :
    s.requestCount < cfg.maxRequests ∧ s'.requestCount = s.requestCount + 1 := by
  rcases submitFinalityProof_cases cfg hasher decode verifyJustification s header justification with
    ⟨e, herr⟩ | ⟨_, _, enacted', s'', hlt, -, -, -, henact, hok⟩
  · rw [hres] at herr
    cases herr
  · rw [hres, Prod.mk.injEq] at hok
    obtain ⟨-, rfl⟩ := hok
    -- the authority set change writes no `RequestCount`
    have hcount : s''.requestCount = s.requestCount := by
      rcases (tryEnactAuthorityChange_ok cfg henact).2 with ⟨-, rfl⟩ | ⟨_, -, -, -, rfl⟩ <;> rfl
    refine ⟨hlt, ?_⟩
    rw [insertHeader_requestCount]
    show s''.requestCount + 1 = _
    rw [hcount]

/-- **THE GRANDPA BUDGET.** `RequestCount` counts the accepted proofs, each
    under `MaxRequests`, and `on_initialize` takes it down. -/
theorem GrandpaChain.budgeted :
    Budgeted (GrandpaChain.step cfg hasher decode verifyJustification)
      (fun c => c.storage.requestCount) (GrandpaChain.acceptsProof cfg hasher decode verifyJustification)
      Call.isOnInitialize cfg.maxRequests := by
  refine ⟨fun c call haccept => ?_, fun c call htick => ?_, fun c call hreject hnotick => ?_⟩
  · -- only an accepted finality proof is admitted
    cases call with
    | submitFinalityProof header justification =>
        cases hres : submitFinalityProof cfg hasher decode verifyJustification c.storage header
            justification with
        | mk result s' =>
            cases result with
            | error e => simp [GrandpaChain.acceptsProof, hres, Except.isOk, Except.toBool] at haccept
            | ok enacted =>
                rw [step_submitFinalityProof_of_ok cfg hasher decode verifyJustification hres]
                exact submitFinalityProof_requestCount_of_ok cfg hasher decode verifyJustification hres
    | initializeCall _ => simp [GrandpaChain.acceptsProof] at haccept
    | setOperatingMode _ => simp [GrandpaChain.acceptsProof] at haccept
    | onInitialize => simp [GrandpaChain.acceptsProof] at haccept
  · cases call with
    | onInitialize => exact ⟨rfl, rfl⟩
    | _ => simp [Call.isOnInitialize] at htick
  · -- every other call leaves `RequestCount` alone
    cases call with
    | submitFinalityProof header justification =>
        rcases submitFinalityProof_cases cfg hasher decode verifyJustification c.storage header
          justification with ⟨e, hres⟩ | ⟨_, _, enacted, s', -, -, -, -, -, hres⟩
        · rw [step_submitFinalityProof_of_error cfg hasher decode verifyJustification hres]
        · simp [GrandpaChain.acceptsProof, hres, Except.isOk, Except.toBool] at hreject
    | initializeCall initData => exact initializeCall_requestCount cfg hasher c.storage initData
    | setOperatingMode _ => rfl
    | onInitialize => simp [Call.isOnInitialize] at hnotick

/-- An initialized pallet stays initialized. -/
theorem GrandpaChain.bestFinalized_isSome_step {c : GrandpaChain H A}
    (hinit : c.storage.bestFinalized.isSome) (call : Call H A J) :
    (GrandpaChain.step cfg hasher decode verifyJustification c call).storage.bestFinalized.isSome := by
  cases call with
  | submitFinalityProof header justification =>
      rcases submitFinalityProof_cases cfg hasher decode verifyJustification c.storage header
        justification with ⟨e, hres⟩ | ⟨_, _, enacted, s', -, -, -, -, -, hres⟩
      · rw [step_submitFinalityProof_of_error cfg hasher decode verifyJustification hres]
        exact hinit
      · rw [step_submitFinalityProof_of_ok cfg hasher decode verifyJustification hres]
        -- `insert_header` writes the new best finalized header
        simp
  | initializeCall initData =>
      rcases initializeCall_cases cfg hasher c.storage initData with ⟨e, hres⟩ | ⟨hnone, -, -⟩
      · rw [step_initializeCall_of_error cfg hasher decode verifyJustification hres]
        exact hinit
      · rw [hnone] at hinit
        cases hinit
  | setOperatingMode _ => exact hinit
  | onInitialize => exact hinit

/-- On an initialized pallet a call imports one header exactly when it is
    an accepted finality proof: `initialize` fails there. -/
theorem GrandpaChain.imported_length_step {c : GrandpaChain H A}
    (hinit : c.storage.bestFinalized.isSome) (call : Call H A J) :
    (GrandpaChain.step cfg hasher decode verifyJustification c call).imported.length =
      c.imported.length +
        if GrandpaChain.acceptsProof cfg hasher decode verifyJustification c call then 1 else 0 := by
  cases call with
  | submitFinalityProof header justification =>
      rcases submitFinalityProof_cases cfg hasher decode verifyJustification c.storage header
        justification with ⟨e, hres⟩ | ⟨_, _, enacted, s', -, -, -, -, -, hres⟩
      · rw [step_submitFinalityProof_of_error cfg hasher decode verifyJustification hres]
        simp [GrandpaChain.acceptsProof, hres, Except.isOk, Except.toBool]
      · rw [step_submitFinalityProof_of_ok cfg hasher decode verifyJustification hres]
        simp [GrandpaChain.acceptsProof, hres, Except.isOk, Except.toBool]
  | initializeCall initData =>
      rcases initializeCall_cases cfg hasher c.storage initData with ⟨e, hres⟩ | ⟨hnone, -, -⟩
      · rw [step_initializeCall_of_error cfg hasher decode verifyJustification hres]
        simp [GrandpaChain.acceptsProof]
      · rw [hnone] at hinit
        cases hinit
  | setOperatingMode _ => simp [GrandpaChain.step, GrandpaChain.acceptsProof]
  | onInitialize => simp [GrandpaChain.step, GrandpaChain.acceptsProof]

/-- Over a run of an initialized pallet, the headers imported are the
    accepted finality proofs. -/
theorem GrandpaChain.imported_length_run :
    ∀ (calls : List (Call H A J)) (c : GrandpaChain H A), c.storage.bestFinalized.isSome →
      (calls.foldl (GrandpaChain.step cfg hasher decode verifyJustification) c).imported.length =
        c.imported.length + admittedCount (GrandpaChain.step cfg hasher decode verifyJustification)
          (GrandpaChain.acceptsProof cfg hasher decode verifyJustification) c calls := by
  intro calls
  induction calls with
  | nil => intro c _; rfl
  | cons call calls ih =>
      intro c hinit
      rw [List.foldl_cons, ih _ (GrandpaChain.bestFinalized_isSome_step cfg hasher decode
        verifyJustification hinit call), GrandpaChain.imported_length_step cfg hasher decode
        verifyJustification hinit call, admittedCount_cons]
      omega

/-- **FINALITY PROOFS WITHIN THE REQUEST BUDGET.** From an initialized
    state within budget, any run keeps `RequestCount` within `MaxRequests`
    and imports at most the budget left and one header per
    `on_initialize`. -/
theorem finality_proofs_within_request_budget (c : GrandpaChain H A) (calls : List (Call H A J))
    (hinit : c.storage.bestFinalized.isSome) (hbudget : c.storage.requestCount ≤ cfg.maxRequests) :
    (calls.foldl (GrandpaChain.step cfg hasher decode verifyJustification) c).storage.requestCount ≤
        cfg.maxRequests ∧
      (calls.foldl (GrandpaChain.step cfg hasher decode verifyJustification) c).imported.length ≤
        c.imported.length + (cfg.maxRequests - c.storage.requestCount) +
          calls.countP Call.isOnInitialize := by
  have hbudgeted := GrandpaChain.budgeted cfg hasher decode verifyJustification
  refine ⟨hbudgeted.count_le calls hbudget, ?_⟩
  rw [GrandpaChain.imported_length_run cfg hasher decode verifyJustification calls c hinit]
  have hadmitted := hbudgeted.admittedCount_le calls hbudget
  omega

end Budget

theorem finality_proofs_within_request_budget_on_two_changes_run :
    (GrandpaChain.initialized smallConfig Header.number smallInitData).storage.bestFinalized.isSome ∧
      (GrandpaChain.initialized smallConfig Header.number smallInitData).storage.requestCount ≤
        smallConfig.maxRequests ∧
      (twoChangesRun.foldl (GrandpaChain.step smallConfig Header.number twoChangesDecode
          acceptJustification) (GrandpaChain.initialized smallConfig Header.number smallInitData)
        ).imported.length ≤ 1 + 10 + 1 :=
  ⟨rfl, by decide, (finality_proofs_within_request_budget smallConfig Header.number twoChangesDecode
    acceptJustification _ twoChangesRun rfl (by decide)).2⟩

end Grandpa

namespace Beefy

variable {Au Sig Pl H M X Pr : Type}

/-- `on_initialize`, the clock of the budget. -/
def Call.isOnInitialize : Call Au Sig Pl H M X Pr → Bool
  | .onInitialize => true
  | _ => false

section Budget

variable (cfg : BeefyConfig) [DecidableEq M] (crypto : BeefyCrypto Au Sig Pl H M X Pr)

/-- Whether the call is a commitment the pallet accepts. -/
def BeefyChain.acceptsCommitment (c : BeefyChain H M) : Call Au Sig Pl H M X Pr → Bool
  | .submitCommitment commitment validatorSet mmrLeaf mmrProof =>
      (submitCommitment cfg crypto c.storage commitment validatorSet mmrLeaf mmrProof).1.isOk
  | _ => false

omit [DecidableEq M] in
/-- `initialize` leaves `RequestCount` alone. -/
theorem initializeCall_requestCount (s : BeefyStorage H M) (initData : InitializationData M) :
    (initializeCall s initData).2.requestCount = s.requestCount := by
  unfold initializeCall initializePallet
  by_cases hinit : s.importedCommitmentsInfo.isSome
  · rw [if_pos hinit]
  · rw [if_neg hinit]
    by_cases hempty : initData.authoritySet.len = 0
    · rw [if_pos hempty]
    · rw [if_neg hempty]

/-- **THE BEEFY BUDGET.** `RequestCount` counts the accepted commitments,
    each under `MaxRequests`, and `on_initialize` takes it down. -/
theorem BeefyChain.budgeted :
    Budgeted (BeefyChain.step cfg crypto) (fun c => c.storage.requestCount)
      (BeefyChain.acceptsCommitment cfg crypto) Call.isOnInitialize cfg.maxRequests := by
  refine ⟨fun c call haccept => ?_, fun c call htick => ?_, fun c call hreject hnotick => ?_⟩
  · -- only an accepted commitment is admitted
    cases call with
    | submitCommitment commitment validatorSet mmrLeaf mmrProof =>
        rcases submitCommitment_cases cfg crypto c.storage commitment validatorSet mmrLeaf mmrProof
          with ⟨e, hres⟩ | ⟨commitmentsInfo, mmrRoot, s', -, hlt, -, -, -, -, -, -, hcount, -, hres⟩
        · simp [BeefyChain.acceptsCommitment, hres, Except.isOk, Except.toBool] at haccept
        · rw [step_submitCommitment_of_ok cfg crypto hres]
          refine ⟨hlt, ?_⟩
          show (importCommitment cfg s' _ _ _).requestCount = _
          rw [importCommitment_requestCount, hcount]
    | initializeCall _ => simp [BeefyChain.acceptsCommitment] at haccept
    | setOperatingMode _ => simp [BeefyChain.acceptsCommitment] at haccept
    | onInitialize => simp [BeefyChain.acceptsCommitment] at haccept
  · cases call with
    | onInitialize => exact ⟨rfl, rfl⟩
    | _ => simp [Call.isOnInitialize] at htick
  · -- every other call leaves `RequestCount` alone
    cases call with
    | submitCommitment commitment validatorSet mmrLeaf mmrProof =>
        rcases submitCommitment_cases cfg crypto c.storage commitment validatorSet mmrLeaf mmrProof
          with ⟨e, hres⟩ | ⟨commitmentsInfo, mmrRoot, s', -, -, -, -, -, -, -, -, -, -, hres⟩
        · rw [step_submitCommitment_of_error cfg crypto hres]
        · simp [BeefyChain.acceptsCommitment, hres, Except.isOk, Except.toBool] at hreject
    | initializeCall initData => exact initializeCall_requestCount c.storage initData
    | setOperatingMode _ => rfl
    | onInitialize => simp [Call.isOnInitialize] at hnotick

/-- A call imports one commitment exactly when the pallet accepts it. -/
theorem BeefyChain.imported_length_step (c : BeefyChain H M) (call : Call Au Sig Pl H M X Pr) :
    (BeefyChain.step cfg crypto c call).imported.length =
      c.imported.length + if BeefyChain.acceptsCommitment cfg crypto c call then 1 else 0 := by
  cases call with
  | submitCommitment commitment validatorSet mmrLeaf mmrProof =>
      rcases submitCommitment_cases cfg crypto c.storage commitment validatorSet mmrLeaf mmrProof
        with ⟨e, hres⟩ | ⟨commitmentsInfo, mmrRoot, s', -, -, -, -, hverify, -, -, -, -, -, hres⟩
      · rw [step_submitCommitment_of_error cfg crypto hres]
        simp [BeefyChain.acceptsCommitment, hres, Except.isOk, Except.toBool]
      · -- the accepted commitment's payload holds the MMR root it is imported with
        rw [step_submitCommitment_of_ok cfg crypto hres, importedEntry_of_verifyCommitment crypto
          hverify]
        simp [BeefyChain.acceptsCommitment, hres, Except.isOk, Except.toBool]
  | initializeCall _ => simp [BeefyChain.step, BeefyChain.acceptsCommitment]
  | setOperatingMode _ => simp [BeefyChain.step, BeefyChain.acceptsCommitment]
  | onInitialize => simp [BeefyChain.step, BeefyChain.acceptsCommitment]

/-- Over any run, the commitments imported are the accepted ones. -/
theorem BeefyChain.imported_length_run :
    ∀ (calls : List (Call Au Sig Pl H M X Pr)) (c : BeefyChain H M),
      (calls.foldl (BeefyChain.step cfg crypto) c).imported.length =
        c.imported.length + admittedCount (BeefyChain.step cfg crypto)
          (BeefyChain.acceptsCommitment cfg crypto) c calls := by
  intro calls
  induction calls with
  | nil => intro c; rfl
  | cons call calls ih =>
      intro c
      rw [List.foldl_cons, ih, BeefyChain.imported_length_step cfg crypto c call, admittedCount_cons]
      omega

/-- **COMMITMENTS WITHIN THE REQUEST BUDGET.** From a state within budget,
    any run keeps `RequestCount` within `MaxRequests` and imports at most
    the budget left and one commitment per `on_initialize`. -/
theorem commitments_within_request_budget (c : BeefyChain H M)
    (calls : List (Call Au Sig Pl H M X Pr)) (hbudget : c.storage.requestCount ≤ cfg.maxRequests) :
    (calls.foldl (BeefyChain.step cfg crypto) c).storage.requestCount ≤ cfg.maxRequests ∧
      (calls.foldl (BeefyChain.step cfg crypto) c).imported.length ≤
        c.imported.length + (cfg.maxRequests - c.storage.requestCount) +
          calls.countP Call.isOnInitialize := by
  have hbudgeted := BeefyChain.budgeted cfg crypto
  refine ⟨hbudgeted.count_le calls hbudget, ?_⟩
  rw [BeefyChain.imported_length_run cfg crypto calls c]
  have hadmitted := hbudgeted.admittedCount_le calls hbudget
  omega

end Budget

theorem commitments_within_request_budget_on_small_run :
    (BeefyChain.initialized smallInitData : BeefyChain ℕ ℕ).storage.requestCount ≤
        smallConfig.maxRequests ∧
      (smallRun.foldl (BeefyChain.step smallConfig smallCrypto)
        (BeefyChain.initialized smallInitData)).imported.length ≤
        (BeefyChain.initialized smallInitData : BeefyChain ℕ ℕ).imported.length +
          (smallConfig.maxRequests -
            (BeefyChain.initialized smallInitData : BeefyChain ℕ ℕ).storage.requestCount) +
          smallRun.countP Call.isOnInitialize :=
  ⟨by decide, (commitments_within_request_budget smallConfig smallCrypto
    (BeefyChain.initialized smallInitData) smallRun (by decide)).2⟩

end Beefy

end ParityBridge
