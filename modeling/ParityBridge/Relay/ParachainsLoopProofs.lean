import ParityBridge.Relay.ParachainsLoop
import ParityBridge.Parachains.PalletProofs

/-! # Parachains relay loop proofs — what the pallet makes of a required update

    `isUpdateRequired` and `SubmittedHeadsTracker.isHeadUpdated` are two
    decision tables over the heads at the source and at the target; the
    pallet's `submit_parachain_heads` is what is supposed to take the target
    from the first to the second.

    For an available head it does, when the pallet accepts the head: the
    target then reports the submitted head (`isHeadUpdated_of_updateEntry`).
    For an offboarded parachain it cannot.  The relay asks for an update
    whenever the target still holds a head of it, but the pallet skips a
    parachain whose head is absent from the storage proof
    (`headsLoop_of_absent`), so the target keeps its head, the tracker turns
    the finalized transaction into a lost one, and the loop ends
    (`missing_head_never_updated`). -/

namespace ParityBridge

namespace ParachainsLoop

open Parachains RingBuffer

variable {PH TB RB Pf : Type}

/-! ## The tracker -/

section Tracker

variable (tracker : SubmittedHeadsTracker PH) (poll : Option (TrackedTransactionStatus TB))
  (atTargetBlock : TB) (headAtTarget : Option (ℕ × PH))

/-- A head that is not updated never finalizes the tracker: it waits while
    the transaction is pending and reports it lost once it is final. -/
theorem update_of_not_isHeadUpdated (h : tracker.isHeadUpdated headAtTarget = false) :
    tracker.update poll atTargetBlock headAtTarget =
      match poll with
      | none => .waiting tracker
      | some _ => .final .lost := by
  rcases poll with _ | _ | _ <;>
    simp only [SubmittedHeadsTracker.update, h, Bool.false_eq_true, if_false]

/-- A pass whose tracker reports the transaction lost ends the loop with
    both clients. -/
theorem loopPass_of_lost {tracker : SubmittedHeadsTracker PH} {answers : ClientAnswers TB RB PH Pf}
    {bestTargetBlock : TB} {headAtTarget : Option (ℕ × PH)} (hsynced : answers.ensureSynced = some true)
    (hbest : answers.bestTargetBlock = some bestTargetBlock)
    (hhead : answers.headAtTarget = some headAtTarget)
    (hlost : tracker.update answers.poll bestTargetBlock headAtTarget = .final .lost) :
    loopPass (some tracker) answers = .error .both := by
  rw [loopPass, hsynced]
  dsimp only
  rw [hbest, hhead]
  dsimp only
  rw [hlost]

end Tracker

/-! ## The pallet on a proof without the head -/

section Absent

variable [DecidableEq PH] (cfg : ParachainsConfig ℕ PH) (storage : StorageProofChecker ℕ)
  (relayBlockNumber : ℕ)

/-- An entry whose head the proof does not hold is skipped. -/
theorem updateEntry_of_absent {s : ParachainsStorage ℕ PH} {entry : ℕ × PH}
    (h : storage.readParachainHead entry.1 = .ok none) :
    updateEntry cfg storage relayBlockNumber s entry = (none, s) := by
  obtain ⟨parachain, parachainHeadHash⟩ := entry
  rw [updateEntry, h]

/-- **FRAME**: the loop over entries whose heads the proof does not hold
    writes nothing. -/
theorem headsLoop_of_absent (parachains : List (ℕ × PH))
    (habsent : ∀ entry ∈ parachains, storage.readParachainHead entry.1 = .ok none)
    (s : ParachainsStorage ℕ PH) :
    headsLoop cfg storage relayBlockNumber parachains s = ([], s) := by
  induction parachains with
  | nil => rfl
  | cons entry rest ih =>
      have hentry := updateEntry_of_absent cfg storage relayBlockNumber
        (s := s) (habsent entry (List.mem_cons_self ..))
      rw [headsLoop, hentry, ih (fun e he => habsent e (List.mem_cons_of_mem _ he))]
      rfl

/-- A call whose storage proof holds none of its parachains' heads leaves
    the storage as it is, whether it fails or not. -/
theorem submitParachainHeads_of_absent {RH : Type}
    (relayHeaders : RH → Option (Grandpa.StoredHeaderData RH))
    (newChecker : RH → Pf → Except StorageProofError (StorageProofChecker ℕ))
    (s : ParachainsStorage ℕ PH) (atRelayBlock : ℕ × RH) (parachains : List (ℕ × PH))
    (parachainHeadsProof : Pf)
    (habsent : ∀ root storage, newChecker root parachainHeadsProof = .ok storage →
      ∀ entry ∈ parachains, storage.readParachainHead entry.1 = .ok none) :
    (submitParachainHeads cfg relayHeaders newChecker s atRelayBlock parachains
      parachainHeadsProof).2 = s := by
  rcases submitParachainHeads_cases cfg relayHeaders newChecker s atRelayBlock parachains
      parachainHeadsProof with ⟨e, hres⟩ | ⟨root, storage, hstorage, hres⟩
  · rw [hres]
  · rw [hres, headsLoop_of_absent cfg storage _ parachains (habsent root storage hstorage)]

end Absent

/-! ## What the target reports after an update -/

section Updated

variable [DecidableEq PH] {decode : ParaStoredHeaderData → Option ℕ}

/-- After the pallet pushes the head `hash` of `p` with data `d` into a
    ring slot that did not hold `hash`, the target reports the head with the
    number `d` decodes to. -/
theorem headAtTarget_pushHead {K : ℕ} {s : ParachainsStorage ℕ PH} {p n : ℕ} {hash : PH}
    {d : ParaStoredHeaderData} {number : ℕ}
    (hslot : s.importedParaHashes p (s.ring p).pointer ≠ some hash) (hdecode : decode d = some number) :
    headAtTarget decode (s.pushHead K p n hash d) p = some (number, hash) := by
  have hstored : (s.pushHead K p n hash d).importedParaHeads p hash = some d := by
    show ((s.pushHead K p n hash d).ring p).store hash = some d
    rw [ring_pushHead_self, push_store_self]
    exact if_neg hslot
  rw [headAtTarget, bestParachainHeadId, parasInfo_pushHead_self]
  dsimp only
  rw [hstored]
  dsimp only
  rw [hdecode]

variable (cfg : ParachainsConfig ℕ PH)

/-- **AVAILABLE HEAD UPDATED**: when the pallet accepts the head `hash` of
    `p` into a ring slot that did not hold `hash`, and its stored data
    decodes to a number at least that of the submitted head, the tracker of
    the submitted head finds it updated. -/
theorem isHeadUpdated_of_updateEntry {storage : StorageProofChecker ℕ} {n : ℕ}
    {s s' : ParachainsStorage ℕ PH} {p : ℕ} {hash : PH} {d : ParaStoredHeaderData} {number : ℕ}
    (hupd : updateEntry cfg storage n s (p, hash) = (some (p, hash, d), s'))
    (hslot : s.importedParaHashes p (s.ring p).pointer ≠ some hash) (hdecode : decode d = some number)
    {submitted : ℕ × PH} (hle : submitted.1 ≤ number) :
    (⟨.available submitted⟩ : SubmittedHeadsTracker PH).isHeadUpdated (headAtTarget decode s' p) =
      true := by
  rcases updateEntry_cases cfg storage n s (p, hash) with hnone | ⟨d', -, hsome⟩
  · rw [hnone] at hupd
    exact nomatch hupd
  rw [hsome, Prod.mk.injEq] at hupd
  obtain ⟨hd, rfl⟩ := hupd
  have hdd : d' = d := by
    simp only [Option.some.injEq, Prod.mk.injEq] at hd
    exact hd.2.2
  subst hdd
  rw [headAtTarget_pushHead hslot hdecode]
  exact decide_eq_true hle

end Updated

/-! ## An offboarded parachain -/

section Offboarded

variable [DecidableEq PH]

/-- **OFFBOARDED PARACHAIN**: when the target holds a head of a parachain
    the source reports missing, the relay requires an update; but a call
    whose storage proof does not hold the parachain's head leaves the
    target's head as it was, and the tracker of the missing head reports
    the final transaction lost. -/
theorem missing_head_never_updated {RH : Type} (cfg : ParachainsConfig ℕ PH)
    (relayHeaders : RH → Option (Grandpa.StoredHeaderData RH))
    (newChecker : RH → Pf → Except StorageProofError (StorageProofChecker ℕ))
    (decode : ParaStoredHeaderData → Option ℕ) (s : ParachainsStorage ℕ PH) (atRelayBlock : ℕ × RH)
    (parachain : ℕ) (headHash : PH) (parachainHeadsProof : Pf) {t : ℕ × PH}
    (ht : headAtTarget decode s parachain = some t)
    (habsent : ∀ root storage, newChecker root parachainHeadsProof = .ok storage →
      storage.readParachainHead parachain = .ok none)
    (status : TrackedTransactionStatus TB) (atTargetBlock : TB) :
    isUpdateRequired .missing (headAtTarget decode s parachain) = true ∧
    headAtTarget decode (submitParachainHeads cfg relayHeaders newChecker s atRelayBlock
      [(parachain, headHash)] parachainHeadsProof).2 parachain = some t ∧
    (⟨.missing⟩ : SubmittedHeadsTracker PH).update (some status) atTargetBlock
      (headAtTarget decode (submitParachainHeads cfg relayHeaders newChecker s atRelayBlock
        [(parachain, headHash)] parachainHeadsProof).2 parachain) = .final .lost := by
  have hsame := submitParachainHeads_of_absent cfg relayHeaders newChecker s atRelayBlock
    [(parachain, headHash)] parachainHeadsProof (fun root storage hstorage entry hentry => by
      rw [List.mem_singleton] at hentry
      rw [hentry]
      exact habsent root storage hstorage)
  rw [hsame, ht]
  exact ⟨rfl, rfl, update_of_not_isHeadUpdated _ _ _ _ rfl⟩

/-- The first byte of a head's stored data, as its number. -/
def firstByteNumber (d : ParaStoredHeaderData) : Option ℕ := some (d.data.headD 0).toNat

/-- The pallet after the head `[1]` of parachain `0`, with hash `1`, was
    imported at relay block `1`. -/
def offboardedStorage : ParachainsStorage ℕ ℕ :=
  (ParachainsChain.step twoHeadsConfig listedHeadsChecker (ParachainsChain.genesis .normal)
    (relayBlocksImported, .submitParachainHeads (1, 1) [(0, 1)] [(0, [1])])).storage

/-- A pass over the given pallet storage: the target's head read from it,
    the tracked transaction finalized at target block `3`, and parachain
    `0` missing at the source at relay block `2`. -/
def answersAfter (s : ParachainsStorage ℕ ℕ) : ClientAnswers ℕ (ℕ × ℕ) ℕ (List (ℕ × ParaHead)) :=
  ⟨some true, some 3, some (headAtTarget firstByteNumber s 0), some (.finalized 3), some (2, 2),
    some .missing, none, true⟩

theorem offboarded_parachain_update_lost :
    isUpdateRequired .missing (headAtTarget firstByteNumber offboardedStorage 0) = true ∧
    (submitParachainHeads twoHeadsConfig relayBlocksImported listedHeadsChecker offboardedStorage
      (2, 2) [(0, 1)] []).1 = .ok [] ∧
    headAtTarget firstByteNumber (submitParachainHeads twoHeadsConfig relayBlocksImported
      listedHeadsChecker offboardedStorage (2, 2) [(0, 1)] []).2 0 = some (1, 1) ∧
    loopPass (some ⟨.missing⟩) (answersAfter (submitParachainHeads twoHeadsConfig
      relayBlocksImported listedHeadsChecker offboardedStorage (2, 2) [(0, 1)] []).2) =
        .error .both := by
  have hhead : headAtTarget firstByteNumber offboardedStorage 0 = some (1, 1) := rfl
  obtain ⟨hreq, hkept, hlost⟩ := missing_head_never_updated twoHeadsConfig relayBlocksImported
    listedHeadsChecker firstByteNumber offboardedStorage (2, 2) 0 1 [] hhead
    (fun _ _ hstorage => by
      cases hstorage
      rfl)
    (.finalized 3) 3
  exact ⟨hreq, rfl, hkept, loopPass_of_lost rfl rfl rfl hlost⟩

end Offboarded

end ParachainsLoop

end ParityBridge
