import ParityBridge.Messages.RuntimeCommon

/-! # Messages proofs — `verify_messages_proof` returns exactly the proved messages

    Read through a checker that records its reads, `verify_messages_proof`
    accepts a proof exactly when the declared count matches a non-inverted
    nonce range, every nonce of the range has a message in the proof that
    decodes, the outbound lane state decodes if the proof holds one, the
    proof holds at least a message or the lane state, and every pair of the
    proof is one the verifier reads.  It then returns the proof's lane with
    the messages of the range in nonce order and the lane state.  No
    injectivity of the storage keys is needed: the statement speaks of the
    keys the verifier reads, not of the nonces they encode.

    The messages pallet and the obsolete-transaction filter are modelled
    over an opened proof (`MessagesStorageProof`) that answers reads with
    decoded values; read through the checker, `verify_messages_proof` is
    that verifier on the values the proof holds
    (`verify_messages_proof_refines_abstract`). -/

namespace ParityBridge

namespace RuntimeCommon

namespace Target

open StorageProof

variable {K H S : Type} [DecidableEq K]

/-- The message a proved storage holds for `nonce` of `lane`: the value
    under its key, decoded. -/
def provedMessage (keys : MessagesStorageKeys K) (decodePayload : List UInt8 → Option MessagePayload)
    (storage : AList fun _ : K => List UInt8) (lane : LaneId) (nonce : ℕ) : Option Message :=
  ((storage.lookup (keys.messageKey lane nonce)).bind decodePayload).map fun payload =>
    ⟨⟨lane, nonce⟩, payload⟩

/-- **MESSAGE LOOP**: the loop succeeds exactly when every nonce has a
    proved message, returns them in nonce order, and records the nonces'
    keys. -/
theorem readMessages_toOption (keys : MessagesStorageKeys K)
    (decodePayload : List UInt8 → Option MessagePayload) (lane : LaneId) :
    ∀ (nonces : List ℕ) (storage : StorageProofChecker K (List UInt8)),
      (readMessages keys decodePayload lane nonces storage).toOption =
        (nonces.mapM (provedMessage keys decodePayload storage.storage lane)).map fun messages =>
          (messages, ⟨storage.storage, (nonces.map (keys.messageKey lane)).reverse ++ storage.recorded⟩)
  | [], storage => by simp [readMessages, Except.toOption]
  | nonce :: rest, storage => by
      have ih := readMessages_toOption keys decodePayload lane rest
        ⟨storage.storage, keys.messageKey lane nonce :: storage.recorded⟩
      simp only [readMessages, readRawMessage_fst, readRawMessage_snd, List.mapM_cons]
      cases hlookup : storage.storage.lookup (keys.messageKey lane nonce) with
      | none =>
          -- the message is missing from the proof
          simp [provedMessage, hlookup, Except.toOption]
      | some raw =>
          cases hdecode : decodePayload raw with
          | none => simp [provedMessage, hlookup, hdecode, Except.toOption]
          | some payload =>
              simp only [provedMessage, hlookup, hdecode, Option.bind_some, Option.map_some]
              -- the rest of the loop runs on the checker that recorded this read
              cases hrest : readMessages keys decodePayload lane rest
                  ⟨storage.storage, keys.messageKey lane nonce :: storage.recorded⟩ with
              | error e =>
                  rw [hrest] at ih
                  cases hmap : rest.mapM (provedMessage keys decodePayload storage.storage lane) with
                  | none => simp [Except.map, Except.toOption]
                  | some messages => simp [hmap, Except.toOption] at ih
              | ok done =>
                  rw [hrest] at ih
                  cases hmap : rest.mapM (provedMessage keys decodePayload storage.storage lane) with
                  | none => simp [hmap, Except.toOption] at ih
                  | some messages =>
                      simp only [hmap, Except.toOption, Option.map_some, Option.some.injEq] at ih
                      simp [Except.map, Except.toOption, ih]

/-- The proved messages of a range carry the keys of its nonces, in the
    range's order. -/
theorem map_key_of_mapM_provedMessage {keys : MessagesStorageKeys K}
    {decodePayload : List UInt8 → Option MessagePayload} {storage : AList fun _ : K => List UInt8}
    {lane : LaneId} :
    ∀ {nonces : List ℕ} {messages : List Message},
      nonces.mapM (provedMessage keys decodePayload storage lane) = some messages →
        messages.map (·.key) = nonces.map fun nonce => ⟨lane, nonce⟩
  | [], messages, h => by
      rw [List.mapM_nil, Option.pure_def, Option.some.injEq] at h
      rw [← h]
      rfl
  | nonce :: rest, messages, h => by
      rw [List.mapM_cons] at h
      cases hmessage : provedMessage keys decodePayload storage lane nonce with
      | none => simp [hmessage] at h
      | some message =>
          cases hrest : rest.mapM (provedMessage keys decodePayload storage lane) with
          | none => simp [hmessage, hrest] at h
          | some restMessages =>
              simp only [hmessage, hrest, Option.bind_eq_bind, Option.bind_some, Option.pure_def,
                Option.some.injEq] at h
              -- the message read for `nonce` is keyed by `nonce`
              have hkey : message.key = ⟨lane, nonce⟩ := by
                simp only [provedMessage, Option.map_eq_some_iff] at hmessage
                obtain ⟨payload, -, rfl⟩ := hmessage
                rfl
              rw [← h, List.map_cons, List.map_cons, hkey, map_key_of_mapM_provedMessage hrest]

omit [DecidableEq K] in
/-- The keys read once the lane state is read: the lane's outbound lane
    data key, and the message keys of the range's nonces. -/
theorem mem_recorded_iff (keys : MessagesStorageKeys K) (lane : LaneId) (noncesStart noncesEnd : ℕ)
    (key : K) :
    key ∈ keys.outboundLaneDataKey lane ::
        (((List.range' noncesStart (noncesEnd + 1 - noncesStart)).map
          (keys.messageKey lane)).reverse ++ []) ↔
      (∃ nonce, noncesStart ≤ nonce ∧ nonce ≤ noncesEnd ∧ key = keys.messageKey lane nonce) ∨
        key = keys.outboundLaneDataKey lane := by
  simp only [List.mem_cons, List.append_nil, List.mem_reverse, List.mem_map, List.mem_range'_1]
  constructor
  · rintro (h | ⟨nonce, ⟨hs, he⟩, rfl⟩)
    · exact .inr h
    · exact .inl ⟨nonce, hs, by omega, rfl⟩
  · rintro (⟨nonce, hs, he, rfl⟩ | h)
    · exact .inr (.intro nonce ⟨⟨hs, by omega⟩, rfl⟩)
    · exact .inl h

/-- **THE CLOSURE**: on a freshly opened proof, the closure of
    `verify_messages_proof` accepts exactly the proofs whose count matches,
    whose claimed messages are all proved, whose lane state decodes if
    present, which are not empty and whose pairs are all read; it returns
    the lane with those messages and the lane state. -/
theorem verifyProvedStorage_eq_ok_iff (keys : MessagesStorageKeys K)
    (decodePayload : List UInt8 → Option MessagePayload)
    (decodeOutboundLaneData : List UInt8 → Option OutboundLaneData)
    (storage : AList fun _ : K => List UInt8) (lane : LaneId) (noncesStart noncesEnd messagesCount : ℕ)
    (m : List (LaneId × ProvedLaneMessages Message)) :
    verifyProvedStorage keys decodePayload decodeOutboundLaneData (StorageProofChecker.new storage)
        lane noncesStart noncesEnd messagesCount = .ok m ↔
      (noncesEnd < noncesStart ∨ noncesEnd - noncesStart + 1 = messagesCount) ∧
        ∃ messages, (List.range' noncesStart (noncesEnd + 1 - noncesStart)).mapM
              (provedMessage keys decodePayload storage lane) = some messages ∧
          (∀ raw, storage.lookup (keys.outboundLaneDataKey lane) = some raw →
            (decodeOutboundLaneData raw).isSome) ∧
          (messages ≠ [] ∨ (storage.lookup (keys.outboundLaneDataKey lane)).isSome) ∧
          (∀ key ∈ storage.keys, (∃ nonce, noncesStart ≤ nonce ∧ nonce ≤ noncesEnd ∧
              key = keys.messageKey lane nonce) ∨ key = keys.outboundLaneDataKey lane) ∧
          m = [(lane, ⟨(storage.lookup (keys.outboundLaneDataKey lane)).bind decodeOutboundLaneData,
            messages⟩)] := by
  rw [verifyProvedStorage]
  by_cases hcount : noncesStart ≤ noncesEnd ∧ noncesEnd - noncesStart + 1 ≠ messagesCount
  · -- the declared count does not match the range
    rw [if_pos hcount]
    refine ⟨fun h => (nomatch h), ?_⟩
    rintro ⟨hc, -⟩
    omega
  rw [if_neg hcount]
  have hc : noncesEnd < noncesStart ∨ noncesEnd - noncesStart + 1 = messagesCount := by omega
  have hloop := readMessages_toOption keys decodePayload lane
    (List.range' noncesStart (noncesEnd + 1 - noncesStart)) (StorageProofChecker.new storage)
  cases hmap : (List.range' noncesStart (noncesEnd + 1 - noncesStart)).mapM
      (provedMessage keys decodePayload storage lane) with
  | none =>
      -- a claimed message is missing from the proof or does not decode
      cases hread : readMessages keys decodePayload lane
          (List.range' noncesStart (noncesEnd + 1 - noncesStart)) (StorageProofChecker.new storage) with
      | error e =>
          refine ⟨fun h => (nomatch h), ?_⟩
          rintro ⟨-, messages, hmessages, -⟩
          cases hmessages
      | ok read =>
          rw [hread] at hloop
          simp [StorageProofChecker.new, hmap, Except.toOption] at hloop
  | some messages =>
      cases hread : readMessages keys decodePayload lane
          (List.range' noncesStart (noncesEnd + 1 - noncesStart)) (StorageProofChecker.new storage) with
      | error e =>
          rw [hread] at hloop
          simp [StorageProofChecker.new, hmap, Except.toOption] at hloop
      | ok read =>
          rw [hread] at hloop
          simp only [StorageProofChecker.new, hmap, Except.toOption, Option.map_some,
            Option.some.injEq] at hloop
          subst hloop
          simp only [readRawOutboundLaneData_fst, readRawOutboundLaneData_snd, hc, true_and,
            Option.some.injEq, exists_eq_left']
          have hensure := StorageProofChecker.ensureNoUnusedNodes_eq_ok_iff
            (⟨storage, keys.outboundLaneDataKey lane :: (((List.range' noncesStart
              (noncesEnd + 1 - noncesStart)).map (keys.messageKey lane)).reverse ++ [])⟩ :
              StorageProofChecker K (List UInt8))
          simp only [mem_recorded_iff] at hensure
          cases hlane : storage.lookup (keys.outboundLaneDataKey lane) with
          | none =>
              -- a proof without the lane state must hold a message
              dsimp only
              by_cases hempty : messages = []
              · rw [if_pos ⟨rfl, hempty⟩]
                refine ⟨fun h => (nomatch h), ?_⟩
                rintro ⟨-, hne | hsome, -⟩
                · exact absurd hempty hne
                · cases hsome
              rw [if_neg fun h => hempty h.2]
              split
              · rename_i herror
                refine ⟨fun h => (nomatch h), ?_⟩
                rintro ⟨-, -, hall, -⟩
                rw [hensure.mpr hall] at herror
                cases herror
              · rename_i hok
                refine ⟨fun h => ?_, ?_⟩
                · cases h
                  exact ⟨fun _ h => (nomatch h), .inl hempty, hensure.mp hok, rfl⟩
                · rintro ⟨-, -, -, rfl⟩
                  rfl
          | some raw =>
              dsimp only
              cases hdecode : decodeOutboundLaneData raw with
              | none =>
                  -- the lane state is in the proof but does not decode
                  refine ⟨fun h => (nomatch h), ?_⟩
                  rintro ⟨hdec, -⟩
                  have := hdec raw rfl
                  rw [hdecode] at this
                  cases this
              | some laneState =>
                  dsimp only
                  rw [if_neg fun h => by cases h.1]
                  split
                  · rename_i herror
                    refine ⟨fun h => (nomatch h), ?_⟩
                    rintro ⟨-, -, hall, -⟩
                    rw [hensure.mpr hall] at herror
                    cases herror
                  · rename_i hok
                    refine ⟨fun h => ?_, ?_⟩
                    · cases h
                      refine ⟨fun raw' h => ?_, .inr rfl, hensure.mp hok, by rw [Option.bind_some, hdecode]⟩
                      cases h
                      rw [hdecode]
                      rfl
                    · rintro ⟨-, -, -, rfl⟩
                      rw [Option.bind_some, hdecode]

/-- **PROVED MESSAGES**: `verify_messages_proof` accepts a proof exactly
    when the header chain opens its storage proof, the declared count
    matches a non-inverted nonce range, every nonce of the range has a
    message in the proof that decodes, the outbound lane state decodes if
    the proof holds one, the proof holds a message or the lane state, and
    every pair of the proof is one the verifier reads.  It then returns the
    proof's lane alone, with the messages of the range in nonce order, keyed
    by the lane and their nonce, and the decoded lane state. -/
theorem verify_messages_proof_returns_proved_messages (keys : MessagesStorageKeys K)
    (decodePayload : List UInt8 → Option MessagePayload)
    (decodeOutboundLaneData : List UInt8 → Option OutboundLaneData)
    (parseFinalizedStorageProof : H → S → Except String (AList fun _ : K => List UInt8))
    (proof : FromBridgedChainMessagesProof H S) (messagesCount : ℕ)
    (m : List (LaneId × ProvedLaneMessages Message)) :
    verifyMessagesProof keys decodePayload decodeOutboundLaneData parseFinalizedStorageProof proof
        messagesCount = .ok m ↔
      ∃ storage, parseFinalizedStorageProof proof.bridgedHeaderHash proof.storageProof = .ok storage ∧
        (proof.noncesEnd < proof.noncesStart ∨
          proof.noncesEnd - proof.noncesStart + 1 = messagesCount) ∧
        ∃ messages, (List.range' proof.noncesStart (proof.noncesEnd + 1 - proof.noncesStart)).mapM
              (provedMessage keys decodePayload storage proof.lane) = some messages ∧
          messages.map (·.key) =
            (List.range' proof.noncesStart (proof.noncesEnd + 1 - proof.noncesStart)).map
              (fun nonce => ⟨proof.lane, nonce⟩) ∧
          (∀ raw, storage.lookup (keys.outboundLaneDataKey proof.lane) = some raw →
            (decodeOutboundLaneData raw).isSome) ∧
          (messages ≠ [] ∨ (storage.lookup (keys.outboundLaneDataKey proof.lane)).isSome) ∧
          (∀ key ∈ storage.keys, (∃ nonce, proof.noncesStart ≤ nonce ∧ nonce ≤ proof.noncesEnd ∧
              key = keys.messageKey proof.lane nonce) ∨ key = keys.outboundLaneDataKey proof.lane) ∧
          m = [(proof.lane, ⟨(storage.lookup (keys.outboundLaneDataKey proof.lane)).bind
            decodeOutboundLaneData, messages⟩)] := by
  rw [verifyMessagesProof]
  cases hparse : parseFinalizedStorageProof proof.bridgedHeaderHash proof.storageProof with
  | error e =>
      -- the header chain rejects the storage proof
      refine ⟨fun h => (nomatch h), ?_⟩
      rintro ⟨storage, hstorage, -⟩
      cases hstorage
  | ok storage =>
      dsimp only
      rw [verifyProvedStorage_eq_ok_iff]
      constructor
      · rintro ⟨hcount, messages, hmessages, hrest⟩
        exact ⟨storage, rfl, hcount, messages, hmessages, map_key_of_mapM_provedMessage hmessages,
          hrest⟩
      · rintro ⟨storage', hstorage, hcount, messages, hmessages, -, hrest⟩
        cases hstorage
        exact ⟨hcount, messages, hmessages, hrest⟩

/-! ## The pallet's verifier is this one -/

/-- The opened proof the pallet's verifier reads (`MessagesStorageProof`),
    for a proof of `lane` and the nonces `noncesStart ..= noncesEnd`: the
    decoded values under the proved keys, and whether the reads of the
    verifier leave no pair of the proof unread. -/
def messagesStorageProofOf {R : Type} (keys : MessagesStorageKeys K)
    (decodePayload : List UInt8 → Option MessagePayload)
    (decodeOutboundLaneData : List UInt8 → Option OutboundLaneData) (lane : LaneId)
    (noncesStart noncesEnd : ℕ) (storage : AList fun _ : K => List UInt8) : MessagesStorageProof R where
  readMessage key := (storage.lookup (keys.messageKey key.laneId key.nonce)).map decodePayload
  readOutboundLaneData laneId := (storage.lookup (keys.outboundLaneDataKey laneId)).map
    decodeOutboundLaneData
  readInboundLaneData _ := .ok none
  noUnusedNodes := (StorageProofChecker.ensureNoUnusedNodes
    (⟨storage, keys.outboundLaneDataKey lane ::
      (((List.range' noncesStart (noncesEnd + 1 - noncesStart)).map (keys.messageKey lane)).reverse ++
        [])⟩ : StorageProofChecker K (List UInt8))).toBool

/-- The message loop read through the checker is the pallet's message loop
    on the decoded proof. -/
theorem readMessages_map_fst {R : Type} (keys : MessagesStorageKeys K)
    (decodePayload : List UInt8 → Option MessagePayload)
    (decodeOutboundLaneData : List UInt8 → Option OutboundLaneData) (lane : LaneId)
    (noncesStart noncesEnd : ℕ) (storage : AList fun _ : K => List UInt8) :
    ∀ (nonces : List ℕ) (recorded : List K),
      (readMessages keys decodePayload lane nonces ⟨storage, recorded⟩).map Prod.fst =
        RuntimeCommon.readMessages (messagesStorageProofOf (R := R) keys decodePayload
          decodeOutboundLaneData lane noncesStart noncesEnd storage) lane nonces
  | [], recorded => rfl
  | nonce :: rest, recorded => by
      have ih := readMessages_map_fst (R := R) keys decodePayload decodeOutboundLaneData lane
        noncesStart noncesEnd storage rest (keys.messageKey lane nonce :: recorded)
      have hmessage : (messagesStorageProofOf (R := R) keys decodePayload decodeOutboundLaneData lane
          noncesStart noncesEnd storage).readMessage ⟨lane, nonce⟩ =
            (storage.lookup (keys.messageKey lane nonce)).map decodePayload := rfl
      simp only [readMessages, readRawMessage_fst, readRawMessage_snd, RuntimeCommon.readMessages,
        hmessage]
      cases hlookup : storage.lookup (keys.messageKey lane nonce) with
      | none => rfl
      | some raw =>
          rw [Option.map_some]
          dsimp only
          cases hdecode : decodePayload raw with
          | none => rfl
          | some payload =>
              dsimp only
              rw [← ih]
              cases readMessages keys decodePayload lane rest
                ⟨storage, keys.messageKey lane nonce :: recorded⟩ <;> rfl

/-- **REFINEMENT**: `verify_messages_proof` read through the recording
    checker answers exactly what the verifier over an opened proof, which
    the messages pallet and the obsolete-transaction filter are modelled
    with, answers on the proof's decoded values. -/
theorem verify_messages_proof_refines_abstract {R : Type} (keys : MessagesStorageKeys K)
    (decodePayload : List UInt8 → Option MessagePayload)
    (decodeOutboundLaneData : List UInt8 → Option OutboundLaneData)
    (parseFinalizedStorageProof : H → S → Except String (AList fun _ : K => List UInt8))
    (proof : FromBridgedChainMessagesProof H S) (messagesCount : ℕ) :
    verifyMessagesProof keys decodePayload decodeOutboundLaneData parseFinalizedStorageProof proof
        messagesCount =
      RuntimeCommon.verifyMessagesProof (fun hash storageProof =>
        (parseFinalizedStorageProof hash storageProof).map (messagesStorageProofOf (R := R) keys
          decodePayload decodeOutboundLaneData proof.lane proof.noncesStart proof.noncesEnd))
        proof messagesCount := by
  rw [verifyMessagesProof, RuntimeCommon.verifyMessagesProof]
  cases hparse : parseFinalizedStorageProof proof.bridgedHeaderHash proof.storageProof with
  | error e => rfl
  | ok storage =>
      dsimp only [Except.map]
      have hnew : StorageProofChecker.new storage = ⟨storage, []⟩ := rfl
      rw [verifyProvedStorage, hnew]
      by_cases hcount : proof.noncesStart ≤ proof.noncesEnd ∧
          proof.noncesEnd - proof.noncesStart + 1 ≠ messagesCount
      · rw [if_pos hcount, if_pos hcount]
      rw [if_neg hcount, if_neg hcount, ← readMessages_map_fst (R := R) keys decodePayload
        decodeOutboundLaneData proof.lane proof.noncesStart proof.noncesEnd storage _ []]
      have hloop := readMessages_toOption keys decodePayload proof.lane
        (List.range' proof.noncesStart (proof.noncesEnd + 1 - proof.noncesStart)) ⟨storage, []⟩
      cases hread : readMessages keys decodePayload proof.lane
          (List.range' proof.noncesStart (proof.noncesEnd + 1 - proof.noncesStart))
          ⟨storage, []⟩ with
      | error e => rfl
      | ok read =>
          -- the loop leaves the message keys recorded
          rw [hread] at hloop
          obtain ⟨messages, checker⟩ := read
          simp only [Except.toOption] at hloop
          have hchecker : checker = ⟨storage, ((List.range' proof.noncesStart
              (proof.noncesEnd + 1 - proof.noncesStart)).map (keys.messageKey proof.lane)).reverse ++
                []⟩ := by
            cases hmap : (List.range' proof.noncesStart
                (proof.noncesEnd + 1 - proof.noncesStart)).mapM
                (provedMessage keys decodePayload storage proof.lane) with
            | none => simp [hmap] at hloop
            | some messages' =>
                simp only [hmap, Option.map_some, Option.some.injEq, Prod.mk.injEq] at hloop
                exact hloop.2
          subst hchecker
          have hlane : (messagesStorageProofOf (R := R) keys decodePayload decodeOutboundLaneData
              proof.lane proof.noncesStart proof.noncesEnd storage).readOutboundLaneData proof.lane =
                (storage.lookup (keys.outboundLaneDataKey proof.lane)).map decodeOutboundLaneData := rfl
          simp only [Except.map, readRawOutboundLaneData_fst, readRawOutboundLaneData_snd, hlane]
          -- the abstract flag is the checker's own verdict on the keys both sides read
          have hunused : (messagesStorageProofOf (R := R) keys decodePayload decodeOutboundLaneData
              proof.lane proof.noncesStart proof.noncesEnd storage).noUnusedNodes =
                (StorageProofChecker.ensureNoUnusedNodes (⟨storage,
                  keys.outboundLaneDataKey proof.lane :: (((List.range' proof.noncesStart
                    (proof.noncesEnd + 1 - proof.noncesStart)).map
                      (keys.messageKey proof.lane)).reverse ++ [])⟩ :
                        StorageProofChecker K (List UInt8))).toBool := rfl
          rw [hunused]
          generalize StorageProofChecker.ensureNoUnusedNodes (K := K) (V := List UInt8) _ = ensure
          cases storage.lookup (keys.outboundLaneDataKey proof.lane) with
          | none => cases ensure <;> rfl
          | some raw =>
              rw [Option.map_some]
              dsimp only
              cases decodeOutboundLaneData raw <;> cases ensure <;> rfl

end Target

end RuntimeCommon

end ParityBridge
