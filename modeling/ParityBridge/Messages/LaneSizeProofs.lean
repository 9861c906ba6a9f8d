import ParityBridge.Lib.Scale
import ParityBridge.Messages.Pallet

/-! # Encoded size of the inbound lane data — the size hint against the SCALE encoding

    `encoded_size_hint` counts a relayer entry as the largest relayer id and
    two nonces, and the data as its entries and the last confirmed nonce.
    The SCALE encoding of the relayer queue starts with the compact encoding
    of the queue's length, at least one byte, which the hint does not count.
    For relayer ids of a fixed width the encoding is longer than the hint by
    exactly that length prefix (`length_encode_eq_hint_add`), so
    `max_encoded_len` is below the encoding of a full queue, and
    `extra_proof_size_bytes` refunds the length prefix of the lane's queue on
    top of the proof size the lane leaves unused. -/

namespace ParityBridge

namespace InboundLaneData

variable {R : Type}

/-- Without overflow, the hint is the entries at `r + 16` bytes each and the
    eight bytes of the last confirmed nonce. -/
theorem encodedSizeHint_eq {usizeMax r k : ℕ} (hentry : r + 16 ≤ usizeMax)
    (hfit : k * (r + 16) + 8 ≤ usizeMax) :
    encodedSizeHint usizeMax r k = some (k * (r + 16) + 8) := by
  have hmul : k * (r + 16) ≤ usizeMax := by omega
  rw [encodedSizeHint, messageNonceMaxEncodedLen]
  simp only [checkedAdd, checkedMul, Nat.reduceMul, if_pos hentry]
  show (if k * (r + 16) ≤ usizeMax then some (k * (r + 16)) else none).bind _ = _
  rw [if_pos hmul]
  exact if_pos hfit

/-- With relayer ids of `r` bytes each, the encoding is the queue's length
    prefix, `r + 16` bytes per entry and the eight bytes of the last
    confirmed nonce. -/
theorem length_encode_of_width {encodeRelayer : R → List UInt8} {r : ℕ}
    (hwidth : ∀ relayer, (encodeRelayer relayer).length = r) (d : InboundLaneData R) :
    (encode encodeRelayer d).length =
      Scale.compactLength d.relayers.length + d.relayers.length * (r + 16) + 8 := by
  have hentry : ∀ entry : UnrewardedRelayer R, (encodeRelayer entry.relayer ++
      Scale.encodeFixed 8 entry.messages.begin ++ Scale.encodeFixed 8 entry.messages.«end»).length =
        r + 16 := by
    intro entry
    rw [List.length_append, List.length_append, hwidth, Scale.length_encodeFixed,
      Scale.length_encodeFixed]
  rw [encode, List.length_append, Scale.length_encodeSeq_of_width hentry,
    Scale.length_encodeFixed]

/-- **LENGTH PREFIX**: for relayer ids of a fixed width, the encoding is the
    hint plus the compact length of the queue, so it is longer than the
    hint. -/
theorem length_encode_eq_hint_add {usizeMax r : ℕ} {encodeRelayer : R → List UInt8}
    (hwidth : ∀ relayer, (encodeRelayer relayer).length = r) (d : InboundLaneData R)
    (hentry : r + 16 ≤ usizeMax) (hfit : d.relayers.length * (r + 16) + 8 ≤ usizeMax) :
    encodedSizeHint usizeMax r d.relayers.length =
        some ((encode encodeRelayer d).length - Scale.compactLength d.relayers.length) ∧
      d.relayers.length * (r + 16) + 8 < (encode encodeRelayer d).length := by
  rw [encodedSizeHint_eq hentry hfit, length_encode_of_width hwidth]
  have hprefix := Scale.one_le_compactLength d.relayers.length
  exact ⟨by congr 1; omega, by omega⟩

end InboundLaneData

variable {R : Type}

/-- `max_encoded_len` of a lane of at most `maxEntries` relayer entries,
    when the hint does not overflow. -/
theorem maxEncodedLen_eq {usizeMax r maxEntries : ℕ} (hentry : r + 16 ≤ usizeMax)
    (hfit : maxEntries * (r + 16) + 8 ≤ usizeMax) :
    StoredInboundLaneData.maxEncodedLen usizeMax r maxEntries = maxEntries * (r + 16) + 8 := by
  have hlt : maxEntries < usizeMax + 1 := by
    rcases Nat.eq_zero_or_pos maxEntries with h | h
    · omega
    · have : maxEntries * 1 ≤ maxEntries * (r + 16) := Nat.mul_le_mul_left _ (by omega)
      omega
  rw [StoredInboundLaneData.maxEncodedLen, Nat.mod_eq_of_lt hlt,
    InboundLaneData.encodedSizeHint_eq hentry hfit, Option.getD_some]

/-- **OVER-REFUND**: for relayer ids of a fixed width, the proof size that
    `extra_proof_size_bytes` refunds and the size of the lane's encoding add
    up to `max_encoded_len` plus the compact length of the lane's queue: the
    refund is larger than what the encoding leaves unused by that prefix. -/
theorem extraProofSizeBytes_add_length_encode {usizeMax r maxEntries : ℕ}
    {encodeRelayer : R → List UInt8} (hwidth : ∀ relayer, (encodeRelayer relayer).length = r)
    (d : InboundLaneData R) (hentry : r + 16 ≤ usizeMax)
    (hfit : maxEntries * (r + 16) + 8 ≤ usizeMax) (hfull : d.relayers.length ≤ maxEntries) :
    RuntimeInboundLaneStorage.extraProofSizeBytes usizeMax r maxEntries d +
        (InboundLaneData.encode encodeRelayer d).length =
      StoredInboundLaneData.maxEncodedLen usizeMax r maxEntries +
        Scale.compactLength d.relayers.length := by
  have hle : d.relayers.length * (r + 16) ≤ maxEntries * (r + 16) := Nat.mul_le_mul_right _ hfull
  rw [RuntimeInboundLaneStorage.extraProofSizeBytes,
    maxEncodedLen_eq hentry hfit, InboundLaneData.encodedSizeHint_eq hentry (by omega),
    Option.getD_some, InboundLaneData.length_encode_of_width hwidth]
  omega

/-- A full queue of sixteen relayers with `u64` ids, each of which delivered
    one message. -/
def sixteenRelayers : InboundLaneData ℕ :=
  ⟨(List.range 16).map fun i => ⟨i, ⟨i + 1, i + 1⟩⟩, 0⟩

theorem inbound_lane_size_hint_misses_length_prefix :
    sixteenRelayers.relayers.length ≤ 16 ∧
    (InboundLaneData.encode (Scale.encodeFixed 8) sixteenRelayers).length = 393 ∧
    StoredInboundLaneData.maxEncodedLen (2 ^ 32 - 1) 8 16 = 392 ∧
    RuntimeInboundLaneStorage.extraProofSizeBytes (2 ^ 32 - 1) 8 16
        (InboundLaneData.default : InboundLaneData ℕ) = 384 ∧
    StoredInboundLaneData.maxEncodedLen (2 ^ 32 - 1) 8 16 -
        (InboundLaneData.encode (Scale.encodeFixed 8) (InboundLaneData.default : InboundLaneData ℕ)).length =
      383 := by
  have hwidth : ∀ relayer, (Scale.encodeFixed 8 relayer).length = 8 := fun relayer =>
    Scale.length_encodeFixed 8 relayer
  have hmax : StoredInboundLaneData.maxEncodedLen (2 ^ 32 - 1) 8 16 = 392 :=
    @maxEncodedLen_eq (2 ^ 32 - 1) 8 16 (by decide) (by decide)
  have hempty := InboundLaneData.length_encode_of_width hwidth
    (InboundLaneData.default : InboundLaneData ℕ)
  refine ⟨by decide, ?_, hmax, ?_, ?_⟩
  · rw [InboundLaneData.length_encode_of_width hwidth]
    rfl
  · have hsum := @extraProofSizeBytes_add_length_encode ℕ (2 ^ 32 - 1) 8 16 _ hwidth
      InboundLaneData.default (by decide) (by decide) (Nat.zero_le _)
    rw [hmax, hempty] at hsum
    exact Nat.eq_sub_of_add_eq hsum
  · rw [hmax, hempty]
    rfl

end ParityBridge
