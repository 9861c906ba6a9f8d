import Mathlib.Data.Nat.Log
import Mathlib.Algebra.BigOperators.Group.List.Basic
import Mathlib.Algebra.Ring.Nat

/-! # SCALE encodings — fixed-width integers, compact integers, sequences

    The encodings of the SCALE codec that the size of a stored value depends
    on: a fixed-width unsigned integer is its little-endian bytes, a compact
    integer is one, two or four bytes carrying its mode in the low two bits,
    or a mode byte followed by the integer's bytes, and a sequence is the
    compact encoding of its length followed by its items.  Only lengths
    matter to the results here; the byte values are given as the codec
    writes them. -/

namespace Scale

/-- The `width` little-endian bytes of `value`. -/
def encodeFixed (width value : ℕ) : List UInt8 :=
  (List.range width).map fun i => UInt8.ofNat (value / 256 ^ i)

@[simp] theorem length_encodeFixed (width value : ℕ) : (encodeFixed width value).length = width := by
  simp [encodeFixed]

/-- The bytes the big-integer mode writes after its mode byte: at least four,
    and as many as the integer's highest non-zero byte needs. -/
def bytesNeeded (n : ℕ) : ℕ :=
  max 4 (Nat.log 256 n + 1)

/-- The compact encoding of `n`: single-byte mode below `2^6`, two-byte mode
    below `2^14`, four-byte mode below `2^30`, big-integer mode above. -/
def encodeCompact (n : ℕ) : List UInt8 :=
  if n < 2 ^ 6 then [UInt8.ofNat (n * 4)]
  else if n < 2 ^ 14 then encodeFixed 2 (n * 4 + 1)
  else if n < 2 ^ 30 then encodeFixed 4 (n * 4 + 2)
  else UInt8.ofNat ((bytesNeeded n - 4) * 4 + 3) :: encodeFixed (bytesNeeded n) n

/-- The length of the compact encoding of `n`. -/
def compactLength (n : ℕ) : ℕ :=
  if n < 2 ^ 6 then 1
  else if n < 2 ^ 14 then 2
  else if n < 2 ^ 30 then 4
  else bytesNeeded n + 1

@[simp] theorem length_encodeCompact (n : ℕ) : (encodeCompact n).length = compactLength n := by
  rw [encodeCompact, compactLength]
  split_ifs <;> simp

/-- A compact encoding is never empty. -/
theorem one_le_compactLength (n : ℕ) : 1 ≤ compactLength n := by
  rw [compactLength]
  split_ifs <;> omega

/-- A larger integer never has a shorter compact encoding. -/
theorem compactLength_mono {a b : ℕ} (h : a ≤ b) : compactLength a ≤ compactLength b := by
  have hlog : Nat.log 256 a ≤ Nat.log 256 b := Nat.log_mono_right h
  unfold compactLength bytesNeeded
  split_ifs <;> omega

/-- A sequence: the compact encoding of its length, then its items. -/
def encodeSeq {α : Type} (encodeItem : α → List UInt8) (items : List α) : List UInt8 :=
  encodeCompact items.length ++ items.flatMap encodeItem

theorem length_encodeSeq {α : Type} (encodeItem : α → List UInt8) (items : List α) :
    (encodeSeq encodeItem items).length =
      compactLength items.length + (items.map fun item => (encodeItem item).length).sum := by
  rw [encodeSeq, List.length_append, length_encodeCompact, List.length_flatMap]

/-- Every item of a sequence encodes to `width` bytes. -/
theorem length_encodeSeq_of_width {α : Type} {encodeItem : α → List UInt8} {width : ℕ}
    (hwidth : ∀ item, (encodeItem item).length = width) (items : List α) :
    (encodeSeq encodeItem items).length = compactLength items.length + items.length * width := by
  rw [length_encodeSeq]
  congr 1
  induction items with
  | nil => simp
  | cons item rest ih =>
      rw [List.map_cons, List.sum_cons, ih, hwidth, List.length_cons, Nat.succ_mul, Nat.add_comm]

end Scale
