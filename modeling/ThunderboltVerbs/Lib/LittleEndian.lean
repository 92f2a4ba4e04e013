import Mathlib.Algebra.Order.Ring.Nat
import Mathlib.Data.Nat.Bitwise
import Mathlib.Data.List.Basic

/-!
# Little-endian words in a byte buffer

Words are assembled from bytes and cut into bytes with shifts and masks, as C code does. The two
directions are inverse to each other; both are read off the natural number that a word stands for.
-/

namespace ThunderboltVerbs.Lib

def word16 (first second : UInt8) : UInt16 :=
  first.toUInt16 ||| second.toUInt16 <<< 8

def word32 (first second third fourth : UInt8) : UInt32 :=
  first.toUInt32 ||| second.toUInt32 <<< 8 ||| third.toUInt32 <<< 16 ||| fourth.toUInt32 <<< 24

def word64 (low high : UInt32) : UInt64 :=
  low.toUInt64 ||| high.toUInt64 <<< 32

def bytes16 (value : UInt16) : List UInt8 :=
  [(value &&& 0xff).toUInt8, (value >>> 8).toUInt8]

def bytes32 (value : UInt32) : List UInt8 :=
  [(value &&& 0xff).toUInt8, ((value >>> 8) &&& 0xff).toUInt8, ((value >>> 16) &&& 0xff).toUInt8,
    (value >>> 24).toUInt8]

/-! ## Buffers -/

variable {α : Type}

def patch (buffer : List α) (offset : Nat) (bytes : List α) : List α :=
  buffer.take offset ++ bytes ++ buffer.drop (offset + bytes.length)

def slice (buffer : List α) (offset width : Nat) : List α := (buffer.drop offset).take width

def slices (buffer : List α) : Nat → List Nat → List (List α)
  | _, [] => []
  | offset, width :: widths => slice buffer offset width :: slices buffer (offset + width) widths

def byteAt (buffer : List UInt8) (offset : Nat) : UInt8 := buffer.getD offset 0

def word16At (buffer : List UInt8) (offset : Nat) : UInt16 :=
  word16 (byteAt buffer offset) (byteAt buffer (offset + 1))

def word32At (buffer : List UInt8) (offset : Nat) : UInt32 :=
  word32 (byteAt buffer offset) (byteAt buffer (offset + 1)) (byteAt buffer (offset + 2))
    (byteAt buffer (offset + 3))

def word64At (buffer : List UInt8) (offset : Nat) : UInt64 :=
  word64 (word32At buffer offset) (word32At buffer (offset + 4))

/-! ## The value of a word -/

theorem or_shiftLeft {low high width : Nat} (small : low < 2 ^ width) :
    low ||| high <<< width = low + high * 2 ^ width := by
  rw [Nat.or_comm, ← Nat.shiftLeft_add_eq_or_of_lt small, Nat.shiftLeft_eq, Nat.add_comm]

theorem and_byte (n : Nat) : n &&& 255 = n % 256 :=
  Nat.and_two_pow_sub_one_eq_mod n 8

theorem and_word (n : Nat) : n &&& 4294967295 = n % 4294967296 :=
  Nat.and_two_pow_sub_one_eq_mod n 32

theorem word16_toNat (first second : UInt8) :
    (word16 first second).toNat = first.toNat + second.toNat * 2 ^ 8 := by
  have small := first.toNat_lt
  have fits : second.toNat <<< 8 % 2 ^ 16 = second.toNat <<< 8 := by
    have bound := second.toNat_lt
    rw [Nat.shiftLeft_eq]
    omega
  simp only [word16, UInt16.toNat_or, UInt8.toNat_toUInt16, UInt16.toNat_shiftLeft,
    UInt16.reduceToNat]
  rw [show 8 % 16 = 8 from rfl, fits, or_shiftLeft small]

theorem word32_toNat (first second third fourth : UInt8) :
    (word32 first second third fourth).toNat =
      first.toNat + second.toNat * 2 ^ 8 + third.toNat * 2 ^ 16 + fourth.toNat * 2 ^ 24 := by
  have one := first.toNat_lt
  have two := second.toNat_lt
  have three := third.toNat_lt
  have fits (byte : UInt8) (width : Nat) (small : width ≤ 24) :
      byte.toNat <<< width % 2 ^ 32 = byte.toNat <<< width := by
    rw [Nat.shiftLeft_eq]
    apply Nat.mod_eq_of_lt
    calc
      byte.toNat * 2 ^ width ≤ 255 * 2 ^ 24 :=
        Nat.mul_le_mul (Nat.le_of_lt_succ byte.toNat_lt) (Nat.pow_le_pow_right (by decide) small)
      _ < 2 ^ 32 := by decide
  have low : first.toNat ||| second.toNat <<< 8 = first.toNat + second.toNat * 2 ^ 8 :=
    or_shiftLeft one
  have middle : first.toNat + second.toNat * 2 ^ 8 ||| third.toNat <<< 16 =
      first.toNat + second.toNat * 2 ^ 8 + third.toNat * 2 ^ 16 :=
    or_shiftLeft (by omega)
  have high : first.toNat + second.toNat * 2 ^ 8 + third.toNat * 2 ^ 16 ||| fourth.toNat <<< 24 =
      first.toNat + second.toNat * 2 ^ 8 + third.toNat * 2 ^ 16 + fourth.toNat * 2 ^ 24 :=
    or_shiftLeft (by omega)
  simp only [word32, UInt32.toNat_or, UInt8.toNat_toUInt32, UInt32.toNat_shiftLeft,
    UInt32.reduceToNat]
  rw [show 8 % 32 = 8 from rfl, show 16 % 32 = 16 from rfl, show 24 % 32 = 24 from rfl,
    fits second 8 (by decide), fits third 16 (by decide), fits fourth 24 (by decide), low, middle,
    high]

theorem word64_toNat (low high : UInt32) :
    (word64 low high).toNat = low.toNat + high.toNat * 2 ^ 32 := by
  have small := low.toNat_lt
  have fits : high.toNat <<< 32 % 2 ^ 64 = high.toNat <<< 32 := by
    have bound := high.toNat_lt
    rw [Nat.shiftLeft_eq]
    omega
  simp only [word64, UInt64.toNat_or, UInt32.toNat_toUInt64, UInt64.toNat_shiftLeft,
    UInt64.reduceToNat]
  rw [show 32 % 64 = 32 from rfl, fits, or_shiftLeft small]

/-! ## Round trips -/

theorem word16_bytes16 (value : UInt16) :
    word16 (value &&& 0xff).toUInt8 (value >>> 8).toUInt8 = value := by
  apply UInt16.toNat_inj.mp
  have bound := value.toNat_lt
  rw [word16_toNat]
  simp [and_byte, Nat.shiftRight_eq_div_pow]
  omega

theorem word32_bytes32 (value : UInt32) :
    word32 (value &&& 0xff).toUInt8 ((value >>> 8) &&& 0xff).toUInt8
      ((value >>> 16) &&& 0xff).toUInt8 (value >>> 24).toUInt8 = value := by
  apply UInt32.toNat_inj.mp
  have bound := value.toNat_lt
  rw [word32_toNat]
  simp [and_byte, Nat.shiftRight_eq_div_pow]
  omega

theorem bytes32_injective : Function.Injective bytes32 := by
  intro a b equal
  simp only [bytes32, List.cons.injEq] at equal
  obtain ⟨first, second, third, fourth, -⟩ := equal
  rw [← word32_bytes32 a, first, second, third, fourth, word32_bytes32]

theorem word64_halves (value : UInt64) :
    word64 (value &&& 0xffffffff).toUInt32 (value >>> 32).toUInt32 = value := by
  apply UInt64.toNat_inj.mp
  have bound := value.toNat_lt
  rw [word64_toNat]
  simp [and_word, Nat.shiftRight_eq_div_pow]
  omega

theorem bytes16_word16 (first second : UInt8) : bytes16 (word16 first second) = [first, second] := by
  have one := first.toNat_lt
  have two := second.toNat_lt
  simp only [bytes16, List.cons.injEq, and_true, ← UInt8.toNat_inj]
  simp [and_byte, Nat.shiftRight_eq_div_pow, word16_toNat]
  omega

theorem bytes32_word32 (first second third fourth : UInt8) :
    bytes32 (word32 first second third fourth) = [first, second, third, fourth] := by
  have one := first.toNat_lt
  have two := second.toNat_lt
  have three := third.toNat_lt
  have four := fourth.toNat_lt
  simp only [bytes32, List.cons.injEq, and_true, ← UInt8.toNat_inj]
  simp [and_byte, Nat.shiftRight_eq_div_pow, word32_toNat]
  omega

theorem word64_low (low high : UInt32) : (word64 low high &&& 0xffffffff).toUInt32 = low := by
  have bound := low.toNat_lt
  apply UInt32.toNat_inj.mp
  simp [and_word, word64_toNat]

theorem word64_high (low high : UInt32) : (word64 low high >>> 32).toUInt32 = high := by
  have lowBound := low.toNat_lt
  have highBound := high.toNat_lt
  apply UInt32.toNat_inj.mp
  simp [Nat.shiftRight_eq_div_pow, word64_toNat]
  omega

/-! ## Reading a buffer in slices -/

theorem flatten_slices (buffer : List α) (offset : Nat) (widths : List Nat) :
    (slices buffer offset widths).flatten = slice buffer offset widths.sum := by
  induction widths generalizing offset with
  | nil => simp [slices, slice]
  | cons width widths ih =>
      rw [slices, List.flatten_cons, ih, List.sum_cons]
      simp only [slice]
      rw [List.take_add, List.drop_drop]

theorem drop_eq_byteAt {buffer : List UInt8} {offset : Nat} (inside : offset < buffer.length) :
    buffer.drop offset = byteAt buffer offset :: buffer.drop (offset + 1) := by
  rw [List.drop_eq_getElem_cons inside, byteAt, List.getD_eq_getElem _ _ inside]

theorem bytes8_byteAt {buffer : List UInt8} {offset : Nat} (inside : offset + 1 ≤ buffer.length) :
    [byteAt buffer offset] = slice buffer offset 1 := by
  rw [slice, drop_eq_byteAt inside]
  rfl

theorem bytes16_word16At {buffer : List UInt8} {offset : Nat} (inside : offset + 2 ≤ buffer.length) :
    bytes16 (word16At buffer offset) = slice buffer offset 2 := by
  rw [word16At, bytes16_word16, slice, drop_eq_byteAt (by omega), drop_eq_byteAt (by omega)]
  rfl

theorem bytes32_word32At {buffer : List UInt8} {offset : Nat} (inside : offset + 4 ≤ buffer.length) :
    bytes32 (word32At buffer offset) = slice buffer offset 4 := by
  rw [word32At, bytes32_word32, slice, drop_eq_byteAt (by omega), drop_eq_byteAt (by omega),
    drop_eq_byteAt (by omega), drop_eq_byteAt (by omega)]
  rfl

/-! ## Fields in a row

A buffer that is filled field by field holds the fields, then the zeros that are left, then what
lay behind the zeroed part.
-/

structure Filled (fields : List (List UInt8)) (position room : Nat) (rest buffer : List UInt8) :
    Prop where
  position : fields.flatten.length = position
  content : buffer = fields.flatten ++ (List.replicate room 0 ++ rest)

variable {fields : List (List UInt8)} {bytes rest buffer : List UInt8} {position offset : Nat}

theorem filled_zeros (buffer : List UInt8) (size : Nat) :
    Filled [] 0 size (buffer.drop size) (patch buffer 0 (List.replicate size 0)) := by
  constructor <;> simp [patch]

theorem Filled.patch (room width : Nat) (bytes : List UInt8)
    (filled : Filled fields position (room + width) rest buffer) (length : bytes.length = width) :
    Filled (fields ++ [bytes]) (position + width) room rest (patch buffer position bytes) := by
  obtain ⟨rfl, content⟩ := filled
  subst length
  have split : buffer = fields.flatten ++ (List.replicate bytes.length 0 ++
      (List.replicate room 0 ++ rest)) := by
    rw [content, Nat.add_comm, List.replicate_add, List.append_assoc]
  have left : buffer.take fields.flatten.length = fields.flatten := by
    rw [split, List.take_left]
  have right : buffer.drop (fields.flatten.length + bytes.length) =
      List.replicate room 0 ++ rest := by
    rw [split, ← List.drop_drop, List.drop_left]
    exact List.drop_left' List.length_replicate
  constructor
  · simp only [List.flatten_append, List.flatten_cons, List.flatten_nil, List.append_nil,
      List.length_append]
  · rw [Lib.patch, left, right]
    simp only [List.flatten_append, List.flatten_cons, List.flatten_nil, List.append_nil]

theorem Filled.skip (room width : Nat)
    (filled : Filled fields position (room + width) rest buffer) :
    Filled (fields ++ [List.replicate width 0]) (position + width) room rest buffer := by
  constructor
  · simp only [List.flatten_append, List.flatten_cons, List.flatten_nil, List.append_nil,
      List.length_append, filled.position, List.length_replicate]
  · rw [filled.content, Nat.add_comm, List.replicate_add]
    simp only [List.flatten_append, List.flatten_cons, List.flatten_nil, List.append_nil,
      List.append_assoc]

theorem drop_field (index : Nat) (rest : List UInt8) (found : fields[index]? = some bytes)
    (here : (fields.take index).flatten.length = offset) :
    ∃ after, (fields.flatten ++ rest).drop offset = bytes ++ after := by
  obtain ⟨inside, rfl⟩ := List.getElem?_eq_some_iff.mp found
  have split : fields.flatten = (fields.take index).flatten ++
      (fields[index] ++ (fields.drop (index + 1)).flatten) := by
    rw [← List.flatten_cons, ← List.drop_eq_getElem_cons inside, ← List.flatten_append,
      List.take_append_drop]
  refine ⟨(fields.drop (index + 1)).flatten ++ rest, ?_⟩
  rw [split, List.append_assoc, List.drop_left' here, List.append_assoc]

theorem byteAt_drop (buffer : List UInt8) (offset index : Nat) :
    byteAt buffer (offset + index) = byteAt (buffer.drop offset) index := by
  simp only [byteAt, List.getD_eq_getElem?_getD, List.getElem?_drop]

section Field

variable (index : Nat) (here : (fields.take index).flatten.length = offset)
include here

theorem byteAt_field {value : UInt8} (found : fields[index]? = some [value]) :
    byteAt (fields.flatten ++ rest) offset = value := by
  obtain ⟨after, dropped⟩ := drop_field index rest found here
  rw [← Nat.add_zero offset, byteAt_drop, dropped]
  rfl

theorem word16At_field {value : UInt16} (found : fields[index]? = some (bytes16 value)) :
    word16At (fields.flatten ++ rest) offset = value := by
  obtain ⟨after, dropped⟩ := drop_field index rest found here
  have first := byteAt_drop (fields.flatten ++ rest) offset 0
  rw [Nat.add_zero] at first
  rw [word16At, first, byteAt_drop, dropped]
  exact word16_bytes16 value

theorem word32At_field {value : UInt32} (found : fields[index]? = some (bytes32 value)) :
    word32At (fields.flatten ++ rest) offset = value := by
  obtain ⟨after, dropped⟩ := drop_field index rest found here
  have first := byteAt_drop (fields.flatten ++ rest) offset 0
  rw [Nat.add_zero] at first
  rw [word32At, first, byteAt_drop, byteAt_drop, byteAt_drop, dropped]
  exact word32_bytes32 value

omit here in
theorem word64At_field {value : UInt64} (here : (fields.take index).flatten.length = offset)
    (low : fields[index]? = some (bytes32 (value &&& 0xffffffff).toUInt32))
    (high : fields[index + 1]? = some (bytes32 (value >>> 32).toUInt32)) :
    word64At (fields.flatten ++ rest) offset = value := by
  have next : (fields.take (index + 1)).flatten.length = offset + 4 := by
    obtain ⟨inside, isLow⟩ := List.getElem?_eq_some_iff.mp low
    rw [List.take_succ_eq_append_getElem inside, List.flatten_append, List.length_append, here, isLow]
    rfl
  rw [word64At, word32At_field index here low, word32At_field (index + 1) next high, word64_halves]

end Field

end ThunderboltVerbs.Lib
