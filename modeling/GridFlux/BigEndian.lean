/-
GridFlux/BigEndian.lean

A library for fixed-width big-endian numerals over bytes.  It names nothing of
the transfer code.

Main results: a numeral has its width (`length_encode`), a number that fits
the width reads back (`decode_encode`), bytes are the numeral of the number they
stand for (`encode_decode`), a field is found again inside a record of fields
(`fieldAt_append_left`, `fieldAt_append_right`), and a record is its fields one
after the other (`fieldAt_append_fieldAt`).
-/
import Mathlib.Data.List.Basic
import Mathlib.Data.List.Induction
import Mathlib.Algebra.Order.Group.Nat

namespace BigEndian

/-- The `width` low bytes of a number, most significant first. -/
def encode : Nat → Nat → List UInt8
  | 0, _ => []
  | width + 1, value => encode width (value / 256) ++ [UInt8.ofNat value]

/-- The number a string of bytes stands for. -/
def decode (bytes : List UInt8) : Nat :=
  bytes.foldl (fun value byte => value * 256 + byte.toNat) 0

@[simp] theorem length_encode (width value : Nat) : (encode width value).length = width := by
  induction width generalizing value with
  | zero => rfl
  | succ width ih => simp [encode, ih]

theorem decode_append_singleton (bytes : List UInt8) (byte : UInt8) :
    decode (bytes ++ [byte]) = decode bytes * 256 + byte.toNat := by
  simp [decode]

theorem decode_encode {width value : Nat} (h : value < 256 ^ width) :
    decode (encode width value) = value := by
  induction width generalizing value with
  | zero =>
      obtain rfl : value = 0 := by simpa using h
      rfl
  | succ width ih =>
      have hdiv : value / 256 < 256 ^ width := by
        rw [Nat.div_lt_iff_lt_mul (by decide)]
        rwa [pow_succ] at h
      rw [encode, decode_append_singleton, ih hdiv, UInt8.toNat_ofNat']
      exact Nat.div_add_mod' value 256

theorem decode_lt (bytes : List UInt8) : decode bytes < 256 ^ bytes.length := by
  induction bytes using List.reverseRecOn with
  | nil => decide
  | append_singleton bytes byte ih =>
      have hbyte := byte.toNat_lt
      rw [decode_append_singleton, List.length_append, List.length_singleton, pow_succ]
      omega

/-- Bytes are the numeral of their width of the number they stand for. -/
theorem encode_decode (bytes : List UInt8) : encode bytes.length (decode bytes) = bytes := by
  induction bytes using List.reverseRecOn with
  | nil => rfl
  | append_singleton bytes byte ih =>
      have hbyte := byte.toNat_lt
      have hdiv : (decode bytes * 256 + byte.toNat) / 256 = decode bytes := by omega
      have hlow : UInt8.ofNat (decode bytes * 256 + byte.toNat) = byte := by
        apply UInt8.toNat.inj
        rw [UInt8.toNat_ofNat']
        omega
      rw [List.length_append, List.length_singleton, encode, decode_append_singleton, hdiv, ih,
        hlow]

/-! ### Fields of a record -/

section FieldAt

variable {α : Type*}

/-- `length` elements from `offset`, or fewer at the end. -/
def fieldAt (bytes : List α) (offset length : Nat) : List α := (bytes.drop offset).take length

/-- The first field. -/
theorem fieldAt_append_left {field rest : List α} {length : Nat} (h : field.length = length) :
    fieldAt (field ++ rest) 0 length = field := by
  subst h
  simp [fieldAt]

/-- A field behind the first one. -/
theorem fieldAt_append_right {field rest : List α} {offset length : Nat}
    (h : field.length ≤ offset) :
    fieldAt (field ++ rest) offset length = fieldAt rest (offset - field.length) length := by
  rw [fieldAt, fieldAt, List.drop_append, List.drop_eq_nil_of_le h, List.nil_append]

/-- Two fields that lie next to each other. -/
theorem fieldAt_append_fieldAt (bytes : List α) (offset length length' : Nat) :
    fieldAt bytes offset length ++ fieldAt bytes (offset + length) length' =
      fieldAt bytes offset (length + length') := by
  rw [fieldAt, fieldAt, fieldAt, List.take_add, List.drop_drop]

theorem length_fieldAt {bytes : List α} {offset length : Nat} (h : offset + length ≤ bytes.length) :
    (fieldAt bytes offset length).length = length := by
  rw [fieldAt, List.length_take, List.length_drop]
  omega

/-- All fields together. -/
theorem fieldAt_all {bytes : List α} {length : Nat} (h : bytes.length ≤ length) :
    fieldAt bytes 0 length = bytes := by
  rw [fieldAt, List.drop_zero, List.take_of_length_le h]

end FieldAt

end BigEndian
