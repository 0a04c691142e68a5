import Mathlib.Algebra.Group.Nat.Defs
import Mathlib.Data.List.Basic

namespace LittleEndian

/-!
# Little-endian numbers

Numbers as byte strings of a fixed width, the least significant byte first.
-/

/-- The lowest `width` bytes of a number. -/
def bytes : Nat → Nat → List UInt8
  | 0, _ =>
      []
  | width + 1, number =>
      UInt8.ofNat number :: bytes width (number / 256)

/-- The number that a byte string stands for. -/
def value : List UInt8 → Nat
  | [] =>
      0
  | byte :: rest =>
      byte.toNat + 256 * value rest

@[simp] theorem length_bytes (width number : Nat) :
    (bytes width number).length = width := by
  induction width generalizing number with
  | zero =>
      rfl
  | succ width inductionHypothesis =>
      simp [bytes, inductionHypothesis]

/-- Writing keeps what the width has room for. -/
theorem value_bytes (width number : Nat) :
    value (bytes width number) = number % 256 ^ width := by
  induction width generalizing number with
  | zero =>
      simp [bytes, value, Nat.mod_one]
  | succ width inductionHypothesis =>
      have low : (UInt8.ofNat number).toNat = number % 256 := rfl
      simp only [bytes, value, inductionHypothesis, low]
      rw [Nat.pow_succ', Nat.mod_mul]

/-- A number that fits its width is read back. -/
theorem value_bytes_of_lt
    {width number : Nat}
    (fits : number < 256 ^ width) :
    value (bytes width number) = number := by
  rw [value_bytes, Nat.mod_eq_of_lt fits]

/-- A byte string stands for a number that fits its length. -/
theorem value_lt (string : List UInt8) :
    value string < 256 ^ string.length := by
  induction string with
  | nil =>
      simp [value]
  | cons byte rest inductionHypothesis =>
      have small := byte.toNat_lt
      simp only [value, List.length_cons, Nat.pow_succ']
      omega

example : bytes 4 0x20260801 = [0x01, 0x08, 0x26, 0x20] := by decide

end LittleEndian
