import Mathlib.Data.Nat.Digits.Lemmas

namespace Decimal

/-!
# Decimal numerals

The digits of a natural number from the most significant one on, without
leading zeros, as every `printf` dialect writes them.
-/

/-- The decimal digits of a number; zero has the one digit zero. -/
def digits (number : Nat) : List Nat :=
  if number = 0 then
    [0]
  else
    (Nat.digits 10 number).reverse

/-- The number can be read back from its digits. -/
theorem ofDigits_digits (number : Nat) :
    Nat.ofDigits 10 (digits number).reverse = number := by
  unfold digits
  split
  case isTrue zero =>
    simp [zero]
  case isFalse =>
    rw [List.reverse_reverse, Nat.ofDigits_digits]

/-- Two numbers with the same digits are equal. -/
theorem digits_injective
    {first second : Nat}
    (same : digits first = digits second) :
    first = second := by
  rw [← ofDigits_digits first, ← ofDigits_digits second, same]

/-- Digits are below ten. -/
theorem digit_lt
    {number digit : Nat}
    (member : digit ∈ digits number) :
    digit < 10 := by
  unfold digits at member
  split at member
  case isTrue =>
    simp only [List.mem_singleton] at member
    omega
  case isFalse =>
    exact Nat.digits_lt_base (by decide) (List.mem_reverse.mp member)

theorem length_digits_le_iff
    {width number : Nat}
    (positive : 0 < width) :
    (digits number).length ≤ width ↔ number < 10 ^ width := by
  unfold digits
  split
  case isTrue zero =>
    simp only [zero, List.length_singleton, Nat.pow_pos (by decide : 0 < 10),
      iff_true]
    exact positive
  case isFalse =>
    rw [List.length_reverse, Nat.digits_length_le_iff (by decide)]

/-- All digits but the last one are those of the tenth part. -/
theorem digits_of_ten_le
    {number : Nat}
    (large : 10 ≤ number) :
    digits number = digits (number / 10) ++ [number % 10] := by
  have positive : 0 < number := by omega
  unfold digits
  rw [if_neg (by omega), if_neg (by omega),
    Nat.digits_def' (by decide) positive, List.reverse_cons]

/-- The first digits of a number are those of a number that has no others. -/
theorem exists_digits_take
    {width : Nat}
    (some : 0 < width)
    {number : Nat}
    (positive : 0 < number) :
    ∃ front,
      0 < front ∧ front < 10 ^ width ∧
        digits front = (digits number).take width := by
  induction number using Nat.strongRecOn with
  | ind number inductionHypothesis =>
      by_cases small : number < 10 ^ width
      · refine ⟨number, positive, small, ?_⟩
        rw [List.take_of_length_le ((length_digits_le_iff some).mpr small)]
      · obtain ⟨less, rfl⟩ : ∃ less, width = less + 1 :=
          ⟨width - 1, by omega⟩
        have tenth : 10 ^ less ≤ number / 10 := by
          rw [Nat.pow_succ] at small
          omega
        have least : 0 < 10 ^ less := Nat.pow_pos (by decide)
        obtain ⟨front, frontPositive, below, same⟩ :=
          inductionHypothesis (number / 10) (by omega) (by omega)
        refine ⟨front, frontPositive, below, ?_⟩
        have long : less + 1 ≤ (digits (number / 10)).length := by
          by_contra short
          cases less with
          | zero =>
              have atLeast : 0 < (digits (number / 10)).length := by
                rw [List.length_pos_iff]
                intro empty
                have read := ofDigits_digits (number / 10)
                rw [empty] at read
                simp at read
                omega
              omega
          | succ less =>
              have atMost :=
                (@length_digits_le_iff (less + 1) (number / 10)
                  (Nat.succ_pos _)).mp (by omega)
              omega
        rw [digits_of_ten_le (show 10 ≤ number by omega), same,
          List.take_append_of_le_length long]

/-- Lists over which a function is injective are equal when their images are. -/
theorem eq_of_map_eq
    {write : Nat → κ}
    {first second : List Nat}
    (distinct :
      ∀ {digit other},
        digit ∈ first →
        other ∈ second →
        write digit = write other →
        digit = other)
    (same : first.map write = second.map write) :
    first = second := by
  induction first generalizing second with
  | nil =>
      exact (List.map_eq_nil_iff.mp same.symm).symm
  | cons digit rest inductionHypothesis =>
      cases second with
      | nil =>
          simp at same
      | cons other others =>
          simp only [List.map_cons, List.cons.injEq] at same
          obtain ⟨sameDigit, sameRest⟩ := same
          have head := distinct (List.mem_cons_self ..)
            (List.mem_cons_self ..) sameDigit
          have tail := inductionHypothesis
            (fun member otherMember =>
              distinct (List.mem_cons_of_mem _ member)
                (List.mem_cons_of_mem _ otherMember))
            sameRest
          rw [head, tail]

/-- Numerals written with distinct digit symbols name distinct numbers. -/
theorem digits_map_injective
    {write : Nat → κ}
    (distinct :
      ∀ {digit other},
        digit < 10 → other < 10 → write digit = write other → digit = other)
    {first second : Nat}
    (same : (digits first).map write = (digits second).map write) :
    first = second :=
  digits_injective
    (eq_of_map_eq
      (fun member otherMember =>
        distinct (digit_lt member) (digit_lt otherMember))
      same)

example : digits 0 = [0] ∧ digits 305 = [3, 0, 5] := by decide

/-- The digits with leading zeros up to a width. -/
def padded (width number : Nat) : List Nat :=
  List.leftpad width 0 (digits number)

/-- Leading zeros do not change what is read back. -/
theorem ofDigits_padded (width number : Nat) :
    Nat.ofDigits 10 (padded width number).reverse = number := by
  have zeros (count : Nat) :
      Nat.ofDigits 10 (List.replicate count 0) = 0 := by
    induction count with
    | zero => rfl
    | succ count inductionHypothesis =>
        rw [List.replicate_succ, Nat.ofDigits_cons, inductionHypothesis]
  rw [padded, List.leftpad, List.reverse_append, List.reverse_replicate,
    Nat.ofDigits_append, zeros, ofDigits_digits, Nat.mul_zero, Nat.add_zero]

theorem padded_digit_lt
    {width number digit : Nat}
    (member : digit ∈ padded width number) :
    digit < 10 := by
  rcases List.mem_append.mp member with zero | own
  · rw [List.eq_of_mem_replicate zero]
    decide
  · exact digit_lt own

/-- Padded numerals name distinct numbers too. -/
theorem padded_map_injective
    {write : Nat → κ}
    (distinct :
      ∀ {digit other},
        digit < 10 → other < 10 → write digit = write other → digit = other)
    {width first second : Nat}
    (same :
      (padded width first).map write = (padded width second).map write) :
    first = second := by
  have digitsEqual : padded width first = padded width second :=
    eq_of_map_eq
      (fun member otherMember =>
        distinct (padded_digit_lt member) (padded_digit_lt otherMember))
      same
  rw [← ofDigits_padded width first, digitsEqual, ofDigits_padded]

example : padded 3 7 = [0, 0, 7] ∧ padded 3 1234 = [1, 2, 3, 4] := by decide

end Decimal
