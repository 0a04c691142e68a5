import Mathlib.Data.List.Infix

namespace TextSearch

/-!
# Searching in escaped text

Where a pattern can occur in a text that has been put together: not across a
character that the pattern does not contain, and not inside an escape sequence,
which begins with a character that the pattern does not contain and goes on
without the first character of the pattern.
-/

variable
  {Symbol : Type}
  {pattern front back text : List Symbol}
  {separator mark head : Symbol}
  {tail : List Symbol}

/-- A pattern does not reach across a foreign character. -/
theorem prefix_append_separator
    (foreign : separator ∉ pattern) :
    pattern <+: front ++ separator :: back ↔ pattern <+: front := by
  induction front generalizing pattern with
  | nil =>
      cases pattern with
      | nil => simp
      | cons first _ =>
          have different : first ≠ separator :=
            fun same => foreign (same ▸ List.mem_cons_self ..)
          simp [List.cons_prefix_cons, different]
  | cons first _ inductionHypothesis =>
      cases pattern with
      | nil => simp
      | cons _ rest =>
          rw [List.cons_append, List.cons_prefix_cons, List.cons_prefix_cons,
            inductionHypothesis fun inRest =>
              foreign (List.mem_cons_of_mem _ inRest)]

/-- A foreign character splits the search. -/
theorem infix_append_separator
    (foreign : separator ∉ pattern) :
    pattern <:+: front ++ separator :: back ↔
      pattern <:+: front ∨ pattern <:+: back := by
  induction front with
  | nil =>
      rw [List.nil_append, List.infix_cons_iff, List.infix_nil,
        ← List.nil_append (separator :: back),
        prefix_append_separator foreign, List.prefix_nil]
  | cons first rest inductionHypothesis =>
      rw [List.cons_append, List.infix_cons_iff, inductionHypothesis,
        List.infix_cons_iff, ← List.cons_append,
        prefix_append_separator foreign, or_assoc]

/-- Text without the first character of the pattern can be left out. -/
theorem infix_append_of_not_mem
    (absent : head ∉ front) :
    head :: tail <:+: front ++ back ↔ head :: tail <:+: back := by
  induction front with
  | nil => rfl
  | cons first rest inductionHypothesis =>
      rw [List.mem_cons, not_or] at absent
      rw [List.cons_append, List.infix_cons_iff, List.cons_prefix_cons,
        inductionHypothesis absent.2]
      simp [absent.1]

theorem not_infix_of_not_mem
    (absent : head ∉ text) :
    ¬ head :: tail <:+: text :=
  fun found => absent (found.subset (List.mem_cons_self ..))

section Escapes

/-- How an escape writes a character: as it is, or behind a mark. -/
structure Escapes
    (escape : Symbol → List Symbol)
    (mark head : Symbol)
    (tail : List Symbol) : Prop where
  literal :
    ∀ char ∈ head :: tail, escape char = [char]
  other :
    ∀ char, escape char = [char] ∨
      ∃ code, escape char = mark :: code ∧ head ∉ code
  foreign :
    mark ∉ head :: tail

namespace Escapes

variable {escape : Symbol → List Symbol}

/-- Escaping does not change whether part of the pattern comes first. -/
theorem prefix_iff
    (escapes : Escapes escape mark head tail)
    (part : ∀ char ∈ pattern, char ∈ head :: tail) :
    pattern <+: text.flatMap escape ↔ pattern <+: text := by
  induction text generalizing pattern with
  | nil => simp
  | cons char rest inductionHypothesis =>
      cases pattern with
      | nil => simp
      | cons first later =>
          have firstIn := part first (List.mem_cons_self ..)
          rw [List.flatMap_cons, List.cons_prefix_cons]
          rcases escapes.other char with plain | ⟨code, escaped, _⟩
          · rw [plain, List.singleton_append, List.cons_prefix_cons,
              inductionHypothesis fun char inLater =>
                part char (List.mem_cons_of_mem _ inLater)]
          · rw [escaped, List.cons_append, List.cons_prefix_cons]
            have notMark : first ≠ mark :=
              fun same => escapes.foreign (same ▸ firstIn)
            have notChar : first ≠ char := by
              rintro rfl
              rw [escapes.literal first firstIn] at escaped
              exact notMark (List.cons.inj escaped).1
            simp [notMark, notChar]

/-- Escaping does not change where the pattern is. -/
theorem infix_iff
    (escapes : Escapes escape mark head tail) :
    head :: tail <:+: text.flatMap escape ↔ head :: tail <:+: text := by
  induction text with
  | nil => simp
  | cons char rest inductionHypothesis =>
      have first :=
        @prefix_iff _ (head :: tail) (char :: rest) _ _ _ _ escapes
          fun _ member => member
      rw [List.infix_cons_iff, ← first, ← inductionHypothesis,
        List.flatMap_cons]
      rcases escapes.other char with plain | ⟨code, escaped, absent⟩
      · rw [plain, List.singleton_append, List.infix_cons_iff]
      · have notMark : head ≠ mark :=
          fun same => escapes.foreign (same ▸ List.mem_cons_self ..)
        rw [escaped, infix_append_of_not_mem
          (List.not_mem_cons_of_ne_of_not_mem notMark absent),
          List.cons_append, List.cons_prefix_cons]
        simp [notMark]

end Escapes

end Escapes

end TextSearch
