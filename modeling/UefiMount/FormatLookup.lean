import UefiMount.AliasScan
import UefiMount.DriverImages

namespace UefiMount

/-!
# Looking up a format

`StaticStriCmp` walks two pointers through terminated texts, and
`MountFindFormat` compares a name with the entries of the table by it.  On the
memory behind the pointers the comparison reads neither text past its
terminator and orders texts as their upper case does, so the lookup finds the
one entry whose name differs at most in the case of its letters.
-/

section Model

/-- The loop of `StaticStriCmp`, where both pointers have come to. -/
def striCmpFrom
    (first second : List Char16)
    (index : Nat) :
    Except ReadFault Int :=
  if inside : index < first.length then do
    let ca := staticUpper first[index]
    let cb := staticUpper (← readChar second index)
    if ca ≠ cb then
      return (ca.toNat : Int) - cb.toNat
    else if ca ≠ nul then
      striCmpFrom first second (index + 1)
    else
      return 0
  else
    .error ⟨index⟩
termination_by first.length - index

/-- `StaticStriCmp`, on the memory behind the pointers. -/
def staticStriCmp (first second : List Char16) : Except ReadFault Int :=
  striCmpFrom first second 0

/-- The loop of `MountFindFormat` over the table. -/
def findFormatFrom
    (name : List Char16) :
    List MountFormatEntry → Except ReadFault (Option MountFormatEntry)
  | [] =>
      .ok none
  | entry :: rest => do
      let difference ← staticStriCmp (entry.name ++ [nul]) name
      if difference = 0 then
        return some entry
      else
        findFormatFrom name rest

/-- `MountFindFormat`, on the memory behind the pointer. -/
def findFormatIn
    (name : Option (List Char16)) :
    Except ReadFault (Option MountFormatEntry) :=
  match name with
  | none =>
      .ok none
  | some memory =>
      findFormatFrom memory mFormats

end Model

section Comparison

/-- The difference of two texts, where a terminator stands behind each. -/
def foldedDifference : Text → Text → Int
  | [], [] =>
      0
  | [], second :: _ =>
      -(staticUpper second).toNat
  | first :: _, [] =>
      (staticUpper first).toNat
  | first :: rest, second :: others =>
      if staticUpper first = staticUpper second then
        foldedDifference rest others
      else
        ((staticUpper first).toNat : Int) - (staticUpper second).toNat

/-- Only a terminator becomes one. -/
theorem staticUpper_ne_nul
    {char : Char16}
    (ordinary : char ≠ nul) :
    staticUpper char ≠ nul := by
  rw [staticUpper]
  split
  case isTrue letter =>
    intro zero
    have lower := UInt16.le_iff_toNat_le.mp letter.1
    have upper := UInt16.le_iff_toNat_le.mp letter.2
    have sum := congrArg UInt16.toNat zero
    rw [UInt16.toNat_add, UInt16.toNat_sub_of_le _ _ letter.1] at sum
    simp only [nul, UInt16.reduceToNat] at *
    omega
  case isFalse =>
    exact ordinary

/-- One round of the comparison. -/
theorem striCmpFrom_round
    {first second : List Char16}
    {index : Nat}
    {char other : Char16}
    (read : first[index]? = some char)
    (readOther : second[index]? = some other) :
    striCmpFrom first second index =
      if staticUpper char ≠ staticUpper other then
        .ok (((staticUpper char).toNat : Int) - (staticUpper other).toNat)
      else if staticUpper char ≠ nul then
        striCmpFrom first second (index + 1)
      else
        .ok 0 := by
  obtain ⟨inside, rfl⟩ := List.getElem?_eq_some_iff.mp read
  have found : readChar second index = .ok other := by
    rw [readChar, if_neg (by omega), Int.toNat_natCast, readOther]
  rw [striCmpFrom, dif_pos inside, found]
  rfl

/-- The comparison of terminated texts ends without a fault. -/
theorem striCmpFrom_eq
    {first second : Text}
    (terminated : nul ∉ first)
    (otherTerminated : nul ∉ second)
    (after behind : List Char16)
    {before beside : List Char16}
    (abreast : before.length = beside.length) :
    striCmpFrom (before ++ (first ++ nul :: after))
        (beside ++ (second ++ nul :: behind)) before.length =
      .ok (foldedDifference first second) := by
  have upperNul : staticUpper nul = nul := by decide
  induction first generalizing second before beside with
  | nil =>
      cases second with
      | nil =>
          rw [@striCmpFrom_round _ _ _ nul nul (by simp)
            (by simp [abreast])]
          rfl
      | cons other others =>
          have ordinary := staticUpper_ne_nul
            (Ne.symm (List.ne_of_not_mem_cons otherTerminated))
          rw [@striCmpFrom_round _ _ _ nul other (by simp)
            (by simp [abreast]), upperNul, if_pos (Ne.symm ordinary)]
          simp [foldedDifference, nul]
  | cons char rest inductionHypothesis =>
      have ordinary :=
        staticUpper_ne_nul (Ne.symm (List.ne_of_not_mem_cons terminated))
      cases second with
      | nil =>
          rw [@striCmpFrom_round _ _ _ char nul (by simp)
            (by simp [abreast]), upperNul, if_pos ordinary]
          simp [foldedDifference, nul]
      | cons other others =>
          rw [@striCmpFrom_round _ _ _ char other (by simp)
            (by simp [abreast]), foldedDifference]
          by_cases same : staticUpper char = staticUpper other
          · have later := @inductionHypothesis others
              (List.not_mem_of_not_mem_cons terminated)
              (List.not_mem_of_not_mem_cons otherTerminated)
              (before ++ [char]) (beside ++ [other]) (by simp [abreast])
            simp only [List.append_assoc, List.singleton_append,
              List.length_append, List.length_singleton] at later
            rw [if_neg (not_not.mpr same), if_pos ordinary, if_pos same]
            exact later
          · rw [if_pos same, if_neg same]

/-- The order of words over ordered characters. -/
def TextBefore (first second : Text) : Prop :=
  List.Lex (· < ·) first second

theorem foldedDifference_swap (first second : Text) :
    foldedDifference second first = -foldedDifference first second := by
  induction first generalizing second with
  | nil =>
      cases second with
      | nil => rfl
      | cons other others => simp [foldedDifference]
  | cons char rest inductionHypothesis =>
      cases second with
      | nil =>
          simp [foldedDifference]
      | cons other others =>
          simp only [foldedDifference]
          by_cases same : staticUpper char = staticUpper other
          · rw [if_pos same, if_pos same.symm, inductionHypothesis]
          · rw [if_neg same, if_neg (Ne.symm same)]
            omega

/-- The difference is that of the upper case texts, compared as words. -/
theorem foldedDifference_order
    {first second : Text}
    (terminated : nul ∉ first)
    (otherTerminated : nul ∉ second) :
    (foldedDifference first second = 0 ↔
        first.map staticUpper = second.map staticUpper) ∧
      (foldedDifference first second < 0 ↔
        TextBefore (first.map staticUpper) (second.map staticUpper)) := by
  have positive {char : Char16} (ordinary : char ≠ nul) :
      0 < (staticUpper char).toNat := by
    refine Nat.pos_of_ne_zero fun zero => staticUpper_ne_nul ordinary ?_
    exact UInt16.toNat_inj.mp zero
  induction first generalizing second with
  | nil =>
      cases second with
      | nil =>
          simp [foldedDifference, TextBefore]
      | cons other others =>
          have some := positive
            (Ne.symm (List.ne_of_not_mem_cons otherTerminated))
          simp only [foldedDifference, List.map_nil, List.map_cons,
            TextBefore, List.nil_lex_cons', iff_true, reduceCtorEq,
            iff_false]
          omega
  | cons char rest inductionHypothesis =>
      have some := positive (Ne.symm (List.ne_of_not_mem_cons terminated))
      cases second with
      | nil =>
          simp only [foldedDifference, List.map_nil, List.map_cons,
            TextBefore, List.not_lex_nil, reduceCtorEq, iff_false]
          omega
      | cons other others =>
          simp only [foldedDifference, List.map_cons, List.cons.injEq,
            TextBefore, List.cons_lex_cons_iff]
          by_cases same : staticUpper char = staticUpper other
          · rw [if_pos same]
            simpa [same, TextBefore] using @inductionHypothesis others
              (List.not_mem_of_not_mem_cons terminated)
              (List.not_mem_of_not_mem_cons otherTerminated)
          · have different := mt UInt16.toNat_inj.mp same
            rw [if_neg same]
            simp only [same, false_and, or_false, iff_false,
              UInt16.lt_iff_toNat_lt]
            omega

/-- A comparison says how the texts lie when the case of letters is ignored. -/
structure ComparesFolded (first second : Text) (difference : Int) : Prop where
  same :
    difference = 0 ↔ first.map staticUpper = second.map staticUpper
  less :
    difference < 0 ↔
      TextBefore (first.map staticUpper) (second.map staticUpper)
  greater :
    0 < difference ↔
      TextBefore (second.map staticUpper) (first.map staticUpper)

/-- Whatever lies behind the terminators, the texts are compared. -/
theorem staticStriCmp_compares
    {first second : Text}
    (terminated : nul ∉ first)
    (otherTerminated : nul ∉ second) :
    ∃ difference,
      ComparesFolded first second difference ∧
        ∀ after behind : List Char16,
          staticStriCmp (first ++ nul :: after) (second ++ nul :: behind) =
            .ok difference := by
  obtain ⟨same, less⟩ :=
    foldedDifference_order terminated otherTerminated
  have greater := (foldedDifference_order otherTerminated terminated).2
  rw [foldedDifference_swap, Int.neg_neg_iff_pos] at greater
  exact ⟨foldedDifference first second, ⟨same, less, greater⟩,
    fun after behind =>
      @striCmpFrom_eq _ _ terminated otherTerminated after behind [] [] rfl⟩

/-- The names `fs` and `NTFS`, with other characters behind the first. -/
theorem staticStriCmp_compares_names :
    ∃ difference,
      ComparesFolded (wide "fs") (wide "NTFS") difference ∧
        staticStriCmp (wide "fs" ++ nul :: wide "0:") (wide "NTFS" ++ [nul]) =
          .ok difference := by
  obtain ⟨difference, compares, compared⟩ :=
    @staticStriCmp_compares (wide "fs") (wide "NTFS") (by decide) (by decide)
  exact ⟨difference, compares, compared (wide "0:") []⟩

end Comparison

section Lookup

/-- No name of the table contains a terminator. -/
theorem mFormats_terminated
    {entry : MountFormatEntry}
    (member : entry ∈ mFormats) :
    nul ∉ entry.name := by
  have all :
      (mFormats.all fun entry => !entry.name.contains nul) = true := by
    decide
  have own := List.all_eq_true.mp all entry member
  simpa using own

/-- No two entries of the table have one name when case is ignored. -/
theorem mFormats_folded :
    (mFormats.map fun entry => entry.name.map staticUpper).Nodup := by
  decide

/-- The loop over a part of the table. -/
theorem findFormatFrom_eq
    {table : List MountFormatEntry}
    (terminated : ∀ entry ∈ table, nul ∉ entry.name)
    {name : Text}
    (ownTerminated : nul ∉ name)
    (after : List Char16) :
    findFormatFrom (name ++ nul :: after) table =
      .ok (table.find? fun entry => staticStriEq entry.name name) := by
  induction table with
  | nil =>
      rfl
  | cons entry rest inductionHypothesis =>
      obtain ⟨first, others⟩ := List.forall_mem_cons.mp terminated
      have compared :
          staticStriCmp (entry.name ++ [nul]) (name ++ nul :: after) =
            .ok (foldedDifference entry.name name) :=
        @striCmpFrom_eq _ _ first ownTerminated [] after [] [] rfl
      have matched :
          staticStriEq entry.name name =
            decide (foldedDifference entry.name name = 0) := by
        rw [staticStriEq, beq_eq_decide]
        exact decide_eq_decide.mpr
          (foldedDifference_order first ownTerminated).1.symm
      rw [findFormatFrom, compared, List.find?_cons, matched]
      by_cases same : foldedDifference entry.name name = 0
      · simp [same, bind, Except.bind, pure, Except.pure]
      · simpa [same, bind, Except.bind] using inductionHypothesis others

/--
The lookup of a terminated name never faults, whatever lies behind it, and
finds the entry whose name differs at most in the case of ASCII letters, the
only one of the table, or nothing.
-/
theorem findFormatIn_finds
    {name : Text}
    (terminated : nul ∉ name)
    (after : List Char16) :
    findFormatIn (some (name ++ nul :: after)) = .ok (mountFindFormat name) ∧
      ∀ entry,
        mountFindFormat name = some entry ↔
          entry ∈ mFormats ∧
            entry.name.map staticUpper = name.map staticUpper := by
  refine ⟨findFormatFrom_eq (fun _ => mFormats_terminated) terminated after,
    fun entry => ⟨fun found => ?_, fun ⟨member, same⟩ => ?_⟩⟩
  · have matched := List.find?_some found
    exact ⟨List.mem_of_find?_eq_some found, by
      simpa [staticStriEq] using matched⟩
  · cases found : mountFindFormat name with
    | none =>
        have unmatched := List.find?_eq_none.mp found entry member
        exact (unmatched (by simpa [staticStriEq] using same)).elim
    | some other =>
        have matched := List.find?_some found
        have alike : other.name.map staticUpper =
            entry.name.map staticUpper := by
          rw [same]
          simpa [staticStriEq] using matched
        rw [List.inj_on_of_nodup_map mFormats_folded
          (List.mem_of_find?_eq_some found) member alike]

/-- `eXt4`, with other characters behind its terminator. -/
theorem findFormatIn_finds_ext4 :
    findFormatIn (some (wide "eXt4" ++ nul :: wide "NTFS")) =
      .ok (mountFindFormat (wide "eXt4")) :=
  (@findFormatIn_finds (wide "eXt4") (by decide) (wide "NTFS")).1

end Lookup

end UefiMount
