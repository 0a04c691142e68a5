import Mathlib.Data.List.Perm.Subperm
import Mathlib.Data.List.Nodup

namespace LeastFree

/-!
# Searching for the least free index

A loop that probes one index after the other and stops at the first free one
has no bound of its own.  The module says what it finds, and that it does find
something whenever the occupied indices are named by the members of a finite
list: one of the first `length + 1` indices is then free.
-/

/-- Probe `start`, `start + 1` and so on, `fuel` indices at most. -/
def search (taken : Nat → Bool) : Nat → Nat → Option Nat
  | 0, _ =>
      none
  | fuel + 1, start =>
      if taken start then
        search taken fuel (start + 1)
      else
        some start

/-- `index` is the first free index from `start` on. -/
structure Least
    (taken : Nat → Bool)
    (start index : Nat) : Prop where
  free :
    taken index = false
  reached :
    start ≤ index
  least :
    ∀ other, start ≤ other → other < index → taken other = true

/-- A search with enough fuel ends at the least free index. -/
theorem search_complete
    {taken : Nat → Bool}
    {fuel start index : Nat}
    (least : Least taken start index)
    (enough : index < start + fuel) :
    search taken fuel start = some index := by
  induction fuel generalizing start with
  | zero =>
      exact (Nat.not_lt.mpr least.reached enough).elim
  | succ fuel inductionHypothesis =>
      simp only [search]
      rcases Nat.eq_or_lt_of_le least.reached with rfl | beyond
      · simp [least.free]
      · rw [if_pos (least.least start (Nat.le_refl _) beyond)]
        apply inductionHypothesis
        · exact ⟨least.free, beyond, fun other reached =>
            least.least other (Nat.le_of_succ_le reached)⟩
        · rw [Nat.add_right_comm]
          exact enough

/-- Below any free index lies a least one. -/
theorem exists_least
    {taken : Nat → Bool}
    {start index : Nat}
    (free : taken index = false)
    (reached : start ≤ index) :
    ∃ found, found ≤ index ∧ Least taken start found := by
  induction index using Nat.strongRecOn with
  | ind index inductionHypothesis =>
      by_cases earlier :
          ∃ other, start ≤ other ∧ other < index ∧ taken other = false
      · obtain ⟨other, otherReached, below, otherFree⟩ := earlier
        obtain ⟨found, atMost, least⟩ :=
          inductionHypothesis other below otherFree otherReached
        exact ⟨found, Nat.le_trans atMost (Nat.le_of_lt below), least⟩
      · refine ⟨index, Nat.le_refl _, free, reached, ?_⟩
        intro other otherReached below
        cases occupied : taken other with
        | true =>
            rfl
        | false =>
            exact (earlier ⟨other, otherReached, below, occupied⟩).elim

/-- Distinct keys cannot all lie in a list that is too short for them. -/
theorem exists_key_not_mem
    {key : Nat → κ}
    (distinct : ∀ {first second}, key first = key second → first = second)
    (keys : List κ) :
    ∃ index, index ≤ keys.length ∧ key index ∉ keys := by
  by_contra occupied
  simp only [not_exists, not_and, not_not] at occupied
  have noDuplicates :
      ((List.range (keys.length + 1)).map key).Nodup :=
    List.nodup_range.map fun _ _ => distinct
  have contained : (List.range (keys.length + 1)).map key ⊆ keys := by
    intro name member
    obtain ⟨index, below, rfl⟩ := List.mem_map.mp member
    exact occupied index (Nat.le_of_lt_succ (List.mem_range.mp below))
  have short := (noDuplicates.subperm contained).length_le
  simp only [List.length_map, List.length_range] at short
  exact Nat.not_succ_le_self _ short

/--
When the occupied indices are those whose key lies in a finite list, every
search with more fuel than the list has members ends at the least free index.
-/
theorem search_finds
    {taken : Nat → Bool}
    {key : Nat → κ}
    {keys : List κ}
    (distinct : ∀ {first second}, key first = key second → first = second)
    (occupied : ∀ index, taken index = true → key index ∈ keys) :
    ∃ index,
      index ≤ keys.length ∧
        Least taken 0 index ∧
        ∀ fuel, keys.length < fuel → search taken fuel 0 = some index := by
  obtain ⟨candidate, short, absent⟩ := exists_key_not_mem distinct keys
  have free : taken candidate = false := by
    cases probe : taken candidate with
    | false =>
        rfl
    | true =>
        exact (absent (occupied candidate probe)).elim
  obtain ⟨index, atMost, least⟩ := exists_least free (Nat.zero_le _)
  have bounded := Nat.le_trans atMost short
  refine ⟨index, bounded, least, ?_⟩
  intro fuel enough
  exact search_complete least (by omega)

end LeastFree
