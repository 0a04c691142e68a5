import Mathlib.Data.List.Nodup
import Mathlib.Data.List.Perm.Subperm

namespace FuelledRuns

/-!
# Loops and recursions with fuel

A computation that need not end is a function of the fuel that it is given.
When more fuel never changes a result, the computation ends exactly when some
fuel gives a result, and any two results are the same.  Loops end because a
list of distinct numbers below a bound cannot grow for ever.
-/

/-- A result stays the same with more fuel; `out` stands for no result. -/
def Stable (out : α) (run : Nat → α) : Prop :=
  ∀ fuel, run fuel ≠ out → run (fuel + 1) = run fuel

/-- Some fuel is enough. -/
def Ends (out : α) (run : Nat → α) : Prop :=
  ∃ fuel, run fuel ≠ out

variable {out : α} {run : Nat → α}

/-- A result stays the same with any more fuel. -/
theorem Stable.of_le
    (stable : Stable out run)
    {fuel more : Nat}
    (result : run fuel ≠ out)
    (atLeast : fuel ≤ more) :
    run more = run fuel := by
  induction more with
  | zero =>
      rw [Nat.le_zero.mp atLeast]
  | succ more inductionHypothesis =>
      rcases Nat.le_succ_iff.mp atLeast with within | rfl
      · have same := inductionHypothesis within
        rw [stable more (by rwa [same]), same]
      · rfl

/-- Two results are the same. -/
theorem Stable.unique
    (stable : Stable out run)
    {first second : Nat}
    (firstResult : run first ≠ out)
    (secondResult : run second ≠ out) :
    run first = run second := by
  rcases Nat.le_total first second with atMost | atMost
  · exact (stable.of_le firstResult atMost).symm
  · exact stable.of_le secondResult atMost

section Sequences

variable {stop : ε}

/-- When neither stage changes, two stages in sequence do not either. -/
theorem bind_eq_of_ne
    {first firstMore : Except ε α}
    {next nextMore : α → Except ε β}
    (firstSame : first ≠ .error stop → firstMore = first)
    (nextSame :
      ∀ value, first = .ok value →
        next value ≠ .error stop → nextMore value = next value)
    (result : first >>= next ≠ .error stop) :
    firstMore >>= nextMore = first >>= next := by
  cases reached : first with
  | error problem =>
      have notStop : first ≠ .error stop := by
        intro stopped
        rw [stopped] at result
        exact result rfl
      rw [firstSame notStop, reached]
      rfl
  | ok value =>
      rw [firstSame (by simp [reached]), reached]
      refine nextSame value reached fun stopped => result ?_
      rw [reached]
      exact stopped

theorem Stable.bind
    {first : Nat → Except ε α}
    {next : Nat → α → Except ε β}
    (firstStable : Stable (.error stop) first)
    (nextStable :
      ∀ value, Stable (.error stop) fun fuel => next fuel value) :
    Stable (.error stop) fun fuel => first fuel >>= next fuel :=
  fun fuel => bind_eq_of_ne (firstStable fuel) fun value _ =>
    nextStable value fuel

/-- Two stages end when the first one does and each continuation does. -/
theorem Ends.bind
    {first : Nat → Except ε α}
    {next : Nat → α → Except ε β}
    (firstStable : Stable (.error stop) first)
    (firstEnds : Ends (.error stop) first)
    (nextStable :
      ∀ value, Stable (.error stop) fun fuel => next fuel value)
    (nextEnds :
      ∀ value fuel, first fuel = .ok value →
        Ends (.error stop) fun fuel => next fuel value) :
    Ends (.error stop) fun fuel => first fuel >>= next fuel := by
  obtain ⟨fuel, result⟩ := firstEnds
  cases reached : first fuel with
  | error problem =>
      rw [reached] at result
      refine ⟨fuel, fun stopped => result ?_⟩
      simp only [reached] at stopped
      exact congrArg _ (Except.error.inj stopped)
  | ok value =>
      obtain ⟨more, later⟩ := nextEnds value fuel reached
      refine ⟨max fuel more, ?_⟩
      have firstSame := firstStable.of_le result (Nat.le_max_left fuel more)
      have laterSame :=
        (nextStable value).of_le later (Nat.le_max_right fuel more)
      simp only [firstSame, reached]
      change next (max fuel more) value ≠ .error stop
      rwa [laterSame]

/-- Some fuel is enough for a value. -/
def Returns (run : Nat → Except ε α) : Prop :=
  ∃ fuel value, run fuel = .ok value

/-- A computation that returns does so with any fuel that is enough. -/
theorem Stable.ok_of_returns
    {run : Nat → Except ε α}
    (stable : Stable (.error stop) run)
    (returns : Returns run)
    (fuel : Nat) :
    run fuel = .error stop ∨ ∃ value, run fuel = .ok value := by
  obtain ⟨enough, value, returned⟩ := returns
  by_cases result : run fuel = .error stop
  · exact .inl result
  · right
    have same :=
      stable.unique result (show run enough ≠ .error stop by simp [returned])
    exact ⟨value, same.trans returned⟩

/-- Two stages return when the first one does and the second one does there. -/
theorem Returns.bind
    {first : Nat → Except ε α}
    {next : Nat → α → Except ε β}
    (firstStable : Stable (.error stop) first)
    (firstReturns : Returns first)
    (nextStable :
      ∀ value, Stable (.error stop) fun fuel => next fuel value)
    (nextReturns :
      ∀ value fuel, first fuel = .ok value →
        Returns fun fuel => next fuel value) :
    Returns fun fuel => first fuel >>= next fuel := by
  obtain ⟨fuel, value, returned⟩ := firstReturns
  obtain ⟨more, final, later⟩ := nextReturns value fuel returned
  dsimp only at later
  refine ⟨max fuel more, final, ?_⟩
  have firstSame :=
    firstStable.of_le (by simp [returned]) (Nat.le_max_left fuel more)
  have laterSame :=
    (nextStable value).of_le (by simp [later]) (Nat.le_max_right fuel more)
  dsimp only at laterSame ⊢
  rw [firstSame, returned]
  exact laterSame.trans later

end Sequences

/-- Distinct numbers below a bound are at most so many. -/
theorem length_le_of_nodup
    {numbers : List Nat}
    (distinct : numbers.Nodup)
    {bound : Nat}
    (below : ∀ number ∈ numbers, number < bound) :
    numbers.length ≤ bound := by
  have contained : numbers ⊆ List.range bound := fun number member =>
    List.mem_range.mpr (below number member)
  have fewer := (distinct.subperm contained).length_le
  rwa [List.length_range] at fewer

/-- A sequence of numbers below a bound repeats one of them. -/
theorem exists_repeat
    {sequence : Nat → Nat}
    {bound : Nat}
    (below : ∀ index ≤ bound, sequence index < bound) :
    ∃ first second,
      first < second ∧ second ≤ bound ∧ sequence first = sequence second := by
  by_contra distinct
  have noDuplicates : ((List.range (bound + 1)).map sequence).Nodup := by
    refine List.Nodup.map_on ?_ List.nodup_range
    intro first inFirst second inSecond same
    have firstBelow := List.mem_range.mp inFirst
    have secondBelow := List.mem_range.mp inSecond
    rcases Nat.lt_trichotomy first second with less | equal | greater
    · exact absurd ⟨first, second, less, by omega, same⟩ distinct
    · exact equal
    · exact absurd ⟨second, first, greater, by omega, same.symm⟩ distinct
  have fewer := length_le_of_nodup noDuplicates (by
    intro number member
    obtain ⟨index, inRange, rfl⟩ := List.mem_map.mp member
    exact below index (Nat.le_of_lt_succ (List.mem_range.mp inRange)))
  rw [List.length_map, List.length_range] at fewer
  omega

end FuelledRuns
