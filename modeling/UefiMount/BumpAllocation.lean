import Mathlib.Data.List.Nodup
import Mathlib.Data.List.Range

namespace BumpAllocation

/-!
# Bump allocation

An allocator that hands out consecutive runs of units, each behind the one
before, and links the units of a run in a table.  The runs tile what has been
handed out, and the table leads from the first unit of a run through all of
its units to a stop mark.
-/

/-- A run of `count` units from `first` on, and what it is for. -/
structure Extent (π : Type _) where
  first : Nat
  count : Nat
  payload : π

/-- What the table says about the unit at a place of the run. -/
def Extent.link (stop : Nat) (extent : Extent π) (place : Nat) : Nat :=
  if place + 1 < extent.count then extent.first + place + 1 else stop

namespace Extent

/-- The units of the run. -/
def units (extent : Extent π) : List Nat :=
  List.range' extent.first extent.count

/-- The unit behind the run. -/
def behind (extent : Extent π) : Nat :=
  extent.first + extent.count

/-- The table entries of the run. -/
def links (stop : Nat) (extent : Extent π) : List (Nat × Nat) :=
  (List.range extent.count).map fun place =>
    (extent.first + place, extent.link stop place)

theorem links_map_fst (stop : Nat) (extent : Extent π) :
    (extent.links stop).map Prod.fst = extent.units := by
  simp [links, units, List.range'_eq_map_range, Function.comp_def]

theorem mem_units {extent : Extent π} {unit : Nat} :
    unit ∈ extent.units ↔ extent.first ≤ unit ∧ unit < extent.behind := by
  simp [units, behind, List.mem_range'_1]

end Extent

/-- The runs follow one another from one unit to another, and none is empty. -/
inductive Tiles : Nat → List (Extent π) → Nat → Prop where
  | nil {unit : Nat} :
      Tiles unit [] unit
  | cons
      {extent : Extent π}
      (occupied : 0 < extent.count)
      {extents : List (Extent π)}
      {stop : Nat}
      (rest : Tiles extent.behind extents stop) :
      Tiles extent.first (extent :: extents) stop

namespace Tiles

variable {start stop : Nat} {extents : List (Extent π)}

theorem le (tiles : Tiles start extents stop) : start ≤ stop := by
  induction tiles with
  | nil =>
      exact Nat.le_refl _
  | cons _ _ inductionHypothesis =>
      exact Nat.le_trans (Nat.le_add_right ..) inductionHypothesis

theorem append
    {middle : Nat}
    {others : List (Extent π)}
    (first : Tiles start extents middle)
    (later : Tiles middle others stop) :
    Tiles start (extents ++ others) stop := by
  induction first with
  | nil =>
      exact later
  | cons occupied _ inductionHypothesis =>
      exact .cons occupied (inductionHypothesis later)

/-- Together the runs have exactly the units from start to stop, in order. -/
theorem flatMap_units (tiles : Tiles start extents stop) :
    extents.flatMap Extent.units = List.range' start (stop - start) := by
  induction tiles with
  | nil =>
      simp
  | @cons extent occupied extents stop rest inductionHypothesis =>
      have reached := rest.le
      simp only [List.flatMap_cons, inductionHypothesis, Extent.units,
        Extent.behind]
      rw [List.range'_append_1]
      congr 1
      simp only [Extent.behind] at reached
      omega

/-- A tiling begins with its first run. -/
theorem uncons
    {extent : Extent π}
    (tiles : Tiles start (extent :: extents) stop) :
    extent.first = start ∧ 0 < extent.count ∧
      Tiles extent.behind extents stop := by
  cases tiles with
  | cons occupied rest =>
      exact ⟨rfl, occupied, rest⟩

/-- Every run lies between start and stop. -/
theorem bounds
    (tiles : Tiles start extents stop)
    {extent : Extent π}
    (member : extent ∈ extents) :
    start ≤ extent.first ∧ 0 < extent.count ∧ extent.behind ≤ stop := by
  induction tiles with
  | nil =>
      cases member
  | @cons first occupied rest stop tiles inductionHypothesis =>
      rcases List.mem_cons.mp member with rfl | member
      · exact ⟨Nat.le_refl _, occupied, tiles.le⟩
      · obtain ⟨reached, rest⟩ := inductionHypothesis member
        exact ⟨Nat.le_trans (Nat.le_add_right ..) reached, rest⟩

/-- Every run ends where or before the later ones begin. -/
theorem pairwise (tiles : Tiles start extents stop) :
    extents.Pairwise fun earlier later => earlier.behind ≤ later.first := by
  induction tiles with
  | nil =>
      exact .nil
  | cons _ rest inductionHypothesis =>
      exact .cons (fun later member => (rest.bounds member).1)
        inductionHypothesis

/-- Two runs are one and the same, or one lies behind the other. -/
theorem apart
    (tiles : Tiles start extents stop)
    {first second : Extent π}
    (firstMember : first ∈ extents)
    (secondMember : second ∈ extents) :
    first = second ∨ first.behind ≤ second.first ∨
      second.behind ≤ first.first := by
  induction tiles with
  | nil =>
      cases firstMember
  | cons _ rest inductionHypothesis =>
      rcases List.mem_cons.mp firstMember with rfl | firstLater <;>
        rcases List.mem_cons.mp secondMember with rfl | secondLater
      · exact .inl rfl
      · exact .inr (.inl (rest.bounds secondLater).1)
      · exact .inr (.inr (rest.bounds firstLater).1)
      · exact inductionHypothesis firstLater secondLater

/-- The last run ends where the tiling stops. -/
theorem last
    (tiles : Tiles start extents stop)
    (some : extents ≠ []) :
    ∃ extent ∈ extents, extent.behind = stop := by
  induction tiles with
  | nil =>
      exact (some rfl).elim
  | @cons extent _ rest stop tiles inductionHypothesis =>
      cases rest with
      | nil =>
          refine ⟨extent, List.mem_cons_self .., ?_⟩
          generalize extent.behind = behind at tiles
          cases tiles
          rfl
      | cons next later =>
          obtain ⟨last, member, ends⟩ :=
            inductionHypothesis (List.cons_ne_nil _ _)
          exact ⟨last, List.mem_cons_of_mem _ member, ends⟩

/-- A tiling can be cut between any two runs. -/
theorem split
    {earlier later : List (Extent π)}
    (tiles : Tiles start (earlier ++ later) stop) :
    ∃ middle, Tiles start earlier middle ∧ Tiles middle later stop := by
  induction earlier generalizing start with
  | nil =>
      exact ⟨start, .nil, tiles⟩
  | cons extent earlier inductionHypothesis =>
      cases tiles with
      | cons occupied rest =>
          obtain ⟨middle, first, second⟩ := inductionHypothesis rest
          exact ⟨middle, .cons occupied first, second⟩

/-- No unit is in two runs. -/
theorem nodup (tiles : Tiles start extents stop) :
    (extents.flatMap Extent.units).Nodup := by
  rw [tiles.flatMap_units]
  exact List.nodup_range'

end Tiles

/-- The table leads from a unit through a list of units to the stop mark. -/
inductive Chain (table : Nat → Option Nat) (stop : Nat) :
    Nat → List Nat → Prop where
  | last
      {unit : Nat}
      (entry : table unit = some stop) :
      Chain table stop unit [unit]
  | link
      {unit next : Nat}
      {units : List Nat}
      (entry : table unit = some next)
      (rest : Chain table stop next units) :
      Chain table stop unit (unit :: units)

/-- A table with the entries of a run leads through the run. -/
theorem Extent.chain
    {table : Nat → Option Nat}
    {stop : Nat}
    {extent : Extent π}
    (occupied : 0 < extent.count)
    (entries :
      ∀ place < extent.count,
        table (extent.first + place) = some (extent.link stop place)) :
    Chain table stop extent.first extent.units := by
  obtain ⟨first, count, payload⟩ := extent
  simp only [Extent.units, Extent.link] at occupied entries ⊢
  induction count generalizing first with
  | zero =>
      exact (Nat.lt_irrefl 0 occupied).elim
  | succ count inductionHypothesis =>
      have entry := entries 0 occupied
      cases count with
      | zero =>
          exact .last (by simpa using entry)
      | succ count =>
          rw [List.range'_succ]
          have entry :
              table first = some (first + 1) := by simpa using entry
          refine .link entry ?_
          apply inductionHypothesis (first + 1) (Nat.succ_pos _)
          intro place below
          have shifted := entries (place + 1) (by omega)
          rw [show first + 1 + place = first + (place + 1) by omega,
            shifted]
          congr 1
          split <;> split <;> omega

/-- A table whose keys are distinct shows each of its entries. -/
theorem lookup_of_mem
    {table : List (Nat × β)}
    (distinct : (table.map Prod.fst).Nodup)
    {unit : Nat}
    {next : β}
    (member : (unit, next) ∈ table) :
    table.lookup unit = some next := by
  induction table with
  | nil =>
      cases member
  | cons entry rest inductionHypothesis =>
      obtain ⟨key, value⟩ := entry
      simp only [List.map_cons, List.nodup_cons] at distinct
      rcases List.mem_cons.mp member with same | inRest
      · obtain ⟨rfl, rfl⟩ := Prod.mk.inj same
        exact List.lookup_cons_self
      · have different : (unit == key) = false := by
          rw [beq_eq_false_iff_ne]
          rintro rfl
          exact distinct.1 (List.mem_map.mpr ⟨(_, next), inRest, rfl⟩)
        rw [List.lookup_cons, different]
        exact inductionHypothesis distinct.2 inRest

/-- The table of runs that tile their units leads through each of them. -/
theorem Tiles.chain
    {start stop mark : Nat}
    {extents : List (Extent π)}
    (tiles : Tiles start extents stop)
    {extent : Extent π}
    (member : extent ∈ extents) :
    Chain (fun unit => (extents.flatMap (Extent.links mark)).lookup unit)
      mark extent.first extent.units := by
  have distinct :
      ((extents.flatMap (Extent.links mark)).map Prod.fst).Nodup := by
    rw [List.map_flatMap]
    simp only [Extent.links_map_fst]
    exact tiles.nodup
  apply extent.chain (tiles.bounds member).2.1
  intro place below
  apply lookup_of_mem distinct
  exact List.mem_flatMap.mpr ⟨extent, member,
    List.mem_map.mpr ⟨place, List.mem_range.mpr below, rfl⟩⟩

end BumpAllocation
