import UefiMount.ShellMap

namespace UefiMount

/-!
# What a mapping refresh assigns

The refresh extends the Shell's table: every unmapped path of the handle list
gets one generated name, the least one that is free at that moment, and
everything that was in the table stays.  `Refreshed` states this for one
stretch of the handle loop; stretches compose, so the loop is covered by the
statement about one round.
-/

/-- The table entry that `SetMap` adds for a generated index. -/
def assigned (assignment : Nat × DevicePath) : MapEntry :=
  ⟨fsName assignment.1, assignment.2⟩

/-- `fs` is the least index whose generated name is free in the table. -/
structure Collation.LeastFreeName
    (collation : Collation)
    (table : List MapEntry)
    (fs : Nat) : Prop where
  free :
    ¬ collation.Taken table (fsName fs)
  least :
    ∀ other, other < fs → collation.Taken table (fsName other)
  bounded :
    fs ≤ table.length

/-- What one stretch of the handle loop did to the table. -/
structure Refreshed
    (collation : Collation)
    (initial : List MapEntry)
    (paths : List (Option DevicePath))
    (added : List (Nat × DevicePath))
    (final : List MapEntry) : Prop where
  /-- The old entries and the assignments, and nothing else. -/
  table :
    final.Perm (added.map assigned ++ initial)
  covered :
    ∀ {path}, some path ∈ paths → HasFsAlias final path
  onlyUnmapped :
    ∀ {fs path},
      (fs, path) ∈ added →
      some path ∈ paths ∧ ¬ HasFsAlias initial path
  onePerPath :
    (added.map Prod.snd).Nodup
  leastFree :
    ∀ {before after fs path},
      added = before ++ (fs, path) :: after →
      collation.LeastFreeName (before.map assigned ++ initial) fs

/-- Taken names only depend on the entries of a table. -/
theorem Collation.taken_congr
    {collation : Collation}
    {first second : List MapEntry}
    (same : first.Perm second)
    {name : Text} :
    collation.Taken first name ↔ collation.Taken second name := by
  simp only [Collation.Taken, same.mem_iff]

/-- Least free names only depend on the entries of a table. -/
theorem Collation.LeastFreeName.congr
    {collation : Collation}
    {first second : List MapEntry}
    {fs : Nat}
    (least : collation.LeastFreeName first fs)
    (same : first.Perm second) :
    collation.LeastFreeName second fs where
  free := by
    rw [← collation.taken_congr same]
    exact least.free
  least := by
    intro other below
    rw [← collation.taken_congr same]
    exact least.least other below
  bounded := by
    rw [← same.length_eq]
    exact least.bounded

namespace Refreshed

variable {collation : Collation}
  {initial middle final : List MapEntry}
  {added : List (Nat × DevicePath)}

/-- An alias of the table before is an alias of the table after. -/
theorem hasFsAlias
    {paths : List (Option DevicePath)}
    (refreshed : Refreshed collation initial paths added final)
    {path : DevicePath}
    (mapped : HasFsAlias initial path) :
    HasFsAlias final path := by
  obtain ⟨entry, member, samePath, isAlias⟩ := mapped
  refine ⟨entry, ?_, samePath, isAlias⟩
  rw [refreshed.table.mem_iff]
  exact List.mem_append_right _ member

/-- Every assigned path has an alias afterwards. -/
theorem hasFsAlias_added
    {paths : List (Option DevicePath)}
    (refreshed : Refreshed collation initial paths added final)
    {fs : Nat}
    {path : DevicePath}
    (member : (fs, path) ∈ added) :
    HasFsAlias final path :=
  refreshed.covered (refreshed.onlyUnmapped member).1

/-- A stretch that assigns nothing, over paths that all have an alias. -/
theorem unchanged
    {table : List MapEntry}
    {paths : List (Option DevicePath)}
    (covered : ∀ {path}, some path ∈ paths → HasFsAlias table path) :
    Refreshed collation table paths [] table where
  table := .refl _
  covered := covered
  onlyUnmapped := by simp
  onePerPath := by simp
  leastFree := by simp

/-- Two stretches of the loop compose. -/
theorem trans
    {firstPaths laterPaths : List (Option DevicePath)}
    {later : List (Nat × DevicePath)}
    (first : Refreshed collation initial firstPaths added middle)
    (second : Refreshed collation middle laterPaths later final) :
    Refreshed collation initial (firstPaths ++ laterPaths)
      (added ++ later) final where
  table := by
    have joined := second.table.trans (first.table.append_left _)
    rw [List.map_append, List.append_assoc]
    refine joined.trans ?_
    rw [← List.append_assoc, ← List.append_assoc]
    exact List.perm_append_comm.append_right _
  covered := by
    intro path member
    rcases List.mem_append.mp member with early | late
    · exact second.hasFsAlias (first.covered early)
    · exact second.covered late
  onlyUnmapped := by
    intro fs path member
    rcases List.mem_append.mp member with early | late
    · have unmapped := first.onlyUnmapped early
      exact ⟨List.mem_append_left _ unmapped.1, unmapped.2⟩
    · have unmapped := second.onlyUnmapped late
      exact ⟨List.mem_append_right _ unmapped.1,
        fun mapped => unmapped.2 (first.hasFsAlias mapped)⟩
  onePerPath := by
    rw [List.map_append, List.nodup_append]
    refine ⟨first.onePerPath, second.onePerPath, ?_⟩
    intro path early other late same
    subst same
    obtain ⟨⟨fs, _⟩, member, rfl⟩ := List.mem_map.mp early
    obtain ⟨⟨_, _⟩, laterMember, samePath⟩ := List.mem_map.mp late
    subst samePath
    exact (second.onlyUnmapped laterMember).2
      (first.hasFsAlias_added member)
  leastFree := by
    intro before after fs path shape
    rcases List.append_eq_append_iff.mp shape with
      ⟨inLater, rfl, laterShape⟩ | ⟨rest, addedShape, restShape⟩
    · have least := second.leastFree laterShape
      refine least.congr ?_
      rw [List.map_append]
      refine (first.table.append_left _).trans ?_
      rw [← List.append_assoc]
      exact List.perm_append_comm.append_right _
    · cases rest with
      | nil =>
          have least := second.leastFree
            (show later = [] ++ (fs, path) :: after by
              simpa using restShape.symm)
          rw [List.append_nil] at addedShape
          subst addedShape
          exact least.congr first.table
      | cons assignment rest =>
          rw [List.cons_append, List.cons.injEq] at restShape
          obtain ⟨rfl, _⟩ := restShape
          exact first.leastFree addedShape

/-- Generated names are absent from the table the loop started from. -/
theorem absent
    {paths : List (Option DevicePath)}
    (refreshed : Refreshed collation initial paths added final)
    {fs : Nat}
    {path : DevicePath}
    (member : (fs, path) ∈ added) :
    ¬ collation.Taken initial (fsName fs) := by
  rintro ⟨entry, inTable, sameName⟩
  obtain ⟨before, after, shape⟩ := List.mem_iff_append.mp member
  exact (refreshed.leastFree shape).free
    ⟨entry, List.mem_append_right _ inTable, sameName⟩

/-- Generated names are pairwise distinct, also when case is ignored. -/
theorem distinct
    {paths : List (Option DevicePath)}
    (refreshed : Refreshed collation initial paths added final) :
    added.Pairwise fun first second =>
      collation.key (fsName first.1) ≠
        collation.key (fsName second.1) := by
  rw [List.pairwise_iff_forall_sublist]
  intro first second ordered sameName
  obtain ⟨leading, trailing, rfl, inLeading, inTrailing⟩ :=
    List.cons_sublist_iff.mp ordered
  rw [List.singleton_sublist] at inTrailing
  obtain ⟨between, after, rfl⟩ := List.mem_iff_append.mp inTrailing
  have least := refreshed.leastFree
    (show leading ++ (between ++ second :: after) =
        (leading ++ between) ++ (second.1, second.2) :: after by
      simp)
  exact least.free
    ⟨assigned first,
      List.mem_append_left _
        (List.mem_map_of_mem (List.mem_append_left _ inLeading)),
      sameName⟩

end Refreshed

section Loop

variable {Shell : Type}
  {protocol : ShellProtocol Shell}
  {collation : Collation}
  {table : Shell → List MapEntry}

/-- The search for a free name ends at the least one, whatever fuel it has. -/
theorem ShellProtocol.Faithful.search_fsName
    (faithful : protocol.Faithful collation table)
    (shell : Shell) :
    ∃ fs,
      collation.LeastFreeName (table shell) fs ∧
        ∀ fuel,
          (table shell).length < fuel →
          LeastFree.search
              (fun fs =>
                (protocol.getDevicePathFromMap shell (fsName fs)).isSome)
              fuel 0 =
            some fs := by
  obtain ⟨fs, bounded, least, found⟩ :=
    @LeastFree.search_finds _
      (fun fs =>
        (protocol.getDevicePathFromMap shell (fsName fs)).isSome)
      (fun fs => collation.key (fsName fs))
      ((table shell).map fun entry => collation.key entry.name)
      (fun same => collation.fsName_injective same)
      (by
        intro index taken
        obtain ⟨entry, member, sameName⟩ :=
          (faithful.lookup_isSome shell _).mp taken
        exact List.mem_map.mpr ⟨entry, member, sameName⟩)
  rw [List.length_map] at bounded found
  refine ⟨fs, ⟨?_, ?_, bounded⟩, found⟩
  · rw [← faithful.lookup_isSome shell]
    simpa using least.free
  · intro other below
    rw [← faithful.lookup_isSome shell]
    exact least.least other (Nat.zero_le _) below

/-- One round of the loop assigns at most one name. -/
theorem mapRefreshHandle_assigns
    (faithful : protocol.Faithful collation table)
    {shell : Shell}
    (separable : Separable (table shell))
    (devicePath : Option DevicePath) :
    ∃ shell' added,
      (∀ fuel,
        (table shell).length < fuel →
        mapRefreshHandle protocol fuel devicePath shell = some shell') ∧
        Refreshed collation (table shell) [devicePath] added
          (table shell') ∧
        Separable (table shell') ∧
        (table shell').length ≤ (table shell).length + 1 := by
  cases devicePath with
  | none =>
      refine ⟨shell, [], fun _ _ => rfl, .unchanged ?_, separable,
        Nat.le_succ _⟩
      intro path member
      simp at member
  | some path =>
      have alias_iff := faithful.findFsAlias_iff separable path
      by_cases mapped : HasFsAlias (table shell) path
      · refine ⟨shell, [], ?_, .unchanged ?_, separable, Nat.le_succ _⟩
        · intro fuel _
          simp only [mapRefreshHandle, alias_iff.mpr mapped, ↓reduceIte]
        · intro other member
          obtain rfl : other = path := by simpa using member
          exact mapped
      · obtain ⟨fs, least, found⟩ := faithful.search_fsName shell
        have extended :
            (table (protocol.setMap shell path (fsName fs)).2).Perm
              (⟨fsName fs, path⟩ :: table shell) :=
          faithful.setMap_table least.free
        refine ⟨(protocol.setMap shell path (fsName fs)).2,
          [(fs, path)], ?_, ?_, ?_, ?_⟩
        · intro fuel enough
          have unmapped :
              (mapFindFsAlias
                (protocol.getMapFromDevicePath shell path)).isSome =
                  false := by
            rw [← Bool.not_eq_true, alias_iff]
            exact mapped
          simp only [mapRefreshHandle, unmapped, found fuel enough]
          rfl
        · exact {
            table := extended
            covered := by
              intro other member
              obtain rfl : other = path := by simpa using member
              exact ⟨_, extended.mem_iff.mpr (List.mem_cons_self ..),
                rfl, isFsAlias_fsName fs⟩
            onlyUnmapped := by
              intro index other member
              simp only [List.mem_singleton, Prod.mk.injEq] at member
              obtain ⟨rfl, rfl⟩ := member
              exact ⟨by simp, mapped⟩
            onePerPath := by simp
            leastFree := by
              intro before after index other shape
              cases before with
              | nil =>
                  simp only [List.nil_append, List.cons.injEq,
                    Prod.mk.injEq] at shape
                  obtain ⟨⟨rfl, rfl⟩, _⟩ := shape
                  exact least
              | cons _ rest =>
                  simp at shape
          }
        · intro entry member
          rcases List.mem_cons.mp (extended.mem_iff.mp member) with
            rfl | old
          · exact semicolon_not_mem_fsName fs
          · exact separable entry old
        · rw [extended.length_eq]
          exact Nat.le_refl _

/-- The handle loop ends and extends the table as a refresh should. -/
theorem mapRefreshHandles_assigns
    (faithful : protocol.Faithful collation table)
    {shell : Shell}
    (separable : Separable (table shell))
    (paths : List (Option DevicePath)) :
    ∃ shell' added,
      (∀ fuel,
        (table shell).length + paths.length ≤ fuel →
        mapRefreshHandles protocol fuel paths shell = some shell') ∧
        Refreshed collation (table shell) paths added (table shell') ∧
        Separable (table shell') := by
  induction paths generalizing shell with
  | nil =>
      refine ⟨shell, [], fun _ _ => rfl, .unchanged ?_, separable⟩
      intro path member
      simp at member
  | cons devicePath rest inductionHypothesis =>
      obtain ⟨middle, added, step, first, separable', grown⟩ :=
        mapRefreshHandle_assigns faithful separable devicePath
      obtain ⟨final, later, run, second, separable''⟩ :=
        inductionHypothesis separable'
      refine ⟨final, added ++ later, ?_, first.trans second, separable''⟩
      intro fuel enough
      rw [List.length_cons] at enough
      rw [mapRefreshHandles, step fuel (by omega), Option.bind_some]
      exact run fuel (by omega)

end Loop

/-- Upper case of an ASCII letter. -/
def asciiUpper (char : Char16) : Char16 :=
  if 0x61 ≤ char ∧ char ≤ 0x7A then char - 0x20 else char

/-- A collation that folds ASCII letters to upper case. -/
def asciiCollation : Collation where
  fold := asciiUpper
  digits := by
    have distinct :
        ∀ first second : Fin 10,
          asciiUpper (digitChar first) = asciiUpper (digitChar second) →
          first = second := by
      decide
    intro first second firstDigit secondDigit same
    exact congrArg Fin.val
      (distinct ⟨first, firstDigit⟩ ⟨second, secondDigit⟩ same)

/-- A Shell that keeps its table as a list. -/
def listShell : ShellProtocol (List MapEntry) where
  getMapFromDevicePath table path :=
    match namesOf table path with
    | [] =>
        none
    | names =>
        some (joinNames names)
  getDevicePathFromMap table name :=
    (table.find? fun entry =>
      asciiCollation.key entry.name = asciiCollation.key name).map
        (·.devicePath)
  setMap table path name :=
    (.success, table ++ [⟨name, path⟩])

/-- The list keeps the Shell's documented behaviour. -/
theorem listShell_faithful :
    listShell.Faithful asciiCollation fun table => table where
  unmapped := by
    intro table path noNames
    simp [listShell, noNames]
  mapped := by
    intro table path someNames
    refine ⟨namesOf table path, .refl _, ?_⟩
    cases names : namesOf table path with
    | nil =>
        exact (someNames names).elim
    | cons name rest =>
        simp [listShell, names]
  lookup := by
    intro table name path found
    obtain ⟨entry, isFound, samePath⟩ := Option.map_eq_some_iff.mp found
    exact ⟨entry, List.mem_of_find?_eq_some isFound,
      by simpa using List.find?_some isFound, samePath⟩
  lookup_free := by
    rintro table name notFound ⟨entry, member, sameName⟩
    simp only [listShell, Option.map_eq_none_iff, List.find?_eq_none,
      decide_eq_true_eq] at notFound
    exact notFound entry member sameName
  setMap_status := fun _ => rfl
  setMap_table := fun _ => List.perm_append_comm

/-- The boot disk as `FS0:` and an unnamed image volume as `BLK1:`. -/
def bootTable : List MapEntry :=
  [⟨wide "FS0:", [.other [1]]⟩, ⟨wide "BLK1:", [.other [2]]⟩]

example :
    mapRefreshHandles listShell 5
        [some [.other [1]], some [.other [2]], none] bootTable =
      some (bootTable ++ [⟨wide "fs1:", [.other [2]]⟩]) := by
  decide

end UefiMount
