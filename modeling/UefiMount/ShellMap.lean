import UefiMount.Decimal
import UefiMount.LeastFree
import UefiMount.LoopFactory

namespace UefiMount

/-!
# The Shell mapping table and its refresh

`MapFindFsAlias`, `MapSnapshotFsHandles` and `MapRefreshShell` over the three
calls of `EFI_SHELL_PROTOCOL` that they use.  The Shell is firmware: it is a
parameter, and `ShellProtocol.Faithful` names what the code relies on.  The
Shell compares names with the collation protocol, so lookups see names up to
a folding of their characters.
-/

/-- `L';'`, which separates the aliases of one device path. -/
def semicolon : Char16 := 0x3B

/-- The character of a decimal digit. -/
def digitChar (digit : Nat) : Char16 :=
  0x30 + UInt16.ofNat digit

/-- A case folding of characters; it may identify letters, but no two digits. -/
structure Collation where
  fold : Char16 → Char16
  digits :
    ∀ {first second : Nat},
      first < 10 →
      second < 10 →
      fold (digitChar first) = fold (digitChar second) →
      first = second

/-- A name as the Shell compares it. -/
def Collation.key (collation : Collation) (name : Text) : Text :=
  name.map collation.fold

/-- One entry of the Shell's mapping table. -/
structure MapEntry where
  name : Text
  devicePath : DevicePath
  deriving DecidableEq

/-- The calls of `EFI_SHELL_PROTOCOL` behind the refresh. -/
structure ShellProtocol (Shell : Type) where
  getMapFromDevicePath : Shell → DevicePath → Option Text
  getDevicePathFromMap : Shell → Text → Option DevicePath
  setMap : Shell → DevicePath → Text → EfiStatus × Shell

/-- Aliases joined by semicolons. -/
def joinNames : List Text → Text
  | [] =>
      []
  | [name] =>
      name
  | name :: next :: rest =>
      name ++ semicolon :: joinNames (next :: rest)

/-- The aliases of a device path, in table order. -/
def namesOf (table : List MapEntry) (path : DevicePath) : List Text :=
  (table.filter fun entry => entry.devicePath = path).map (·.name)

/-- Some entry of the table answers to the name. -/
def Collation.Taken
    (collation : Collation)
    (table : List MapEntry)
    (name : Text) : Prop :=
  ∃ entry ∈ table, collation.key entry.name = collation.key name

/--
The Shell keeps a table: it reports the names of exactly one path joined by
semicolons, looks names up without regard to case, and adds one entry for a
name that is free.
-/
structure ShellProtocol.Faithful
    {Shell : Type}
    (protocol : ShellProtocol Shell)
    (collation : Collation)
    (table : Shell → List MapEntry) : Prop where
  unmapped :
    ∀ {shell path},
      namesOf (table shell) path = [] →
      protocol.getMapFromDevicePath shell path = none
  mapped :
    ∀ {shell path},
      namesOf (table shell) path ≠ [] →
      ∃ names,
        names.Perm (namesOf (table shell) path) ∧
          protocol.getMapFromDevicePath shell path =
            some (joinNames names)
  lookup :
    ∀ {shell name path},
      protocol.getDevicePathFromMap shell name = some path →
      ∃ entry ∈ table shell,
        collation.key entry.name = collation.key name ∧
          entry.devicePath = path
  lookup_free :
    ∀ {shell name},
      protocol.getDevicePathFromMap shell name = none →
      ¬ collation.Taken (table shell) name
  setMap_status :
    ∀ {shell path name},
      ¬ collation.Taken (table shell) name →
      (protocol.setMap shell path name).1 = .success
  setMap_table :
    ∀ {shell path name},
      ¬ collation.Taken (table shell) name →
      (table (protocol.setMap shell path name).2).Perm
        (⟨name, path⟩ :: table shell)

/-- The text starts with `fs` in either case. -/
def isFsAlias : Text → Bool
  | first :: second :: _ =>
      (first == 0x66 || first == 0x46) &&
        (second == 0x73 || second == 0x53)
  | _ =>
      false

/-- The scan of `MapFindFsAlias`; `atToken` holds at the start and after `;`. -/
def mapFindFsAliasFrom : Bool → Text → Option Text
  | _, [] =>
      none
  | atToken, char :: rest =>
      if atToken && isFsAlias (char :: rest) then
        some (char :: rest)
      else
        mapFindFsAliasFrom (char == semicolon) rest

/-- `MapFindFsAlias`: the joined names from the first fs-style alias on. -/
def mapFindFsAlias (mapNames : Option Text) : Option Text :=
  mapNames.bind (mapFindFsAliasFrom true)

/--
`UnicodeSPrint (L"fs%u:")`.  The index is unbounded here; the search below
never goes past the number of table entries.
-/
def fsName (fs : Nat) : Text :=
  wide "fs" ++ (Decimal.digits fs).map digitChar ++ wide ":"

/-- `MapSnapshotFsHandles`: no handle at all is an empty snapshot. -/
def mapSnapshotFsHandles
    (located : EfiStatus × List Handle) :
    EfiStatus × List Handle :=
  if located.1 = .notFound then
    (.success, [])
  else
    located

/--
One round of the handle loop.  `fuel` bounds the search for a free name; there
is no result when the search is not over by then.
-/
def mapRefreshHandle
    {Shell : Type}
    (protocol : ShellProtocol Shell)
    (fuel : Nat)
    (devicePath : Option DevicePath)
    (shell : Shell) :
    Option Shell :=
  match devicePath with
  | none =>
      some shell
  | some path =>
      if (mapFindFsAlias
          (protocol.getMapFromDevicePath shell path)).isSome then
        some shell
      else
        let taken := fun fs =>
          (protocol.getDevicePathFromMap shell (fsName fs)).isSome
        (LeastFree.search taken fuel 0).map fun fs =>
          -- The status of SetMap only steers a debug message.
          (protocol.setMap shell path (fsName fs)).2

/-- The handle loop of `MapRefreshShell`. -/
def mapRefreshHandles
    {Shell : Type}
    (protocol : ShellProtocol Shell)
    (fuel : Nat) :
    List (Option DevicePath) → Shell → Option Shell
  | [], shell =>
      some shell
  | devicePath :: rest, shell =>
      (mapRefreshHandle protocol fuel devicePath shell).bind
        (mapRefreshHandles protocol fuel rest)

/-- `MapRefreshShell`. -/
def mapRefreshShell
    {Shell : Type}
    (protocol : ShellProtocol Shell)
    (locateShell : EfiStatus)
    (locatedFs : EfiStatus × List Handle)
    (devicePathFromHandle : Handle → Option DevicePath)
    (fuel : Nat)
    (shell : Shell) :
    Option (EfiStatus × Shell) :=
  if locateShell.isError then
    some (locateShell, shell)
  else
    let (status, handles) := mapSnapshotFsHandles locatedFs
    if status.isError then
      some (status, shell)
    else
      (mapRefreshHandles protocol fuel
        (handles.map devicePathFromHandle) shell).map
          fun shell => (.success, shell)

/-- The path has an alias whose first two letters are fs in either case. -/
def HasFsAlias (table : List MapEntry) (path : DevicePath) : Prop :=
  ∃ entry ∈ table, entry.devicePath = path ∧ isFsAlias entry.name = true

/-- No name of the table contains a semicolon. -/
def Separable (table : List MapEntry) : Prop :=
  ∀ entry ∈ table, semicolon ∉ entry.name

instance (table : List MapEntry) : Decidable (Separable table) :=
  inferInstanceAs (Decidable (∀ entry ∈ table, semicolon ∉ entry.name))

/-- Away from the start of a token the scan only looks for the next semicolon. -/
theorem mapFindFsAliasFrom_skip
    {name rest : Text}
    (plain : semicolon ∉ name) :
    mapFindFsAliasFrom false name = none ∧
      mapFindFsAliasFrom false (name ++ semicolon :: rest) =
        mapFindFsAliasFrom true rest := by
  induction name with
  | nil =>
      simp [mapFindFsAliasFrom]
  | cons char name inductionHypothesis =>
      simp only [List.mem_cons, not_or] at plain
      obtain ⟨notSeparator, plain⟩ := plain
      have ordinary : (char == semicolon) = false :=
        beq_false_of_ne (Ne.symm notSeparator)
      simpa [mapFindFsAliasFrom, ordinary] using
        inductionHypothesis plain

/-- A semicolon behind a name does not make it an fs-style alias. -/
theorem isFsAlias_append_semicolon (name rest : Text) :
    isFsAlias (name ++ semicolon :: rest) = isFsAlias name := by
  match name with
  | [] =>
      cases rest <;> rfl
  | [char] =>
      simp [isFsAlias, semicolon]
  | _ :: _ :: _ =>
      rfl

/-- At the start of a token the scan tests that token. -/
theorem mapFindFsAliasFrom_token
    {name rest : Text}
    (plain : semicolon ∉ name) :
    (mapFindFsAliasFrom true name).isSome = isFsAlias name ∧
      (mapFindFsAliasFrom true (name ++ semicolon :: rest)).isSome =
        (isFsAlias name ||
          (mapFindFsAliasFrom true rest).isSome) := by
  have sameToken := isFsAlias_append_semicolon name rest
  cases name with
  | nil =>
      have notAlias : isFsAlias [] = false := rfl
      rw [List.nil_append] at sameToken ⊢
      simp [mapFindFsAliasFrom, sameToken, notAlias]
  | cons char name =>
      simp only [List.mem_cons, not_or] at plain
      obtain ⟨notSeparator, plain⟩ := plain
      have ordinary : (char == semicolon) = false :=
        beq_false_of_ne (Ne.symm notSeparator)
      obtain ⟨ends, continues⟩ :=
        @mapFindFsAliasFrom_skip name rest plain
      rw [List.cons_append] at sameToken ⊢
      simp only [mapFindFsAliasFrom, ordinary, sameToken, ends, continues,
        Bool.true_and]
      cases isFsAlias (char :: name) <;> simp

/-- The scan of joined names finds an fs-style alias exactly when there is one. -/
theorem mapFindFsAlias_joinNames
    {names : List Text}
    (plain : ∀ name ∈ names, semicolon ∉ name) :
    (mapFindFsAlias (some (joinNames names))).isSome = true ↔
      ∃ name ∈ names, isFsAlias name = true := by
  simp only [mapFindFsAlias, Option.bind_some]
  fun_induction joinNames names with
  | case1 =>
      simp [mapFindFsAliasFrom]
  | case2 name =>
      have token := @mapFindFsAliasFrom_token name [] (plain name (by simp))
      simp [token.1]
  | case3 name next rest inductionHypothesis =>
      have token :=
        @mapFindFsAliasFrom_token name (joinNames (next :: rest))
          (plain name (by simp))
      have later := inductionHypothesis
        (fun other member => plain other (List.mem_cons_of_mem _ member))
      rw [token.2, Bool.or_eq_true, later]
      simp

/-- The names of a path are the names of its table entries. -/
theorem mem_namesOf
    {table : List MapEntry}
    {path : DevicePath}
    {name : Text} :
    name ∈ namesOf table path ↔ ⟨name, path⟩ ∈ table := by
  simp only [namesOf, List.mem_map, List.mem_filter, decide_eq_true_eq]
  constructor
  · rintro ⟨entry, ⟨member, rfl⟩, rfl⟩
    exact member
  · intro member
    exact ⟨_, ⟨member, rfl⟩, rfl⟩

/-- The alias test of the refresh decides whether the path has an fs-style alias. -/
theorem ShellProtocol.Faithful.findFsAlias_iff
    {Shell : Type}
    {protocol : ShellProtocol Shell}
    {collation : Collation}
    {table : Shell → List MapEntry}
    (faithful : protocol.Faithful collation table)
    {shell : Shell}
    (separable : Separable (table shell))
    (path : DevicePath) :
    (mapFindFsAlias
        (protocol.getMapFromDevicePath shell path)).isSome = true ↔
      HasFsAlias (table shell) path := by
  have alias_iff :
      HasFsAlias (table shell) path ↔
        ∃ name ∈ namesOf (table shell) path, isFsAlias name = true := by
    constructor
    · rintro ⟨⟨name, _⟩, member, rfl, isAlias⟩
      exact ⟨name, mem_namesOf.mpr member, isAlias⟩
    · rintro ⟨name, member, isAlias⟩
      exact ⟨_, mem_namesOf.mp member, rfl, isAlias⟩
  rw [alias_iff]
  by_cases unmapped : namesOf (table shell) path = []
  · rw [faithful.unmapped unmapped, unmapped]
    simp [mapFindFsAlias]
  · obtain ⟨names, sameNames, answer⟩ := faithful.mapped unmapped
    rw [answer, mapFindFsAlias_joinNames]
    · simp only [sameNames.mem_iff]
    · intro name member
      exact separable _ (mem_namesOf.mp (sameNames.mem_iff.mp member))

/-- A lookup succeeds exactly for the names that are taken. -/
theorem ShellProtocol.Faithful.lookup_isSome
    {Shell : Type}
    {protocol : ShellProtocol Shell}
    {collation : Collation}
    {table : Shell → List MapEntry}
    (faithful : protocol.Faithful collation table)
    (shell : Shell)
    (name : Text) :
    (protocol.getDevicePathFromMap shell name).isSome = true ↔
      collation.Taken (table shell) name := by
  cases answer : protocol.getDevicePathFromMap shell name with
  | none =>
      simpa using faithful.lookup_free answer
  | some path =>
      obtain ⟨entry, member, sameName, _⟩ := faithful.lookup answer
      simpa using ⟨entry, member, sameName⟩

/-- Generated names contain no semicolon. -/
theorem semicolon_not_mem_fsName (fs : Nat) : semicolon ∉ fsName fs := by
  intro member
  simp only [fsName, List.mem_append, List.mem_map] at member
  rcases member with (letters | ⟨digit, isDigit, isSemicolon⟩) | colon
  · exact absurd letters (by decide)
  · have below := Decimal.digit_lt isDigit
    have distinct :
        ∀ digit : Fin 10, digitChar digit ≠ semicolon := by decide
    exact distinct ⟨digit, below⟩ isSemicolon
  · exact absurd colon (by decide)

/-- Generated names are fs-style aliases. -/
theorem isFsAlias_fsName (fs : Nat) : isFsAlias (fsName fs) = true := by
  rfl

/-- Generated names of different indices differ, also when case is ignored. -/
theorem Collation.fsName_injective
    (collation : Collation)
    {first second : Nat}
    (same :
      collation.key (fsName first) = collation.key (fsName second)) :
    first = second := by
  simp only [Collation.key, fsName, List.map_append, List.map_map,
    List.append_assoc] at same
  have sameDigits :=
    List.append_cancel_right (List.append_cancel_left same)
  exact @Decimal.digits_map_injective _ (collation.fold ∘ digitChar)
    (fun below otherBelow => collation.digits below otherBelow)
    first second sameDigits

end UefiMount
