import Mathlib.Data.Finset.Card
import Mathlib.Data.Finset.Dedup
import Mathlib.Data.Finset.SDiff
import Mathlib.Data.List.TakeWhile
import UefiMount.FlowReports
import UefiMount.LoopFactoryLifecycle
import UefiMount.ShellMapRefresh

namespace UefiMount

/-!
# The report of new volumes

What the two flows print about volumes, compared with the volumes that are
there when they start and when they end.  The report is right as long as both
snapshots work; a first one that fails makes old volumes look new, and a
second one that fails suppresses the report.  A printed name is cut off at 31
characters.
-/

section Aliases

/-- The alias that the report picks from the joined names of a path. -/
def shownAlias (mapName : Text) : Text :=
  ((mapFindFsAlias (some mapName)).getD mapName).takeWhile (· ≠ semicolon)

/-- The name that `MapPrintNewVolumes` prints for a volume. -/
def volumeName (outcomes : VolumeOutcomes) : Text :=
  match volumeLine outcomes with
  | .newVolume name _ =>
      name
  | _ =>
      []

/-- A name is a question mark, or the shown alias as far as it fits. -/
theorem volumeName_eq (outcomes : VolumeOutcomes) :
    volumeName outcomes =
      if outcomes.locateShell.isError then
        wide "?"
      else
        (outcomes.mapName.map fun mapName =>
          (shownAlias mapName).take 31).getD (wide "?") := by
  simp only [volumeName, volumeLine]
  split
  · rfl
  · cases outcomes.mapName with
    | none =>
        rfl
    | some mapName =>
        rfl

/-- Up to the first semicolon, joined names are the first name. -/
theorem takeWhile_joinNames
    {name : Text}
    {rest : List Text}
    (plain : semicolon ∉ name) :
    (joinNames (name :: rest)).takeWhile (· ≠ semicolon) = name := by
  have inName : ∀ char ∈ name, decide (char ≠ semicolon) = true :=
    fun char member => decide_eq_true (ne_of_mem_of_not_mem member plain)
  cases rest with
  | nil =>
      rw [joinNames]
      exact List.takeWhile_eq_self_iff.mpr inName
  | cons next rest =>
      rw [joinNames, List.takeWhile_append_of_pos inName,
        List.takeWhile_cons_of_neg (by simp), List.append_nil]

/-- At the start of a token the scan stops or goes on to the next one. -/
theorem mapFindFsAliasFrom_start
    {name : Text}
    (plain : semicolon ∉ name)
    (rest : Text) :
    mapFindFsAliasFrom true name =
        (if isFsAlias name then some name else none) ∧
      mapFindFsAliasFrom true (name ++ semicolon :: rest) =
        if isFsAlias name then
          some (name ++ semicolon :: rest)
        else
          mapFindFsAliasFrom true rest := by
  have sameToken := isFsAlias_append_semicolon name rest
  cases name with
  | nil =>
      have notAlias : isFsAlias [] = false := rfl
      rw [List.nil_append] at sameToken ⊢
      simp [mapFindFsAliasFrom, sameToken, notAlias]
  | cons char name =>
      rw [List.mem_cons, not_or] at plain
      have ordinary : (char == semicolon) = false :=
        beq_false_of_ne (Ne.symm plain.1)
      have skips := @mapFindFsAliasFrom_skip name rest plain.2
      rw [List.cons_append] at sameToken ⊢
      simp only [mapFindFsAliasFrom, ordinary, sameToken, skips,
        Bool.true_and, and_self]

/-- What the scan finds starts with one of the joined names. -/
theorem mapFindFsAliasFrom_joinNames
    {names : List Text}
    (plain : ∀ name ∈ names, semicolon ∉ name)
    {found : Text}
    (finds : mapFindFsAliasFrom true (joinNames names) = some found) :
    ∃ name rest, name ∈ names ∧ found = joinNames (name :: rest) := by
  fun_induction joinNames names with
  | case1 =>
      cases finds
  | case2 name =>
      rw [(mapFindFsAliasFrom_start (plain name (by simp)) []).1] at finds
      split at finds
      · obtain rfl := Option.some.inj finds
        exact ⟨name, [], List.mem_cons_self, rfl⟩
      · cases finds
  | case3 name next rest inductionHypothesis =>
      rw [(mapFindFsAliasFrom_start (plain name (by simp)) _).2] at finds
      split at finds
      · obtain rfl := Option.some.inj finds
        exact ⟨name, next :: rest, List.mem_cons_self, rfl⟩
      · obtain ⟨other, later, member, isFound⟩ :=
          inductionHypothesis
            (fun other member => plain other (List.mem_cons_of_mem _ member))
            finds
        exact ⟨other, later, List.mem_cons_of_mem _ member, isFound⟩

/-- The shown alias is one of the joined names. -/
theorem shownAlias_mem
    {names : List Text}
    (plain : ∀ name ∈ names, semicolon ∉ name)
    (named : names ≠ []) :
    shownAlias (joinNames names) ∈ names := by
  rw [shownAlias, mapFindFsAlias, Option.bind_some]
  cases finds : mapFindFsAliasFrom true (joinNames names) with
  | none =>
      obtain ⟨name, rest, rfl⟩ := List.exists_cons_of_ne_nil named
      have first : name ∈ name :: rest := List.mem_cons_self
      rw [Option.getD_none, takeWhile_joinNames (plain name first)]
      exact first
  | some found =>
      obtain ⟨name, rest, member, rfl⟩ :=
        mapFindFsAliasFrom_joinNames plain finds
      rw [Option.getD_some, takeWhile_joinNames (plain name member)]
      exact member

end Aliases

section Report

variable {Shell : Type}

/-- `LocateHandleBuffer` lists the volumes that are present, each once. -/
structure Locates
    (located : EfiStatus × List Handle)
    (present : Finset Handle) : Prop where
  lists :
    located.1.isError = false →
    located.2.Nodup ∧ located.2.toFinset = present
  notFound :
    located.1 = .notFound → present = ∅

/-- The Shell behind the names that a report asks for. -/
structure ReportedShell
    (protocol : ShellProtocol Shell)
    (collation : Collation)
    (table : Shell → List MapEntry)
    (shell : Shell)
    (devicePath : Handle → Option DevicePath)
    (volume : Handle → VolumeOutcomes) : Prop where
  faithful :
    protocol.Faithful collation table
  separable :
    Separable (table shell)
  /-- The names of two entries differ even when case is ignored. -/
  unambiguous :
    ∀ first ∈ table shell, ∀ second ∈ table shell,
      collation.key first.name = collation.key second.name →
      first = second
  /-- `GetMapFromDevicePath` for the device path of the volume. -/
  answers :
    ∀ handle,
      (volume handle).mapName =
        (devicePath handle).bind (protocol.getMapFromDevicePath shell)

/-- A printed name is a question mark or an alias of the volume. -/
def NamesVolume
    (protocol : ShellProtocol Shell)
    (table : Shell → List MapEntry)
    (shell : Shell)
    (devicePath : Option DevicePath)
    (name : Text) : Prop :=
  name = wide "?" ∨
    ∃ path,
      devicePath = some path ∧
        name ∈ namesOf (table shell) path ∧
        protocol.getDevicePathFromMap shell name = some path

/-- The events of a refresh and of a report about the given volumes. -/
def volumeReport
    (volume : Handle → VolumeOutcomes)
    (reported : List Handle) :
    List Event :=
  .refreshShell ::
    (reported.map (fun handle => .print (volumeLine (volume handle))) ++
      [.print (.mapRefreshed reported.length)])

/-- The report is about exactly the new volumes, under their names. -/
structure ReportsExactly
    (protocol : ShellProtocol Shell)
    (table : Shell → List MapEntry)
    (shell : Shell)
    (devicePath : Handle → Option DevicePath)
    (volume : Handle → VolumeOutcomes)
    (before after : Finset Handle)
    (events : List Event)
    (reported : List Handle) : Prop where
  events :
    events = volumeReport volume reported
  once :
    reported.Nodup
  new :
    reported.toFinset = after \ before
  names :
    ∀ handle ∈ reported,
      NamesVolume protocol table shell (devicePath handle)
        (volumeName (volume handle))

/-- The shown alias fits, or what fits of it is an alias, too. -/
def AliasFits
    (table : List MapEntry)
    (path : DevicePath)
    (mapName : Text) : Prop :=
  (shownAlias mapName).length ≤ 31 ∨
    (shownAlias mapName).take 31 ∈ namesOf table path

/-- When the report of a flow is right. -/
structure ReportCovers
    (protocol : ShellProtocol Shell)
    (table : Shell → List MapEntry)
    (shell : Shell)
    (devicePath : Handle → Option DevicePath)
    (flow : Flow)
    (before after : Finset Handle) : Prop where
  /-- The snapshot for the report works. -/
  now :
    (mapSnapshotFsHandles flow.rescan.nowFs).1.isError = false
  /-- So does the first one, or no volume is there both times. -/
  old :
    (mapSnapshotFsHandles flow.oldFs).1.isError = false ∨
      Disjoint before after
  aliases :
    ∀ handle ∈ after \ before,
      (flow.rescan.volume handle).locateShell.isError = false →
      ∀ path mapName,
        devicePath handle = some path →
        protocol.getMapFromDevicePath shell path = some mapName →
        AliasFits (table shell) path mapName

/-- A snapshot that works lists the volumes that are present. -/
theorem Locates.snapshot
    {located : EfiStatus × List Handle}
    {present : Finset Handle}
    (locates : Locates located present)
    (works : (mapSnapshotFsHandles located).1.isError = false) :
    (mapSnapshotFsHandles located).2.Nodup ∧
      (mapSnapshotFsHandles located).2.toFinset = present := by
  simp only [mapSnapshotFsHandles] at works ⊢
  split
  · rename_i absent
    rw [locates.notFound absent]
    exact ⟨List.nodup_nil, rfl⟩
  · rename_i found
    rw [if_neg found] at works
    exact locates.lists works

/-- The new volumes of a report, in terms of the two snapshots. -/
theorem newVolumes_spec
    {oldFs handles : List Handle}
    (once : handles.Nodup) :
    (newVolumes oldFs handles).Nodup ∧
      (newVolumes oldFs handles).toFinset =
        handles.toFinset \ oldFs.toFinset := by
  refine ⟨once.filter _, ?_⟩
  ext handle
  simp [newVolumes]

/-- A name of the table leads to its path. -/
theorem ReportedShell.lookup
    {protocol : ShellProtocol Shell}
    {collation : Collation}
    {table : Shell → List MapEntry}
    {shell : Shell}
    {devicePath : Handle → Option DevicePath}
    {volume : Handle → VolumeOutcomes}
    (reported :
      ReportedShell protocol collation table shell devicePath volume)
    {path : DevicePath}
    {name : Text}
    (member : name ∈ namesOf (table shell) path) :
    protocol.getDevicePathFromMap shell name = some path := by
  have inTable := mem_namesOf.mp member
  cases answer : protocol.getDevicePathFromMap shell name with
  | none =>
      exact absurd ⟨_, inTable, rfl⟩ (reported.faithful.lookup_free answer)
  | some other =>
      obtain ⟨entry, entryIn, sameName, rfl⟩ :=
        reported.faithful.lookup answer
      have same : entry = ⟨name, path⟩ :=
        reported.unambiguous _ entryIn _ inTable sameName
      rw [same]

/-- A printed name is right exactly when the shown alias fits. -/
theorem ReportedShell.namesVolume_iff
    {protocol : ShellProtocol Shell}
    {collation : Collation}
    {table : Shell → List MapEntry}
    {shell : Shell}
    {devicePath : Handle → Option DevicePath}
    {volume : Handle → VolumeOutcomes}
    (reported :
      ReportedShell protocol collation table shell devicePath volume)
    (handle : Handle) :
    NamesVolume protocol table shell (devicePath handle)
        (volumeName (volume handle)) ↔
      ((volume handle).locateShell.isError = false →
        ∀ path mapName,
          devicePath handle = some path →
          protocol.getMapFromDevicePath shell path = some mapName →
          AliasFits (table shell) path mapName) := by
  rw [volumeName_eq, reported.answers]
  cases unlocated : (volume handle).locateShell.isError with
  | true =>
      refine iff_of_true (.inl rfl) fun located => ?_
      cases located
  | false =>
  cases isPath : devicePath handle with
  | none =>
      refine iff_of_true (.inl rfl) fun _ path mapName isSome => ?_
      cases isSome
  | some path =>
  cases isName : protocol.getMapFromDevicePath shell path with
  | none =>
      refine iff_of_true (.inl ?_) fun _ other mapName same isSome => ?_
      · simp [isName]
      · obtain rfl := Option.some.inj same
        rw [isName] at isSome
        cases isSome
  | some mapName =>
      have isMember :
          shownAlias mapName ∈ namesOf (table shell) path := by
        by_cases unmapped : namesOf (table shell) path = []
        · rw [reported.faithful.unmapped unmapped] at isName
          cases isName
        · obtain ⟨names, same, answer⟩ :=
            reported.faithful.mapped unmapped
          obtain rfl := Option.some.inj (isName.symm.trans answer)
          refine same.mem_iff.mp (shownAlias_mem ?_ ?_)
          · exact fun name member => reported.separable _
              (mem_namesOf.mp (same.mem_iff.mp member))
          · rintro rfl
            exact unmapped same.symm.eq_nil
      have printed :
          (if false = true then wide "?" else
              (((some path).bind
                (protocol.getMapFromDevicePath shell)).map fun mapName =>
                  (shownAlias mapName).take 31).getD (wide "?")) =
            (shownAlias mapName).take 31 := by
        simp [isName]
      rw [printed]
      constructor
      · intro named _ other otherName samePath sameName
        obtain rfl := Option.some.inj samePath
        obtain rfl := Option.some.inj (isName.symm.trans sameName)
        rcases named with mark | ⟨_, samePath', member, _⟩
        · -- A cut off name has 31 characters.
          left
          have lengths := congrArg List.length mark
          rw [List.length_take] at lengths
          have one : (wide "?").length = 1 := rfl
          omega
        · obtain rfl := Option.some.inj samePath'
          exact .inr member
      · intro fits
        right
        refine ⟨path, rfl, ?_⟩
        have member :
            (shownAlias mapName).take 31 ∈ namesOf (table shell) path := by
          rcases fits rfl path mapName rfl isName with short | listed
          · rwa [List.take_of_length_le short]
          · exact listed
        exact ⟨member, reported.lookup member⟩

/-- The two snapshots decide whether the reported volumes are the new ones. -/
theorem newVolumes_exact_iff
    {oldFs : EfiStatus × List Handle}
    {before after : Finset Handle}
    {handles : List Handle}
    (locatesOld : Locates oldFs before)
    (once : handles.Nodup)
    (present : handles.toFinset = after) :
    (newVolumes (oldSnapshot oldFs) handles).toFinset = after \ before ↔
      (mapSnapshotFsHandles oldFs).1.isError = false ∨
        Disjoint before after := by
  rw [(newVolumes_spec once).2, present, oldSnapshot]
  cases failed : (mapSnapshotFsHandles oldFs).1.isError with
  | false =>
      have lists := (locatesOld.snapshot failed).2
      simp [failed, lists]
  | true =>
      simp only [failed, ↓reduceIte, List.toFinset_nil,
        Finset.sdiff_empty, Bool.true_eq_false, false_or]
      rw [eq_comm, sdiff_eq_left, disjoint_comm]

/-- The first snapshot lists nothing that is not there. -/
theorem oldSnapshot_subset
    {oldFs : EfiStatus × List Handle}
    {before : Finset Handle}
    (locatesOld : Locates oldFs before) :
    (oldSnapshot oldFs).toFinset ⊆ before := by
  rw [oldSnapshot]
  cases failed : (mapSnapshotFsHandles oldFs).1.isError with
  | false =>
      simp [failed, (locatesOld.snapshot failed).2]
  | true =>
      simp [failed]

/--
The report of a flow that reaches it is right exactly when its own snapshot
works, the first one does or makes no difference, and every shown alias fits.
-/
theorem reportsExactly_iff
    {protocol : ShellProtocol Shell}
    {collation : Collation}
    {table : Shell → List MapEntry}
    {shell : Shell}
    {devicePath : Handle → Option DevicePath}
    {flow : Flow}
    {session : Session}
    {before after : Finset Handle}
    {events : List Event}
    (reportedShell :
      ReportedShell protocol collation table shell devicePath
        flow.rescan.volume)
    (locatesOld : Locates flow.oldFs before)
    (locatesNow : Locates flow.rescan.nowFs after)
    (ran : (flow.run session).2.report = session.report ++ events)
    (reached : .refreshShell ∈ events) :
    (∃ reported,
        ReportsExactly protocol table shell devicePath flow.rescan.volume
          before after events reported) ↔
      ReportCovers protocol table shell devicePath flow before after := by
  have added := Flow.run_report ran reached
  cases failed : (mapSnapshotFsHandles flow.rescan.nowFs).1.isError with
  | true =>
      -- There is a refresh, but no last line.
      rw [if_pos failed] at added
      refine iff_of_false ?_ fun covers => ?_
      · rintro ⟨reported, exactly⟩
        have lengths := congrArg List.length (added.symm.trans exactly.events)
        simp [volumeReport] at lengths
      · rw [covers.now] at failed
        cases failed
  | false =>
      rw [if_neg (by rw [failed]; exact Bool.false_ne_true)] at added
      obtain ⟨once, present⟩ := locatesNow.snapshot failed
      have lists :=
        @newVolumes_spec (oldSnapshot flow.oldFs) _ once
      have exact_iff := newVolumes_exact_iff locatesOld once present
      constructor
      · rintro ⟨reported, exactly⟩
        have sameLength :
            (newVolumes (oldSnapshot flow.oldFs)
              (mapSnapshotFsHandles flow.rescan.nowFs).2).length =
              reported.length := by
          have lengths :=
            congrArg List.length (added.symm.trans exactly.events)
          simpa [volumeReport] using lengths
        have included :
            after \ before ⊆
              (newVolumes (oldSnapshot flow.oldFs)
                (mapSnapshotFsHandles flow.rescan.nowFs).2).toFinset := by
          rw [lists.2, present]
          exact Finset.sdiff_subset_sdiff (Finset.Subset.refl after)
            (oldSnapshot_subset locatesOld)
        have counted :
            (newVolumes (oldSnapshot flow.oldFs)
                (mapSnapshotFsHandles flow.rescan.nowFs).2).toFinset.card ≤
              (after \ before).card := by
          rw [List.toFinset_card_of_nodup lists.1, sameLength,
            ← exactly.new, List.toFinset_card_of_nodup exactly.once]
        exact {
          now := failed
          old := exact_iff.mp
            (Finset.eq_of_subset_of_card_le included counted).symm
          aliases := fun handle isNew =>
            (reportedShell.namesVolume_iff handle).mp
              (exactly.names handle
                (List.mem_toFinset.mp (exactly.new ▸ isNew)))
        }
      · intro covers
        have new := exact_iff.mpr covers.old
        exact ⟨_, {
          events := added
          once := lists.1
          new := new
          names := fun handle isNew =>
            (reportedShell.namesVolume_iff handle).mpr
              (covers.aliases handle
                (new ▸ List.mem_toFinset.mpr isNew))
        }⟩

end Report

section Examples

/-- The device paths of the boot disk and of the image volume. -/
def bootPath (handle : Handle) : Option DevicePath :=
  if handle = 0 then
    some [.other [1]]
  else if handle = 1 then
    some [.other [2]]
  else
    none

/-- What the Shell with the boot table says about a volume. -/
def bootVolume (handle : Handle) : VolumeOutcomes where
  locateShell := .success
  mapName := (bootPath handle).bind (listShell.getMapFromDevicePath bootTable)
  label := none

theorem bootVolume_reported :
    ReportedShell listShell asciiCollation (fun table => table) bootTable
      bootPath bootVolume where
  faithful := listShell_faithful
  separable := by decide
  unambiguous := by decide
  answers _ := rfl

/-- The NTFS driver runs already. -/
def ntfsSession : Session where
  machine := {
    dxe := idleLoopDxe
    images := [⟨1, some (wide "\\drivers\\ntfs_x64.efi"), true⟩]
    sniffed := fun _ => none
  }
  trace := []

/-- `mount -NTFS` with the given snapshots. -/
def ntfsFlow (oldFs nowFs : EfiStatus × List Handle) : Flow :=
  .format
    (some ⟨wide "NTFS", wide "drivers\\ntfs_x64.efi",
      wide "efifs, read-only", true⟩) {
    oldFs := oldFs
    scan := ⟨.success, fun _ => true⟩
    load := {
      scan := ⟨.success, fun _ => true⟩
      path := ⟨.success, none, true⟩
      load := .success
      image := 2
      start := .success
    }
    rescan := {
      blockIo := (.notFound, [])
      connects := fun _ => ⟨.notFound, [], []⟩
      nowFs := nowFs
      volume := bootVolume
    }
  }

theorem reportsExactly_iff_newVolume :
    ∃ reported,
      ReportsExactly listShell (fun table => table) bootTable bootPath
        bootVolume {0} {0, 1} (volumeReport bootVolume [1]) reported := by
  have covers :
      ReportCovers listShell (fun table => table) bootTable bootPath
        (ntfsFlow (.success, [0]) (.success, [0, 1])) {0} {0, 1} := {
    now := rfl
    old := .inl rfl
    aliases := by
      intro handle isNew _ path mapName isPath isName
      obtain rfl : handle = 1 := by
        simp only [Finset.mem_sdiff, Finset.mem_insert,
          Finset.mem_singleton] at isNew
        exact isNew.1.resolve_left isNew.2
      obtain rfl : [.other [2]] = path := Option.some.inj isPath
      obtain rfl : wide "BLK1:" = mapName := Option.some.inj isName
      exact .inl (by decide)
  }
  exact (@reportsExactly_iff _ _ asciiCollation _ _ _
    (ntfsFlow (.success, [0]) (.success, [0, 1])) ntfsSession _ _ _
    bootVolume_reported ⟨fun _ => by decide, by decide⟩
    ⟨fun _ => by decide, by decide⟩ rfl
    List.mem_cons_self).mpr covers

/-- The snapshot at the start fails: the boot disk is reported as new. -/
theorem reportsExactly_failedSnapshot :
    Locates (.outOfResources, []) {0} ∧
      Locates (.success, [0]) {0} ∧
      ((ntfsFlow (.outOfResources, []) (.success, [0])).run
          ntfsSession).2.report = volumeReport bootVolume [0] ∧
      ¬ ∃ reported,
        ReportsExactly listShell (fun table => table) bootTable bootPath
          bootVolume {0} {0} (volumeReport bootVolume [0]) reported := by
  refine ⟨⟨by decide, by decide⟩, ⟨fun _ => by decide, by decide⟩, rfl,
    ?_⟩
  rintro ⟨reported, exactly⟩
  have none : reported = [] := by
    have empty := exactly.new
    rwa [Finset.sdiff_self, List.toFinset_eq_empty_iff] at empty
  have lengths := congrArg List.length exactly.events
  rw [none] at lengths
  simp [volumeReport] at lengths

end Examples

end UefiMount
