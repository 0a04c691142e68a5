import UefiMount.MountRescan

namespace UefiMount

/-!
# Dedupe over runs of commands

`MountDriverLoaded` recognises a driver by the end of its path text.  Driver
files have exactly one backslash, so the recognition tells different drivers
apart as long as no path is cut off.  Over every run whose `LoadImage` calls do
not meet a security violation, a recognised driver has been started and is
resident once.
-/

/-- The drivers that `MountDriverLoaded` is asked about. -/
def dedupedDrivers : List Text :=
  mFormats.map (·.driverFile) ++ [isoDriverFile]

/-- A driver file: a directory and a file name. -/
def OneBackslash (driverFile : Text) : Prop :=
  driverFile.count backslash = 1

/-- The recognised drivers are driver files, and none is the loop driver. -/
theorem dedupedDrivers_shape
    {driverFile : Text}
    (member : driverFile ∈ dedupedDrivers) :
    OneBackslash driverFile ∧ driverFile ≠ loopDriverFile := by
  have shapes :
      ∀ driverFile ∈ dedupedDrivers,
        driverFile.count backslash = 1 ∧ driverFile ≠ loopDriverFile := by
    decide
  exact shapes driverFile member

theorem loopDriverFile_shape : OneBackslash loopDriverFile := by
  unfold OneBackslash
  decide

/-- The suffix test on a component boundary. -/
theorem endsWithDriver_iff
    {text driverFile : Text} :
    endsWithDriver text driverFile = true ↔
      text = driverFile ∨
        ∃ directory, text = directory ++ backslash :: driverFile := by
  simp only [endsWithDriver, Bool.and_eq_true, decide_eq_true_eq,
    beq_iff_eq, Bool.or_eq_true]
  constructor
  · rintro ⟨⟨fits, isSuffix⟩, boundary⟩
    by_cases whole : text.length = driverFile.length
    · rw [whole, Nat.sub_self, List.drop_zero] at isSuffix
      exact .inl isSuffix
    · right
      obtain ⟨inside, isBackslash⟩ :=
        List.getElem?_eq_some_iff.mp (boundary.resolve_left whole)
      have behind :
          text.length - driverFile.length - 1 + 1 =
            text.length - driverFile.length := by
        omega
      refine ⟨text.take (text.length - driverFile.length - 1), ?_⟩
      calc
        text = text.take (text.length - driverFile.length - 1) ++
            text.drop (text.length - driverFile.length - 1) :=
          (List.take_append_drop _ _).symm
        _ = _ := by
          rw [List.drop_eq_getElem_cons inside, isBackslash, behind,
            isSuffix]
  · rintro (rfl | ⟨directory, rfl⟩)
    · simp
    · refine ⟨⟨by simp; omega, ?_⟩, .inr ?_⟩
      · rw [show (directory ++ backslash :: driverFile).length -
            driverFile.length = (directory ++ [backslash]).length by
          simp; omega]
        rw [show directory ++ backslash :: driverFile =
            (directory ++ [backslash]) ++ driverFile by simp]
        exact List.drop_left
      · rw [show (directory ++ backslash :: driverFile).length -
            driverFile.length - 1 = directory.length by
          simp; omega]
        simp

/-- Behind any directory a driver file is recognised as itself and no other. -/
theorem directory_driver_inj
    {directory other first second : Text}
    (firstShape : OneBackslash first)
    (secondShape : OneBackslash second)
    (same :
      directory ++ backslash :: first = other ++ backslash :: second) :
    first = second := by
  rcases List.append_eq_append_iff.mp same with
    ⟨rest, _, tail⟩ | ⟨rest, _, tail⟩
  · cases rest with
    | nil =>
        exact (List.cons.inj tail).2
    | cons char rest =>
        rw [List.cons_append] at tail
        have counted := congrArg (List.count backslash)
          (List.cons.inj tail).2
        rw [firstShape, List.count_append, List.count_cons_self,
          secondShape] at counted
        omega
  · cases rest with
    | nil =>
        exact (List.cons.inj tail).2.symm
    | cons char rest =>
        rw [List.cons_append] at tail
        have counted := congrArg (List.count backslash)
          (List.cons.inj tail).2
        rw [secondShape, List.count_append, List.count_cons_self,
          firstShape] at counted
        omega

/-- The built path of a driver is not cut off. -/
def PathOutcomes.Fits
    (outcomes : PathOutcomes)
    (driverFile : Text) :
    Prop :=
  ∀ selfDir,
    mountGetSelfDir outcomes = .ok selfDir →
    selfDir.length + 1 + driverFile.length < mountMaxPath

/-- A path that is not cut off is recognised as the driver it was built for. -/
theorem built_endsWithDriver
    {outcomes : PathOutcomes}
    {driverFile path : Text}
    (built : mountBuildDriverDevicePath outcomes driverFile = .ok path)
    (fits : outcomes.Fits driverFile)
    (shape : OneBackslash driverFile)
    {other : Text}
    (otherShape : OneBackslash other) :
    endsWithDriver path other = true ↔ driverFile = other := by
  rw [endsWithDriver_iff]
  simp only [mountBuildDriverDevicePath] at built
  split at built
  case h_1 =>
    cases built
  case h_2 selfDir found =>
    split at built
    case isFalse =>
      cases built
    case isTrue =>
      obtain rfl := Except.ok.inj built
      have room := fits selfDir found
      -- Two backslashes cannot end a text that has one.
      have short :
          ∀ {directory : Text} {first second : Text},
            OneBackslash first →
            OneBackslash second →
            first ≠ directory ++ backslash :: second := by
        rintro directory first second firstShape secondShape rfl
        rw [OneBackslash, List.count_append, List.count_cons_self,
          secondShape] at firstShape
        omega
      simp only [mountJoinSelfPath]
      split
      · rw [List.take_of_length_le (by simp only [mountMaxPath] at *; omega)]
        constructor
        · rintro (same | ⟨directory, longer⟩)
          · exact same
          · exact (short shape otherShape longer).elim
        · exact fun same => .inl same
      · rw [List.take_of_length_le (by
          simp only [mountMaxPath, List.length_append,
            List.length_cons] at *
          omega)]
        constructor
        · rintro (longer | ⟨directory, same⟩)
          · exact (short otherShape shape longer.symm).elim
          · exact directory_driver_inj shape otherShape same
        · rintro rfl
          exact .inr ⟨selfDir, rfl⟩

/-- The walk over the loaded images meets no failing firmware call. -/
structure ImageScan.Complete (scan : ImageScan) : Prop where
  located :
    scan.locate.isError = false
  readable :
    ∀ image, scan.readable image = true

/-- A recognised driver has a recognised image. -/
theorem exists_isDriver
    {scan : ImageScan}
    {driverFile : Text}
    {images : List LoadedImage}
    (found : mountDriverLoaded scan driverFile images = true) :
    ∃ image ∈ images, image.isDriver driverFile = true := by
  simp only [mountDriverLoaded] at found
  split at found
  · cases found
  · obtain ⟨image, member, recognised⟩ := List.any_eq_true.mp found
    exact ⟨image, member, (Bool.and_eq_true_iff.mp recognised).2⟩

/-- When a complete walk recognises no image, no image is recognised. -/
theorem ImageScan.Complete.isDriver_eq_false
    {scan : ImageScan}
    (complete : scan.Complete)
    {driverFile : Text}
    {images : List LoadedImage}
    (absent : mountDriverLoaded scan driverFile images = false) :
    ∀ image ∈ images, image.isDriver driverFile = false := by
  simpa [mountDriverLoaded, complete.located, complete.readable]
    using absent

/-- Every image of the driver has been started, and there is at most one. -/
structure Trusted
    (driverFile : Text)
    (images : List LoadedImage) : Prop where
  started :
    ∀ image ∈ images,
      image.isDriver driverFile = true → image.started = true
  single :
    images.countP (fun image => image.isDriver driverFile) ≤ 1

/-- Whoever recognised the driver saw a started image of it. -/
structure Honest (driverFile : Text) (events : List Event) : Prop where
  check :
    ∀ {seen},
      .dedupe driverFile true seen ∈ events →
      ∃ image ∈ seen.images,
        image.isDriver driverFile = true ∧ image.started = true

namespace Trusted

variable {driverFile : Text}
  {images : List LoadedImage}

theorem of_absent
    (absent : ∀ image ∈ images, image.isDriver driverFile = false) :
    Trusted driverFile images where
  started := by
    intro image member recognised
    rw [absent image member] at recognised
    cases recognised
  single := by
    rw [List.countP_eq_zero.mpr]
    · exact Nat.zero_le _
    · intro image member
      simp [absent image member]

/-- An image of another driver changes nothing. -/
theorem add_other
    (trusted : Trusted driverFile images)
    {image : LoadedImage}
    (other : image.isDriver driverFile = false) :
    Trusted driverFile (images ++ [image]) where
  started := by
    intro found member recognised
    rcases List.mem_append.mp member with old | new
    · exact trusted.started found old recognised
    · obtain rfl := List.mem_singleton.mp new
      rw [other] at recognised
      cases recognised
  single := by
    rw [List.countP_append, List.countP_singleton, other]
    exact trusted.single

/-- The first image of the driver may be added once it is started. -/
theorem add_started
    (absent : ∀ image ∈ images, image.isDriver driverFile = false)
    {image : LoadedImage}
    (started : image.started = true) :
    Trusted driverFile (images ++ [image]) where
  started := by
    intro found member recognised
    rcases List.mem_append.mp member with old | new
    · rw [absent found old] at recognised
      cases recognised
    · obtain rfl := List.mem_singleton.mp new
      exact started
  single := by
    rw [List.countP_append, List.countP_eq_zero.mpr]
    · rw [List.countP_singleton]
      split <;> decide
    · intro found member
      simp [absent found member]

/-- A recognised driver has a started image. -/
theorem exists_started
    (trusted : Trusted driverFile images)
    {scan : ImageScan}
    (found : mountDriverLoaded scan driverFile images = true) :
    ∃ image ∈ images,
      image.isDriver driverFile = true ∧ image.started = true := by
  obtain ⟨image, member, recognised⟩ := exists_isDriver found
  exact ⟨image, member, recognised,
    trusted.started image member recognised⟩

end Trusted

namespace Honest

variable {driverFile : Text}

theorem append
    {earlier later : List Event}
    (first : Honest driverFile earlier)
    (second : Honest driverFile later) :
    Honest driverFile (earlier ++ later) where
  check member := by
    rcases List.mem_append.mp member with early | late
    · exact first.check early
    · exact second.check late

/-- Events without a positive check. -/
theorem of_no_check
    {events : List Event}
    (noCheck :
      ∀ file seen, .dedupe file true seen ∉ events) :
    Honest driverFile events where
  check member := (noCheck _ _ member).elim

theorem rescan
    {before after : Machine}
    {events : List Event}
    (rescanned : Rescanned before events after) :
    Honest driverFile events := by
  apply of_no_check
  intro file seen member
  have quiet := rescanned.quiet _ member
  simp [Event.isRescan] at quiet

end Honest

section Step

variable {driverFile : Text}
  {machine machine' : Machine}
  {status : EfiStatus}
  {events : List Event}

/-- A driver load without a security violation keeps the driver trusted. -/
theorem DriverLoad.trusted
    {outcomes : LoadOutcomes}
    {loaded : Text}
    (load : DriverLoad outcomes loaded machine status events machine')
    (shape : OneBackslash driverFile)
    (loadedShape : OneBackslash loaded)
    (complete : outcomes.scan.Complete)
    (fits : outcomes.path.Fits loaded)
    (allowed : .loadImage driverFile .securityViolation ∉ events)
    (trusted : Trusted driverFile machine.images) :
    Trusted driverFile machine'.images ∧ Honest driverFile events := by
  cases load with
  | alreadyLoaded found =>
      refine ⟨trusted, ⟨?_⟩⟩
      intro seen member
      simp only [List.mem_singleton, Event.dedupe.injEq, true_and]
        at member
      obtain ⟨rfl, rfl⟩ := member
      exact trusted.exists_started found
  | noPath | notFound | loadFailed | startFailed =>
      exact ⟨trusted, .of_no_check (by simp)⟩
  | blocked absent built =>
      refine ⟨trusted.add_other ?_, .of_no_check (by simp)⟩
      rw [← Bool.not_eq_true]
      intro recognised
      obtain rfl :=
        (built_endsWithDriver built fits loadedShape shape).mp recognised
      simp at allowed
  | started absent built =>
      refine ⟨?_, .of_no_check (by simp)⟩
      by_cases same : loaded = driverFile
      · subst same
        exact .add_started (complete.isDriver_eq_false absent) rfl
      · apply trusted.add_other
        rw [← Bool.not_eq_true]
        intro recognised
        exact same
          ((built_endsWithDriver built fits loadedShape shape).mp
            recognised)

/-- Getting the loop factory loads no driver but its own. -/
theorem FactoryGet.trusted
    {outcomes : FactoryOutcomes}
    (factory : FactoryGet outcomes machine status events machine')
    (shape : OneBackslash driverFile)
    (notLoop : driverFile ≠ loopDriverFile)
    (fits : outcomes.path.Fits loopDriverFile)
    (trusted : Trusted driverFile machine.images) :
    Trusted driverFile machine'.images ∧ Honest driverFile events := by
  have other :
      ∀ {path started},
        mountBuildDriverDevicePath outcomes.path loopDriverFile =
          .ok path →
        (⟨outcomes.image, some path, started⟩ :
          LoadedImage).isDriver driverFile = false := by
    intro path started built
    rw [← Bool.not_eq_true]
    intro recognised
    exact notLoop
      ((built_endsWithDriver built fits loopDriverFile_shape shape).mp
        recognised).symm
  cases factory with
  | resident | noPath | loadFailed | startFailed =>
      exact ⟨trusted, .of_no_check (by simp)⟩
  | blocked _ built | unpublished _ built | started _ built =>
      exact ⟨trusted.add_other (other built), .of_no_check (by simp)⟩

/-- So does creating a loop device. -/
theorem LoopCreation.trusted
    {outcomes : LoopCreateOutcomes}
    {isoPath : Text}
    {created : LoopCreated}
    (creation :
      LoopCreation outcomes isoPath machine created events machine')
    (shape : OneBackslash driverFile)
    (notLoop : driverFile ≠ loopDriverFile)
    (fits : outcomes.factory.path.Fits loopDriverFile)
    (trusted : Trusted driverFile machine.images) :
    Trusted driverFile machine'.images ∧ Honest driverFile events := by
  have warning : Honest driverFile (tailWarning outcomes) := by
    apply Honest.of_no_check
    intro file seen
    simp only [tailWarning]
    split <;> simp
  cases creation with
  | cannotOpen | noInfoPool | cannotStat | tooSmall =>
      exact ⟨trusted, .of_no_check (by simp)⟩
  | unresolved =>
      exact ⟨trusted, warning.append (.of_no_check (by simp))⟩
  | noFactory _ factory =>
      obtain ⟨trusted', honest⟩ :=
        factory.trusted shape notLoop fits trusted
      refine ⟨trusted', warning.append (honest.append ?_)⟩
      apply Honest.of_no_check
      intro file seen
      split <;> simp
  | createFailed _ factory =>
      obtain ⟨trusted', honest⟩ :=
        factory.trusted shape notLoop fits trusted
      exact ⟨trusted',
        warning.append (honest.append (.of_no_check (by simp)))⟩
  | created _ factory =>
      obtain ⟨trusted', honest⟩ :=
        factory.trusted shape notLoop fits trusted
      exact ⟨trusted', warning.append honest⟩

end Step

/--
The firmware calls around a driver load work: the walks over the loaded images
are complete, and no driver path is cut off.
-/
def Command.Unimpaired : Command → Prop
  | .iso _ outcomes =>
      outcomes.scan.Complete ∧
        outcomes.load.scan.Complete ∧
        outcomes.create.factory.path.Fits loopDriverFile ∧
        outcomes.load.path.Fits isoDriverFile
  | .format name outcomes =>
      outcomes.scan.Complete ∧
        outcomes.load.scan.Complete ∧
        ∀ entry,
          mountFindFormat name = some entry →
          outcomes.load.path.Fits entry.driverFile

/-- A known format names one of the recognised drivers. -/
theorem mountFindFormat_deduped
    {name : Text}
    {entry : MountFormatEntry}
    (known : mountFindFormat name = some entry) :
    entry.driverFile ∈ dedupedDrivers :=
  List.mem_append_left _
    (List.mem_map_of_mem (List.mem_of_find?_eq_some known))

/-- One command without a security violation for the driver keeps it trusted. -/
theorem CommandRun.trusted
    {driverFile : Text}
    (member : driverFile ∈ dedupedDrivers)
    {machine machine' : Machine}
    {command : Command}
    {status : EfiStatus}
    {events : List Event}
    (run : CommandRun machine command status events machine')
    (unimpaired : command.Unimpaired)
    (allowed : .loadImage driverFile .securityViolation ∉ events)
    (trusted : Trusted driverFile machine.images) :
    Trusted driverFile machine'.images ∧ Honest driverFile events := by
  obtain ⟨shape, notLoop⟩ := dedupedDrivers_shape member
  have isoShape : OneBackslash isoDriverFile :=
    (dedupedDrivers_shape (List.mem_append_right _ (by simp))).1
  have line :
      ∀ line, Honest driverFile [.print line] :=
    fun line => .of_no_check (by simp)
  have check :
      ∀ {scan file machine verdict},
        Trusted driverFile machine.images →
        mountDriverLoaded scan file machine.images = verdict →
        Honest driverFile [.dedupe file verdict machine] := by
    rintro scan file machine verdict trusted rfl
    refine ⟨?_⟩
    intro seen found
    simp only [List.mem_singleton, Event.dedupe.injEq] at found
    obtain ⟨rfl, loaded, rfl⟩ := found
    exact trusted.exists_started loaded.symm
  cases run with
  | iso run =>
      obtain ⟨_, complete, loopFits, isoFits⟩ := unimpaired
      cases run with
      | refused creation =>
          obtain ⟨trusted', honest⟩ :=
            creation.trusted shape notLoop loopFits trusted
          exact ⟨trusted', (line _).append honest⟩
      | connected creation _ _ rescanned =>
          obtain ⟨trusted', honest⟩ :=
            creation.trusted shape notLoop loopFits trusted
          rw [rescanned.images]
          exact ⟨trusted', (line _).append (honest.append
            ((line _).append (.rescan rescanned)))⟩
      | claimable creation _ _ found rescanned =>
          obtain ⟨trusted', honest⟩ :=
            creation.trusted shape notLoop loopFits trusted
          rw [rescanned.images]
          exact ⟨trusted', (line _).append (honest.append
            ((line _).append ((check trusted' found).append
              (.rescan rescanned))))⟩
      | driverLoaded creation _ _ absent load rescanned =>
          obtain ⟨trusted', honest⟩ :=
            creation.trusted shape notLoop loopFits trusted
          obtain ⟨trusted'', honest'⟩ :=
            load.trusted shape isoShape complete isoFits
              (fun blocked => allowed (by simp [blocked])) trusted'
          rw [rescanned.images]
          exact ⟨trusted'', (line _).append (honest.append
            ((line _).append ((check trusted' absent).append
              (honest'.append (.rescan rescanned)))))⟩
      | degraded creation _ _ absent load =>
          obtain ⟨trusted', honest⟩ :=
            creation.trusted shape notLoop loopFits trusted
          obtain ⟨trusted'', honest'⟩ :=
            load.trusted shape isoShape complete isoFits
              (fun blocked => allowed (by simp [blocked])) trusted'
          exact ⟨trusted'', (line _).append (honest.append
            ((line _).append ((check trusted' absent).append
              (honest'.append ((line _).append (line _))))))⟩
  | format known run =>
      obtain ⟨_, complete, fits⟩ := unimpaired
      have entryShape :=
        (dedupedDrivers_shape (mountFindFormat_deduped known)).1
      cases run with
      | alreadyLoaded found rescanned =>
          rw [rescanned.images]
          exact ⟨trusted, (line _).append
            ((check trusted found).append
              ((line _).append (.rescan rescanned)))⟩
      | driverLoaded absent load rescanned =>
          rw [rescanned.images]
          obtain ⟨trusted', honest⟩ :=
            load.trusted shape entryShape complete (fits _ known)
              (fun blocked => allowed (by simp [blocked])) trusted
          exact ⟨trusted', (line _).append
            ((check trusted absent).append
              (honest.append (.rescan rescanned)))⟩
      | refused absent load =>
          obtain ⟨trusted', honest⟩ :=
            load.trusted shape entryShape complete (fits _ known)
              (fun blocked => allowed (by simp [blocked])) trusted
          exact ⟨trusted', (line _).append
            ((check trusted absent).append honest)⟩
  | unknownFormat =>
      exact ⟨trusted, .of_no_check (by simp)⟩

/--
No `LoadImage` of the driver is answered with a security violation, and the
firmware calls around the driver loads work.
-/
structure CleanStep
    (driverFile : Text)
    (answered : Command × CommandReply) : Prop where
  unimpaired :
    answered.1.Unimpaired
  allowed :
    .loadImage driverFile .securityViolation ∉ answered.2.trace

/-- The dedupe contract for one driver, after a history that led to `machine`. -/
structure DedupeContract
    (driverFile : Text)
    (history : List (Command × CommandReply))
    (machine : Machine) : Prop where
  /-- A recognised driver has an image on which `StartImage` succeeded. -/
  trusted :
    ∀ {scan},
      mountDriverLoaded scan driverFile machine.images = true →
      ∃ image ∈ machine.images,
        image.isDriver driverFile = true ∧ image.started = true
  single :
    machine.images.countP (fun image => image.isDriver driverFile) ≤ 1
  /-- No command took the driver for loaded before its entry point had run. -/
  checks :
    ∀ answered ∈ history, Honest driverFile answered.2.trace

/-- In every run of clean commands the dedupe contract holds. -/
theorem dedupe_trusts_started
    {driverFile : Text}
    (member : driverFile ∈ dedupedDrivers)
    {initial machine : Machine}
    {history : List (Command × CommandReply)}
    (absent :
      ∀ image ∈ initial.images, image.isDriver driverFile = false)
    (run : mountApp.Run initial history machine)
    (clean : ∀ answered ∈ history, CleanStep driverFile answered) :
    DedupeContract driverFile history machine := by
  have preserved :
      (∀ answered ∈ history, CleanStep driverFile answered) →
      Trusted driverFile machine.images ∧
        ∀ answered ∈ history, Honest driverFile answered.2.trace := by
    apply run.tracks fun history machine =>
      (∀ answered ∈ history, CleanStep driverFile answered) →
      Trusted driverFile machine.images ∧
        ∀ answered ∈ history, Honest driverFile answered.2.trace
    · exact fun _ => ⟨.of_absent absent, by simp⟩
    · intro history machine command earlier admissible clean
      obtain ⟨trusted, checks⟩ :=
        earlier fun answered inHistory =>
          clean answered (List.mem_append_left _ inHistory)
      obtain ⟨status, events, after, commandRun, answer⟩ :=
        mountStep_cases admissible
      have cleanStep :=
        clean _ (List.mem_append_right _ (List.mem_singleton_self _))
      simp only [mountApp, answer] at cleanStep ⊢
      obtain ⟨trusted', honest⟩ :=
        commandRun.trusted member cleanStep.unimpaired cleanStep.allowed
          trusted
      refine ⟨trusted', ?_⟩
      intro answered inHistory
      rcases List.mem_append.mp inHistory with old | new
      · exact checks answered old
      · obtain rfl := List.mem_singleton.mp new
        exact honest
  obtain ⟨trusted, checks⟩ := preserved clean
  exact {
    trusted := trusted.exists_started
    single := trusted.single
    checks := checks
  }

/-- The machine at the Shell prompt: mount.efi itself is the only image. -/
def shellMachine : Machine where
  dxe := idleLoopDxe
  images := [⟨0, some (wide "\\mount.efi"), true⟩]
  sniffed := fun _ => none

/-- A walk over the images that works. -/
def completeScan : ImageScan where
  locate := .success
  readable := fun _ => true

/-- mount.efi lies in the root directory of its volume. -/
def rootPath : PathOutcomes where
  loadedImage := .success
  filePath := some [.filePath (wide "\\mount.efi")]
  fileDevicePath := true

theorem rootPath_fits
    {driverFile : Text}
    (short : driverFile.length < 200) :
    rootPath.Fits driverFile := by
  intro selfDir found
  have atRoot : mountGetSelfDir rootPath = .ok [] := rfl
  rw [atRoot] at found
  obtain rfl := Except.ok.inj found
  simp only [List.length_nil, mountMaxPath]
  omega

/-- A driver load from the root directory with the given answers. -/
def loadAnswering (image : Handle) (load start : EfiStatus) : LoadOutcomes where
  scan := completeScan
  path := rootPath
  load := load
  image := image
  start := start

/-- A rescan that finds neither block devices nor volumes. -/
def quietRescan : RescanOutcomes where
  blockIo := (.notFound, [])
  connects := fun _ => ⟨.notFound, [], []⟩
  nowFs := (.notFound, [])
  volume := fun _ => ⟨.notFound, none, none⟩

/-- `mount -NTFS` whose `LoadImage` gets the given answer. -/
def mountNtfs (image : Handle) (load : EfiStatus) : Command :=
  .format (wide "NTFS")
    ⟨(.notFound, []), completeScan, loadAnswering image load .success,
      quietRescan⟩

/-- The driver of the NTFS format. -/
def ntfsDriverFile : Text := wide "drivers\\ntfs_x64.efi"

theorem ntfsDriverFile_deduped : ntfsDriverFile ∈ dedupedDrivers := by
  decide

theorem shellMachine_no_ntfs :
    ∀ image ∈ shellMachine.images,
      image.isDriver ntfsDriverFile = false := by
  decide

theorem mountNtfs_admissible (load : EfiStatus) :
    (mountNtfs 1 load).Admissible shellMachine := by
  intro loaded member
  obtain rfl := List.mem_singleton.mp member
  exact Nat.zero_ne_one

/-- The dedupe contract after one `mount -NTFS` that loads its driver. -/
theorem dedupe_trusts_started_ntfs :
    ∃ history machine,
      mountApp.Run shellMachine history machine ∧
        DedupeContract ntfsDriverFile history machine := by
  have run :=
    ProcessRuns.Process.Run.start.extend
      (show mountApp.admits shellMachine (mountNtfs 1 .success) from
        mountNtfs_admissible .success)
  refine ⟨_, _, run,
    dedupe_trusts_started ntfsDriverFile_deduped shellMachine_no_ntfs
      run ?_⟩
  intro answered member
  obtain rfl := List.mem_singleton.mp member
  refine ⟨⟨⟨rfl, fun _ => rfl⟩, ⟨rfl, fun _ => rfl⟩, ?_⟩, ?_⟩
  · intro entry known
    have isNtfs :
        mountFindFormat (wide "NTFS") =
          some ⟨wide "NTFS", ntfsDriverFile, wide "efifs, read-only",
            true⟩ := by
      decide
    rw [isNtfs] at known
    obtain rfl := Option.some.inj known
    exact @rootPath_fits ntfsDriverFile (by decide)
  · have trace :
        (mountStep shellMachine (mountNtfs 1 .success)).1.trace =
          [.print .version,
            .dedupe ntfsDriverFile false shellMachine,
            .dedupe ntfsDriverFile false shellMachine,
            .loadImage ntfsDriverFile .success,
            .startImage ntfsDriverFile .success,
            .print (.driverLoaded ntfsDriverFile),
            .refreshShell,
            .print (.mapRefreshed 0)] := rfl
    intro blocked
    replace blocked :
        .loadImage ntfsDriverFile .securityViolation ∈
          (mountStep shellMachine (mountNtfs 1 .success)).1.trace :=
      blocked
    rw [trace] at blocked
    simp [EfiStatus.success, EfiStatus.securityViolation,
      EfiStatus.encodeError, EfiStatus.errorBit] at blocked

/--
A security violation leaves the image behind: the next `mount -NTFS` takes the
driver for loaded and exits with success, and no image of it was ever started.
-/
theorem dedupe_trusts_blocked_image :
    ∃ history machine,
      mountApp.Run shellMachine history machine ∧
        history.map (·.2.status) = [statusSecureBoot, .success] ∧
        ¬ DedupeContract ntfsDriverFile history machine := by
  let blocked := mountStep shellMachine (mountNtfs 1 .securityViolation)
  have first :=
    ProcessRuns.Process.Run.start.extend
      (show mountApp.admits shellMachine
          (mountNtfs 1 .securityViolation) from
        mountNtfs_admissible .securityViolation)
  have images :
      blocked.2.images =
        [⟨0, some (wide "\\mount.efi"), true⟩,
          ⟨1, some ntfsDriverFile, false⟩] := rfl
  have second :=
    first.extend
      (show mountApp.admits blocked.2 (mountNtfs 2 .success) by
        intro loaded member
        rw [images] at member
        revert loaded
        decide)
  refine ⟨_, _, second, rfl, ?_⟩
  intro contract
  have unchanged :
      (mountApp.step blocked.2 (mountNtfs 2 .success)).2.images =
        [⟨0, some (wide "\\mount.efi"), true⟩,
          ⟨1, some ntfsDriverFile, false⟩] := rfl
  obtain ⟨image, member, recognised, started⟩ :=
    @DedupeContract.trusted _ _ _ contract completeScan (by decide)
  replace member : image ∈
      (mountApp.step blocked.2 (mountNtfs 2 .success)).2.images := member
  rw [unchanged] at member
  simp only [List.mem_cons, List.not_mem_nil, or_false] at member
  rcases member with rfl | rfl
  · revert recognised
    decide
  · cases started

end UefiMount
