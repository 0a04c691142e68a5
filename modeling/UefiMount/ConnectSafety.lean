import UefiMount.DriverDedupe

namespace UefiMount

/-!
# Connects on unclaimable loop devices

A loop device over a pure ISO9660 image that no file system driver can claim
must not be connected: the firmware deadlocks.  `MountRunIso` guards its own
connect; the rescan, which every later command ends with, visits all block
devices.  The module says which commands keep clear of the kept devices.
-/

namespace Machine

/-- `MountDriverLoaded`, when its own firmware calls work. -/
def driverLoaded (machine : Machine) (driverFile : Text) : Bool :=
  machine.images.any fun image => image.isDriver driverFile

/--
The handle is a live loop device that was sniffed as ISO9660 and not UDF,
while the ISO9660 driver is not loaded and no file system is installed on it.
-/
def unclaimable (machine : Machine) (target : Handle) : Bool :=
  (machine.dxe.diskAt target).isSome &&
    (machine.sniffed target).any LoopSniff.pureIso &&
    !machine.driverLoaded isoDriverFile &&
    !(machine.dxe.handles target).simpleFileSystem

/-- The ISO9660 driver is loaded, or every pure ISO9660 device is claimed. -/
def NoneUnclaimed (machine : Machine) : Prop :=
  machine.driverLoaded isoDriverFile = true ∨
    ∀ handle,
      (machine.sniffed handle).any LoopSniff.pureIso = true →
      (machine.dxe.handles handle).simpleFileSystem = true

/-- On such a machine no handle is unclaimable. -/
theorem NoneUnclaimed.unclaimable_eq_false
    {machine : Machine}
    (claimed : machine.NoneUnclaimed)
    (target : Handle) :
    machine.unclaimable target = false := by
  rcases claimed with loaded | claimed
  · simp [unclaimable, loaded]
  · cases pure : (machine.sniffed target).any LoopSniff.pureIso with
    | false =>
        simp [unclaimable, pure]
    | true =>
        simp [unclaimable, claimed target pure]

/-- Further images, file systems and devices of other kinds keep it so. -/
theorem NoneUnclaimed.mono
    {before after : Machine}
    (claimed : before.NoneUnclaimed)
    (images : ∀ image ∈ before.images, image ∈ after.images)
    (devices :
      ∀ handle,
        (after.sniffed handle).any LoopSniff.pureIso = true →
        (before.sniffed handle).any LoopSniff.pureIso = true ∧
          ((before.dxe.handles handle).simpleFileSystem = true →
            (after.dxe.handles handle).simpleFileSystem = true)) :
    after.NoneUnclaimed := by
  rcases claimed with loaded | claimed
  · left
    obtain ⟨image, member, recognised⟩ := List.any_eq_true.mp loaded
    exact List.any_eq_true.mpr ⟨image, images image member, recognised⟩
  · right
    intro handle pure
    obtain ⟨wasPure, keeps⟩ := devices handle pure
    exact keeps (claimed handle wasPure)

end Machine

/-- No `ConnectController` of the command targets an unclaimable device. -/
structure SafeConnects (events : List Event) : Prop where
  connect :
    ∀ {target seen},
      .connect target seen ∈ events → seen.unclaimable target = false

/-- The event is a connect on an unclaimable device. -/
def Event.hitsUnclaimable : Event → Bool
  | .connect target seen => seen.unclaimable target
  | _ => false

namespace SafeConnects

/-- The check of a whole trace. -/
theorem no_hit
    {events : List Event}
    (safe : SafeConnects events) :
    events.any Event.hitsUnclaimable = false := by
  rw [List.any_eq_false]
  intro event member
  cases event with
  | connect target seen =>
      simpa [Event.hitsUnclaimable] using safe.connect member
  | _ =>
      simp [Event.hitsUnclaimable]

theorem append
    {earlier later : List Event}
    (first : SafeConnects earlier)
    (second : SafeConnects later) :
    SafeConnects (earlier ++ later) where
  connect member := by
    rcases List.mem_append.mp member with early | late
    · exact first.connect early
    · exact second.connect late

/-- Events without a connect. -/
theorem of_no_connect
    {events : List Event}
    (noConnect : ∀ target seen, .connect target seen ∉ events) :
    SafeConnects events where
  connect member := (noConnect _ _ member).elim

/-- A rescan of a machine without unclaimed devices. -/
theorem rescan
    {before after : Machine}
    {events : List Event}
    (rescanned : Rescanned before events after)
    (claimed : before.NoneUnclaimed) :
    SafeConnects events where
  connect member := by
    obtain ⟨images, sniffed, fileSystems⟩ := rescanned.connects member
    apply Machine.NoneUnclaimed.unclaimable_eq_false
    apply claimed.mono
    · intro image inImages
      rwa [images]
    · intro handle pure
      rw [sniffed] at pure
      exact ⟨pure, fileSystems handle⟩

end SafeConnects

section Transitions

variable {machine machine' : Machine}
  {status : EfiStatus}
  {events : List Event}

/-- A driver load connects nothing, and loads images only. -/
theorem DriverLoad.connects
    {outcomes : LoadOutcomes}
    {driverFile : Text}
    (load :
      DriverLoad outcomes driverFile machine status events machine') :
    SafeConnects events ∧
      (∀ image ∈ machine.images, image ∈ machine'.images) ∧
      machine'.dxe = machine.dxe ∧
      machine'.sniffed = machine.sniffed := by
  have old :
      ∀ added, ∀ image ∈ machine.images,
        image ∈ (machine.addImage added).images :=
    fun added image member => List.mem_append_left _ member
  cases load
  case alreadyLoaded | noPath | notFound | loadFailed | startFailed =>
    exact ⟨.of_no_connect (by simp), fun _ member => member, rfl, rfl⟩
  case blocked | started =>
    exact ⟨.of_no_connect (by simp), old _, rfl, rfl⟩

/-- Getting the factory connects nothing, and loads images only. -/
theorem FactoryGet.connects
    {outcomes : FactoryOutcomes}
    (factory : FactoryGet outcomes machine status events machine') :
    SafeConnects events ∧
      ∀ image ∈ machine.images, image ∈ machine'.images := by
  have old :
      ∀ added, ∀ image ∈ machine.images,
        image ∈ (machine.addImage added).images :=
    fun added image member => List.mem_append_left _ member
  cases factory
  case resident | noPath | loadFailed | startFailed =>
    exact ⟨.of_no_connect (by simp), fun _ member => member⟩
  case blocked | unpublished | started =>
    exact ⟨.of_no_connect (by simp), old _⟩

/-- A driver that was loaded from an uncut path counts as loaded. -/
theorem DriverLoad.driverLoaded
    {outcomes : LoadOutcomes}
    {driverFile : Text}
    (load :
      DriverLoad outcomes driverFile machine .success events machine')
    (shape : OneBackslash driverFile)
    (fits : outcomes.path.Fits driverFile) :
    machine'.driverLoaded driverFile = true := by
  cases load with
  | alreadyLoaded found =>
      obtain ⟨image, member, recognised⟩ := exists_isDriver found
      exact List.any_eq_true.mpr ⟨image, member, recognised⟩
  | started absent built =>
      refine List.any_eq_true.mpr
        ⟨_, List.mem_append_right _ (List.mem_singleton_self _), ?_⟩
      exact (built_endsWithDriver built fits shape shape).mpr rfl

/--
Creating a loop device connects nothing; unless the image is pure ISO9660, it
leaves no unclaimed device behind that was not there before.
-/
theorem LoopCreation.connects
    {outcomes : LoopCreateOutcomes}
    {isoPath : Text}
    {created : LoopCreated}
    (creation :
      LoopCreation outcomes isoPath machine created events machine') :
    SafeConnects events ∧
      (created.status = .success →
        created.sniff.pureIso = false →
        machine.NoneUnclaimed →
        machine'.NoneUnclaimed) := by
  have warning : SafeConnects (tailWarning outcomes) := by
    apply SafeConnects.of_no_connect
    intro target seen
    simp only [tailWarning]
    split <;> simp
  cases creation with
  | cannotOpen | noInfoPool | cannotStat | tooSmall =>
      exact ⟨.of_no_connect (by simp),
        fun succeeded => absurd succeeded (by decide)⟩
  | unresolved =>
      exact ⟨warning.append (.of_no_connect (by simp)),
        fun succeeded => (statusIsoError_ne_success succeeded).elim⟩
  | noFactory _ factory failed =>
      refine ⟨warning.append (factory.connects.1.append ?_),
        fun succeeded => (failed succeeded).elim⟩
      apply SafeConnects.of_no_connect
      intro target seen
      split <;> simp
  | createFailed _ factory failed =>
      exact ⟨warning.append
          (factory.connects.1.append (.of_no_connect (by simp))),
        fun succeeded =>
          (EfiStatus.ne_success_of_isError failed succeeded).elim⟩
  | created _ factory =>
      refine ⟨warning.append factory.connects.1, ?_⟩
      intro _ notPure claimed
      obtain ⟨sameDxe, sameSniffed⟩ := factory.dxe_eq
      refine claimed.mono (fun image => factory.connects.2 image) ?_
      intro handle pure
      by_cases isNew : handle = outcomes.create.newHandle
      · simp only [Machine.withLoop, isNew, Function.update_self,
          Option.any_some, notPure] at pure
        cases pure
      · simp only [Machine.withLoop, LoopDxe.addDevice, ne_eq, isNew,
          not_false_eq_true, Function.update_of_ne] at pure ⊢
        rw [sameSniffed] at pure
        rw [sameDxe]
        exact ⟨pure, fun kept => kept⟩

end Transitions

/--
The command keeps clear of kept devices: unless its own image is pure ISO9660,
it gets to the rescan only when no device is unclaimed; and the ISO9660 driver
is loaded from a path that is not cut off.
-/
def Command.Spares (machine : Machine) : Command → Prop
  | .iso _ outcomes =>
      outcomes.load.path.Fits isoDriverFile ∧
        (outcomes.create.Succeeds →
          (loopSniff outcomes.create).pureIso = false →
          machine.NoneUnclaimed)
  | .format name outcomes =>
      ∀ entry,
        mountFindFormat name = some entry →
        mountDriverLoaded outcomes.scan entry.driverFile
            machine.images = true ∨
          outcomes.load.Succeeds entry.driverFile machine.images →
        machine.NoneUnclaimed

/-- The connects of a command that keeps clear of kept devices are safe. -/
theorem CommandRun.safeConnects
    {machine machine' : Machine}
    {command : Command}
    {status : EfiStatus}
    {events : List Event}
    (run : CommandRun machine command status events machine')
    (spared : command.Spares machine) :
    SafeConnects events := by
  have line : ∀ line, SafeConnects [.print line] :=
    fun line => .of_no_connect (by simp)
  have check :
      ∀ file verdict seen, SafeConnects [.dedupe file verdict seen] :=
    fun file verdict seen => .of_no_connect (by simp)
  have isoShape : OneBackslash isoDriverFile :=
    (dedupedDrivers_shape (List.mem_append_right _ (by simp))).1
  cases run with
  | iso run =>
      obtain ⟨fits, spared⟩ := spared
      cases run with
      | refused creation =>
          exact (line _).append creation.connects.1
      | connected creation succeeded notPure rescanned =>
          obtain ⟨quiet, claimed⟩ := creation.connects
          have sniffed := creation.sniff_eq succeeded ▸ notPure
          have claimed' := claimed succeeded notPure
            (spared (creation.success_iff.mp succeeded) sniffed)
          exact (line _).append (quiet.append
            ((line _).append (.rescan rescanned claimed')))
      | claimable creation _ _ found rescanned =>
          obtain ⟨image, member, recognised⟩ := exists_isDriver found
          have claimed : Machine.NoneUnclaimed _ :=
            .inl (List.any_eq_true.mpr ⟨image, member, recognised⟩)
          exact (line _).append (creation.connects.1.append
            ((line _).append ((check _ _ _).append
              (.rescan rescanned claimed))))
      | driverLoaded creation _ _ _ load rescanned =>
          have claimed : Machine.NoneUnclaimed _ :=
            .inl (load.driverLoaded isoShape fits)
          exact (line _).append (creation.connects.1.append
            ((line _).append ((check _ _ _).append
              (load.connects.1.append (.rescan rescanned claimed)))))
      | degraded creation _ _ _ load =>
          exact (line _).append (creation.connects.1.append
            ((line _).append ((check _ _ _).append
              (load.connects.1.append
                ((line _).append (line _))))))
  | format known run =>
      cases run with
      | alreadyLoaded found rescanned =>
          have claimed := spared _ known (.inl found)
          exact (line _).append ((check _ _ _).append
            ((line _).append (.rescan rescanned claimed)))
      | driverLoaded _ load rescanned =>
          obtain ⟨quiet, images, sameDxe, sameSniffed⟩ := load.connects
          have claimed :=
            (spared _ known (.inr (load.success_iff.mp rfl))).mono images
              (by
                intro handle pure
                rw [sameSniffed] at pure
                rw [sameDxe]
                exact ⟨pure, fun kept => kept⟩)
          exact (line _).append ((check _ _ _).append
            (quiet.append (.rescan rescanned claimed)))
      | refused _ load =>
          exact (line _).append
            ((check _ _ _).append load.connects.1)
  | unknownFormat =>
      exact .of_no_connect (by simp)

/-- Every command of the history keeps clear of kept devices where it runs. -/
def SparingRun
    (initial : Machine)
    (history : List (Command × CommandReply)) : Prop :=
  ∀ earlier command reply later before,
    history = earlier ++ (command, reply) :: later →
    mountApp.Run initial earlier before →
    command.Spares before

/-- In every run that keeps clear of kept devices every connect is safe. -/
theorem connects_safe_of_sparing
    {initial machine : Machine}
    {history : List (Command × CommandReply)}
    (run : mountApp.Run initial history machine)
    (spared : SparingRun initial history) :
    ∀ answered ∈ history, SafeConnects answered.2.trace := by
  rintro ⟨command, reply⟩ member
  obtain ⟨earlier, later, shape⟩ := List.mem_iff_append.mp member
  obtain ⟨before, reached, admissible, answered, _⟩ := run.split shape
  obtain ⟨status, events, after, commandRun, answer⟩ :=
    mountStep_cases admissible
  have trace : reply.trace = events := by
    rw [answered]
    simp only [mountApp, answer]
  rw [trace]
  exact commandRun.safeConnects (spared _ _ _ _ _ shape reached)

/-- On a machine without loop devices none is unclaimed. -/
theorem shellMachine_noneUnclaimed : shellMachine.NoneUnclaimed :=
  .inr fun handle pure => by simp [shellMachine] at pure

/-- The connects of one `mount -NTFS` that loads its driver are safe. -/
theorem connects_safe_of_sparing_ntfs :
    ∃ history machine,
      mountApp.Run shellMachine history machine ∧
        history.length = 1 ∧
        ∀ answered ∈ history, SafeConnects answered.2.trace := by
  have run :=
    ProcessRuns.Process.Run.start.extend
      (show mountApp.admits shellMachine (mountNtfs 1 .success) from
        mountNtfs_admissible .success)
  refine ⟨_, _, run, rfl, connects_safe_of_sparing run ?_⟩
  intro earlier command reply later before shape reached
  have noneEarlier : earlier = [] := by
    cases earlier with
    | nil => rfl
    | cons first rest => simp at shape
  subst noneEarlier
  obtain rfl := reached.nil_eq
  have onlyNtfs : command = mountNtfs 1 .success := by
    simp only [List.nil_append, List.cons.injEq, Prod.mk.injEq] at shape
    exact shape.1.1.symm
  subst onlyNtfs
  exact fun _ _ _ => shellMachine_noneUnclaimed

/-- The first six sectors of an image with an ISO9660 descriptor only. -/
def pureIsoBuffer : List UInt8 :=
  0 :: ascii "CD001" ++ List.replicate 12282 0

/-- `mount -ISO` of a pure ISO9660 image, whose driver loads as given. -/
def mountPureIso (load : EfiStatus) : Command :=
  .iso (wide "\\a.iso") {
    oldFs := (.notFound, [])
    create := {
      openFile := .success
      file := 0
      infoPool := true
      getInfo := .success
      fileSize := 45056
      setPosition := .success
      read := .success
      buffer := pureIsoBuffer
      locateShell := .success
      fileDevicePath := some [.filePath (wide "\\a.iso")]
      factory := ⟨.notFound, rootPath, .success, 1, .success, .success⟩
      create := ⟨some 0, some 1, .success, 0⟩
    }
    scan := completeScan
    load := loadAnswering 2 load .success
    connect := ⟨.success, [], []⟩
    rescan := quietRescan
  }

theorem mountPureIso_admissible (load : EfiStatus) :
    (mountPureIso load).Admissible shellMachine := by
  have fresh :
      shellMachine.FreshImage 1 ∧ shellMachine.FreshImage 2 := by
    decide
  have different : (2 : Handle) ≠ 1 := by decide
  refine ⟨⟨fun _ => rfl, fun isPath => ⟨rfl, ?_⟩, rfl⟩, fresh.1, fresh.2,
    different⟩
  intro sameBlock
  cases isPath
  cases sameBlock

/-- `mount -NTFS` whose rescan finds the block device on handle 0. -/
def mountNtfsRescan : Command :=
  .format (wide "NTFS")
    ⟨(.notFound, []), completeScan, loadAnswering 2 .success .success,
      { quietRescan with blockIo := (.success, [0]) }⟩

/-- The machine after that command: the device is kept on handle 0. -/
def keptMachine : Machine :=
  (mountApp.step shellMachine (mountPureIso .notFound)).2

theorem mountNtfsRescan_admissible :
    mountNtfsRescan.Admissible keptMachine := by
  have fresh : keptMachine.FreshImage 2 := by decide +kernel
  exact fresh

/--
A pure ISO9660 device that was kept unconnected because its driver is missing
is connected by the rescan of the next command.
-/
theorem connects_kept_device :
    ∃ history machine,
      mountApp.Run shellMachine history machine ∧
        ¬ ∀ answered ∈ history, SafeConnects answered.2.trace := by
  have kept : mountApp.Run shellMachine _ keptMachine :=
    ProcessRuns.Process.Run.start.extend
      (show mountApp.admits shellMachine (mountPureIso .notFound) from
        mountPureIso_admissible .notFound)
  have run :=
    kept.extend
      (show mountApp.admits keptMachine mountNtfsRescan from
        mountNtfsRescan_admissible)
  refine ⟨_, _, run, ?_⟩
  intro safe
  have isSafe := safe _ (List.mem_append_right _ (List.mem_singleton_self _))
  dsimp only at isSafe
  have hit :
      (mountApp.step keptMachine mountNtfsRescan).1.trace.any
        Event.hitsUnclaimable = true := by
    decide +kernel
  exact Bool.false_ne_true (isSafe.no_hit.symm.trans hit)

end UefiMount
