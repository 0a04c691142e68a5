import UefiMount.ConnectSafety

namespace UefiMount

/-!
# Exit codes and error lines

A command is to exit with an error exactly when it has printed one line that
says so, and how the firmware calls end fixes the exit code.  The module
states what each outcome asks for, compares every way a command ends with that
contract, and says which outcomes break it.
-/

/-- The event prints a `MOUNT: error` line. -/
@[simp] def Event.isErrorLine : Event → Bool
  | .print line => line.isError
  | _ => false

/-- How many `MOUNT: error` lines were printed. -/
def errorLines (events : List Event) : Nat :=
  events.countP Event.isErrorLine

/-- A `LoadImage` answer that the source reports as a missing driver file. -/
def missingFile (status : EfiStatus) : Prop :=
  status = .notFound ∨ status = .loadError ∨ status = .invalidParameter

/-- A needed driver that does not load or start, and the exit code for it. -/
inductive DriverRefused
    (driverFile : Text)
    (path : PathOutcomes)
    (load start : EfiStatus) :
    EfiStatus → Prop where
  | pathless
      (unbuilt :
        ∀ devicePath,
          mountBuildDriverDevicePath path driverFile ≠ .ok devicePath) :
      DriverRefused driverFile path load start statusDriverMissing
  | blocked
      {devicePath : Text}
      (built :
        mountBuildDriverDevicePath path driverFile = .ok devicePath)
      (violation : load = .securityViolation) :
      DriverRefused driverFile path load start statusSecureBoot
  | notLoaded
      {devicePath : Text}
      (built :
        mountBuildDriverDevicePath path driverFile = .ok devicePath)
      (failed : load.isError = true)
      (allowed : load ≠ .securityViolation) :
      DriverRefused driverFile path load start statusDriverMissing
  | notStarted
      {devicePath : Text}
      (built :
        mountBuildDriverDevicePath path driverFile = .ok devicePath)
      (loaded : load.isError = false)
      (failed : start.isError = true) :
      DriverRefused driverFile path load start statusDriverMissing

namespace LoopCreateOutcomes

/-- The image file is not opened, not statted, too small or has no path. -/
inductive ImageRefused (outcomes : LoopCreateOutcomes) : Prop where
  | cannotOpen
      (failed : outcomes.openFile.isError = true)
  | cannotStat
      (opened : outcomes.openFile.isError = false)
      (infoPool : outcomes.infoPool = true)
      (failed : outcomes.getInfo.isError = true)
  | tooSmall
      (opened : outcomes.openFile.isError = false)
      (infoPool : outcomes.infoPool = true)
      (statted : outcomes.getInfo.isError = false)
      (small : outcomes.fileSize < loopMinSize)
  | unresolved
      (opened : outcomes.openFile.isError = false)
      (infoPool : outcomes.infoPool = true)
      (statted : outcomes.getInfo.isError = false)
      (large : ¬ outcomes.fileSize < loopMinSize)
      (noPath :
        outcomes.locateShell.isError = true ∨
          outcomes.fileDevicePath = none)

/-- The exit codes that the outcomes of creating the loop device ask for. -/
inductive Demands (outcomes : LoopCreateOutcomes) : EfiStatus → Prop where
  | image
      (refused : outcomes.ImageRefused) :
      Demands outcomes statusIsoError
  | loopDriver
      {fileDevicePath : DevicePath}
      (accepted : outcomes.Accepts fileDevicePath)
      (unlocated : outcomes.factory.locate.isError = true)
      {demand : EfiStatus}
      (refused :
        DriverRefused loopDriverFile outcomes.factory.path
          outcomes.factory.load outcomes.factory.start demand) :
      Demands outcomes demand
  | unpublished
      {fileDevicePath : DevicePath}
      (accepted : outcomes.Accepts fileDevicePath)
      (unlocated : outcomes.factory.locate.isError = true)
      {path : Text}
      (built :
        mountBuildDriverDevicePath outcomes.factory.path loopDriverFile =
          .ok path)
      (loaded : outcomes.factory.load.isError = false)
      (running : outcomes.factory.start.isError = false)
      (absent : outcomes.factory.locateAgain.isError = true) :
      Demands outcomes statusDriverMissing

end LoopCreateOutcomes

/-- The loaded images once the factory has been found. -/
def FactoryOutcomes.imagesAfter
    (outcomes : FactoryOutcomes)
    (images : List LoadedImage) :
    List LoadedImage :=
  if outcomes.locate.isError then
    match mountBuildDriverDevicePath outcomes.path loopDriverFile with
    | .error _ =>
        images
    | .ok path =>
        images ++ [⟨outcomes.image, some path, true⟩]
  else
    images

/--
The run has to load the ISO9660 driver: the loop device is created over a pure
ISO9660 image, and neither check finds the driver among the loaded images.
-/
structure IsoOutcomes.NeedsDriver
    (outcomes : IsoOutcomes)
    (machine : Machine) : Prop where
  created :
    outcomes.create.Succeeds
  pure :
    (loopSniff outcomes.create).pureIso = true
  absent :
    ∀ scan ∈ [outcomes.scan, outcomes.load.scan],
      mountDriverLoaded scan isoDriverFile
        (outcomes.create.factory.imagesAfter machine.images) = false

namespace Command

/-- The exit codes that the outcomes of a command ask for. -/
inductive Demands (machine : Machine) : Command → EfiStatus → Prop where
  | create
      {path : Text}
      {outcomes : IsoOutcomes}
      {demand : EfiStatus}
      (demands : outcomes.create.Demands demand) :
      Demands machine (.iso path outcomes) demand
  | isoDriver
      {path : Text}
      {outcomes : IsoOutcomes}
      (needed : outcomes.NeedsDriver machine)
      {demand : EfiStatus}
      (refused :
        DriverRefused isoDriverFile outcomes.load.path outcomes.load.load
          outcomes.load.start demand) :
      Demands machine (.iso path outcomes) demand
  | formatDriver
      {name : Text}
      {entry : MountFormatEntry}
      {outcomes : FormatOutcomes}
      (known : mountFindFormat name = some entry)
      (absent :
        ∀ scan ∈ [outcomes.scan, outcomes.load.scan],
          mountDriverLoaded scan entry.driverFile machine.images = false)
      {demand : EfiStatus}
      (refused :
        DriverRefused entry.driverFile outcomes.load.path
          outcomes.load.load outcomes.load.start demand) :
      Demands machine (.format name outcomes) demand

/-- The documented degraded case: the ISO9660 driver file is missing. -/
def Degraded (machine : Machine) : Command → Prop
  | .iso _ outcomes =>
      outcomes.NeedsDriver machine ∧
        (∃ devicePath,
          mountBuildDriverDevicePath outcomes.load.path isoDriverFile =
            .ok devicePath) ∧
        missingFile outcomes.load.load
  | .format _ _ =>
      False

end Command

/-- The exit-code and error-line contract for one command. -/
structure ExitContract
    (machine : Machine)
    (command : Command)
    (reply : CommandReply) : Prop where
  nonzero_iff :
    reply.status ≠ .success ↔ 0 < errorLines reply.trace
  oneLine :
    errorLines reply.trace ≤ 1
  demanded :
    ¬ command.Degraded machine →
      ∀ {demand},
        command.Demands machine demand → reply.status = demand
  degraded :
    command.Degraded machine →
      reply.status = .success ∧ errorLines reply.trace = 0

@[simp] theorem errorLines_nil : errorLines [] = 0 := rfl

@[simp] theorem errorLines_cons (event : Event) (events : List Event) :
    errorLines (event :: events) =
      errorLines events + if event.isErrorLine then 1 else 0 :=
  List.countP_cons

@[simp] theorem errorLines_append (earlier later : List Event) :
    errorLines (earlier ++ later) = errorLines earlier + errorLines later :=
  List.countP_append

/-- Events without an error line. -/
theorem errorLines_eq_zero
    {events : List Event}
    (quiet : ∀ event ∈ events, event.isErrorLine = false) :
    errorLines events = 0 := by
  simp only [errorLines, List.countP_eq_zero, Bool.not_eq_true]
  exact quiet

section Traces

attribute [local simp] PrintLine.isError_eq

/-- A rescan prints no error line. -/
@[simp] theorem Rescanned.errorLines_eq
    {before after : Machine}
    {events : List Event}
    (rescanned : Rescanned before events after) :
    errorLines events = 0 := by
  refine errorLines_eq_zero fun event member => ?_
  have isRescan := rescanned.quiet event member
  cases event with
  | print line =>
      cases line
      case newVolume | mapRefreshed =>
        simp
      all_goals cases isRescan
  | connect | refreshShell =>
      rfl
  | _ =>
      cases isRescan

/-- The tail warning is no error line. -/
@[simp] theorem errorLines_tailWarning (outcomes : LoopCreateOutcomes) :
    errorLines (tailWarning outcomes) = 0 := by
  simp only [tailWarning]
  split <;> simp

/-- A driver load prints an error line exactly when it fails. -/
theorem DriverLoad.errorLines_eq
    {outcomes : LoadOutcomes}
    {driverFile : Text}
    {machine machine' : Machine}
    {status : EfiStatus}
    {events : List Event}
    (load :
      DriverLoad outcomes driverFile machine status events machine') :
    errorLines events = if status = .success then 0 else 1 := by
  cases load with
  | alreadyLoaded | started =>
      simp
  | noPath | notFound | loadFailed | startFailed =>
      simp [statusDriverMissing_ne_success]
  | blocked =>
      simp [statusSecureBoot_ne_success]

namespace DriverRefused

variable
  {driverFile : Text}
  {path : PathOutcomes}
  {load start demand : EfiStatus}

/-- A driver that is refused asks for an error. -/
theorem ne_success
    (refused : DriverRefused driverFile path load start demand) :
    demand ≠ .success := by
  cases refused with
  | pathless | notLoaded | notStarted =>
      exact statusDriverMissing_ne_success
  | blocked =>
      exact statusSecureBoot_ne_success

/-- Only a security violation asks for the code of its own. -/
theorem eq_missing
    (refused : DriverRefused driverFile path load start demand)
    (allowed : load ≠ .securityViolation) :
    demand = statusDriverMissing := by
  cases refused with
  | pathless | notLoaded | notStarted =>
      rfl
  | blocked _ violation =>
      exact (allowed violation).elim

theorem eq_missing_of_unbuilt
    (refused : DriverRefused driverFile path load start demand)
    {status : EfiStatus}
    (unbuilt :
      mountBuildDriverDevicePath path driverFile = .error status) :
    demand = statusDriverMissing := by
  cases refused with
  | pathless =>
      rfl
  | blocked built | notLoaded built | notStarted built =>
      simp [unbuilt] at built

theorem eq_secureBoot
    (refused : DriverRefused driverFile path load start demand)
    {devicePath : Text}
    (built :
      mountBuildDriverDevicePath path driverFile = .ok devicePath)
    (violation : load = .securityViolation) :
    demand = statusSecureBoot := by
  cases refused with
  | pathless unbuilt =>
      exact (unbuilt _ built).elim
  | blocked =>
      rfl
  | notLoaded _ _ allowed =>
      exact (allowed violation).elim
  | notStarted _ loaded =>
      simp [violation] at loaded

/-- A driver that loads and starts is not refused. -/
theorem not_started
    (refused : DriverRefused driverFile path load start demand)
    {devicePath : Text}
    (built :
      mountBuildDriverDevicePath path driverFile = .ok devicePath)
    (loaded : load.isError = false)
    (running : start.isError = false) :
    False := by
  cases refused with
  | pathless unbuilt =>
      exact unbuilt _ built
  | blocked _ violation =>
      simp [violation] at loaded
  | notLoaded _ failed =>
      simp [loaded] at failed
  | notStarted _ _ failed =>
      simp [running] at failed

end DriverRefused

/-- An image that is loaded did not violate the security policy. -/
theorem ne_securityViolation
    {load : EfiStatus}
    (loaded : load.isError = false) :
    load ≠ .securityViolation := by
  rintro rfl
  simp at loaded

/-- A driver load that is needed returns the code its outcomes ask for. -/
theorem DriverLoad.status_eq_demand
    {outcomes : LoadOutcomes}
    {driverFile : Text}
    {machine machine' : Machine}
    {status demand : EfiStatus}
    {events : List Event}
    (load :
      DriverLoad outcomes driverFile machine status events machine')
    (absent :
      mountDriverLoaded outcomes.scan driverFile machine.images = false)
    (refused :
      DriverRefused driverFile outcomes.path outcomes.load outcomes.start
        demand) :
    status = demand := by
  cases load with
  | alreadyLoaded found =>
      simp [absent] at found
  | noPath _ unbuilt =>
      exact (refused.eq_missing_of_unbuilt unbuilt).symm
  | notFound _ _ missing =>
      refine (refused.eq_missing ?_).symm
      rcases missing with load | load | load <;> (rw [load]; decide)
  | blocked _ built violation =>
      exact (refused.eq_secureBoot built violation).symm
  | loadFailed _ _ _ _ allowed =>
      exact (refused.eq_missing allowed).symm
  | startFailed _ _ loaded =>
      exact (refused.eq_missing (ne_securityViolation loaded)).symm
  | started _ built loaded running =>
      exact (refused.not_started built loaded running).elim

/-- No factory is resident and the path of its driver cannot be built. -/
def FactoryOutcomes.Pathless (outcomes : FactoryOutcomes) : Prop :=
  outcomes.locate.isError = true ∧
    ∀ path,
      mountBuildDriverDevicePath outcomes.path loopDriverFile ≠ .ok path

namespace FactoryGet

variable
  {outcomes : FactoryOutcomes}
  {machine machine' : Machine}
  {status : EfiStatus}
  {events : List Event}

/-- Getting the factory prints an error line exactly when it fails. -/
theorem errorLines_eq
    (factory : FactoryGet outcomes machine status events machine') :
    errorLines events = if status = .success then 0 else 1 := by
  cases factory with
  | resident | started =>
      simp
  | noPath _ unbuilt =>
      have failed :=
        EfiStatus.ne_success_of_isError (isError_of_unbuilt unbuilt)
      simp [failed]
  | blocked =>
      simp [statusSecureBoot_ne_success]
  | loadFailed | startFailed | unpublished =>
      simp [statusDriverMissing_ne_success]

/-- Only a path that cannot be built is no code of the driver's own. -/
theorem status_cases
    (factory : FactoryGet outcomes machine status events machine') :
    ¬ outcomes.Pathless ∧
        (status = .success ∨ status = statusDriverMissing ∨
          status = statusSecureBoot) ∨
      outcomes.Pathless ∧ status.isError = true := by
  have found :
      ∀ {path},
        mountBuildDriverDevicePath outcomes.path loopDriverFile =
          .ok path →
        ¬ outcomes.Pathless :=
    fun built pathless => pathless.2 _ built
  cases factory with
  | resident located =>
      exact .inl ⟨fun pathless => by simp [pathless.1] at located, .inl rfl⟩
  | noPath unlocated unbuilt =>
      exact .inr ⟨⟨unlocated, by simp [unbuilt]⟩,
        isError_of_unbuilt unbuilt⟩
  | blocked _ built =>
      exact .inl ⟨found built, .inr (.inr rfl)⟩
  | loadFailed _ built | startFailed _ built | unpublished _ built =>
      exact .inl ⟨found built, .inr (.inl rfl)⟩
  | started _ built =>
      exact .inl ⟨found built, .inl rfl⟩

/-- A loop driver that is needed fails with the code its outcomes ask for. -/
theorem status_eq_demand
    (factory : FactoryGet outcomes machine status events machine')
    (pathful : ¬ outcomes.Pathless)
    (unlocated : outcomes.locate.isError = true)
    {demand : EfiStatus}
    (refused :
      DriverRefused loopDriverFile outcomes.path outcomes.load
        outcomes.start demand) :
    status = demand := by
  cases factory with
  | resident located =>
      simp [unlocated] at located
  | noPath _ unbuilt =>
      exact (pathful ⟨unlocated, by simp [unbuilt]⟩).elim
  | blocked _ built violation =>
      exact (refused.eq_secureBoot built violation).symm
  | loadFailed _ _ _ allowed =>
      exact (refused.eq_missing allowed).symm
  | startFailed _ _ loaded | unpublished _ _ loaded =>
      exact (refused.eq_missing (ne_securityViolation loaded)).symm
  | started _ built loaded running =>
      exact (refused.not_started built loaded running).elim

/-- A loop driver that starts and publishes no factory counts as missing. -/
theorem status_eq_missing
    (factory : FactoryGet outcomes machine status events machine')
    (unlocated : outcomes.locate.isError = true)
    {path : Text}
    (built :
      mountBuildDriverDevicePath outcomes.path loopDriverFile = .ok path)
    (loaded : outcomes.load.isError = false)
    (absent : outcomes.locateAgain.isError = true) :
    status = statusDriverMissing := by
  cases factory with
  | resident located =>
      simp [unlocated] at located
  | noPath _ unbuilt =>
      simp [built] at unbuilt
  | blocked _ _ violation =>
      simp [violation] at loaded
  | loadFailed | startFailed | unpublished =>
      rfl
  | started _ _ _ _ published =>
      simp [absent] at published

end FactoryGet

/--
The file information is allocated when the image is opened, and when the image
is accepted the factory is resident or the path of its driver can be built.
-/
structure LoopCreateOutcomes.Answerable
    (outcomes : LoopCreateOutcomes) : Prop where
  infoPool :
    outcomes.openFile.isError = false → outcomes.infoPool = true
  factory :
    ∀ {fileDevicePath},
      outcomes.Accepts fileDevicePath → ¬ outcomes.factory.Pathless

/-- An image that is accepted is not refused. -/
theorem LoopCreateOutcomes.Accepts.not_refused
    {outcomes : LoopCreateOutcomes}
    {fileDevicePath : DevicePath}
    (accepted : outcomes.Accepts fileDevicePath) :
    ¬ outcomes.ImageRefused := by
  intro refused
  cases refused with
  | cannotOpen failed =>
      simp [accepted.opened] at failed
  | cannotStat _ _ failed =>
      simp [accepted.statted] at failed
  | tooSmall _ _ _ small =>
      exact accepted.large small
  | unresolved _ _ _ _ noPath =>
      have resolved := accepted.resolved
      rcases noPath with located | noPath
      · simp [mountIsoFileDevicePath, located] at resolved
      · simp [mountIsoFileDevicePath, noPath] at resolved

namespace LoopCreation

variable
  {outcomes : LoopCreateOutcomes}
  {isoPath : Text}
  {machine machine' : Machine}
  {created : LoopCreated}
  {events : List Event}

/--
Creating the loop device prints an error line exactly when it fails, if and
only if its outcomes are answerable.
-/
theorem errorLines_eq_iff
    (creation :
      LoopCreation outcomes isoPath machine created events machine') :
    errorLines events =
        (if created.status = .success then 0 else 1) ↔
      outcomes.Answerable := by
  cases creation with
  | cannotOpen failed =>
      refine iff_of_true (by simp [statusIsoError_ne_success])
        ⟨by simp [failed], fun accepted => ?_⟩
      simp [accepted.opened] at failed
  | noInfoPool opened failed =>
      refine iff_of_false (by decide) fun answerable => ?_
      simp [answerable.infoPool opened] at failed
  | cannotStat _ infoPool failed =>
      refine iff_of_true (by simp [statusIsoError_ne_success])
        ⟨fun _ => infoPool, fun accepted => ?_⟩
      simp [accepted.statted] at failed
  | tooSmall _ infoPool _ small =>
      exact iff_of_true (by simp [statusIsoError_ne_success])
        ⟨fun _ => infoPool, fun accepted => (accepted.large small).elim⟩
  | unresolved _ infoPool _ _ noPath =>
      refine iff_of_true (by simp [statusIsoError_ne_success])
        ⟨fun _ => infoPool, fun accepted => ?_⟩
      simp [accepted.resolved] at noPath
  | noFactory accepted factory failed =>
      have oneLine := factory.errorLines_eq
      rw [if_neg failed] at oneLine
      rcases factory.status_cases with
        ⟨pathful, succeeded | own⟩ | ⟨pathless, isError⟩
      · exact (failed succeeded).elim
      · refine iff_of_true ?_
          ⟨fun _ => accepted.infoPool, fun _ => pathful⟩
        -- The factory has printed the line, and LoopCreate adds none.
        rw [if_neg (show ¬ (_ ∧ _) by tauto), if_neg failed]
        simp [oneLine]
      · refine iff_of_false ?_ fun answerable =>
          answerable.factory accepted pathless
        -- The line about the path, and a second one from LoopCreate.
        simp [failed, oneLine, ne_driverStatus_of_isError isError]
  | createFailed accepted factory failed =>
      have pathful : ¬ outcomes.factory.Pathless := by
        rcases factory.status_cases with ⟨pathful, _⟩ | ⟨_, isError⟩
        · exact pathful
        · cases isError
      refine iff_of_true ?_
        ⟨fun _ => accepted.infoPool, fun _ => pathful⟩
      simp [factory.errorLines_eq, EfiStatus.ne_success_of_isError failed]
  | created accepted factory =>
      have pathful : ¬ outcomes.factory.Pathless := by
        rcases factory.status_cases with ⟨pathful, _⟩ | ⟨_, isError⟩
        · exact pathful
        · cases isError
      refine iff_of_true ?_
        ⟨fun _ => accepted.infoPool, fun _ => pathful⟩
      simp [factory.errorLines_eq]

/-- For an accepted image the factory is asked for, and a failure returned. -/
theorem factory_of_accepted
    (creation :
      LoopCreation outcomes isoPath machine created events machine')
    {fileDevicePath : DevicePath}
    (accepted : outcomes.Accepts fileDevicePath) :
    ∃ status events after,
      FactoryGet outcomes.factory machine status events after ∧
        (status ≠ .success → created.status = status) := by
  cases creation with
  | cannotOpen failed =>
      simp [accepted.opened] at failed
  | noInfoPool _ failed =>
      simp [accepted.infoPool] at failed
  | cannotStat _ _ failed =>
      simp [accepted.statted] at failed
  | tooSmall _ _ _ small =>
      exact (accepted.large small).elim
  | unresolved _ _ _ _ noPath =>
      simp [accepted.resolved] at noPath
  | noFactory _ factory =>
      exact ⟨_, _, _, factory, fun _ => rfl⟩
  | createFailed _ factory | created _ factory =>
      exact ⟨_, _, _, factory, fun failed => (failed rfl).elim⟩

/-- What the outcomes ask for is what `LoopCreate` returns. -/
theorem status_eq_demand
    (creation :
      LoopCreation outcomes isoPath machine created events machine')
    (answerable : outcomes.Answerable)
    {demand : EfiStatus}
    (demands : outcomes.Demands demand) :
    created.status = demand := by
  cases demands with
  | image refused =>
      cases creation with
      | cannotOpen | cannotStat | tooSmall | unresolved =>
          rfl
      | noInfoPool opened failed =>
          simp [answerable.infoPool opened] at failed
      | noFactory accepted | createFailed accepted | created accepted =>
          exact (accepted.not_refused refused).elim
  | loopDriver accepted unlocated refused =>
      obtain ⟨status, events, after, factory, returned⟩ :=
        creation.factory_of_accepted accepted
      have asked :=
        factory.status_eq_demand (answerable.factory accepted) unlocated
          refused
      rw [returned (asked ▸ refused.ne_success), asked]
  | unpublished accepted unlocated built loaded _ absent =>
      obtain ⟨status, events, after, factory, returned⟩ :=
        creation.factory_of_accepted accepted
      have missing :=
        factory.status_eq_missing unlocated built loaded absent
      rw [returned (missing ▸ statusDriverMissing_ne_success), missing]

end LoopCreation

/-- Outcomes that create the device are answerable. -/
theorem LoopCreation.answerable
    {outcomes : LoopCreateOutcomes}
    {isoPath : Text}
    {machine machine' : Machine}
    {created : LoopCreated}
    {events : List Event}
    (creation :
      LoopCreation outcomes isoPath machine created events machine')
    (succeeded : created.status = .success) :
    outcomes.Answerable := by
  have succeeds := creation.success_iff.mp succeeded
  obtain ⟨_, accepted⟩ := succeeds.accepted
  refine ⟨fun _ => accepted.infoPool, fun _ pathless => ?_⟩
  rcases succeeds.ready with located | ⟨⟨path, built⟩, _⟩
  · simp [pathless.1] at located
  · exact pathless.2 path built

/-- A device that is created is created without an error line. -/
theorem LoopCreation.quiet
    {outcomes : LoopCreateOutcomes}
    {isoPath : Text}
    {machine machine' : Machine}
    {created : LoopCreated}
    {events : List Event}
    (creation :
      LoopCreation outcomes isoPath machine created events machine')
    (succeeded : created.status = .success) :
    errorLines events = 0 := by
  rw [creation.errorLines_eq_iff.mpr (creation.answerable succeeded),
    if_pos succeeded]

/-- A created device leaves the images that finding the factory left. -/
theorem LoopCreation.images_eq
    {outcomes : LoopCreateOutcomes}
    {isoPath : Text}
    {machine machine' : Machine}
    {created : LoopCreated}
    {events : List Event}
    (creation :
      LoopCreation outcomes isoPath machine created events machine')
    (succeeded : created.status = .success) :
    machine'.images = outcomes.factory.imagesAfter machine.images := by
  cases creation with
  | cannotOpen | noInfoPool | cannotStat | tooSmall =>
      exact absurd succeeded (by decide)
  | unresolved =>
      exact (statusIsoError_ne_success succeeded).elim
  | noFactory _ _ failed =>
      exact (failed succeeded).elim
  | createFailed _ _ failed =>
      exact (EfiStatus.ne_success_of_isError failed succeeded).elim
  | created _ factory =>
      generalize isSuccess : EfiStatus.success = status at factory
      cases factory with
      | resident located =>
          simp [Machine.withLoop, FactoryOutcomes.imagesAfter, located]
      | started unlocated built =>
          simp [Machine.withLoop, FactoryOutcomes.imagesAfter, unlocated,
            built, Machine.addImage]
      | noPath _ unbuilt =>
          exact (EfiStatus.ne_success_of_isError
            (isError_of_unbuilt unbuilt) isSuccess.symm).elim
      | blocked | loadFailed | startFailed | unpublished =>
          exact absurd isSuccess (by decide)

/-- An unknown format name is reported once, with the help text. -/
theorem errorLines_unknownFormat (name : Text) :
    errorLines
        (.print .version :: .print (.unknownFormat name) ::
          (.helpTitle :: helpLines.map PrintLine.helpText ++
            mFormats.map PrintLine.helpFormat).map Event.print) =
      1 := by
  have help :
      errorLines
          ((.helpTitle :: helpLines.map PrintLine.helpText ++
            mFormats.map PrintLine.helpFormat).map Event.print) =
        0 := by
    simp [helpLines, mFormats, List.isPrefixOf]
  rw [errorLines_cons, errorLines_cons, help]
  simp

/--
The outcomes of a `mount -ISO` are answerable, and a pure ISO9660 image meets
its driver: loaded before, or loaded now.
-/
def Command.Accounted (machine : Machine) : Command → Prop
  | .iso _ outcomes =>
      let images := outcomes.create.factory.imagesAfter machine.images
      outcomes.create.Answerable ∧
        (outcomes.create.Succeeds →
          (loopSniff outcomes.create).pureIso = true →
          mountDriverLoaded outcomes.scan isoDriverFile images = true ∨
            outcomes.load.Succeeds isoDriverFile images)
  | .format _ _ =>
      True

/-- An accounted command is not the degraded case. -/
theorem Command.Accounted.not_degraded
    {machine : Machine}
    {command : Command}
    (accounted : command.Accounted machine) :
    ¬ command.Degraded machine := by
  cases command with
  | format =>
      exact id
  | iso path outcomes =>
      rintro ⟨needed, _, missing⟩
      have absent := needed.absent
      rcases accounted.2 needed.created needed.pure with
        found | found | ⟨_, loaded, _⟩
      · simp [found] at absent
      · simp [found] at absent
      · rcases missing with load | load | load <;> simp [load] at loaded

/-- A command that answers what is asked for keeps the contract. -/
theorem ExitContract.of_lines
    {machine : Machine}
    {command : Command}
    {status : EfiStatus}
    {events : List Event}
    (accounted : command.Accounted machine)
    (lines : errorLines events = if status = .success then 0 else 1)
    (demanded :
      ∀ {demand}, command.Demands machine demand → status = demand) :
    ExitContract machine command ⟨status, events⟩ where
  nonzero_iff := by
    simp only [lines]
    split <;> simp_all
  oneLine := by
    simp only [lines]
    split <;> decide
  demanded := fun _ => demanded
  degraded := fun degraded => (accounted.not_degraded degraded).elim

/-- The status tells how many error lines there are. -/
theorem ExitContract.errorLines_eq
    {machine : Machine}
    {command : Command}
    {status : EfiStatus}
    {events : List Event}
    (contract : ExitContract machine command ⟨status, events⟩) :
    errorLines events = if status = .success then 0 else 1 := by
  have nonzero : status ≠ .success ↔ 0 < errorLines events :=
    contract.nonzero_iff
  have oneLine : errorLines events ≤ 1 := contract.oneLine
  split
  case isTrue succeeded =>
    have noLine := mt nonzero.mpr (not_not.mpr succeeded)
    omega
  case isFalse failed =>
    have someLine := nonzero.mp failed
    omega

/-- An accounted `mount -ISO` exits with the code its outcomes ask for. -/
theorem IsoRun.status_eq_demand
    {machine machine' : Machine}
    {isoPath : Text}
    {outcomes : IsoOutcomes}
    {status demand : EfiStatus}
    {events : List Event}
    (run : IsoRun outcomes isoPath machine status events machine')
    (accounted : (Command.iso isoPath outcomes).Accounted machine)
    (demands : (Command.iso isoPath outcomes).Demands machine demand) :
    status = demand := by
  cases demands with
  | create demands =>
      cases run with
      | refused creation =>
          exact creation.status_eq_demand accounted.1 demands
      | connected creation succeeded | claimable creation succeeded
      | driverLoaded creation succeeded | degraded creation succeeded =>
          rw [← creation.status_eq_demand accounted.1 demands, succeeded]
  | isoDriver needed refused =>
      have absent := needed.absent
      rcases accounted.2 needed.created needed.pure with
        found | found | ⟨⟨path, built⟩, loaded, running⟩
      · simp [found] at absent
      · simp [found] at absent
      · exact (refused.not_started built loaded running).elim

/-- `mount -ISO` keeps the contract exactly when it is accounted for. -/
theorem IsoRun.exitContract_iff
    {machine machine' : Machine}
    {isoPath : Text}
    {outcomes : IsoOutcomes}
    {status : EfiStatus}
    {events : List Event}
    (run : IsoRun outcomes isoPath machine status events machine') :
    ExitContract machine (.iso isoPath outcomes)
        ⟨status, .print .version :: events⟩ ↔
      (Command.iso isoPath outcomes).Accounted machine := by
  have of_accounted :
      (Command.iso isoPath outcomes).Accounted machine →
      errorLines (.print .version :: events) =
        (if status = .success then 0 else 1) →
      ExitContract machine (.iso isoPath outcomes)
        ⟨status, .print .version :: events⟩ :=
    fun accounted lines =>
      .of_lines accounted lines (run.status_eq_demand accounted)
  cases run with
  | refused creation failed =>
      constructor
      · intro contract
        have counted := contract.errorLines_eq
        simp only [errorLines_cons] at counted
        have answerable := creation.errorLines_eq_iff.mp counted
        exact ⟨answerable, fun succeeds =>
          (failed (creation.success_iff.mpr succeeds)).elim⟩
      · intro accounted
        apply of_accounted accounted
        simp [creation.errorLines_eq_iff.mpr accounted.1]
  | connected creation succeeded notPure rescanned =>
      have accounted :
          (Command.iso isoPath outcomes).Accounted machine := by
        refine ⟨creation.answerable succeeded, fun _ pure => ?_⟩
        rw [← creation.sniff_eq succeeded, notPure] at pure
        cases pure
      refine iff_of_true (of_accounted accounted ?_) accounted
      simp [creation.quiet succeeded, rescanned.errorLines_eq]
  | claimable creation succeeded _ found rescanned =>
      rw [creation.images_eq succeeded] at found
      have accounted :
          (Command.iso isoPath outcomes).Accounted machine :=
        ⟨creation.answerable succeeded, fun _ _ => .inl found⟩
      refine iff_of_true (of_accounted accounted ?_) accounted
      simp [creation.quiet succeeded, rescanned.errorLines_eq]
  | driverLoaded creation succeeded _ _ load rescanned =>
      have loads := load.success_iff.mp rfl
      rw [creation.images_eq succeeded] at loads
      have accounted :
          (Command.iso isoPath outcomes).Accounted machine :=
        ⟨creation.answerable succeeded, fun _ _ => .inr loads⟩
      refine iff_of_true (of_accounted accounted ?_) accounted
      simp [creation.quiet succeeded, load.errorLines_eq,
        rescanned.errorLines_eq]
  | degraded creation succeeded pure absent load failed =>
      refine iff_of_false ?_ ?_
      · -- MountLoadDriver has printed its line, and the status is dropped.
        intro contract
        have counted := contract.errorLines_eq
        simp [load.errorLines_eq, failed] at counted
      · rintro ⟨_, claimed⟩
        have isPure := creation.sniff_eq succeeded ▸ pure
        rw [creation.images_eq succeeded] at absent
        rcases claimed (creation.success_iff.mp succeeded) isPure with
          found | loads
        · rw [absent] at found
          cases found
        · rw [← creation.images_eq succeeded] at loads
          exact failed (load.success_iff.mpr loads)

/-- `mount -<FORMAT>` exits with the code its outcomes ask for. -/
theorem FormatRun.status_eq_demand
    {machine machine' : Machine}
    {name : Text}
    {entry : MountFormatEntry}
    {outcomes : FormatOutcomes}
    {status demand : EfiStatus}
    {events : List Event}
    (known : mountFindFormat name = some entry)
    (run : FormatRun outcomes entry machine status events machine')
    (demands : (Command.format name outcomes).Demands machine demand) :
    status = demand := by
  cases demands with
  | formatDriver same absent refused =>
      obtain rfl := Option.some.inj (known.symm.trans same)
      simp only [List.mem_cons, List.not_mem_nil, or_false,
        forall_eq_or_imp, forall_eq] at absent
      cases run with
      | alreadyLoaded found =>
          simp [absent.1] at found
      | driverLoaded _ load | refused _ load =>
          exact load.status_eq_demand absent.2 refused

/-- `mount -<FORMAT>` prints an error line exactly when it fails. -/
theorem FormatRun.errorLines_eq
    {machine machine' : Machine}
    {entry : MountFormatEntry}
    {outcomes : FormatOutcomes}
    {status : EfiStatus}
    {events : List Event}
    (run : FormatRun outcomes entry machine status events machine') :
    errorLines events = if status = .success then 0 else 1 := by
  cases run with
  | alreadyLoaded _ rescanned =>
      simp [rescanned.errorLines_eq]
  | driverLoaded _ load rescanned =>
      simp [load.errorLines_eq, rescanned.errorLines_eq]
  | refused _ load failed =>
      simp [load.errorLines_eq, failed]

end Traces

/-- A command keeps the contract exactly when it is accounted for. -/
theorem exitContract_iff_accounted
    {machine : Machine}
    {command : Command}
    (admissible : command.Admissible machine) :
    ExitContract machine command (mountStep machine command).1 ↔
      command.Accounted machine := by
  obtain ⟨status, events, after, run, answer⟩ :=
    mountStep_cases admissible
  rw [answer]
  cases run with
  | iso run =>
      exact run.exitContract_iff
  | format known run =>
      refine iff_of_true
        (.of_lines trivial ?_ (run.status_eq_demand known)) trivial
      simp [run.errorLines_eq, PrintLine.isError_eq]
  | unknownFormat unknown =>
      refine iff_of_true
        (.of_lines trivial (errorLines_unknownFormat _) ?_) trivial
      intro demand demands
      cases demands with
      | formatDriver known =>
          simp [unknown] at known

/-- A pure ISO9660 image whose driver loads keeps the contract. -/
theorem exitContract_iff_accounted_pureIso :
    ExitContract shellMachine (mountPureIso .success)
      (mountStep shellMachine (mountPureIso .success)).1 := by
  refine (exitContract_iff_accounted
    (mountPureIso_admissible .success)).mpr ⟨⟨fun _ => rfl, ?_⟩, ?_⟩
  · intro _ _ pathless
    exact pathless.2 _ rfl
  · intro _ _
    exact .inr (.inr ⟨⟨_, rfl⟩, by decide, by decide⟩)

/--
A pure ISO9660 image without its driver: an error line is printed and the
command exits with success.
-/
theorem exitContract_degraded_line :
    ¬ ExitContract shellMachine (mountPureIso .notFound)
      (mountStep shellMachine (mountPureIso .notFound)).1 := by
  intro contract
  have ⟨reported, exits⟩ :
      0 < errorLines
          (mountStep shellMachine (mountPureIso .notFound)).1.trace ∧
        (mountStep shellMachine (mountPureIso .notFound)).1.status =
          .success := by
    decide +kernel
  exact contract.nonzero_iff.mpr reported exits

end UefiMount
