import UefiMount.LoopFactoryLifecycle
import UefiMount.MountCommands

namespace UefiMount

/-!
# What a driver load and a loop creation can do

Each inductive relation lists the ways one function of the application ends:
its status, the events in order, and the machine it leaves.  The theorem below
each relation is the only place where the function is unfolded.
-/

namespace Machine

/-- One more loaded image. -/
def addImage (machine : Machine) (image : LoadedImage) : Machine :=
  { machine with images := machine.images ++ [image] }

end Machine

/-- The ways `MountLoadDriver` ends. -/
inductive DriverLoad
    (outcomes : LoadOutcomes)
    (driverFile : Text)
    (machine : Machine) :
    EfiStatus → List Event → Machine → Prop where
  | alreadyLoaded
      (found :
        mountDriverLoaded outcomes.scan driverFile machine.images = true) :
      DriverLoad outcomes driverFile machine .success
        [.dedupe driverFile true machine] machine
  | noPath
      (absent :
        mountDriverLoaded outcomes.scan driverFile machine.images = false)
      {status : EfiStatus}
      (unbuilt :
        mountBuildDriverDevicePath outcomes.path driverFile =
          .error status) :
      DriverLoad outcomes driverFile machine statusDriverMissing
        [.dedupe driverFile false machine,
          .print (.selfDirectoryUnknown status)]
        machine
  | notFound
      (absent :
        mountDriverLoaded outcomes.scan driverFile machine.images = false)
      {path : Text}
      (built :
        mountBuildDriverDevicePath outcomes.path driverFile = .ok path)
      (missing :
        outcomes.load = .notFound ∨ outcomes.load = .loadError ∨
          outcomes.load = .invalidParameter) :
      DriverLoad outcomes driverFile machine statusDriverMissing
        [.dedupe driverFile false machine,
          .loadImage driverFile outcomes.load,
          .print (.driverNotFound driverFile)]
        machine
  | blocked
      (absent :
        mountDriverLoaded outcomes.scan driverFile machine.images = false)
      {path : Text}
      (built :
        mountBuildDriverDevicePath outcomes.path driverFile = .ok path)
      (violation : outcomes.load = .securityViolation) :
      DriverLoad outcomes driverFile machine statusSecureBoot
        [.dedupe driverFile false machine,
          .loadImage driverFile .securityViolation,
          .print .driverBlocked]
        (machine.addImage ⟨outcomes.image, some path, false⟩)
  | loadFailed
      (absent :
        mountDriverLoaded outcomes.scan driverFile machine.images = false)
      {path : Text}
      (built :
        mountBuildDriverDevicePath outcomes.path driverFile = .ok path)
      (failed : outcomes.load.isError = true)
      (present :
        ¬ (outcomes.load = .notFound ∨ outcomes.load = .loadError ∨
          outcomes.load = .invalidParameter))
      (allowed : outcomes.load ≠ .securityViolation) :
      DriverLoad outcomes driverFile machine statusDriverMissing
        [.dedupe driverFile false machine,
          .loadImage driverFile outcomes.load,
          .print (.loadImageFailed driverFile outcomes.load)]
        machine
  | startFailed
      (absent :
        mountDriverLoaded outcomes.scan driverFile machine.images = false)
      {path : Text}
      (built :
        mountBuildDriverDevicePath outcomes.path driverFile = .ok path)
      (loaded : outcomes.load.isError = false)
      (failed : outcomes.start.isError = true) :
      DriverLoad outcomes driverFile machine statusDriverMissing
        [.dedupe driverFile false machine,
          .loadImage driverFile outcomes.load,
          .startImage driverFile outcomes.start,
          .print (.startImageFailed outcomes.start)]
        machine
  | started
      (absent :
        mountDriverLoaded outcomes.scan driverFile machine.images = false)
      {path : Text}
      (built :
        mountBuildDriverDevicePath outcomes.path driverFile = .ok path)
      (loaded : outcomes.load.isError = false)
      (running : outcomes.start.isError = false) :
      DriverLoad outcomes driverFile machine .success
        [.dedupe driverFile false machine,
          .loadImage driverFile outcomes.load,
          .startImage driverFile outcomes.start,
          .print (.driverLoaded driverFile)]
        (machine.addImage ⟨outcomes.image, some path, true⟩)

/-- Starting the image that was just loaded marks that image only. -/
theorem Machine.FreshImage.map_started
    {machine : Machine}
    {image : Handle}
    (fresh : machine.FreshImage image)
    (path : Option Text) :
    (machine.images ++ [(⟨image, path, false⟩ : LoadedImage)]).map
        (fun loaded =>
          if loaded.handle = image then
            { loaded with started := true }
          else
            loaded) =
      machine.images ++ [⟨image, path, true⟩] := by
  rw [List.map_append]
  congr 1
  · calc
      machine.images.map _ = machine.images.map id := by
        apply List.map_congr_left
        intro loaded member
        rw [if_neg (fresh loaded member)]
        rfl
      _ = machine.images := List.map_id _
  · simp

/-- Unloading the image that was just loaded leaves the others. -/
theorem Machine.FreshImage.filter_unloaded
    {machine : Machine}
    {image : Handle}
    (fresh : machine.FreshImage image)
    (path : Option Text) :
    (machine.images ++ [(⟨image, path, false⟩ : LoadedImage)]).filter
        (fun loaded => decide (loaded.handle ≠ image)) =
      machine.images := by
  rw [List.filter_append, List.filter_eq_self.mpr]
  · simp
  · intro loaded member
    simpa using fresh loaded member

/-- `MountLoadDriver` ends in one of the listed ways. -/
theorem mountLoadDriver_cases
    {outcomes : LoadOutcomes}
    (driverFile : Text)
    {session : Session}
    (fresh : session.machine.FreshImage outcomes.image) :
    ∃ status events machine',
      DriverLoad outcomes driverFile session.machine
          status events machine' ∧
        mountLoadDriver outcomes (some driverFile) session =
          (status, ⟨machine', session.trace ++ events⟩) := by
  cases verdict :
      mountDriverLoaded outcomes.scan driverFile session.machine.images with
  | true =>
      refine ⟨_, _, _, .alreadyLoaded verdict, ?_⟩
      simp [mountLoadDriver, Session.dedupe, Session.record, verdict]
  | false =>
      cases built :
          mountBuildDriverDevicePath outcomes.path driverFile with
      | error status =>
          refine ⟨_, _, _, .noPath verdict built, ?_⟩
          simp [mountLoadDriver, Session.dedupe, Session.record,
            Session.print, verdict, built]
      | ok path =>
          by_cases missing :
              outcomes.load = .notFound ∨ outcomes.load = .loadError ∨
                outcomes.load = .invalidParameter
          · refine ⟨_, _, _, .notFound verdict built missing, ?_⟩
            have noImage :
                outcomes.load.isError = true ∧
                  outcomes.load ≠ .securityViolation := by
              rcases missing with load | load | load <;>
                (rw [load]; decide)
            simp [mountLoadDriver, Session.dedupe, Session.record,
              Session.print, Session.loadImage, verdict, built, missing,
              noImage]
          · by_cases violation : outcomes.load = .securityViolation
            · refine ⟨_, _, _, .blocked verdict built violation, ?_⟩
              rw [violation] at missing
              simp [mountLoadDriver, Session.dedupe, Session.record,
                Session.print, Session.loadImage, Session.setImages,
                Machine.addImage, verdict, built, missing, violation]
            · cases failed : outcomes.load.isError with
              | true =>
                  refine ⟨_, _, _,
                    .loadFailed verdict built failed missing violation,
                    ?_⟩
                  simp [mountLoadDriver, Session.dedupe, Session.record,
                    Session.print, Session.loadImage, verdict, built,
                    missing, violation, failed]
              | false =>
                  cases stopped : outcomes.start.isError with
                  | true =>
                      refine ⟨_, _, _,
                        .startFailed verdict built failed stopped, ?_⟩
                      have unloaded := fresh.filter_unloaded (some path)
                      simp only [mountLoadDriver, Session.dedupe,
                        Session.record, Session.print, Session.loadImage,
                        Session.setImages, Session.startImage,
                        Session.unloadImage, verdict, built, missing,
                        violation, failed, stopped, unloaded,
                        Bool.false_eq_true, false_and, ↓reduceIte,
                        List.append_assoc, List.cons_append,
                        List.nil_append]
                  | false =>
                      refine ⟨_, _, _,
                        .started verdict built failed stopped, ?_⟩
                      have marked := fresh.map_started (some path)
                      simp only [mountLoadDriver, Session.dedupe,
                        Session.record, Session.print, Session.loadImage,
                        Session.setImages, Session.startImage,
                        Machine.addImage, verdict, built, missing,
                        violation, failed, stopped, marked,
                        Bool.false_eq_true, false_and, ↓reduceIte,
                        List.append_assoc, List.cons_append,
                        List.nil_append]

/-- The ways `MountLoopFactoryGet` ends. -/
inductive FactoryGet
    (outcomes : FactoryOutcomes)
    (machine : Machine) :
    EfiStatus → List Event → Machine → Prop where
  | resident
      (located : outcomes.locate.isError = false) :
      FactoryGet outcomes machine .success [] machine
  | noPath
      (unlocated : outcomes.locate.isError = true)
      {status : EfiStatus}
      (unbuilt :
        mountBuildDriverDevicePath outcomes.path loopDriverFile =
          .error status) :
      FactoryGet outcomes machine status
        [.print (.selfDirectoryUnknown status)]
        machine
  | blocked
      (unlocated : outcomes.locate.isError = true)
      {path : Text}
      (built :
        mountBuildDriverDevicePath outcomes.path loopDriverFile = .ok path)
      (violation : outcomes.load = .securityViolation) :
      FactoryGet outcomes machine statusSecureBoot
        [.loadImage loopDriverFile .securityViolation,
          .print (.loopDriverBlocked loopDriverFile)]
        (machine.addImage ⟨outcomes.image, some path, false⟩)
  | loadFailed
      (unlocated : outcomes.locate.isError = true)
      {path : Text}
      (built :
        mountBuildDriverDevicePath outcomes.path loopDriverFile = .ok path)
      (failed : outcomes.load.isError = true)
      (allowed : outcomes.load ≠ .securityViolation) :
      FactoryGet outcomes machine statusDriverMissing
        [.loadImage loopDriverFile outcomes.load,
          .print (.loopDriverUnloadable loopDriverFile outcomes.load)]
        machine
  | startFailed
      (unlocated : outcomes.locate.isError = true)
      {path : Text}
      (built :
        mountBuildDriverDevicePath outcomes.path loopDriverFile = .ok path)
      (loaded : outcomes.load.isError = false)
      (failed : outcomes.start.isError = true) :
      FactoryGet outcomes machine statusDriverMissing
        [.loadImage loopDriverFile outcomes.load,
          .startImage loopDriverFile outcomes.start,
          .print (.loopDriverNotStarted loopDriverFile outcomes.start)]
        machine
  | unpublished
      (unlocated : outcomes.locate.isError = true)
      {path : Text}
      (built :
        mountBuildDriverDevicePath outcomes.path loopDriverFile = .ok path)
      (loaded : outcomes.load.isError = false)
      (running : outcomes.start.isError = false)
      (absent : outcomes.locateAgain.isError = true) :
      FactoryGet outcomes machine statusDriverMissing
        [.loadImage loopDriverFile outcomes.load,
          .startImage loopDriverFile outcomes.start,
          .print (.noLoopFactory loopDriverFile)]
        (machine.addImage ⟨outcomes.image, some path, true⟩)
  | started
      (unlocated : outcomes.locate.isError = true)
      {path : Text}
      (built :
        mountBuildDriverDevicePath outcomes.path loopDriverFile = .ok path)
      (loaded : outcomes.load.isError = false)
      (running : outcomes.start.isError = false)
      (published : outcomes.locateAgain.isError = false) :
      FactoryGet outcomes machine .success
        [.loadImage loopDriverFile outcomes.load,
          .startImage loopDriverFile outcomes.start]
        (machine.addImage ⟨outcomes.image, some path, true⟩)

/-- `MountLoopFactoryGet` ends in one of the listed ways. -/
theorem mountLoopFactoryGet_cases
    {outcomes : FactoryOutcomes}
    {session : Session}
    (fresh : session.machine.FreshImage outcomes.image) :
    ∃ status events machine',
      FactoryGet outcomes session.machine status events machine' ∧
        mountLoopFactoryGet outcomes session =
          (status, ⟨machine', session.trace ++ events⟩) := by
  cases unlocated : outcomes.locate.isError with
  | false =>
      refine ⟨_, _, _, .resident unlocated, ?_⟩
      simp [mountLoopFactoryGet, unlocated]
  | true =>
      cases built :
          mountBuildDriverDevicePath outcomes.path loopDriverFile with
      | error status =>
          refine ⟨_, _, _, .noPath unlocated built, ?_⟩
          simp [mountLoopFactoryGet, Session.record, Session.print,
            unlocated, built]
      | ok path =>
          by_cases violation : outcomes.load = .securityViolation
          · refine ⟨_, _, _, .blocked unlocated built violation, ?_⟩
            simp [mountLoopFactoryGet, Session.record, Session.print,
              Session.loadImage, Session.setImages, Machine.addImage,
              unlocated, built, violation]
          · cases failed : outcomes.load.isError with
            | true =>
                refine ⟨_, _, _,
                  .loadFailed unlocated built failed violation, ?_⟩
                simp [mountLoopFactoryGet, Session.record, Session.print,
                  Session.loadImage, unlocated, built, violation, failed]
            | false =>
                have unloaded := fresh.filter_unloaded (some path)
                have marked := fresh.map_started (some path)
                cases stopped : outcomes.start.isError with
                | true =>
                    refine ⟨_, _, _,
                      .startFailed unlocated built failed stopped, ?_⟩
                    simp only [mountLoopFactoryGet, Session.record,
                      Session.print, Session.loadImage,
                      Session.setImages, Session.startImage,
                      Session.unloadImage, unlocated, built, failed,
                      stopped, unloaded, Bool.not_true,
                      Bool.false_eq_true, false_and, ↓reduceIte,
                      List.append_assoc, List.cons_append,
                      List.nil_append]
                | false =>
                    cases absent : outcomes.locateAgain.isError with
                    | true =>
                        refine ⟨_, _, _,
                          .unpublished unlocated built failed stopped
                            absent, ?_⟩
                        simp only [mountLoopFactoryGet, Session.record,
                          Session.print, Session.loadImage,
                          Session.setImages, Session.startImage,
                          Machine.addImage, unlocated, built, failed,
                          stopped, absent, marked, Bool.not_true,
                          Bool.false_eq_true, false_and, ↓reduceIte,
                          List.append_assoc, List.cons_append,
                          List.nil_append]
                    | false =>
                        refine ⟨_, _, _,
                          .started unlocated built failed stopped absent,
                          ?_⟩
                        simp only [mountLoopFactoryGet, Session.record,
                          Session.loadImage, Session.setImages,
                          Session.startImage, Machine.addImage,
                          unlocated, built, failed, stopped, absent,
                          marked, Bool.not_true, Bool.false_eq_true,
                          false_and, ↓reduceIte, List.append_assoc,
                          List.cons_append, List.nil_append]

/-- The image file is opened, statted, large enough and has a device path. -/
structure LoopCreateOutcomes.Accepts
    (outcomes : LoopCreateOutcomes)
    (fileDevicePath : DevicePath) : Prop where
  opened :
    outcomes.openFile.isError = false
  infoPool :
    outcomes.infoPool = true
  statted :
    outcomes.getInfo.isError = false
  large :
    ¬ outcomes.fileSize < loopMinSize
  resolved :
    mountIsoFileDevicePath outcomes = some fileDevicePath

/-- The event of the warning about an incomplete last block. -/
def tailWarning (outcomes : LoopCreateOutcomes) : List Event :=
  if outcomes.fileSize % loopBlockSize ≠ 0 then
    [.print .tailIgnored]
  else
    []

/-- The machine after a successful Create over the image file. -/
def Machine.withLoop
    (machine : Machine)
    (outcomes : LoopCreateOutcomes)
    (dxe : LoopDxe) :
    Machine :=
  { machine with
    dxe := dxe
    sniffed :=
      Function.update machine.sniffed outcomes.create.newHandle
        (some (loopSniff outcomes)) }

/-- The ways `LoopCreate` ends. -/
inductive LoopCreation
    (outcomes : LoopCreateOutcomes)
    (isoPath : Text)
    (machine : Machine) :
    LoopCreated → List Event → Machine → Prop where
  | cannotOpen
      (failed : outcomes.openFile.isError = true) :
      LoopCreation outcomes isoPath machine
        ⟨statusIsoError, none, ⟨false, false⟩⟩
        [.print (.cannotOpen isoPath outcomes.openFile)]
        machine
  | noInfoPool
      (opened : outcomes.openFile.isError = false)
      (failed : outcomes.infoPool = false) :
      LoopCreation outcomes isoPath machine
        ⟨.outOfResources, none, ⟨false, false⟩⟩ [] machine
  | cannotStat
      (opened : outcomes.openFile.isError = false)
      (infoPool : outcomes.infoPool = true)
      (failed : outcomes.getInfo.isError = true) :
      LoopCreation outcomes isoPath machine
        ⟨statusIsoError, none, ⟨false, false⟩⟩
        [.print (.cannotStat isoPath)]
        machine
  | tooSmall
      (opened : outcomes.openFile.isError = false)
      (infoPool : outcomes.infoPool = true)
      (statted : outcomes.getInfo.isError = false)
      (small : outcomes.fileSize < loopMinSize) :
      LoopCreation outcomes isoPath machine
        ⟨statusIsoError, none, ⟨false, false⟩⟩
        [.print .fileTooSmall]
        machine
  | unresolved
      (opened : outcomes.openFile.isError = false)
      (infoPool : outcomes.infoPool = true)
      (statted : outcomes.getInfo.isError = false)
      (large : ¬ outcomes.fileSize < loopMinSize)
      (noPath : mountIsoFileDevicePath outcomes = none) :
      LoopCreation outcomes isoPath machine
        ⟨statusIsoError, none, loopSniff outcomes⟩
        (tailWarning outcomes ++ [.print (.noFileDevicePath isoPath)])
        machine
  | noFactory
      {fileDevicePath : DevicePath}
      (accepted : outcomes.Accepts fileDevicePath)
      {status : EfiStatus}
      {events : List Event}
      {machine' : Machine}
      (factory :
        FactoryGet outcomes.factory machine status events machine')
      (failed : status ≠ .success) :
      LoopCreation outcomes isoPath machine
        ⟨status, none, loopSniff outcomes⟩
        (tailWarning outcomes ++
          (events ++
            if status ≠ statusDriverMissing ∧ status ≠ statusSecureBoot then
              [.print (.loopCreateFailed status)]
            else
              []))
        machine'
  | createFailed
      {fileDevicePath : DevicePath}
      (accepted : outcomes.Accepts fileDevicePath)
      {events : List Event}
      {machine' : Machine}
      (factory :
        FactoryGet outcomes.factory machine .success events machine')
      {status : EfiStatus}
      (failed : status.isError = true)
      (allocated :
        ¬ (outcomes.create.diskPool.isSome ∧
          outcomes.create.pathPool.isSome ∧
          outcomes.create.install.isError = false))
      (seq : UInt32) :
      LoopCreation outcomes isoPath machine
        ⟨status, none, loopSniff outcomes⟩
        (tailWarning outcomes ++
          (events ++ [.print (.loopCreateFailed status)]))
        { machine' with dxe := { machine'.dxe with mLoopSeq := seq } }
  | created
      {fileDevicePath : DevicePath}
      (accepted : outcomes.Accepts fileDevicePath)
      {events : List Event}
      {machine' : Machine}
      (factory :
        FactoryGet outcomes.factory machine .success events machine')
      (allocated :
        outcomes.create.diskPool.isSome ∧
          outcomes.create.pathPool.isSome ∧
          outcomes.create.install.isError = false)
      {diskAddress pathAddress : Address}
      {disk : LoopDisk}
      {path : DevicePath}
      (installable :
        machine'.dxe.Installable outcomes.create.newHandle diskAddress
          pathAddress disk path) :
      LoopCreation outcomes isoPath machine
        ⟨.success, some outcomes.create.newHandle, loopSniff outcomes⟩
        (tailWarning outcomes ++ events)
        (machine'.withLoop outcomes
          (machine'.dxe.addDevice outcomes.create.newHandle diskAddress
            pathAddress disk path))

/-- A Create over an open file and its path succeeds unless an outcome forbids it. -/
theorem loopFactoryCreate_handle
    (outcomes : CreateOutcomes)
    (file : FileHandle)
    (path : DevicePath)
    (lastBlock : UInt64)
    (dxe : LoopDxe) :
    (loopFactoryCreate outcomes (some file) (some path) lastBlock true
        dxe).1.loopHandle.isSome = true ↔
      outcomes.diskPool.isSome ∧ outcomes.pathPool.isSome ∧
        outcomes.install.isError = false := by
  cases diskPool : outcomes.diskPool with
  | none =>
      simp [loopFactoryCreate, diskPool]
  | some diskAddress =>
      cases pathPool : outcomes.pathPool with
      | none =>
          simp [loopFactoryCreate, diskPool, pathPool]
      | some pathAddress =>
          cases failed : outcomes.install.isError with
          | true =>
              simp [loopFactoryCreate, diskPool, pathPool, failed]
          | false =>
              simp [loopFactoryCreate, diskPool, pathPool, failed]

/-- A driver load leaves the loop devices alone. -/
theorem FactoryGet.dxe_eq
    {outcomes : FactoryOutcomes}
    {machine machine' : Machine}
    {status : EfiStatus}
    {events : List Event}
    (factory : FactoryGet outcomes machine status events machine') :
    machine'.dxe = machine.dxe ∧ machine'.sniffed = machine.sniffed := by
  cases factory <;> exact ⟨rfl, rfl⟩

theorem Session.warnTail_eq
    (session : Session)
    (outcomes : LoopCreateOutcomes) :
    session.warnTail outcomes =
      ⟨session.machine, session.trace ++ tailWarning outcomes⟩ := by
  simp only [warnTail, tailWarning]
  split
  · rfl
  · simp

/-- Once a device is asked for, `LoopCreate` ends in one of three ways. -/
theorem loopCreateDevice_cases
    {outcomes : LoopCreateOutcomes}
    (isoPath : Text)
    {fileDevicePath : DevicePath}
    (accepted : outcomes.Accepts fileDevicePath)
    {machine : Machine}
    (freshDevice : outcomes.create.Fresh machine.dxe)
    (freshImage : machine.FreshImage outcomes.factory.image)
    (trace : List Event) :
    ∃ created events machine',
      LoopCreation outcomes isoPath machine created
          (tailWarning outcomes ++ events) machine' ∧
        loopCreateDevice outcomes fileDevicePath ⟨machine, trace⟩ =
          (created, ⟨machine', trace ++ events⟩) := by
  obtain ⟨status, events, machine', factory, got⟩ :=
    @mountLoopFactoryGet_cases outcomes.factory ⟨machine, trace⟩ freshImage
  by_cases found : status = .success
  · subst found
    rw [← factory.dxe_eq.1] at freshDevice
    have handle_iff :=
      loopFactoryCreate_handle outcomes.create outcomes.file
        fileDevicePath (loopLastBlock outcomes.fileSize) machine'.dxe
    rcases loopFactoryCreate_cases freshDevice (some outcomes.file)
        (some fileDevicePath) (loopLastBlock outcomes.fileSize) true with
      ⟨status, failed, answer⟩ |
      ⟨file, path, diskAddress, pathAddress, _, _, diskPool, pathPool, _,
        answer⟩
    · rw [answer] at handle_iff
      obtain ⟨seq, answer⟩ :
          ∃ seq,
            loopFactoryCreate outcomes.create (some outcomes.file)
                (some fileDevicePath) (loopLastBlock outcomes.fileSize)
                true machine'.dxe =
              (⟨status, none⟩, { machine'.dxe with mLoopSeq := seq }) :=
        ⟨_, answer⟩
      refine ⟨_, _, _,
        .createFailed accepted factory failed (by simpa using handle_iff)
          seq, ?_⟩
      simp [loopCreateDevice, got, Session.createLoop, answer,
        Session.print, Session.record,
        EfiStatus.ne_success_of_isError failed,
        ne_driverStatus_of_isError failed]
    · rw [answer] at handle_iff
      refine ⟨_, _, _,
        .created accepted factory (handle_iff.mp rfl)
          (freshDevice.installable diskPool pathPool file
            (loopLastBlock outcomes.fileSize) path), ?_⟩
      simp [loopCreateDevice, got, Session.createLoop, answer]
      rfl
  · refine ⟨_, _, _, .noFactory accepted factory found, ?_⟩
    simp only [loopCreateDevice, got, found, ↓reduceIte, ne_eq,
      not_false_eq_true]
    split
    · simp [Session.print, Session.record]
    · simp

/-- `LoopCreate` ends in one of the listed ways. -/
theorem loopCreate_cases
    {outcomes : LoopCreateOutcomes}
    (isoPath : Text)
    {session : Session}
    (freshDevice : outcomes.create.Fresh session.machine.dxe)
    (freshImage : session.machine.FreshImage outcomes.factory.image) :
    ∃ created events machine',
      LoopCreation outcomes isoPath session.machine created events
          machine' ∧
        loopCreate outcomes isoPath session =
          (created, ⟨machine', session.trace ++ events⟩) := by
  cases opened : outcomes.openFile.isError with
  | true =>
      refine ⟨_, _, _, .cannotOpen opened, ?_⟩
      simp [loopCreate, Session.record, Session.print, opened]
  | false =>
  cases infoPool : outcomes.infoPool with
  | false =>
      refine ⟨_, _, _, .noInfoPool opened infoPool, ?_⟩
      simp [loopCreate, opened, infoPool]
  | true =>
  cases statted : outcomes.getInfo.isError with
  | true =>
      refine ⟨_, _, _, .cannotStat opened infoPool statted, ?_⟩
      simp [loopCreate, Session.record, Session.print, opened, infoPool,
        statted]
  | false =>
  by_cases small : outcomes.fileSize < loopMinSize
  · refine ⟨_, _, _, .tooSmall opened infoPool statted small, ?_⟩
    simp [loopCreate, Session.record, Session.print, opened, infoPool,
      statted, small]
  · cases resolved : mountIsoFileDevicePath outcomes with
    | none =>
        refine ⟨_, _, _,
          .unresolved opened infoPool statted small resolved, ?_⟩
        simp [loopCreate, Session.record, Session.print, opened, infoPool,
          statted, small, resolved, Session.warnTail_eq]
    | some fileDevicePath =>
        obtain ⟨created, events, machine', creation, answer⟩ :=
          loopCreateDevice_cases isoPath
            ⟨opened, infoPool, statted, small, resolved⟩
            freshDevice freshImage
            (session.trace ++ tailWarning outcomes)
        refine ⟨_, _, _, creation, ?_⟩
        simp [loopCreate, opened, infoPool, statted, small, resolved,
          Session.warnTail_eq, answer]

/-- The driver is loaded already, or its image loads and starts. -/
def LoadOutcomes.Succeeds
    (outcomes : LoadOutcomes)
    (driverFile : Text)
    (images : List LoadedImage) :
    Prop :=
  mountDriverLoaded outcomes.scan driverFile images = true ∨
    (∃ path,
      mountBuildDriverDevicePath outcomes.path driverFile = .ok path) ∧
      outcomes.load.isError = false ∧
      outcomes.start.isError = false

/-- The factory is resident, or its driver loads, starts and publishes it. -/
def FactoryOutcomes.Ready (outcomes : FactoryOutcomes) : Prop :=
  outcomes.locate.isError = false ∨
    (∃ path,
      mountBuildDriverDevicePath outcomes.path loopDriverFile =
        .ok path) ∧
      outcomes.load.isError = false ∧
      outcomes.start.isError = false ∧
      outcomes.locateAgain.isError = false

/-- The image is accepted, the factory is there, and it creates the device. -/
structure LoopCreateOutcomes.Succeeds
    (outcomes : LoopCreateOutcomes) : Prop where
  accepted :
    ∃ fileDevicePath, outcomes.Accepts fileDevicePath
  ready :
    outcomes.factory.Ready
  allocated :
    outcomes.create.diskPool.isSome ∧
      outcomes.create.pathPool.isSome ∧
      outcomes.create.install.isError = false

/-- A path that cannot be built is reported by an EFI error. -/
theorem isError_of_unbuilt
    {outcomes : PathOutcomes}
    {driverFile : Text}
    {status : EfiStatus}
    (unbuilt :
      mountBuildDriverDevicePath outcomes driverFile = .error status) :
    status.isError = true := by
  have selfDir_isError :
      ∀ {status},
        mountGetSelfDir outcomes = .error status →
        status.isError = true := by
    intro status failed
    simp only [mountGetSelfDir] at failed
    split at failed
    case isTrue image =>
      obtain rfl := Except.error.inj failed
      exact image
    case isFalse =>
      split at failed
      · obtain rfl := Except.error.inj failed
        exact EfiStatus.isError_notFound
      · split at failed
        · obtain rfl := Except.error.inj failed
          exact EfiStatus.isError_notFound
        · cases failed
  simp only [mountBuildDriverDevicePath] at unbuilt
  split at unbuilt
  case h_1 failed =>
    obtain rfl := Except.error.inj unbuilt
    exact selfDir_isError failed
  case h_2 =>
    split at unbuilt
    · cases unbuilt
    · obtain rfl := Except.error.inj unbuilt
      exact EfiStatus.isError_outOfResources

theorem statusDriverMissing_ne_success :
    statusDriverMissing ≠ .success := by
  decide

theorem statusSecureBoot_ne_success : statusSecureBoot ≠ .success := by
  decide

theorem statusIsoError_ne_success : statusIsoError ≠ .success := by
  decide

/-- When a driver load returns success. -/
theorem DriverLoad.success_iff
    {outcomes : LoadOutcomes}
    {driverFile : Text}
    {machine machine' : Machine}
    {status : EfiStatus}
    {events : List Event}
    (load :
      DriverLoad outcomes driverFile machine status events machine') :
    status = .success ↔ outcomes.Succeeds driverFile machine.images := by
  cases load with
  | alreadyLoaded found =>
      simp [LoadOutcomes.Succeeds, found]
  | noPath absent unbuilt =>
      simp [LoadOutcomes.Succeeds, absent, unbuilt,
        statusDriverMissing_ne_success]
  | notFound absent built missing =>
      have failed : outcomes.load.isError = true := by
        rcases missing with load | load | load <;>
          (rw [load]; decide)
      simp [LoadOutcomes.Succeeds, absent, failed,
        statusDriverMissing_ne_success]
  | blocked absent built violation =>
      simp [LoadOutcomes.Succeeds, absent, violation,
        statusSecureBoot_ne_success]
  | loadFailed absent built failed =>
      simp [LoadOutcomes.Succeeds, absent, failed,
        statusDriverMissing_ne_success]
  | startFailed absent built loaded failed =>
      simp [LoadOutcomes.Succeeds, absent, failed,
        statusDriverMissing_ne_success]
  | started absent built loaded running =>
      simp [LoadOutcomes.Succeeds, built, loaded, running]

/-- When the loop factory is found. -/
theorem FactoryGet.success_iff
    {outcomes : FactoryOutcomes}
    {machine machine' : Machine}
    {status : EfiStatus}
    {events : List Event}
    (factory : FactoryGet outcomes machine status events machine') :
    status = .success ↔ outcomes.Ready := by
  cases factory with
  | resident located =>
      simp [FactoryOutcomes.Ready, located]
  | noPath unlocated unbuilt =>
      simp [FactoryOutcomes.Ready, unlocated, unbuilt,
        EfiStatus.ne_success_of_isError (isError_of_unbuilt unbuilt)]
  | blocked unlocated built violation =>
      simp [FactoryOutcomes.Ready, unlocated, violation,
        statusSecureBoot_ne_success]
  | loadFailed unlocated built failed =>
      simp [FactoryOutcomes.Ready, unlocated, failed,
        statusDriverMissing_ne_success]
  | startFailed unlocated built loaded failed =>
      simp [FactoryOutcomes.Ready, unlocated, failed,
        statusDriverMissing_ne_success]
  | unpublished unlocated built loaded running absent =>
      simp [FactoryOutcomes.Ready, unlocated, absent,
        statusDriverMissing_ne_success]
  | started unlocated built loaded running published =>
      simp [FactoryOutcomes.Ready, built, loaded, running, published]

/-- A created device comes with what the image was sniffed as. -/
theorem LoopCreation.sniff_eq
    {outcomes : LoopCreateOutcomes}
    {isoPath : Text}
    {machine machine' : Machine}
    {created : LoopCreated}
    {events : List Event}
    (creation :
      LoopCreation outcomes isoPath machine created events machine')
    (succeeded : created.status = .success) :
    created.sniff = loopSniff outcomes := by
  cases creation with
  | cannotOpen | noInfoPool | cannotStat | tooSmall =>
      exact absurd succeeded (by decide)
  | unresolved | noFactory | createFailed | created =>
      rfl

/-- When a loop device is created. -/
theorem LoopCreation.success_iff
    {outcomes : LoopCreateOutcomes}
    {isoPath : Text}
    {machine machine' : Machine}
    {created : LoopCreated}
    {events : List Event}
    (creation :
      LoopCreation outcomes isoPath machine created events machine') :
    created.status = .success ↔ outcomes.Succeeds := by
  cases creation with
  | cannotOpen failed =>
      refine ⟨fun same => (statusIsoError_ne_success same).elim, ?_⟩
      rintro ⟨⟨_, accepted⟩, _, _⟩
      simp [accepted.opened] at failed
  | noInfoPool opened failed =>
      refine ⟨fun same => absurd same (by decide), ?_⟩
      rintro ⟨⟨_, accepted⟩, _, _⟩
      simp [accepted.infoPool] at failed
  | cannotStat opened infoPool failed =>
      refine ⟨fun same => (statusIsoError_ne_success same).elim, ?_⟩
      rintro ⟨⟨_, accepted⟩, _, _⟩
      simp [accepted.statted] at failed
  | tooSmall opened infoPool statted small =>
      refine ⟨fun same => (statusIsoError_ne_success same).elim, ?_⟩
      rintro ⟨⟨_, accepted⟩, _, _⟩
      exact (accepted.large small).elim
  | unresolved opened infoPool statted large noPath =>
      refine ⟨fun same => (statusIsoError_ne_success same).elim, ?_⟩
      rintro ⟨⟨_, accepted⟩, _, _⟩
      simp [accepted.resolved] at noPath
  | noFactory accepted factory failed =>
      refine ⟨fun same => (failed same).elim, ?_⟩
      rintro ⟨_, ready, _⟩
      exact (failed (factory.success_iff.mpr ready)).elim
  | createFailed accepted factory failed allocated =>
      refine ⟨fun same =>
        (EfiStatus.ne_success_of_isError failed same).elim, ?_⟩
      rintro ⟨_, _, allocated'⟩
      exact (allocated allocated').elim
  | created accepted factory allocated =>
      exact ⟨fun _ =>
        ⟨⟨_, accepted⟩, factory.success_iff.mp rfl, allocated⟩,
        fun _ => rfl⟩

end UefiMount
