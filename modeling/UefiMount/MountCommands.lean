import UefiMount.DriverImages
import UefiMount.ShellMap

namespace UefiMount

/-!
# The mount commands

`mount -ISO <file>` and `mount -<FORMAT>` as steps of the machine: image
validation and the loop device in `LoopDisk.c`, the controller rescan and the
volume report in `MapReport.c`, and the two flows that `UefiMain` dispatches
to.  The Shell's mapping table is not part of the machine: no command reads
it back, and a refresh is one event here.
-/

/-- The buffer of `LoopSniff` in bytes: six sectors. -/
def loopSniffSize : Nat := 6 * loopBlockSize.toNat

/-- The five characters behind the type byte of a sector. -/
def sectorTag (buffer : List UInt8) (sector : Nat) : List UInt8 :=
  (buffer.drop (sector * loopBlockSize.toNat + 1)).take 5

/-- The bytes of an ASCII literal. -/
def ascii (literal : String) : List UInt8 :=
  literal.toList.map fun character => UInt8.ofNat character.toNat

/-- How the firmware calls of `MountLoopFactoryGet` end. -/
structure FactoryOutcomes where
  locate : EfiStatus
  path : PathOutcomes
  load : EfiStatus
  image : Handle
  start : EfiStatus
  locateAgain : EfiStatus

/-- How the firmware calls of one `LoopCreate` end. -/
structure LoopCreateOutcomes where
  openFile : EfiStatus
  file : FileHandle
  /-- `AllocatePool` for the file information. -/
  infoPool : Bool
  getInfo : EfiStatus
  fileSize : UInt64
  setPosition : EfiStatus
  read : EfiStatus
  /-- What the sniffing read returns. -/
  buffer : List UInt8
  locateShell : EfiStatus
  /-- `GetDevicePathFromFilePath`. -/
  fileDevicePath : Option DevicePath
  factory : FactoryOutcomes
  create : CreateOutcomes

/-- `LoopSniff`. -/
def loopSniff (outcomes : LoopCreateOutcomes) : LoopSniff :=
  let buffer := outcomes.buffer
  if outcomes.setPosition.isError ∨ outcomes.read.isError ∨
      buffer.length ≠ loopSniffSize then
    ⟨false, false⟩
  else {
    iso9660 := sectorTag buffer 0 == ascii "CD001"
    udf :=
      sectorTag buffer 0 == ascii "BEA01" ||
        sectorTag buffer 1 == ascii "BEA01" ||
        sectorTag buffer 2 == ascii "NSR02" ||
        sectorTag buffer 2 == ascii "NSR03" ||
        sectorTag buffer 3 == ascii "NSR02" ||
        sectorTag buffer 3 == ascii "NSR03"
  }

/-- `MountIsoFileDevicePath`. -/
def mountIsoFileDevicePath
    (outcomes : LoopCreateOutcomes) :
    Option DevicePath :=
  if outcomes.locateShell.isError then
    none
  else
    outcomes.fileDevicePath

/-- `MountLoopFactoryGet`. -/
def mountLoopFactoryGet
    (outcomes : FactoryOutcomes)
    (session : Session) :
    EfiStatus × Session :=
  if !outcomes.locate.isError then
    (.success, session)
  else
    match mountBuildDriverDevicePath outcomes.path loopDriverFile with
    | .error status =>
        (status, session.print (.selfDirectoryUnknown status))
    | .ok path =>
        let status := outcomes.load
        let session :=
          session.loadImage loopDriverFile path status outcomes.image
        if status.isError then
          if status = .securityViolation then
            (statusSecureBoot,
              session.print (.loopDriverBlocked loopDriverFile))
          else
            (statusDriverMissing,
              session.print (.loopDriverUnloadable loopDriverFile status))
        else
          let session :=
            session.startImage loopDriverFile outcomes.image outcomes.start
          if outcomes.start.isError then
            (statusDriverMissing,
              (session.print
                (.loopDriverNotStarted loopDriverFile
                  outcomes.start)).unloadImage outcomes.image)
          else if outcomes.locateAgain.isError then
            (statusDriverMissing,
              session.print (.noLoopFactory loopDriverFile))
          else
            (.success, session)

/-- What `LoopCreate` returns and stores through its out parameters. -/
structure LoopCreated where
  status : EfiStatus
  loopHandle : Option Handle
  sniff : LoopSniff

namespace Session

/-- `Create` of the resident factory over the open image file. -/
def createLoop
    (session : Session)
    (outcomes : LoopCreateOutcomes)
    (fileDevicePath : DevicePath) :
    CreateResult × Session :=
  let (result, dxe) :=
    loopFactoryCreate outcomes.create (some outcomes.file)
      (some fileDevicePath) (loopLastBlock outcomes.fileSize) true
      session.machine.dxe
  let sniffed :=
    match result.loopHandle with
    | none =>
        session.machine.sniffed
    | some handle =>
        Function.update session.machine.sniffed handle
          (some (loopSniff outcomes))
  (result,
    { session with
      machine := { session.machine with dxe := dxe, sniffed := sniffed } })

end Session

/-- The end of `LoopCreate`: find the factory and ask it for the device. -/
def loopCreateDevice
    (outcomes : LoopCreateOutcomes)
    (fileDevicePath : DevicePath)
    (session : Session) :
    LoopCreated × Session :=
  let sniff := loopSniff outcomes
  let (status, session) := mountLoopFactoryGet outcomes.factory session
  let (result, session) :=
    if status = .success then
      session.createLoop outcomes fileDevicePath
    else
      (⟨status, none⟩, session)
  if result.status ≠ .success then
    -- MountLoopFactoryGet printed its own message.
    let session :=
      if result.status ≠ statusDriverMissing ∧
          result.status ≠ statusSecureBoot then
        session.print (.loopCreateFailed result.status)
      else
        session
    (⟨result.status, none, sniff⟩, session)
  else
    (⟨.success, result.loopHandle, sniff⟩, session)

/-- The warning about an incomplete last block. -/
def Session.warnTail
    (session : Session)
    (outcomes : LoopCreateOutcomes) :
    Session :=
  if outcomes.fileSize % loopBlockSize ≠ 0 then
    session.print .tailIgnored
  else
    session

/-- `LoopCreate`. -/
def loopCreate
    (outcomes : LoopCreateOutcomes)
    (isoPath : Text)
    (session : Session) :
    LoopCreated × Session :=
  let refused (status : EfiStatus) : LoopCreated :=
    ⟨status, none, ⟨false, false⟩⟩
  if outcomes.openFile.isError then
    (refused statusIsoError,
      session.print (.cannotOpen isoPath outcomes.openFile))
  else if !outcomes.infoPool then
    (refused .outOfResources, session)
  else if outcomes.getInfo.isError then
    (refused statusIsoError, session.print (.cannotStat isoPath))
  else if outcomes.fileSize < loopMinSize then
    (refused statusIsoError, session.print .fileTooSmall)
  else
    let session := session.warnTail outcomes
    match mountIsoFileDevicePath outcomes with
    | none =>
        (⟨statusIsoError, none, loopSniff outcomes⟩,
          session.print (.noFileDevicePath isoPath))
    | some fileDevicePath =>
        loopCreateDevice outcomes fileDevicePath session

/-- A handle that a driver adds while it binds; it is no loop device. -/
structure ChildHandle where
  handle : Handle
  protocols : Protocols
  notLoop :
    ∀ disk, protocols.blockIo ≠ some (.loop disk)

/-- What one `ConnectController` does to the handle database. -/
structure ConnectOutcome where
  status : EfiStatus
  /-- Block devices that a file system driver claims. -/
  claimed : List Handle
  children : List ChildHandle

namespace LoopDxe

/-- A file system driver binds to a block device. -/
def claim (dxe : LoopDxe) (handle : Handle) : LoopDxe :=
  if (dxe.handles handle).blockIo.isSome then
    dxe.setHandle handle
      { dxe.handles handle with simpleFileSystem := true }
  else
    dxe

/-- A driver adds a handle that was not in use. -/
def addChild (dxe : LoopDxe) (child : ChildHandle) : LoopDxe :=
  if dxe.handles child.handle = .unused then
    dxe.setHandle child.handle child.protocols
  else
    dxe

/-- The handle database after the drivers have bound. -/
def connect (dxe : LoopDxe) (outcome : ConnectOutcome) : LoopDxe :=
  outcome.children.foldl addChild (outcome.claimed.foldl claim dxe)

end LoopDxe

/-- Issue `ConnectController` on a handle. -/
def Session.connectController
    (session : Session)
    (target : Handle)
    (outcome : ConnectOutcome) :
    Session :=
  let session := session.record (.connect target session.machine)
  { session with
    machine :=
      { session.machine with
        dxe := session.machine.dxe.connect outcome } }

/-- The handle loop of `MapConnectAllControllers`. -/
def mapConnectHandles
    (connects : Handle → ConnectOutcome) :
    List Handle → Session → Session
  | [], session =>
      session
  | handle :: rest, session =>
      if (session.machine.dxe.handles handle).simpleFileSystem then
        mapConnectHandles connects rest session
      else
        mapConnectHandles connects rest
          (session.connectController handle (connects handle))

/-- `MapConnectAllControllers`. -/
def mapConnectAllControllers
    (blockIo : EfiStatus × List Handle)
    (connects : Handle → ConnectOutcome)
    (session : Session) :
    EfiStatus × Session :=
  if blockIo.1 = .notFound then
    (.success, session)
  else if blockIo.1.isError then
    (blockIo.1, session)
  else
    (.success, mapConnectHandles connects blockIo.2 session)

/-- `MapCopyAlias`: one alias, as far as it fits. -/
def mapCopyAlias (fsAlias : Text) (nameSize : Nat) : Text :=
  (fsAlias.takeWhile (· ≠ semicolon)).take (nameSize - 1)

/-- What the report learns about one new volume. -/
structure VolumeOutcomes where
  locateShell : EfiStatus
  /-- `GetMapFromDevicePath`, for a handle that has a device path. -/
  mapName : Option Text
  /-- The volume label, when the volume opens and tells it. -/
  label : Option Text

/-- The name and the label that `MapPrintNewVolumes` prints for a volume. -/
def volumeLine (outcomes : VolumeOutcomes) : PrintLine :=
  let name :=
    if outcomes.locateShell.isError then
      wide "?"
    else
      match outcomes.mapName with
      | none =>
          wide "?"
      | some mapName =>
          mapCopyAlias
            ((mapFindFsAlias (some mapName)).getD mapName) 32
  .newVolume name
    ((outcomes.label.map (·.take 63)).getD (wide "-"))

/-- `MapPrintNewVolumes`. -/
def mapPrintNewVolumes
    (oldFs : List Handle)
    (nowFs : EfiStatus × List Handle)
    (volume : Handle → VolumeOutcomes)
    (session : Session) :
    Session :=
  let (status, handles) := mapSnapshotFsHandles nowFs
  if status.isError then
    session
  else
    let new := handles.filter fun handle => !oldFs.contains handle
    (new.foldl
      (fun session handle => session.print (volumeLine (volume handle)))
      session).print (.mapRefreshed new.length)

/-- How the firmware calls of the rescan and the report end. -/
structure RescanOutcomes where
  blockIo : EfiStatus × List Handle
  connects : Handle → ConnectOutcome
  nowFs : EfiStatus × List Handle
  volume : Handle → VolumeOutcomes

/-- Rescan, mapping refresh and report, which both flows end with. -/
def rescanAndReport
    (outcomes : RescanOutcomes)
    (oldFs : List Handle)
    (session : Session) :
    Session :=
  let (_, session) :=
    mapConnectAllControllers outcomes.blockIo outcomes.connects session
  mapPrintNewVolumes oldFs outcomes.nowFs outcomes.volume
    (session.record .refreshShell)

/-- The snapshot that the report is compared with; empty when it fails. -/
def oldSnapshot (located : EfiStatus × List Handle) : List Handle :=
  let (status, handles) := mapSnapshotFsHandles located
  if status.isError then [] else handles

/-- How the firmware calls of `mount -ISO` end. -/
structure IsoOutcomes where
  oldFs : EfiStatus × List Handle
  create : LoopCreateOutcomes
  scan : ImageScan
  load : LoadOutcomes
  connect : ConnectOutcome
  rescan : RescanOutcomes

/-- The end of `MountRunIso`: connect the new device, rescan and report. -/
def connectIso
    (outcomes : IsoOutcomes)
    (loopHandle : Option Handle)
    (session : Session) :
    EfiStatus × Session :=
  let session :=
    match loopHandle with
    | none =>
        session
    | some handle =>
        session.connectController handle outcomes.connect
  (.success,
    rescanAndReport outcomes.rescan (oldSnapshot outcomes.oldFs) session)

/-- `MountRunIso`. -/
def mountRunIso
    (outcomes : IsoOutcomes)
    (isoPath : Text)
    (session : Session) :
    EfiStatus × Session :=
  let (created, session) := loopCreate outcomes.create isoPath session
  if created.status ≠ .success then
    (created.status, session)
  else
    let session := session.print (.loopCreated isoPath)
    if created.sniff.pureIso then
      let (loaded, session) := session.dedupe outcomes.scan isoDriverFile
      if loaded then
        connectIso outcomes created.loopHandle session
      else
        let (status, session) :=
          mountLoadDriver outcomes.load (some isoDriverFile) session
        if status ≠ .success then
          -- The device is kept, and the connect is skipped.
          (.success,
            (session.print .isoDriverMissing).print .loopKept)
        else
          connectIso outcomes created.loopHandle session
    else
      connectIso outcomes created.loopHandle session

/-- How the firmware calls of `mount -<FORMAT>` end. -/
structure FormatOutcomes where
  oldFs : EfiStatus × List Handle
  scan : ImageScan
  load : LoadOutcomes
  rescan : RescanOutcomes

/-- `MountRunFormat`. -/
def mountRunFormat
    (outcomes : FormatOutcomes)
    (entry : Option MountFormatEntry)
    (session : Session) :
    EfiStatus × Session :=
  match entry with
  | none =>
      (statusInvalidParameter, session)
  | some entry =>
      let finish (session : Session) : EfiStatus × Session :=
        (.success,
          rescanAndReport outcomes.rescan
            (oldSnapshot outcomes.oldFs) session)
      let (loaded, session) :=
        session.dedupe outcomes.scan entry.driverFile
      if loaded then
        finish (session.print (.driverAlreadyLoaded entry.name))
      else
        let (status, session) :=
          mountLoadDriver outcomes.load (some entry.driverFile) session
        if status ≠ .success then
          (status, session)
        else
          finish session

/-- `PrintHelp`. -/
def printHelp (session : Session) : Session :=
  let lines :=
    .helpTitle :: helpLines.map .helpText ++ mFormats.map .helpFormat
  lines.foldl Session.print session

/-- The two kinds of mount commands, with how their firmware calls end. -/
inductive Command where
  | iso (path : Text) (outcomes : IsoOutcomes)
  | format (name : Text) (outcomes : FormatOutcomes)

/-- The branches of `UefiMain` for the two flows. -/
def uefiMain (session : Session) : Command → EfiStatus × Session
  | .iso path outcomes =>
      mountRunIso outcomes path (session.print .version)
  | .format name outcomes =>
      let session := session.print .version
      match mountFindFormat name with
      | none =>
          (statusInvalidParameter,
            printHelp (session.print (.unknownFormat name)))
      | some entry =>
          mountRunFormat outcomes (some entry) session

/-- The exit status of a command and what happened while it ran. -/
structure CommandReply where
  status : EfiStatus
  trace : List Event

/-- Run one command. -/
def mountStep
    (machine : Machine)
    (command : Command) :
    CommandReply × Machine :=
  let (status, session) := uefiMain ⟨machine, []⟩ command
  (⟨status, session.trace⟩, session.machine)

/-- The handle of a new image is not one of the loaded images. -/
def Machine.FreshImage (machine : Machine) (image : Handle) : Prop :=
  ∀ loaded ∈ machine.images, loaded.handle ≠ image

instance (machine : Machine) (image : Handle) :
    Decidable (machine.FreshImage image) :=
  inferInstanceAs
    (Decidable (∀ loaded ∈ machine.images, loaded.handle ≠ image))

/-- New handles, images and pool blocks are not in use yet. -/
def Command.Admissible (machine : Machine) : Command → Prop
  | .iso _ outcomes =>
      outcomes.create.create.Fresh machine.dxe ∧
        machine.FreshImage outcomes.create.factory.image ∧
        machine.FreshImage outcomes.load.image ∧
        outcomes.load.image ≠ outcomes.create.factory.image
  | .format _ outcomes =>
      machine.FreshImage outcomes.load.image

/-- The mount application as a process over the machine. -/
def mountApp : ProcessRuns.Process Machine Command CommandReply where
  admits := Command.Admissible
  step := mountStep

end UefiMount
