import UefiMount.LoopFactory
import UefiMount.MountConsole

namespace UefiMount

/-!
# Driver images

`FsDriver.c`: where the driver files lie, which of them are loaded already,
and how one is loaded and started.  The firmware's image database is part of
the machine; the status of every firmware call comes from the environment.
Each run records what it prints and asks the firmware for, and the machine it
saw wherever it takes a decision on the database.
-/

/-- `L'\\'`. -/
def backslash : Char16 := 0x5C

/-- `MOUNT_MAX_PATH`. -/
def mountMaxPath : Nat := 256

/-- `mFormats`. -/
def mFormats : List MountFormatEntry :=
  [⟨wide "NTFS", wide "drivers\\ntfs_x64.efi",
      wide "efifs, read-only", true⟩,
    ⟨wide "EXT4", wide "drivers\\ext2_x64.efi",
      wide "efifs ext2 covers ext2/3/4, read-only", true⟩,
    ⟨wide "BTRFS", wide "drivers\\btrfs_x64.efi",
      wide "efifs, read-only; RAID/zstd may fail", false⟩,
    ⟨wide "XFS", wide "drivers\\xfs_x64.efi",
      wide "efifs, read-only; v5/CRC TBD", false⟩]

/-- The driver that `mount -ISO` loads for pure ISO9660 images. -/
def isoDriverFile : Text := wide "drivers\\iso9660_x64.efi"

/-- `LOOP_DRIVER_FILE`. -/
def loopDriverFile : Text := wide "drivers\\loop_x64.efi"

/-- The upper case that `StaticStriCmp` compares by. -/
def staticUpper (char : Char16) : Char16 :=
  if 0x61 ≤ char ∧ char ≤ 0x7A then char - 0x61 + 0x41 else char

/-- `StaticStriCmp` finds no difference. -/
def staticStriEq (first second : Text) : Bool :=
  first.map staticUpper == second.map staticUpper

/-- `MountFindFormat`. -/
def mountFindFormat (name : Text) : Option MountFormatEntry :=
  mFormats.find? fun entry => staticStriEq entry.name name

/-- What `MountGetSelfDir` and `FileDevicePath` find. -/
structure PathOutcomes where
  /-- `HandleProtocol` for the image of mount.efi itself. -/
  loadedImage : EfiStatus
  /-- Its `FilePath`. -/
  filePath : Option DevicePath
  /-- The allocation inside `FileDevicePath`. -/
  fileDevicePath : Bool
  deriving DecidableEq

/-- The last file path node of a device path. -/
def lastFilePathNode (path : DevicePath) : Option Text :=
  path.foldl
    (fun imagePath node =>
      match node with
      | .filePath pathName =>
          some pathName
      | _ =>
          imagePath)
    none

/-- The text before the last backslash. -/
def beforeLastSlash (path : Text) : Option Text :=
  match path.reverse.dropWhile (· ≠ backslash) with
  | [] =>
      none
  | _ :: directory =>
      some directory.reverse

/-- `MountGetSelfDir`; a directory that does not fit is left empty. -/
def mountGetSelfDir (outcomes : PathOutcomes) : Except EfiStatus Text :=
  if outcomes.loadedImage.isError then
    .error outcomes.loadedImage
  else
    match outcomes.filePath.bind lastFilePathNode with
    | none =>
        .error .notFound
    | some imagePath =>
        match beforeLastSlash imagePath with
        | none =>
            .error .notFound
        | some directory =>
            .ok (if directory.length < mountMaxPath then directory else [])

/-- `MountJoinSelfPath`; both ways to fill the buffer cut the text off. -/
def mountJoinSelfPath (selfDir relative : Text) : Text :=
  if selfDir = [] then
    relative.take (mountMaxPath - 1)
  else
    (selfDir ++ backslash :: relative).take (mountMaxPath - 1)

/-- `MountBuildDriverDevicePath`: the file path below mount.efi's volume. -/
def mountBuildDriverDevicePath
    (outcomes : PathOutcomes)
    (driverFile : Text) :
    Except EfiStatus Text :=
  match mountGetSelfDir outcomes with
  | .error status =>
      .error status
  | .ok selfDir =>
      if outcomes.fileDevicePath then
        .ok (mountJoinSelfPath selfDir driverFile)
      else
        .error .outOfResources

/-- An image handle with its `LoadedImage` protocol. -/
structure LoadedImage where
  handle : Handle
  /-- The text of its `FilePath`, when it has one. -/
  filePath : Option Text
  /-- `StartImage` on it has returned success. -/
  started : Bool
  deriving DecidableEq

/-- What `LoopSniff` finds in an image file. -/
structure LoopSniff where
  iso9660 : Bool
  udf : Bool
  deriving DecidableEq

/-- ISO9660 without a UDF bridge. -/
def LoopSniff.pureIso (sniff : LoopSniff) : Bool :=
  sniff.iso9660 && !sniff.udf

/--
The machine that the commands share: the resident loop driver with the handle
database, the loaded images, and what each live loop device was sniffed as.
-/
structure Machine where
  dxe : LoopDxe
  images : List LoadedImage
  sniffed : Handle → Option LoopSniff

/-- How the walk over the loaded images ends. -/
structure ImageScan where
  /-- `LocateHandleBuffer` for `LoadedImage`. -/
  locate : EfiStatus
  /-- `HandleProtocol` and `ConvertDevicePathToText` work for the image. -/
  readable : Handle → Bool

/-- The text ends with the driver file on a path-component boundary. -/
def endsWithDriver (text driverFile : Text) : Bool :=
  decide (driverFile.length ≤ text.length) &&
    text.drop (text.length - driverFile.length) == driverFile &&
    (text.length == driverFile.length ||
      text[text.length - driverFile.length - 1]? == some backslash)

/-- The image counts as the driver file. -/
def LoadedImage.isDriver
    (image : LoadedImage)
    (driverFile : Text) :
    Bool :=
  match image.filePath with
  | none =>
      false
  | some text =>
      endsWithDriver text driverFile

/-- `MountDriverLoaded`. -/
def mountDriverLoaded
    (scan : ImageScan)
    (driverFile : Text)
    (images : List LoadedImage) :
    Bool :=
  if scan.locate.isError then
    false
  else
    images.any fun image =>
      scan.readable image.handle && image.isDriver driverFile

/-- The steps of a command that the environment takes part in. -/
inductive Event where
  | print (line : PrintLine)
  /-- A `MountDriverLoaded` check and the machine it was made on. -/
  | dedupe (driverFile : Text) (loaded : Bool) (machine : Machine)
  | loadImage (driverFile : Text) (status : EfiStatus)
  | startImage (driverFile : Text) (status : EfiStatus)
  /-- `ConnectController` on a handle, and the machine it was issued on. -/
  | connect (target : Handle) (machine : Machine)
  | refreshShell

/-- A command in progress: the machine and what has happened so far. -/
structure Session where
  machine : Machine
  trace : List Event

namespace Session

def record (session : Session) (event : Event) : Session :=
  { session with trace := session.trace ++ [event] }

def print (session : Session) (line : PrintLine) : Session :=
  session.record (.print line)

/-- Ask `MountDriverLoaded`. -/
def dedupe
    (session : Session)
    (scan : ImageScan)
    (driverFile : Text) :
    Bool × Session :=
  let loaded := mountDriverLoaded scan driverFile session.machine.images
  (loaded, session.record (.dedupe driverFile loaded session.machine))

/-- Change the loaded images. -/
def setImages
    (session : Session)
    (images : List LoadedImage) :
    Session :=
  { session with machine := { session.machine with images := images } }

/--
`LoadImage`: success creates the image, and so does a security violation,
which only forbids starting it.
-/
def loadImage
    (session : Session)
    (driverFile path : Text)
    (status : EfiStatus)
    (image : Handle) :
    Session :=
  let session := session.record (.loadImage driverFile status)
  if status.isError ∧ status ≠ .securityViolation then
    session
  else
    session.setImages
      (session.machine.images ++ [⟨image, some path, false⟩])

/-- `StartImage`. -/
def startImage
    (session : Session)
    (driverFile : Text)
    (image : Handle)
    (status : EfiStatus) :
    Session :=
  let session := session.record (.startImage driverFile status)
  if status.isError then
    session
  else
    session.setImages
      (session.machine.images.map fun loaded =>
        if loaded.handle = image then
          { loaded with started := true }
        else
          loaded)

/-- `UnloadImage` of an image whose entry point failed: it is gone. -/
def unloadImage (session : Session) (image : Handle) : Session :=
  session.setImages
    (session.machine.images.filter fun loaded => loaded.handle ≠ image)

end Session

/-- How the firmware calls of one driver load end. -/
structure LoadOutcomes where
  scan : ImageScan
  path : PathOutcomes
  load : EfiStatus
  /-- The handle that `LoadImage` creates. -/
  image : Handle
  start : EfiStatus

/-- `MountLoadDriver`. -/
def mountLoadDriver
    (outcomes : LoadOutcomes)
    (driverFile : Option Text)
    (session : Session) :
    EfiStatus × Session :=
  match driverFile with
  | none =>
      (statusInvalidParameter, session)
  | some driverFile =>
      let (loaded, session) := session.dedupe outcomes.scan driverFile
      if loaded then
        (.success, session)
      else
        match mountBuildDriverDevicePath outcomes.path driverFile with
        | .error status =>
            (statusDriverMissing,
              session.print (.selfDirectoryUnknown status))
        | .ok path =>
            let status := outcomes.load
            let session :=
              session.loadImage driverFile path status outcomes.image
            if status = .notFound ∨ status = .loadError ∨
                status = .invalidParameter then
              (statusDriverMissing, session.print (.driverNotFound driverFile))
            else if status = .securityViolation then
              (statusSecureBoot, session.print .driverBlocked)
            else if status.isError then
              (statusDriverMissing,
                session.print (.loadImageFailed driverFile status))
            else
              let session :=
                session.startImage driverFile outcomes.image outcomes.start
              if outcomes.start.isError then
                -- No resident image whose DriverBinding never started.
                (statusDriverMissing,
                  (session.print
                    (.startImageFailed outcomes.start)).unloadImage
                      outcomes.image)
              else
                (.success, session.print (.driverLoaded driverFile))

end UefiMount
