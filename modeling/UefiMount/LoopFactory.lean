import Mathlib.Logic.Function.Basic
import UefiMount.LoopDisk
import UefiMount.ProcessRuns

namespace UefiMount

/-!
# The loop factory

`LoopFactoryCreate` and `LoopFactoryDestroy` of the resident driver, over the
part of the firmware they change: the pool blocks the driver owns and the
handle database.  Every firmware call that may fail takes its outcome from the
environment.
-/

/-- `EFI_GUID`. -/
structure EfiGuid where
  data1 : UInt32
  data2 : UInt16
  data3 : UInt16
  data4 : List UInt8
  deriving Repr, DecidableEq

/-- Device path nodes, as far as the code tells them apart. -/
inductive DevicePathNode where
  | vendorMedia (guid : EfiGuid)
  | filePath (pathName : Text)
  | other (bytes : List UInt8)
  deriving Repr, DecidableEq

/-- A device path without its end node. -/
abbrev DevicePath := List DevicePathNode

/--
The BlockIo interface found on a handle: the `BlockIo` member of a loop disk,
or one of a firmware driver, whose enclosing structure does not start with the
loop signature.
-/
inductive BlockIoInterface where
  | loop (disk : Address)
  | firmware (container : { word : UInt64 // word ≠ loopDiskSig })
  deriving DecidableEq

/-- The device path interface of a handle. -/
inductive DevicePathInterface where
  | loop (block : Address)
  | firmware (path : DevicePath)
  deriving DecidableEq

/-- The protocols of one handle that the code looks at. -/
structure Protocols where
  devicePath : Option DevicePathInterface
  blockIo : Option BlockIoInterface
  blockIo2 : Option BlockIoInterface
  simpleFileSystem : Bool
  deriving DecidableEq

/-- A value that names no handle: nothing is installed on it. -/
def Protocols.unused : Protocols where
  devicePath := none
  blockIo := none
  blockIo2 := none
  simpleFileSystem := false

/-- What the driver keeps in a pool block. -/
inductive PoolBlock where
  | disk (disk : LoopDisk)
  | devicePath (path : DevicePath)
  deriving DecidableEq

/--
The state behind the factory: the driver's sequence counter, the pool blocks
it has allocated and not freed, and the firmware's handle database.
-/
structure LoopDxe where
  mLoopSeq : UInt32
  pool : Address → Option PoolBlock
  handles : Handle → Protocols

namespace LoopDxe

/-- Store a pool block, newly allocated or already owned. -/
def store (dxe : LoopDxe) (address : Address) (block : PoolBlock) : LoopDxe :=
  { dxe with pool := Function.update dxe.pool address (some block) }

/-- `FreePool`. -/
def freePool (dxe : LoopDxe) (address : Address) : LoopDxe :=
  { dxe with pool := Function.update dxe.pool address none }

/-- Replace the protocols of one handle. -/
def setHandle
    (dxe : LoopDxe)
    (handle : Handle)
    (protocols : Protocols) :
    LoopDxe :=
  { dxe with handles := Function.update dxe.handles handle protocols }

/-- `BASE_CR` on a BlockIo interface followed by the signature test. -/
def recoverDisk
    (dxe : LoopDxe) :
    BlockIoInterface → Option (Address × LoopDisk)
  | .firmware _ =>
      none
  | .loop address =>
      match dxe.pool address with
      | some (.disk disk) =>
          if disk.signature = loopDiskSig then some (address, disk) else none
      | _ =>
          none

/-- The loop disk behind a handle, when the handle is a live loop device. -/
def diskAt (dxe : LoopDxe) (handle : Handle) : Option LoopDisk :=
  ((dxe.handles handle).blockIo.bind dxe.recoverDisk).map Prod.snd

/-- `DevicePathFromHandle`. -/
def devicePathAt (dxe : LoopDxe) (handle : Handle) : Option DevicePath :=
  match (dxe.handles handle).devicePath with
  | none =>
      none
  | some (.firmware path) =>
      some path
  | some (.loop block) =>
      match dxe.pool block with
      | some (.devicePath path) =>
          some path
      | _ =>
          none

end LoopDxe

/-- The `LOOP_VENDOR_MEDIA_NODE` built for one sequence number. -/
def loopVendorNode (seq : UInt32) : DevicePathNode :=
  .vendorMedia {
    data1 := 0x5C6D7E8F
    data2 := 0x1111
    data3 := 0x4001
    data4 := [0x80, 0x01, 0, 0, 0, 0, 0, seq.toUInt8]
  }

/-- The `LOOP_DISK` that Create fills in before it asks for a device path. -/
def newLoopDisk
    (backingFile : FileHandle)
    (lastBlock : UInt64)
    (seq : UInt32) :
    LoopDisk where
  signature := loopDiskSig
  media := {
    mediaId := loopMediaId
    removableMedia := true
    mediaPresent := true
    logicalPartition := false
    readOnly := true
    writeCaching := false
    blockSize := loopBlockSize
    ioAlign := 0
    lastBlock := lastBlock
  }
  devicePath := none
  backingFile := backingFile
  handle := none
  lastBlock := lastBlock
  seq := seq

/-- How the firmware calls of one Create end. -/
structure CreateOutcomes where
  /-- `AllocateZeroPool` for the `LOOP_DISK`. -/
  diskPool : Option Address
  /-- The allocation inside `AppendDevicePathNode`. -/
  pathPool : Option Address
  /-- `InstallMultipleProtocolInterfaces`. -/
  install : EfiStatus
  /-- The handle that a successful install on a NULL handle creates. -/
  newHandle : Handle
  deriving DecidableEq

/-- Status and `*LoopHandle` of a Create. -/
structure CreateResult where
  status : EfiStatus
  loopHandle : Option Handle
  deriving DecidableEq

/-- `LoopFactoryCreate`; `loopHandle` tells whether the out pointer is given. -/
def loopFactoryCreate
    (outcomes : CreateOutcomes)
    (backingFile : Option FileHandle)
    (fileDevicePath : Option DevicePath)
    (lastBlock : UInt64)
    (loopHandle : Bool)
    (dxe : LoopDxe) :
    CreateResult × LoopDxe :=
  match backingFile, fileDevicePath, loopHandle with
  | some backingFile, some fileDevicePath, true =>
      match outcomes.diskPool with
      | none =>
          (⟨.outOfResources, none⟩, dxe)
      | some diskAddress =>
          let seq := dxe.mLoopSeq + 1
          let disk := newLoopDisk backingFile lastBlock seq
          let dxe :=
            { dxe with mLoopSeq := seq }.store diskAddress (.disk disk)
          match outcomes.pathPool with
          | none =>
              (⟨.outOfResources, none⟩, dxe.freePool diskAddress)
          | some pathAddress =>
              let path := fileDevicePath ++ [loopVendorNode seq]
              let disk := { disk with devicePath := some pathAddress }
              let dxe :=
                (dxe.store pathAddress (.devicePath path)).store
                  diskAddress (.disk disk)
              if outcomes.install.isError then
                (⟨outcomes.install, none⟩,
                  (dxe.freePool pathAddress).freePool diskAddress)
              else
                let handle := outcomes.newHandle
                let disk := { disk with handle := some handle }
                let protocols : Protocols := {
                  devicePath := some (.loop pathAddress)
                  blockIo := some (.loop diskAddress)
                  blockIo2 := some (.loop diskAddress)
                  simpleFileSystem := false
                }
                (⟨.success, some handle⟩,
                  (dxe.store diskAddress (.disk disk)).setHandle
                    handle protocols)
  | _, _, _ =>
      (⟨.invalidParameter, none⟩, dxe)

/-- Status of a Destroy and the file it stores through `BackingFile`. -/
structure DestroyResult where
  status : EfiStatus
  backingFile : Option FileHandle
  deriving DecidableEq

/-- `LoopFactoryDestroy`; `wantsFile` tells whether `BackingFile` is given. -/
def loopFactoryDestroy
    (uninstall : EfiStatus)
    (loopHandle : Option Handle)
    (wantsFile : Bool)
    (dxe : LoopDxe) :
    DestroyResult × LoopDxe :=
  match loopHandle.bind fun handle => (dxe.handles handle).blockIo with
  | none =>
      (⟨.notFound, none⟩, dxe)
  | some blockIo =>
      match dxe.recoverDisk blockIo with
      | none =>
          (⟨.notFound, none⟩, dxe)
      | some (address, disk) =>
          if uninstall.isError then
            (⟨uninstall, none⟩, dxe)
          else
            let dxe :=
              match disk.handle with
              | none =>
                  dxe
              | some handle =>
                  dxe.setHandle handle
                    { dxe.handles handle with
                      devicePath := none
                      blockIo := none
                      blockIo2 := none }
            let dxe :=
              match disk.devicePath with
              | none =>
                  dxe
              | some pathAddress =>
                  dxe.freePool pathAddress
            (⟨.success, if wantsFile then some disk.backingFile else none⟩,
              dxe.freePool address)

/-- One call into the factory, with the outcomes of the firmware calls it makes. -/
inductive FactoryCall where
  | create
      (outcomes : CreateOutcomes)
      (backingFile : Option FileHandle)
      (fileDevicePath : Option DevicePath)
      (lastBlock : UInt64)
      (loopHandle : Bool)
  | destroy
      (uninstall : EfiStatus)
      (loopHandle : Option Handle)
      (wantsFile : Bool)
  deriving DecidableEq

/-- What a factory call returns. -/
inductive FactoryReply where
  | created (result : CreateResult)
  | destroyed (result : DestroyResult)
  deriving DecidableEq

/-- Run one factory call. -/
def factoryStep
    (dxe : LoopDxe) :
    FactoryCall → FactoryReply × LoopDxe
  | .create outcomes backingFile fileDevicePath lastBlock loopHandle =>
      let (result, dxe) :=
        loopFactoryCreate outcomes backingFile fileDevicePath
          lastBlock loopHandle dxe
      (.created result, dxe)
  | .destroy uninstall loopHandle wantsFile =>
      let (result, dxe) :=
        loopFactoryDestroy uninstall loopHandle wantsFile dxe
      (.destroyed result, dxe)

/--
The allocator hands out blocks that are not in use, and an install on a NULL
handle yields a handle that nothing is installed on yet.
-/
structure CreateOutcomes.Fresh
    (outcomes : CreateOutcomes)
    (dxe : LoopDxe) : Prop where
  disk :
    ∀ {address},
      outcomes.diskPool = some address →
      dxe.pool address = none
  path :
    ∀ {address},
      outcomes.pathPool = some address →
      dxe.pool address = none ∧
        outcomes.diskPool ≠ some address
  handle :
    dxe.handles outcomes.newHandle = .unused

/-- The outcomes a call may meet in a given state. -/
def FactoryCall.Admissible (dxe : LoopDxe) : FactoryCall → Prop
  | .create outcomes .. =>
      outcomes.Fresh dxe
  | .destroy .. =>
      True

/-- The factory as a process: arbitrary calls, in arbitrary order. -/
def factory : ProcessRuns.Process LoopDxe FactoryCall FactoryReply where
  admits := FactoryCall.Admissible
  step := factoryStep

/-- Extend a factory run by one call whose reply is known. -/
theorem factory_answer
    {initial dxe next : LoopDxe}
    {history : List (FactoryCall × FactoryReply)}
    (run : factory.Run initial history dxe)
    {call : FactoryCall}
    {reply : FactoryReply}
    (admissible : call.Admissible dxe)
    (stepped : factoryStep dxe call = (reply, next)) :
    factory.Run initial (history ++ [(call, reply)]) next :=
  run.answer admissible stepped

/-- The driver right after its entry point: counter zero, nothing created. -/
structure LoopDxe.JustLoaded (dxe : LoopDxe) : Prop where
  seq :
    dxe.mLoopSeq = 0
  pool :
    ∀ address, dxe.pool address = none
  blockIo :
    ∀ handle address,
      (dxe.handles handle).blockIo ≠ some (.loop address)

end UefiMount
