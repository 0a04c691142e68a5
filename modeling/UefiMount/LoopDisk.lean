import Mathlib.Algebra.Group.Nat.Defs
import UefiMount.EfiTypes

namespace UefiMount

/-!
# The loop disk and its BlockIo entry points

`LOOP_DISK` with the BlockIo and BlockIo2 callbacks of `LoopDxe.c`.  The two
protocol tables inside the structure hold the same callbacks for every disk
and are therefore not fields here; a callback receives the disk that
`BASE_CR` recovers.  The backing `EFI_FILE_PROTOCOL` belongs to the firmware:
it is a parameter whose documented behaviour `FileProtocol.Faithful` names.
-/

/-- `LOOP_BLOCK_SIZE`. -/
def loopBlockSize : UInt64 := 2048

/-- `LOOP_MIN_SIZE`: the sector of the primary volume descriptor must fit. -/
def loopMinSize : UInt64 := 16 * loopBlockSize

/-- The `LastBlock` that `LoopCreate` passes to the factory. -/
def loopLastBlock (fileSize : UInt64) : UInt64 :=
  fileSize / loopBlockSize - 1

/-- `LOOP_MEDIA_ID`. -/
def loopMediaId : UInt32 := 0x4D4F554E

/-- `SIGNATURE_32`: four characters, the first in the lowest byte. -/
def signature32 (first second third fourth : Char) : UInt64 :=
  UInt64.ofNat
    (first.toNat + second.toNat * 2 ^ 8 +
      third.toNat * 2 ^ 16 + fourth.toNat * 2 ^ 24)

/-- `LOOP_DISK_SIG`. -/
def loopDiskSig : UInt64 := signature32 'M' 'L' 'O' 'P'

/-- `EFI_BLOCK_IO_MEDIA`, as far as the driver fills it in. -/
structure BlockIoMedia where
  mediaId : UInt32
  removableMedia : Bool
  mediaPresent : Bool
  logicalPartition : Bool
  readOnly : Bool
  writeCaching : Bool
  blockSize : UInt64
  ioAlign : UInt32
  lastBlock : UInt64
  deriving Repr, DecidableEq

/-- `LOOP_DISK` without its two constant protocol tables. -/
structure LoopDisk where
  signature : UInt64
  media : BlockIoMedia
  devicePath : Option Address
  backingFile : FileHandle
  handle : Option Handle
  lastBlock : UInt64
  seq : UInt32
  deriving Repr, DecidableEq

/-- Caller memory, addressed by the offset from the buffer pointer. -/
abbrev Memory := Nat → UInt8

/-- Overwrite the start of a buffer and keep everything behind it. -/
def Memory.write (memory : Memory) (bytes : List UInt8) : Memory :=
  fun offset => bytes[offset]?.getD (memory offset)

/-- The two calls a loop disk makes on its backing `EFI_FILE_PROTOCOL`. -/
structure FileProtocol (FileSystem : Type) where
  setPosition :
    FileHandle → UInt64 → FileSystem → EfiStatus × FileSystem
  /-- Status, the bytes transferred (their number is the returned size), new state. -/
  read :
    FileHandle → UInt64 → FileSystem →
      EfiStatus × List UInt8 × FileSystem

/-- The offset that `SetPosition` reserves for seeking to the end of a file. -/
def seekToEnd : UInt64 := 0xFFFFFFFFFFFFFFFF

/--
What the firmware documents about files whose content does not change:
seeking succeeds, and a read at or before the end transfers the requested
bytes, or as many as the file still has.
-/
structure FileProtocol.Faithful
    {FileSystem : Type}
    (files : FileProtocol FileSystem)
    (content : FileHandle → List UInt8)
    (position : FileSystem → FileHandle → Nat) : Prop where
  setPosition_status :
    ∀ file offset fileSystem,
      (files.setPosition file offset fileSystem).1 = .success
  setPosition_position :
    ∀ file offset fileSystem,
      offset ≠ seekToEnd →
      position (files.setPosition file offset fileSystem).2 file =
        offset.toNat
  read_status :
    ∀ file size fileSystem,
      position fileSystem file ≤ (content file).length →
      (files.read file size fileSystem).1 = .success
  read_bytes :
    ∀ file size fileSystem,
      position fileSystem file ≤ (content file).length →
      (files.read file size fileSystem).2.1 =
        ((content file).drop (position fileSystem file)).take
          size.toNat

/-- Status, caller buffer and file state after a read entry point returns. -/
structure ReadOutcome (FileSystem : Type) where
  status : EfiStatus
  buffer : Option Memory
  fileSystem : FileSystem

/-- `LoopReset`. -/
def loopReset (_disk : LoopDisk) (_extendedVerification : Bool) : EfiStatus :=
  .success

/-- `LoopReadBlocks`. -/
def loopReadBlocks
    {FileSystem : Type}
    (files : FileProtocol FileSystem)
    (disk : LoopDisk)
    (mediaId : UInt32)
    (lba bufferSize : UInt64)
    (buffer : Option Memory)
    (fileSystem : FileSystem) :
    ReadOutcome FileSystem :=
  if mediaId ≠ disk.media.mediaId ∨ buffer.isNone ∨
      bufferSize % loopBlockSize ≠ 0 then
    ⟨.invalidParameter, buffer, fileSystem⟩
  else if disk.lastBlock < lba ∨
      disk.lastBlock + 1 - lba < bufferSize / loopBlockSize then
    ⟨.invalidParameter, buffer, fileSystem⟩
  else
    let (status, fileSystem) :=
      files.setPosition disk.backingFile
        (lba * loopBlockSize) fileSystem
    if status.isError then
      ⟨status, buffer, fileSystem⟩
    else
      let (status, bytes, fileSystem) :=
        files.read disk.backingFile bufferSize fileSystem
      let buffer := buffer.map (·.write bytes)
      if status.isError then
        ⟨status, buffer, fileSystem⟩
      -- A short read means the backing file shrank.
      else if bytes.length = bufferSize.toNat then
        ⟨.success, buffer, fileSystem⟩
      else
        ⟨.deviceError, buffer, fileSystem⟩

/-- `LoopWriteBlocks`. -/
def loopWriteBlocks
    (_disk : LoopDisk)
    (_mediaId : UInt32)
    (_lba _bufferSize : UInt64) :
    EfiStatus :=
  .writeProtected

/-- `LoopFlushBlocks`. -/
def loopFlushBlocks (_disk : LoopDisk) : EfiStatus :=
  .success

/-- `EFI_BLOCK_IO2_TOKEN`. -/
structure BlockIo2Token where
  event : Option Nat
  transactionStatus : EfiStatus
  deriving Repr, DecidableEq

/-- The token after completion and the event that was signalled, if any. -/
structure TokenOutcome where
  token : Option BlockIo2Token
  signalled : Option Nat
  deriving Repr, DecidableEq

/-- `LoopCompleteToken`. -/
def loopCompleteToken
    (token : Option BlockIo2Token)
    (status : EfiStatus) :
    TokenOutcome :=
  match token with
  | none =>
      ⟨none, none⟩
  | some token =>
      ⟨some { token with transactionStatus := status },
        if status.isError then none else token.event⟩

/-- `LoopResetEx`. -/
def loopResetEx (_disk : LoopDisk) (_extendedVerification : Bool) : EfiStatus :=
  .success

/-- `LoopReadBlocksEx`. -/
def loopReadBlocksEx
    {FileSystem : Type}
    (files : FileProtocol FileSystem)
    (disk : LoopDisk)
    (mediaId : UInt32)
    (lba : UInt64)
    (token : Option BlockIo2Token)
    (bufferSize : UInt64)
    (buffer : Option Memory)
    (fileSystem : FileSystem) :
    ReadOutcome FileSystem × TokenOutcome :=
  let outcome :=
    loopReadBlocks files disk mediaId lba bufferSize buffer fileSystem
  (outcome, loopCompleteToken token outcome.status)

/-- `LoopWriteBlocksEx`. -/
def loopWriteBlocksEx
    (_disk : LoopDisk)
    (_mediaId : UInt32)
    (_lba : UInt64)
    (token : Option BlockIo2Token)
    (_bufferSize : UInt64) :
    EfiStatus × TokenOutcome :=
  (.writeProtected, loopCompleteToken token .writeProtected)

/-- `LoopFlushBlocksEx`. -/
def loopFlushBlocksEx
    (_disk : LoopDisk)
    (token : Option BlockIo2Token) :
    EfiStatus × TokenOutcome :=
  (.success, loopCompleteToken token .success)

end UefiMount
