import UefiMount.LoopCreateOwnership
import UefiMount.LoopReadFidelity

namespace UefiMount

open ResourceLedgers

/-!
# The self test of the loop device

`LoopDiskSelfTest` writes a file of sixteen blocks, mounts it, reads two blocks
back through both block protocols, and takes the device away again.  Its ledger
lists what it obtains and gives back.  The test passes exactly when the device
returns the two marked blocks, and a test that cannot take its device away never
passes.
-/

section Model

/-- `LOOP_SELFTEST_PATH`. -/
def loopSelfTestPath : Text := wide "fs0:\\loop_selftest.bin"

/-- `LOOP_SELFTEST_BLOCKS`. -/
def loopSelfTestBlocks : Nat := 16

/-- `LOOP_SELFTEST_MARK0`. -/
def loopSelfTestMark0 : UInt8 := 0x4D

/-- `LOOP_SELFTEST_MARK1`. -/
def loopSelfTestMark1 : UInt8 := 0x55

/-- `Pattern`: two marked blocks, and zeros behind them. -/
def selfTestPattern : List UInt8 :=
  List.replicate loopBlockSize.toNat loopSelfTestMark0 ++
    (List.replicate loopBlockSize.toNat loopSelfTestMark1 ++
      List.replicate ((loopSelfTestBlocks - 2) * loopBlockSize.toNat) 0)

/-- One block of some bytes. -/
def blockAt (bytes : List UInt8) (lba : Nat) : List UInt8 :=
  (bytes.drop (lba * loopBlockSize.toNat)).take loopBlockSize.toNat

/-- `CompareMem` finds that the buffer starts with a block of the pattern. -/
def holdsBlock (buffer : Option Memory) (lba : Nat) : Bool :=
  match buffer with
  | none =>
      false
  | some memory =>
      (List.range loopBlockSize.toNat).map memory ==
        blockAt selfTestPattern lba

/-- What the self test obtains and has to give back. -/
inductive SelfTestResource where
  /-- `Pattern`. -/
  | pattern
  /-- `ReadBack`. -/
  | readBack
  /-- The file on the volume, until `ShellDeleteFileByName`. -/
  | storedFile
  /-- The test file while it is written. -/
  | openFile (file : FileHandle)
  /-- What `LoopCreate` obtains. -/
  | loop (resource : Resource)
  /-- What the search for the factory obtains when the device is taken away. -/
  | teardown (resource : Resource)
  deriving DecidableEq

/-- The ledger of the self test. -/
abbrev SelfTestLedger := List (Entry SelfTestResource)

/-- How the firmware calls of `LoopDiskSelfTest` end. -/
structure LoopTestOutcomes (FileSystem : Type) where
  patternPool : Bool
  readBackPool : Bool
  openFile : EfiStatus
  file : FileHandle
  write : EfiStatus
  /-- `Size` behind the write. -/
  written : UInt64
  create : LoopCreateOutcomes
  /-- What the allocated buffer holds. -/
  readBack : Memory
  /-- The state of the files when the device is read. -/
  fileSystem : FileSystem
  /-- The second `MountLoopFactoryGet`. -/
  factory : FactoryOutcomes
  uninstall : EfiStatus

/--
The disks whose callbacks `BlockIo` and `BlockIo2` of a handle lead to, when
both are there.
-/
def LoopDxe.blockDevices
    (dxe : LoopDxe)
    (handle : Handle) :
    Option (LoopDisk × LoopDisk) := do
  let blockIo ← (dxe.handles handle).blockIo
  let blockIo2 ← (dxe.handles handle).blockIo2
  let (_, disk) ← dxe.recoverDisk blockIo
  let (_, disk2) ← dxe.recoverDisk blockIo2
  return (disk, disk2)

/-- The reads and the write that the self test tries on the device. -/
def loopDiskChecks
    {FileSystem : Type}
    (files : FileProtocol FileSystem)
    (blockIo blockIo2 : LoopDisk)
    (readBack : Memory)
    (fileSystem : FileSystem) :
    Bool :=
  let mediaId := blockIo.media.mediaId
  let size := loopBlockSize
  let first :=
    loopReadBlocks files blockIo mediaId 0 size (some readBack) fileSystem
  let second :=
    loopReadBlocks files blockIo mediaId 1 size first.buffer
      first.fileSystem
  let (third, completion) :=
    loopReadBlocksEx files blockIo2 mediaId 1 (some ⟨none, .success⟩) size
      second.buffer second.fileSystem
  (!first.status.isError && holdsBlock first.buffer 0) &&
    (!second.status.isError && holdsBlock second.buffer 1) &&
    (!third.status.isError &&
      completion.token.all (fun token => !token.transactionStatus.isError) &&
      holdsBlock third.buffer 1) &&
    loopWriteBlocks blockIo mediaId 0 size == .writeProtected

/-- What the self test of the loop device returns and leaves. -/
structure LoopTestRun where
  status : EfiStatus
  session : Session
  ledger : SelfTestLedger

/-- The end of the self test: `Destroy` hands the file back, and it is closed. -/
def loopDiskTeardown
    {FileSystem : Type}
    (outcomes : LoopTestOutcomes FileSystem)
    (loopHandle : Option Handle)
    (ok : Bool)
    (session : Session) :
    Bool × Session × SelfTestLedger :=
  match loopHandle with
  | none =>
      (ok, session, [])
  | some handle =>
      let (status, session) := mountLoopFactoryGet outcomes.factory session
      let ledger :=
        outcomes.factory.driverPathEntries.map (.map .teardown)
      if status = .success then
        let (result, dxe) :=
          loopFactoryDestroy outcomes.uninstall (some handle) true
            session.machine.dxe
        let session :=
          { session with machine := { session.machine with dxe := dxe } }
        if result.status = .success then
          (ok, session,
            ledger ++
              (result.backingFile.map fun backingFile =>
                .giveBack (.loop (.backingFile backingFile))).toList)
        else
          (false, session, ledger)
      else
        (false, session, ledger)

/-- `LoopDiskSelfTest`. -/
def loopDiskSelfTest
    {FileSystem : Type}
    (files : FileProtocol FileSystem)
    (outcomes : LoopTestOutcomes FileSystem)
    (session : Session) :
    LoopTestRun :=
  if !outcomes.patternPool || !outcomes.readBackPool then
    let allocated : List SelfTestResource :=
      (if outcomes.patternPool then [.pattern] else []) ++
        if outcomes.readBackPool then [.readBack] else []
    ⟨.outOfResources, session,
      allocated.map .obtain ++ allocated.map .giveBack⟩
  else
    let ledger : SelfTestLedger := [.obtain .pattern, .obtain .readBack]
    let freed : SelfTestLedger := [.giveBack .pattern, .giveBack .readBack]
    if outcomes.openFile.isError then
      ⟨outcomes.openFile, session, ledger ++ freed⟩
    else
      let ledger :=
        ledger ++ [.obtain .storedFile, .obtain (.openFile outcomes.file),
          .giveBack (.openFile outcomes.file)]
      if outcomes.write.isError ||
          outcomes.written.toNat ≠ selfTestPattern.length then
        ⟨.deviceError, session, ledger ++ freed ++ [.giveBack .storedFile]⟩
      else
        let owned :=
          loopCreateOwned outcomes.create loopSelfTestPath session
        let devices :=
          owned.created.loopHandle.bind
            owned.session.machine.dxe.blockDevices
        let ok :=
          owned.created.status == .success &&
            devices.any fun (blockIo, blockIo2) =>
              loopDiskChecks files blockIo blockIo2 outcomes.readBack
                outcomes.fileSystem
        let (ok, session, teardown) :=
          loopDiskTeardown outcomes owned.created.loopHandle ok
            owned.session
        ⟨if ok then .success else .deviceError, session,
          ledger ++ owned.ledger.map (.map .loop) ++ teardown ++
            [.giveBack .storedFile] ++ freed⟩

end Model

section Devices

/-- The factory that `LoopCreate` asks installs one device, or it only counts. -/
theorem Session.createLoop_dxe
    {outcomes : LoopCreateOutcomes}
    {session : Session}
    (fresh : outcomes.create.Fresh session.machine.dxe)
    (fileDevicePath : DevicePath) :
    let before := session.machine.dxe
    let created := session.createLoop outcomes fileDevicePath
    (created.1.status = .success ∧
        created.1.loopHandle = some outcomes.create.newHandle ∧
        ∃ diskAddress pathAddress disk path,
          outcomes.Describes disk ∧
            before.Installable outcomes.create.newHandle diskAddress
              pathAddress disk path ∧
            created.2.machine.dxe =
              before.addDevice outcomes.create.newHandle diskAddress
                pathAddress disk path) ∨
      (created.1.status ≠ .success ∧
        ∃ seq,
          created.2.machine.dxe = { before with mLoopSeq := seq }) := by
  intro before created
  have result :
      created.1 =
        (loopFactoryCreate outcomes.create (some outcomes.file)
          (some fileDevicePath) (loopLastBlock outcomes.fileSize) true
          session.machine.dxe).1 :=
    rfl
  have machine :
      created.2.machine.dxe =
        (loopFactoryCreate outcomes.create (some outcomes.file)
          (some fileDevicePath) (loopLastBlock outcomes.fileSize) true
          session.machine.dxe).2 :=
    rfl
  rw [result, machine]
  rcases loopFactoryCreate_cases fresh (some outcomes.file)
      (some fileDevicePath) (loopLastBlock outcomes.fileSize) true with
    ⟨status, failed, answer⟩ |
    ⟨_, _, diskAddress, pathAddress, isFile, isPath, diskPool, pathPool, _,
      answer⟩
  · rw [answer]
    exact .inr ⟨EfiStatus.ne_success_of_isError failed, _, rfl⟩
  · obtain rfl := Option.some.inj isFile
    obtain rfl := Option.some.inj isPath
    rw [answer]
    exact .inl ⟨rfl, rfl, diskAddress, pathAddress, _, _, ⟨rfl, rfl, rfl⟩,
      fresh.installable diskPool pathPool outcomes.file
        (loopLastBlock outcomes.fileSize) fileDevicePath, rfl⟩

/-- The end of `LoopCreate` installs one device, or it only counts. -/
theorem loopCreateDevice_dxe
    {outcomes : LoopCreateOutcomes}
    {session : Session}
    (fresh : outcomes.create.Fresh session.machine.dxe)
    (fileDevicePath : DevicePath) :
    let before := session.machine.dxe
    let created := loopCreateDevice outcomes fileDevicePath session
    (created.1.status = .success ∧
        created.1.loopHandle = some outcomes.create.newHandle ∧
        ∃ diskAddress pathAddress disk path,
          outcomes.Describes disk ∧
            before.Installable outcomes.create.newHandle diskAddress
              pathAddress disk path ∧
            created.2.machine.dxe =
              before.addDevice outcomes.create.newHandle diskAddress
                pathAddress disk path) ∨
      (created.1.status ≠ .success ∧
        created.1.loopHandle = none ∧
        ∃ seq,
          created.2.machine.dxe = { before with mLoopSeq := seq }) := by
  have sameDxe := mountLoopFactoryGet_dxe outcomes.factory session
  -- The message of a failure changes nothing.
  have printed (status : EfiStatus) (other : Session) :
      (if status ≠ statusDriverMissing ∧ status ≠ statusSecureBoot then
        other.print (.loopCreateFailed status)
      else
        other).machine = other.machine := by
    split
    · rfl
    · rfl
  simp only [loopCreateDevice]
  generalize mountLoopFactoryGet outcomes.factory session = got at sameDxe ⊢
  obtain ⟨status, later⟩ := got
  rw [← sameDxe] at fresh ⊢
  by_cases found : status = .success
  · rw [if_pos found]
    rcases Session.createLoop_dxe fresh fileDevicePath with
      ⟨created, isNew, installed⟩ | ⟨failed, seq, same⟩
    · rw [if_neg (not_not.mpr created)]
      exact .inl ⟨rfl, isNew, installed⟩
    · rw [if_pos failed, printed]
      exact .inr ⟨failed, rfl, seq, same⟩
  · rw [if_neg found, if_pos found, printed]
    exact .inr ⟨found, rfl, _, rfl⟩

/-- `LoopCreate` installs one device, or it only counts. -/
theorem loopCreate_dxe
    {outcomes : LoopCreateOutcomes}
    {session : Session}
    (fresh : outcomes.create.Fresh session.machine.dxe)
    (isoPath : Text) :
    let before := session.machine.dxe
    let created := loopCreate outcomes isoPath session
    (created.1.status = .success ∧
        created.1.loopHandle = some outcomes.create.newHandle ∧
        ∃ diskAddress pathAddress disk path,
          outcomes.Describes disk ∧
            before.Installable outcomes.create.newHandle diskAddress
              pathAddress disk path ∧
            created.2.machine.dxe =
              before.addDevice outcomes.create.newHandle diskAddress
                pathAddress disk path) ∨
      (created.1.status ≠ .success ∧
        created.1.loopHandle = none ∧
        ∃ seq,
          created.2.machine.dxe = { before with mLoopSeq := seq }) := by
  have warned :
      (session.warnTail outcomes).machine = session.machine := by
    rw [Session.warnTail]
    split
    · rfl
    · rfl
  simp only [loopCreate]
  split
  · exact .inr ⟨statusIsoError_ne_success, rfl, _, rfl⟩
  · split
    · have failed : EfiStatus.outOfResources ≠ .success := by decide
      exact .inr ⟨failed, rfl, _, rfl⟩
    · split
      · exact .inr ⟨statusIsoError_ne_success, rfl, _, rfl⟩
      · split
        · exact .inr ⟨statusIsoError_ne_success, rfl, _, rfl⟩
        · cases mountIsoFileDevicePath outcomes with
          | none =>
              exact .inr ⟨statusIsoError_ne_success, rfl, _,
                congrArg Machine.dxe warned⟩
          | some fileDevicePath =>
              rw [← warned] at fresh ⊢
              exact loopCreateDevice_dxe fresh fileDevicePath

/-- Taking away the device that was just installed leaves the counter only. -/
theorem LoopDxe.Installable.removeDevice_addDevice
    {dxe : LoopDxe}
    {handle : Handle}
    {diskAddress pathAddress : Address}
    {disk : LoopDisk}
    {path : DevicePath}
    (installable :
      dxe.Installable handle diskAddress pathAddress disk path) :
    (dxe.addDevice handle diskAddress pathAddress disk path).removeDevice
        handle diskAddress pathAddress =
      { dxe with mLoopSeq := disk.seq } := by
  have poolRestored :
      Function.update
          (Function.update
            (Function.update
              (Function.update dxe.pool pathAddress
                (some (.devicePath path)))
              diskAddress (some (.disk disk)))
            pathAddress none)
          diskAddress none =
        dxe.pool := by
    funext address
    by_cases isDisk : address = diskAddress
    · simp [isDisk, installable.freshDisk]
    · by_cases isPath : address = pathAddress
      · simp [isPath, installable.different, installable.freshPath]
      · simp [isDisk, isPath]
  have handlesRestored :
      Function.update dxe.handles handle .unused = dxe.handles := by
    rw [← installable.freshHandle, Function.update_eq_self]
  simp only [LoopDxe.removeDevice, LoopDxe.addDevice,
    Function.update_self, Function.update_idem, poolRestored]
  rw [← Protocols.unused, handlesRestored]

/-- The search for the factory succeeds just when there is one to be had. -/
theorem mountLoopFactoryGet_success_iff
    (outcomes : FactoryOutcomes)
    (session : Session) :
    (mountLoopFactoryGet outcomes session).1 = .success ↔
      outcomes.Ready := by
  simp only [mountLoopFactoryGet, FactoryOutcomes.Ready]
  cases unlocated : outcomes.locate.isError with
  | false =>
      simp
  | true =>
      cases built :
          mountBuildDriverDevicePath outcomes.path loopDriverFile with
      | error status =>
          simp [EfiStatus.ne_success_of_isError (isError_of_unbuilt built)]
      | ok path =>
          cases loaded : outcomes.load.isError with
          | true =>
              by_cases violation : outcomes.load = .securityViolation
              · simp [violation, statusSecureBoot_ne_success]
              · simp [violation, statusDriverMissing_ne_success]
          | false =>
              cases started : outcomes.start.isError with
              | true =>
                  simp [statusDriverMissing_ne_success]
              | false =>
                  cases absent : outcomes.locateAgain.isError <;>
                    simp [statusDriverMissing_ne_success]

end Devices

section Ways

variable {FileSystem : Type}

/-- The test file has been written, and the device is asked for. -/
structure LoopTestOutcomes.Reaches
    (outcomes : LoopTestOutcomes FileSystem) : Prop where
  patternPool :
    outcomes.patternPool = true
  readBackPool :
    outcomes.readBackPool = true
  opened :
    outcomes.openFile.isError = false
  write :
    outcomes.write.isError = false
  written :
    outcomes.written.toNat = selfTestPattern.length

/-- The factory is found again, and it uninstalls the device. -/
structure LoopTestOutcomes.TakesAway
    (outcomes : LoopTestOutcomes FileSystem) : Prop where
  ready :
    outcomes.factory.Ready
  uninstalled :
    outcomes.uninstall.isError = false

/-- The ways `LoopDiskSelfTest` ends: its status, the driver and what is held. -/
inductive LoopTest
    (files : FileProtocol FileSystem)
    (outcomes : LoopTestOutcomes FileSystem)
    (before : LoopDxe) :
    EfiStatus → LoopDxe → List SelfTestResource → Prop where
  | unreached
      (unreached : ¬ outcomes.Reaches)
      {status : EfiStatus}
      (failed : status ≠ .success) :
      LoopTest files outcomes before status before []
  | uncreated
      (reached : outcomes.Reaches)
      (failed : ¬ outcomes.create.Succeeds)
      (seq : UInt32) :
      LoopTest files outcomes before .deviceError
        { before with mLoopSeq := seq } []
  | tested
      (reached : outcomes.Reaches)
      (succeeded : outcomes.create.Succeeds)
      (takesAway : outcomes.TakesAway)
      {disk : LoopDisk}
      (describes : outcomes.create.Describes disk) :
      LoopTest files outcomes before
        (if loopDiskChecks files disk disk outcomes.readBack
            outcomes.fileSystem then
          .success
        else
          .deviceError)
        { before with mLoopSeq := disk.seq } []
  | abandoned
      (reached : outcomes.Reaches)
      (succeeded : outcomes.create.Succeeds)
      (stuck : ¬ outcomes.TakesAway)
      {diskAddress pathAddress : Address}
      {disk : LoopDisk}
      {path : DevicePath}
      (describes : outcomes.create.Describes disk)
      (installable :
        before.Installable outcomes.create.create.newHandle diskAddress
          pathAddress disk path) :
      LoopTest files outcomes before .deviceError
        (before.addDevice outcomes.create.create.newHandle diskAddress
          pathAddress disk path)
        [.loop (.backingFile outcomes.create.file)]

/-- The ledger of `LoopCreate` keeps the backing file for the device only. -/
theorem loopCreateOwned_settles
    (outcomes : LoopCreateOutcomes)
    (isoPath : Text)
    (session : Session) :
    let owned := loopCreateOwned outcomes isoPath session
    Settles owned.ledger
      (if owned.created.status = .success then
        [.backingFile outcomes.file]
      else
        []) := by
  have opened :
      Settles [Entry.obtain (Resource.backingFile outcomes.file)]
        [.backingFile outcomes.file] :=
    Settles.nil.obtain List.not_mem_nil
  have informed :
      Settles
        ([Entry.obtain (Resource.backingFile outcomes.file)] ++
          [.obtain .fileInfo])
        [.fileInfo, .backingFile outcomes.file] :=
    opened.obtain (by simp)
  have statted := informed.giveBack
  simp only [loopCreateOwned]
  split
  · rw [if_neg statusIsoError_ne_success]
    exact .nil
  · split
    · exact opened.giveBack
    · split
      · rw [if_neg statusIsoError_ne_success]
        exact informed.giveBack.giveBack
      · split
        · rw [if_neg statusIsoError_ne_success]
          exact statted.giveBack
        · cases mountIsoFileDevicePath outcomes with
          | none =>
              rw [if_neg statusIsoError_ne_success]
              exact statted.giveBack
          | some fileDevicePath =>
              have entries :=
                loopCreateDeviceOwned_ledger outcomes fileDevicePath
                  (session.warnTail outcomes)
                  ([Entry.obtain (Resource.backingFile outcomes.file)] ++
                    [.obtain .fileInfo] ++ [.giveBack .fileInfo] ++
                    [.obtain .fileDevicePath])
              have freed :=
                (outcomes.factory.settles
                  (statted.obtain
                    (show Entry.obtain Resource.fileDevicePath ∉ _ by simp))
                  (by simp)).giveBack
              dsimp only at entries ⊢
              rw [entries]
              split
              · rwa [List.append_nil]
              · exact freed.giveBack

/-- The driver path of the second search is freed as soon as it has been used. -/
theorem FactoryOutcomes.settles_teardown
    (outcomes : FactoryOutcomes) :
    Settles
      (outcomes.driverPathEntries.map (Entry.map SelfTestResource.teardown))
      [] :=
  (outcomes.settles Settles.nil List.not_mem_nil).map
    fun _ _ => SelfTestResource.teardown.inj

/-- A Destroy of the device that was just installed. -/
theorem LoopDxe.Installable.destroy_addDevice
    {dxe : LoopDxe}
    {handle : Handle}
    {diskAddress pathAddress : Address}
    {disk : LoopDisk}
    {path : DevicePath}
    (installable :
      dxe.Installable handle diskAddress pathAddress disk path)
    (uninstall : EfiStatus) :
    loopFactoryDestroy uninstall (some handle) true
        (dxe.addDevice handle diskAddress pathAddress disk path) =
      if uninstall.isError then
        (⟨uninstall, none⟩,
          dxe.addDevice handle diskAddress pathAddress disk path)
      else
        (⟨.success, some disk.backingFile⟩,
          { dxe with mLoopSeq := disk.seq }) := by
  have device := installable.device
  cases failed : uninstall.isError with
  | true =>
      simp [loopFactoryDestroy, device.blockIo, device.recoverDisk_eq,
        failed]
  | false =>
      rw [← installable.removeDevice_addDevice]
      simp [loopFactoryDestroy, device.blockIo, device.recoverDisk_eq,
        failed, device.selfHandle, device.selfPath, LoopDxe.setHandle,
        LoopDxe.freePool, LoopDxe.removeDevice]

/-- The device is taken away and its file closed, or the test has failed. -/
theorem loopDiskTeardown_cases
    (outcomes : LoopTestOutcomes FileSystem)
    {before : LoopDxe}
    {handle : Handle}
    {diskAddress pathAddress : Address}
    {disk : LoopDisk}
    {path : DevicePath}
    (installable :
      before.Installable handle diskAddress pathAddress disk path)
    {session : Session}
    (installed :
      session.machine.dxe =
        before.addDevice handle diskAddress pathAddress disk path)
    (ok : Bool) :
    let torn := loopDiskTeardown outcomes (some handle) ok session
    let entries :=
      outcomes.factory.driverPathEntries.map (Entry.map .teardown)
    (outcomes.TakesAway ∧
        torn.1 = ok ∧
        torn.2.1.machine.dxe = { before with mLoopSeq := disk.seq } ∧
        torn.2.2 =
          entries ++ [.giveBack (.loop (.backingFile disk.backingFile))]) ∨
      (¬ outcomes.TakesAway ∧
        torn.1 = false ∧
        torn.2.1.machine.dxe =
          before.addDevice handle diskAddress pathAddress disk path ∧
        torn.2.2 = entries) := by
  have found := mountLoopFactoryGet_success_iff outcomes.factory session
  have sameDxe := mountLoopFactoryGet_dxe outcomes.factory session
  simp only [loopDiskTeardown]
  generalize mountLoopFactoryGet outcomes.factory session = got
    at found sameDxe ⊢
  obtain ⟨status, later⟩ := got
  rw [installed] at sameDxe
  by_cases ready : status = .success
  · rw [if_pos ready, sameDxe, installable.destroy_addDevice]
    cases failed : outcomes.uninstall.isError with
    | true =>
        have unsuccessful := EfiStatus.ne_success_of_isError failed
        rw [if_pos rfl, if_neg unsuccessful]
        refine .inr ⟨fun takesAway => ?_, rfl, rfl, rfl⟩
        rw [takesAway.uninstalled] at failed
        cases failed
    | false =>
        rw [if_neg Bool.false_ne_true, if_pos rfl]
        exact .inl ⟨⟨found.mp ready, failed⟩, rfl, rfl, rfl⟩
  · rw [if_neg ready]
    exact .inr ⟨fun takesAway => ready (found.mpr takesAway.ready),
      rfl, sameDxe, rfl⟩

/-- Both block protocols of a device lead to its one disk. -/
theorem LoopDxe.Device.blockDevices_eq
    {dxe : LoopDxe}
    {handle : Handle}
    {diskAddress pathAddress : Address}
    {disk : LoopDisk}
    {path : DevicePath}
    (device : dxe.Device handle diskAddress pathAddress disk path) :
    dxe.blockDevices handle = some (disk, disk) := by
  simp [LoopDxe.blockDevices, device.blockIo, device.blockIo2,
    device.recoverDisk_eq]

/-- When `LoopCreate` creates a device. -/
theorem loopCreate_success_iff
    {outcomes : LoopCreateOutcomes}
    {session : Session}
    (fresh : outcomes.create.Fresh session.machine.dxe)
    (freshImage : session.machine.FreshImage outcomes.factory.image)
    (isoPath : Text) :
    (loopCreate outcomes isoPath session).1.status = .success ↔
      outcomes.Succeeds := by
  obtain ⟨created, events, machine, creation, answer⟩ :=
    loopCreate_cases isoPath fresh freshImage
  rw [answer]
  exact creation.success_iff

/-- What is held before the test file is opened. -/
theorem settles_allocated :
    Settles [.obtain .pattern, .obtain .readBack]
      [SelfTestResource.readBack, .pattern] := by
  have allocated :=
    (Settles.nil.obtain
      (show Entry.obtain SelfTestResource.pattern ∉ _ by simp)).obtain
      (show Entry.obtain SelfTestResource.readBack ∉ _ by simp)
  exact allocated

/-- What is held once the test file has been written. -/
theorem settles_written (file : FileHandle) :
    Settles
      ([.obtain .pattern, .obtain .readBack] ++
        [.obtain .storedFile, .obtain (.openFile file),
          .giveBack (.openFile file)])
      [SelfTestResource.storedFile, .readBack, .pattern] := by
  have opened :=
    ((settles_allocated.obtain (show Entry.obtain .storedFile ∉ _ by simp)).obtain
      (show Entry.obtain (.openFile file) ∉ _ by simp)).giveBack
  simpa using opened

/-- What `LoopCreate` keeps is held besides the buffers and the stored file. -/
theorem settles_created
    (file : FileHandle)
    {entries : List (Entry Resource)}
    {kept : List Resource}
    (creation : Settles entries kept) :
    Settles
      ([.obtain .pattern, .obtain .readBack] ++
        [.obtain .storedFile, .obtain (.openFile file),
          .giveBack (.openFile file)] ++
        entries.map (Entry.map SelfTestResource.loop))
      (kept.map SelfTestResource.loop ++
        [.storedFile, .readBack, .pattern]) := by
  refine (settles_written file).append
    (creation.map fun _ _ => SelfTestResource.loop.inj) ?_
  intro resource obtained
  obtain ⟨entry, _, isObtain⟩ := List.mem_map.mp obtained
  cases entry <;> cases isObtain
  simp

/-- The driver path of the second search is not held any more. -/
theorem settles_searched
    {file : FileHandle}
    {entries : List (Entry Resource)}
    {held : List SelfTestResource}
    (created :
      Settles
        ([.obtain .pattern, .obtain .readBack] ++
          [.obtain .storedFile, .obtain (.openFile file),
            .giveBack (.openFile file)] ++
          entries.map (Entry.map SelfTestResource.loop))
        held)
    (outcomes : FactoryOutcomes) :
    Settles
      ([.obtain .pattern, .obtain .readBack] ++
        [.obtain .storedFile, .obtain (.openFile file),
          .giveBack (.openFile file)] ++
        entries.map (Entry.map SelfTestResource.loop) ++
        outcomes.driverPathEntries.map (Entry.map .teardown))
      held := by
  refine created.append outcomes.settles_teardown ?_
  intro resource obtained
  obtain ⟨entry, _, isObtain⟩ := List.mem_map.mp obtained
  cases entry <;> cases isObtain
  simp only [List.mem_append, List.mem_map, List.mem_cons,
    List.not_mem_nil, reduceCtorEq, or_self, false_or,
    Entry.obtain.injEq, not_exists, not_and]
  intro other _ same
  cases other <;> cases same

/-- At the end the stored file is deleted and the buffers are freed. -/
theorem settles_freed
    {kept : List SelfTestResource}
    {ledger : SelfTestLedger}
    (settles :
      Settles ledger (kept ++ [.storedFile, .readBack, .pattern])) :
    Settles
      (ledger ++ [.giveBack .storedFile] ++
        [.giveBack .pattern, .giveBack .readBack])
      ((kept ++ [SelfTestResource.storedFile, .readBack, .pattern]).diff
        [.storedFile, .pattern, .readBack]) := by
  have freed :=
    @Settles.giveBack_all _ _ _ _
      [SelfTestResource.storedFile, .pattern, .readBack] settles
      (by decide) (by simp)
  simpa using freed

/-- One buffer alone is freed when the other could not be allocated. -/
theorem settles_unallocated
    {patternPool readBackPool : Bool}
    (noPool : (!patternPool || !readBackPool) = true) :
    let allocated : List SelfTestResource :=
      (if patternPool then [.pattern] else []) ++
        if readBackPool then [.readBack] else []
    Settles (allocated.map Entry.obtain ++ allocated.map Entry.giveBack)
      [] := by
  have one (resource : SelfTestResource) :
      Settles ([Entry.obtain resource] ++ [.giveBack resource]) [] :=
    (Settles.nil.obtain List.not_mem_nil).giveBack
  cases patternPool with
  | false =>
      cases readBackPool with
      | false =>
          exact .nil
      | true =>
          exact one .readBack
  | true =>
      cases readBackPool with
      | false =>
          exact one .pattern
      | true =>
          cases noPool

/-- `LoopDiskSelfTest` ends in one of the listed ways. -/
theorem loopDiskSelfTest_cases
    (files : FileProtocol FileSystem)
    {outcomes : LoopTestOutcomes FileSystem}
    {session : Session}
    (fresh : outcomes.create.create.Fresh session.machine.dxe)
    (freshImage :
      session.machine.FreshImage outcomes.create.factory.image) :
    let run := loopDiskSelfTest files outcomes session
    ∃ kept,
      LoopTest files outcomes session.machine.dxe run.status
          run.session.machine.dxe kept ∧
        Settles run.ledger kept := by
  -- What was obtained before the device is asked for.
  have written := settles_written outcomes.file
  simp only [loopDiskSelfTest]
  split
  case isTrue noPool =>
    have failed : EfiStatus.outOfResources ≠ .success := by decide
    refine ⟨[], .unreached (fun reached => ?_) failed,
      settles_unallocated noPool⟩
    simp [reached.patternPool, reached.readBackPool] at noPool
  case isFalse pools =>
  simp only [Bool.or_eq_true, Bool.not_eq_true', not_or,
    Bool.not_eq_false] at pools
  split
  case isTrue unopened =>
    refine ⟨[], .unreached (fun reached => ?_)
      (EfiStatus.ne_success_of_isError unopened), ?_⟩
    · rw [reached.opened] at unopened
      cases unopened
    · exact @Settles.giveBack_all _ _ _ _
        [SelfTestResource.pattern, .readBack] settles_allocated
        (by decide) (by simp)
  case isFalse opened =>
  split
  case isTrue unwritten =>
    refine ⟨[], .unreached (fun reached => ?_)
      EfiStatus.success_ne_deviceError.symm, ?_⟩
    · simp [reached.write, reached.written] at unwritten
    · have settled :=
        @Settles.giveBack_all _ _ _ _
          [SelfTestResource.pattern, .readBack, .storedFile] written
          (by decide) (by simp)
      simpa using settled
  case isFalse wrote =>
  simp only [Bool.or_eq_true, decide_eq_true_eq, not_or, not_not,
    Bool.not_eq_true] at opened wrote
  have reached : outcomes.Reaches :=
    ⟨pools.1, pools.2, opened, wrote.1, wrote.2⟩
  have erased :=
    loopCreateOwned_erase outcomes.create loopSelfTestPath session
  have creationSettles :=
    loopCreateOwned_settles outcomes.create loopSelfTestPath session
  have succeeds_iff :=
    loopCreate_success_iff fresh freshImage loopSelfTestPath
  have devices := loopCreate_dxe fresh loopSelfTestPath
  rw [erased] at succeeds_iff devices
  dsimp only at succeeds_iff devices
  generalize loopCreateOwned outcomes.create loopSelfTestPath session =
    owned at creationSettles succeeds_iff devices ⊢
  have created := settles_created outcomes.file creationSettles
  rcases devices with
    ⟨succeeded, isNew, diskAddress, pathAddress, disk, path, describes,
      installable, installed⟩ |
    ⟨failed, noHandle, seq, same⟩
  · rw [if_pos succeeded] at created
    have devices :
        owned.created.loopHandle.bind
            owned.session.machine.dxe.blockDevices =
          some (disk, disk) := by
      rw [isNew, Option.bind_some, installed,
        installable.device.blockDevices_eq]
    have verdict :
        (owned.created.status == .success &&
          (some (disk, disk)).any fun (blockIo, blockIo2) =>
            loopDiskChecks files blockIo blockIo2 outcomes.readBack
              outcomes.fileSystem) =
          loopDiskChecks files disk disk outcomes.readBack
            outcomes.fileSystem := by
      simp [succeeded]
    rw [devices, verdict, isNew]
    have torn := loopDiskTeardown_cases outcomes installable installed
      (loopDiskChecks files disk disk outcomes.readBack outcomes.fileSystem)
    generalize loopDiskTeardown outcomes _ _ owned.session = teardown
      at torn ⊢
    obtain ⟨ok, later, entries⟩ := teardown
    have searched := settles_searched created outcomes.factory
    rcases torn with
      ⟨takesAway, rfl, dxe, rfl⟩ | ⟨stuck, rfl, dxe, rfl⟩
    · dsimp only at dxe ⊢
      rw [dxe]
      refine ⟨[], .tested reached (succeeds_iff.mp succeeded) takesAway
        describes, ?_⟩
      have closed :=
        (show Settles _
            [SelfTestResource.loop (.backingFile outcomes.create.file),
              .storedFile, .readBack, .pattern]
          from searched).giveBack
      rw [describes.backingFile, ← List.append_assoc]
      exact @settles_freed [] _ closed
    · dsimp only at dxe ⊢
      rw [dxe]
      refine ⟨_, .abandoned reached (succeeds_iff.mp succeeded) stuck
        describes installable, ?_⟩
      exact @settles_freed [.loop (.backingFile outcomes.create.file)] _
        searched
  · rw [if_neg failed] at created
    simp only [noHandle, loopDiskTeardown, Option.bind_none,
      Option.any_none, Bool.and_false, Bool.false_eq_true, ↓reduceIte,
      same, List.append_nil]
    exact ⟨[], .uncreated reached (fun succeeds =>
      failed (succeeds_iff.mpr succeeds)) seq, @settles_freed [] _ created⟩

end Ways

section Verdict

variable {FileSystem : Type}

/-- The device is created, and nothing takes it away again. -/
structure LoopTestOutcomes.Abandons
    (outcomes : LoopTestOutcomes FileSystem) : Prop where
  reached :
    outcomes.Reaches
  created :
    outcomes.create.Succeeds
  stuck :
    ¬ outcomes.TakesAway

/-- The driver is as before but for its counter, and nothing is held. -/
structure SelfTestRestores
    (before : LoopDxe)
    (run : LoopTestRun) : Prop where
  pool :
    run.session.machine.dxe.pool = before.pool
  handles :
    run.session.machine.dxe.handles = before.handles
  settles :
    Settles run.ledger []

/-- The test has failed; its device and its open file stay behind. -/
structure SelfTestAbandons
    (outcomes : LoopTestOutcomes FileSystem)
    (before : LoopDxe)
    (run : LoopTestRun) : Prop where
  status :
    run.status = .deviceError
  device :
    ∃ disk,
      outcomes.create.Describes disk ∧
        before.diskAt outcomes.create.create.newHandle = none ∧
        run.session.machine.dxe.diskAt =
          Function.update before.diskAt outcomes.create.create.newHandle
            (some disk)
  settles :
    Settles run.ledger [.loop (.backingFile outcomes.create.file)]

/--
The self test leaves no trace unless its device cannot be taken away; then it
fails, and the device with its file is all that stays.
-/
theorem loopDiskSelfTest_restores_iff
    (files : FileProtocol FileSystem)
    {outcomes : LoopTestOutcomes FileSystem}
    {session : Session}
    (wellFormed : session.machine.dxe.WellFormed)
    (fresh : outcomes.create.create.Fresh session.machine.dxe)
    (freshImage :
      session.machine.FreshImage outcomes.create.factory.image) :
    let run := loopDiskSelfTest files outcomes session
    (SelfTestRestores session.machine.dxe run ↔ ¬ outcomes.Abandons) ∧
      (outcomes.Abandons →
        SelfTestAbandons outcomes session.machine.dxe run) := by
  intro run
  obtain ⟨kept, test, settles⟩ :
      ∃ kept,
        LoopTest files outcomes session.machine.dxe run.status
            run.session.machine.dxe kept ∧
          Settles run.ledger kept :=
    loopDiskSelfTest_cases files fresh freshImage
  clear_value run
  obtain ⟨status, ⟨⟨dxe, images, sniffed⟩, trace⟩, ledger⟩ := run
  dsimp only at test settles ⊢
  cases test with
  | unreached unreached =>
      have kept : ¬ outcomes.Abandons :=
        fun abandons => unreached abandons.reached
      exact ⟨⟨fun _ => kept, fun _ => ⟨rfl, rfl, settles⟩⟩,
        fun abandons => absurd abandons kept⟩
  | uncreated _ failed seq =>
      have kept : ¬ outcomes.Abandons :=
        fun abandons => failed abandons.created
      exact ⟨⟨fun _ => kept, fun _ => ⟨rfl, rfl, settles⟩⟩,
        fun abandons => absurd abandons kept⟩
  | tested _ _ takesAway _ =>
      have kept : ¬ outcomes.Abandons :=
        fun abandons => abandons.stuck takesAway
      exact ⟨⟨fun _ => kept, fun _ => ⟨rfl, rfl, settles⟩⟩,
        fun abandons => absurd abandons kept⟩
  | @abandoned reached succeeded stuck diskAddress pathAddress disk path
      describes installable =>
      have bare :
          session.machine.dxe.diskAt outcomes.create.create.newHandle =
            none := by
        simp [LoopDxe.diskAt, fresh.handle, Protocols.unused]
      refine ⟨⟨fun restores => ?_, fun kept => ?_⟩, fun _ => {
        status := rfl
        device := ⟨disk, describes, bare,
          installable.diskAt_addDevice wellFormed⟩
        settles := settles
      }⟩
      · have same :=
          congrFun restores.handles outcomes.create.create.newHandle
        have blockIo := installable.device.blockIo
        dsimp only at same
        rw [same, fresh.handle] at blockIo
        cases blockIo
      · exact absurd ⟨reached, succeeded, stuck⟩ kept

/-- A read of one of the first blocks gives that block of the backing file. -/
theorem selfTestRead
    {files : FileProtocol FileSystem}
    {content : FileHandle → List UInt8}
    {position : FileSystem → FileHandle → Nat}
    (faithful : files.Faithful content position)
    {disk : LoopDisk}
    (geometry : LoopGeometry (content disk.backingFile) disk.lastBlock)
    {lba : UInt64}
    {block : Nat}
    (isBlock : lba.toNat = block)
    (early : block ≤ 1)
    (memory : Memory)
    (fileSystem : FileSystem) :
    let outcome :=
      loopReadBlocks files disk disk.media.mediaId lba loopBlockSize
        (some memory) fileSystem
    outcome.status = .success ∧
      ∃ after,
        outcome.buffer = some after ∧
          holdsBlock (some after) block =
            (blockAt (content disk.backingFile) block ==
              blockAt selfTestPattern block) := by
  subst isBlock
  intro outcome
  have fidelity :=
    loopReadBlocks_fidelity faithful geometry disk.media.mediaId lba
      loopBlockSize (some memory) fileSystem
  have size : loopBlockSize.toNat = 2048 := rfl
  obtain ⟨blocks, _⟩ := geometry.blocks_eq
  obtain ⟨fileSize, sizeIs, accepted, _⟩ := geometry.sized
  have least : (32768 : Nat) ≤ fileSize.toNat := by
    simpa [loopMinSize, loopBlockSize, UInt64.le_iff_toNat_le] using accepted
  have inside :
      AcceptedRead (content disk.backingFile) disk disk.media.mediaId lba
        loopBlockSize (some memory) := {
    mediaId := rfl
    buffer := by simp
    wholeBlocks := by rw [size]
    start := by omega
    range := by omega
  }
  refine ⟨fidelity.succeeds.mpr inside, ?_⟩
  obtain ⟨before, after, _, delivered, bytes, _⟩ := fidelity.delivers inside
  refine ⟨after, delivered, ?_⟩
  have copied :
      (List.range loopBlockSize.toNat).map after =
        blockAt (content disk.backingFile) lba.toNat := by
    apply List.ext_getElem?
    intro offset
    simp only [blockAt, size, List.getElem?_map, List.getElem?_take,
      List.getElem?_drop]
    by_cases within : offset < 2048
    · rw [if_pos within, List.getElem?_range within, Option.map_some,
        bytes offset within]
    · rw [if_neg within, List.getElem?_eq_none (by simpa using within)]
      rfl
  rw [holdsBlock, copied]

/-- The checks pass just when the file starts with the two marked blocks. -/
theorem loopDiskChecks_iff
    {files : FileProtocol FileSystem}
    {content : FileHandle → List UInt8}
    {position : FileSystem → FileHandle → Nat}
    (faithful : files.Faithful content position)
    {disk : LoopDisk}
    (geometry : LoopGeometry (content disk.backingFile) disk.lastBlock)
    (memory : Memory)
    (fileSystem : FileSystem) :
    loopDiskChecks files disk disk memory fileSystem = true ↔
      ∀ lba < 2,
        blockAt (content disk.backingFile) lba =
          blockAt selfTestPattern lba := by
  have reads := @selfTestRead _ _ _ _ faithful disk geometry
  simp only [loopDiskChecks, loopReadBlocksEx]
  obtain ⟨firstStatus, firstAfter, firstBuffer, first⟩ :=
    @reads 0 0 rfl (by decide) memory fileSystem
  rw [firstBuffer, firstStatus, first]
  obtain ⟨secondStatus, secondAfter, secondBuffer, second⟩ :=
    @reads 1 1 rfl (by decide) firstAfter
      (loopReadBlocks files disk disk.media.mediaId 0 loopBlockSize
        (some memory) fileSystem).fileSystem
  rw [secondBuffer, secondStatus, second]
  obtain ⟨thirdStatus, thirdAfter, thirdBuffer, third⟩ :=
    @reads 1 1 rfl (by decide) secondAfter
      (loopReadBlocks files disk disk.media.mediaId 1 loopBlockSize
        (some firstAfter)
        (loopReadBlocks files disk disk.media.mediaId 0 loopBlockSize
          (some memory) fileSystem).fileSystem).fileSystem
  rw [thirdBuffer, thirdStatus, third]
  simp only [loopCompleteToken, loopWriteBlocks,
    EfiStatus.isError_success, Bool.not_false, Bool.true_and,
    Option.all_some, Bool.and_eq_true, beq_iff_eq, and_true]
  constructor
  · rintro ⟨⟨isFirst, isSecond⟩, _⟩ lba below
    obtain rfl | rfl : lba = 0 ∨ lba = 1 := by omega
    · exact isFirst
    · exact isSecond
  · intro blocks
    exact ⟨⟨blocks 0 (by decide), blocks 1 (by decide)⟩,
      blocks 1 (by decide)⟩

/--
Over files that read back faithfully, the self test passes exactly when the
file is written and mounted, starts with the two marked blocks, and the device
can be taken away.
-/
theorem loopDiskSelfTest_passes_iff
    {files : FileProtocol FileSystem}
    {content : FileHandle → List UInt8}
    {position : FileSystem → FileHandle → Nat}
    (faithful : files.Faithful content position)
    {outcomes : LoopTestOutcomes FileSystem}
    (sized :
      (content outcomes.create.file).length =
        outcomes.create.fileSize.toNat)
    {session : Session}
    (fresh : outcomes.create.create.Fresh session.machine.dxe)
    (freshImage :
      session.machine.FreshImage outcomes.create.factory.image) :
    (loopDiskSelfTest files outcomes session).status = .success ↔
      outcomes.Reaches ∧
        outcomes.create.Succeeds ∧
        outcomes.TakesAway ∧
        ∀ lba < 2,
          blockAt (content outcomes.create.file) lba =
            blockAt selfTestPattern lba := by
  obtain ⟨kept, test, _⟩ := loopDiskSelfTest_cases files fresh freshImage
  have failed := EfiStatus.success_ne_deviceError.symm
  generalize loopDiskSelfTest files outcomes session = run at test ⊢
  obtain ⟨status, ⟨⟨dxe, _, _⟩, _⟩, _⟩ := run
  dsimp only at test ⊢
  cases test with
  | unreached unreached unsuccessful =>
      exact ⟨fun passes => absurd passes unsuccessful,
        fun passes => absurd passes.1 unreached⟩
  | uncreated _ uncreated _ =>
      exact ⟨fun passes => absurd passes failed,
        fun passes => absurd passes.2.1 uncreated⟩
  | abandoned _ _ stuck _ _ =>
      exact ⟨fun passes => absurd passes failed,
        fun passes => absurd passes.2.2.1 stuck⟩
  | @tested reached succeeded takesAway disk describes =>
      obtain ⟨_, accepted⟩ := succeeded.accepted
      have geometry :
          LoopGeometry (content disk.backingFile) disk.lastBlock := by
        rw [describes.backingFile, describes.lastBlock]
        exact ⟨outcomes.create.fileSize, sized,
          UInt64.not_lt.mp accepted.large, rfl⟩
      have checks :=
        loopDiskChecks_iff faithful geometry outcomes.readBack
          outcomes.fileSystem
      rw [describes.backingFile] at checks
      rw [← checks]
      cases loopDiskChecks files disk disk outcomes.readBack
          outcomes.fileSystem with
      | false =>
          simp [failed]
      | true =>
          simp [reached, succeeded, takesAway]

theorem length_selfTestPattern : selfTestPattern.length = 32768 := by
  simp only [selfTestPattern, List.length_append, List.length_replicate]
  rfl

/-- A self test whose firmware calls all work; the uninstall ends as given. -/
def workingLoopTest
    (uninstall : EfiStatus) :
    LoopTestOutcomes (FileHandle → Nat) where
  patternPool := true
  readBackPool := true
  openFile := .success
  file := 6
  write := .success
  written := 32768
  create := workingCreate 32768 []
  readBack := fun _ => 0
  fileSystem := fun _ => 0
  factory := (workingCreate 32768 []).factory
  uninstall := uninstall

theorem workingLoopTest_reaches (uninstall : EfiStatus) :
    (workingLoopTest uninstall).Reaches where
  patternPool := rfl
  readBackPool := rfl
  opened := EfiStatus.isError_success
  write := EfiStatus.isError_success
  written := length_selfTestPattern.symm

theorem workingCreate_succeeds :
    (workingCreate 32768 []).Succeeds where
  accepted := ⟨_, by decide, rfl, by decide, by decide, rfl⟩
  ready := .inl rfl
  allocated := by decide

/-- A device that cannot be uninstalled stays, and the test has failed. -/
theorem loopDiskSelfTest_restores_iff_stuck :
    SelfTestAbandons (workingLoopTest .deviceError) idleLoopDxe
      (loopDiskSelfTest (memoryFiles fun _ => selfTestPattern)
        (workingLoopTest .deviceError) firstMount) := by
  have verdict :=
    @loopDiskSelfTest_restores_iff _
      (memoryFiles fun _ => selfTestPattern) (workingLoopTest .deviceError)
      firstMount firstMount_wellFormed (workingCreate_fresh 32768 [])
      (fun _ absent => absurd absent List.not_mem_nil)
  exact verdict.2 {
    reached := workingLoopTest_reaches .deviceError
    created := workingCreate_succeeds
    stuck := fun takesAway =>
      absurd takesAway.uninstalled (by decide)
  }

/-- On working firmware the self test passes. -/
theorem loopDiskSelfTest_passes_iff_working :
    (loopDiskSelfTest (memoryFiles fun _ => selfTestPattern)
      (workingLoopTest .success) firstMount).status = .success := by
  have passes :=
    @loopDiskSelfTest_passes_iff _ (memoryFiles fun _ => selfTestPattern)
      (fun _ => selfTestPattern) _ (memoryFiles_faithful _)
      (workingLoopTest .success) length_selfTestPattern
      firstMount (workingCreate_fresh 32768 [])
      (fun _ absent => absurd absent List.not_mem_nil)
  exact passes.mpr ⟨workingLoopTest_reaches .success,
    workingCreate_succeeds, ⟨.inl rfl, rfl⟩, fun _ _ => rfl⟩

end Verdict

end UefiMount
