import UefiMount.MountTransitions
import UefiMount.ResourceLedgers

namespace UefiMount

open ResourceLedgers

/-!
# What a loop creation owns

`LoopCreate` once more, with a ledger of the open file and the pool blocks that
pass through its hands.  Without the ledger it is the function of the mount
commands.  Every way out settles the ledger: the backing file goes to the new
device or is closed, and everything else is freed.
-/

/-- What `LoopCreate` obtains and has to give back. -/
inductive Resource where
  /-- The backing file that `ShellOpenFileByName` opens. -/
  | backingFile (file : FileHandle)
  /-- `Info`. -/
  | fileInfo
  /-- `FileDp`. -/
  | fileDevicePath
  /-- `Dp` of `MountLoopFactoryGet`. -/
  | driverDevicePath
  deriving DecidableEq

/-- The ledger of `LoopCreate`. -/
abbrev LoopLedger := List (Entry Resource)

/--
The driver path of `MountLoopFactoryGet`: it is built when no factory is
resident, and freed behind `LoadImage`, whatever that returns.
-/
def FactoryOutcomes.driverPathEntries
    (outcomes : FactoryOutcomes) :
    LoopLedger :=
  if !outcomes.locate.isError then
    []
  else
    match mountBuildDriverDevicePath outcomes.path loopDriverFile with
    | .error _ =>
        []
    | .ok _ =>
        [.obtain .driverDevicePath, .giveBack .driverDevicePath]

/-- What a loop creation returns and leaves. -/
structure OwnedCreation where
  created : LoopCreated
  session : Session
  ledger : LoopLedger

/-- The end of `LoopCreate`, behind the device path of the image file. -/
def loopCreateDeviceOwned
    (outcomes : LoopCreateOutcomes)
    (fileDevicePath : DevicePath)
    (session : Session)
    (ledger : LoopLedger) :
    OwnedCreation :=
  let sniff := loopSniff outcomes
  let (status, session) := mountLoopFactoryGet outcomes.factory session
  let ledger := ledger ++ outcomes.factory.driverPathEntries
  let (result, session) :=
    if status = .success then
      session.createLoop outcomes fileDevicePath
    else
      (⟨status, none⟩, session)
  let ledger := ledger ++ [.giveBack .fileDevicePath]
  if result.status ≠ .success then
    let session :=
      if result.status ≠ statusDriverMissing ∧
          result.status ≠ statusSecureBoot then
        session.print (.loopCreateFailed result.status)
      else
        session
    ⟨⟨result.status, result.loopHandle, sniff⟩, session,
      ledger ++ [.giveBack (.backingFile outcomes.file)]⟩
  else
    -- The factory owns the open file from here on.
    ⟨⟨.success, result.loopHandle, sniff⟩, session, ledger⟩

/-- `LoopCreate`. -/
def loopCreateOwned
    (outcomes : LoopCreateOutcomes)
    (isoPath : Text)
    (session : Session) :
    OwnedCreation :=
  let refused (status : EfiStatus) : LoopCreated :=
    ⟨status, none, ⟨false, false⟩⟩
  let closed : Entry Resource := .giveBack (.backingFile outcomes.file)
  if outcomes.openFile.isError then
    ⟨refused statusIsoError,
      session.print (.cannotOpen isoPath outcomes.openFile),
      []⟩
  else
    let ledger : LoopLedger := [.obtain (.backingFile outcomes.file)]
    if !outcomes.infoPool then
      ⟨refused .outOfResources, session, ledger ++ [closed]⟩
    else
      let ledger := ledger ++ [.obtain .fileInfo]
      if outcomes.getInfo.isError then
        ⟨refused statusIsoError,
          session.print (.cannotStat isoPath),
          ledger ++ [.giveBack .fileInfo, closed]⟩
      else
        let ledger := ledger ++ [.giveBack .fileInfo]
        if outcomes.fileSize < loopMinSize then
          ⟨refused statusIsoError,
            session.print .fileTooSmall,
            ledger ++ [closed]⟩
        else
          let session := session.warnTail outcomes
          match mountIsoFileDevicePath outcomes with
          | none =>
              ⟨⟨statusIsoError, none, loopSniff outcomes⟩,
                session.print (.noFileDevicePath isoPath),
                ledger ++ [closed]⟩
          | some fileDevicePath =>
              loopCreateDeviceOwned outcomes fileDevicePath session
                (ledger ++ [.obtain .fileDevicePath])

section Erasure

/-- A Create that does not succeed stores no handle. -/
theorem loopFactoryCreate_loopHandle
    {outcomes : CreateOutcomes}
    {backingFile : Option FileHandle}
    {fileDevicePath : Option DevicePath}
    {lastBlock : UInt64}
    {loopHandle : Bool}
    {dxe : LoopDxe}
    (failed :
      (loopFactoryCreate outcomes backingFile fileDevicePath lastBlock
        loopHandle dxe).1.status ≠ .success) :
    (loopFactoryCreate outcomes backingFile fileDevicePath lastBlock
      loopHandle dxe).1.loopHandle = none := by
  revert failed
  simp only [loopFactoryCreate]
  split
  · split
    · exact fun _ => rfl
    · split
      · exact fun _ => rfl
      · split
        · exact fun _ => rfl
        · exact fun failed => absurd rfl failed
  · exact fun _ => rfl

theorem Session.createLoop_loopHandle
    {session : Session}
    {outcomes : LoopCreateOutcomes}
    {fileDevicePath : DevicePath}
    (failed :
      (session.createLoop outcomes fileDevicePath).1.status ≠ .success) :
    (session.createLoop outcomes fileDevicePath).1.loopHandle = none := by
  have same :
      (session.createLoop outcomes fileDevicePath).1 =
        (loopFactoryCreate outcomes.create (some outcomes.file)
          (some fileDevicePath) (loopLastBlock outcomes.fileSize) true
          session.machine.dxe).1 :=
    rfl
  rw [same] at failed ⊢
  exact loopFactoryCreate_loopHandle failed

/-- Without its ledger, the end is the one of the mount commands. -/
theorem loopCreateDeviceOwned_erase
    (outcomes : LoopCreateOutcomes)
    (fileDevicePath : DevicePath)
    (session : Session)
    (ledger : LoopLedger) :
    loopCreateDevice outcomes fileDevicePath session =
      ((loopCreateDeviceOwned outcomes fileDevicePath session ledger).created,
        (loopCreateDeviceOwned outcomes fileDevicePath session
          ledger).session) := by
  simp only [loopCreateDeviceOwned, loopCreateDevice]
  by_cases found :
      (mountLoopFactoryGet outcomes.factory session).1 = .success
  · rw [if_pos found]
    by_cases created :
        ((mountLoopFactoryGet outcomes.factory session).2.createLoop outcomes
          fileDevicePath).1.status = .success
    · rw [if_neg (not_not.mpr created), if_neg (not_not.mpr created)]
    · rw [if_pos created, if_pos created,
        Session.createLoop_loopHandle created]
  · rw [if_neg found, if_pos found, if_pos found]

/-- Without its ledger, the creation is the one of the mount commands. -/
theorem loopCreateOwned_erase
    (outcomes : LoopCreateOutcomes)
    (isoPath : Text)
    (session : Session) :
    loopCreate outcomes isoPath session =
      ((loopCreateOwned outcomes isoPath session).created,
        (loopCreateOwned outcomes isoPath session).session) := by
  simp only [loopCreate, loopCreateOwned]
  split
  · rfl
  · split
    · rfl
    · split
      · rfl
      · split
        · rfl
        · cases resolved : mountIsoFileDevicePath outcomes with
          | none =>
              rfl
          | some fileDevicePath =>
              exact loopCreateDeviceOwned_erase ..

end Erasure

section Ownership

/-- The disk that `LoopCreate` asks the factory for. -/
structure LoopCreateOutcomes.Describes
    (outcomes : LoopCreateOutcomes)
    (disk : LoopDisk) : Prop where
  backingFile : disk.backingFile = outcomes.file
  mediaId : disk.media.mediaId = loopMediaId
  lastBlock : disk.lastBlock = loopLastBlock outcomes.fileSize

/-- The file belongs to one new loop device, and nothing else is held. -/
structure Transferred
    (outcomes : LoopCreateOutcomes)
    (before : LoopDxe)
    (owned : OwnedCreation) : Prop where
  device :
    ∃ handle disk,
      owned.created.loopHandle = some handle ∧
        before.diskAt handle = none ∧
        outcomes.Describes disk ∧
        owned.session.machine.dxe.diskAt =
          Function.update before.diskAt handle (some disk)
  settles : Settles owned.ledger [.backingFile outcomes.file]

/-- The file that goes to the device is still open. -/
theorem Transferred.stillOpen
    {outcomes : LoopCreateOutcomes}
    {before : LoopDxe}
    {owned : OwnedCreation}
    (transferred : Transferred outcomes before owned) :
    .giveBack (.backingFile outcomes.file) ∉ owned.ledger :=
  transferred.settles.notGivenBack (List.mem_singleton.mpr rfl)

/-- Everything else that was obtained is given back exactly once. -/
theorem Transferred.givenBack_once
    {outcomes : LoopCreateOutcomes}
    {before : LoopDxe}
    {owned : OwnedCreation}
    (transferred : Transferred outcomes before owned)
    {resource : Resource}
    (obtained : .obtain resource ∈ owned.ledger)
    (other : resource ≠ .backingFile outcomes.file) :
    owned.ledger.count (.giveBack resource) = 1 :=
  transferred.settles.givenBack_once obtained
    fun isKept => other (List.mem_singleton.mp isKept)

/-- There is no new loop device, and nothing is held. -/
structure Released
    (before : LoopDxe)
    (owned : OwnedCreation) : Prop where
  loopHandle : owned.created.loopHandle = none
  devices : owned.session.machine.dxe.diskAt = before.diskAt
  settles : Settles owned.ledger []

/-- Everything that was obtained, the file included, is given back once. -/
theorem Released.givenBack_once
    {before : LoopDxe}
    {owned : OwnedCreation}
    (released : Released before owned)
    {resource : Resource}
    (obtained : .obtain resource ∈ owned.ledger) :
    owned.ledger.count (.giveBack resource) = 1 :=
  released.settles.givenBack_once obtained List.not_mem_nil

/-- A search for the factory leaves the loop devices alone. -/
theorem mountLoopFactoryGet_dxe
    (outcomes : FactoryOutcomes)
    (session : Session) :
    (mountLoopFactoryGet outcomes session).2.machine.dxe =
      session.machine.dxe := by
  simp only [mountLoopFactoryGet]
  split
  · rfl
  · split
    · rfl
    · have loaded
          (path : Text) :
          (session.loadImage loopDriverFile path outcomes.load
            outcomes.image).machine.dxe = session.machine.dxe := by
        simp only [Session.loadImage]
        split
        · rfl
        · rfl
      have started (path : Text) :
          ((session.loadImage loopDriverFile path outcomes.load
            outcomes.image).startImage loopDriverFile outcomes.image
              outcomes.start).machine.dxe = session.machine.dxe := by
        simp only [Session.startImage]
        split
        · exact loaded path
        · exact loaded path
      split
      · split
        · exact loaded _
        · exact loaded _
      · split
        · exact started _
        · split
          · exact started _
          · exact started _

/-- The driver path is freed as soon as it has been used. -/
theorem FactoryOutcomes.settles
    (outcomes : FactoryOutcomes)
    {ledger : LoopLedger}
    {kept : List Resource}
    (settles : Settles ledger kept)
    (unused : Entry.obtain Resource.driverDevicePath ∉ ledger) :
    Settles (ledger ++ outcomes.driverPathEntries) kept := by
  rw [driverPathEntries]
  split
  · rwa [List.append_nil]
  · split
    · rwa [List.append_nil]
    · have freed := (settles.obtain unused).giveBack
      rwa [List.append_assoc] at freed

/-- The factory that `LoopCreate` asks adds one device, or it adds none. -/
theorem Session.createLoop_devices
    {session : Session}
    {outcomes : LoopCreateOutcomes}
    (wellFormed : session.machine.dxe.WellFormed)
    (fresh : outcomes.create.Fresh session.machine.dxe)
    (fileDevicePath : DevicePath) :
    let created := session.createLoop outcomes fileDevicePath
    (created.1.status = .success ∧
        ∃ disk,
          created.1.loopHandle = some outcomes.create.newHandle ∧
            session.machine.dxe.diskAt outcomes.create.newHandle = none ∧
            outcomes.Describes disk ∧
            created.2.machine.dxe.diskAt =
              Function.update session.machine.dxe.diskAt
                outcomes.create.newHandle (some disk)) ∨
      (created.1.status ≠ .success ∧
        created.2.machine.dxe.diskAt = session.machine.dxe.diskAt) := by
  intro created
  have result :
      created.1 =
        (loopFactoryCreate outcomes.create (some outcomes.file)
          (some fileDevicePath) (loopLastBlock outcomes.fileSize) true
          session.machine.dxe).1 :=
    rfl
  have machine :
      created.2.machine.dxe =
        (loopFactoryCreate outcomes.create (some outcomes.file)
          (some fileDevicePath) (loopLastBlock outcomes.fileSize) true
          session.machine.dxe).2 :=
    rfl
  rw [result, machine]
  rcases loopFactoryCreate_cases fresh (some outcomes.file)
      (some fileDevicePath) (loopLastBlock outcomes.fileSize) true with
    ⟨status, failed, answer⟩ |
    ⟨_, _, diskAddress, pathAddress, isFile, isPath, diskPool, pathPool, _,
      answer⟩
  · right
    rw [answer]
    exact ⟨EfiStatus.ne_success_of_isError failed, rfl⟩
  · obtain rfl := Option.some.inj isFile
    obtain rfl := Option.some.inj isPath
    have unused :
        session.machine.dxe.diskAt outcomes.create.newHandle = none := by
      simp [LoopDxe.diskAt, fresh.handle, Protocols.unused]
    left
    rw [answer]
    exact ⟨rfl, _, rfl, unused, ⟨rfl, rfl, rfl⟩,
      (fresh.installable diskPool pathPool outcomes.file
        (loopLastBlock outcomes.fileSize)
        fileDevicePath).diskAt_addDevice wellFormed⟩

/-- The end of `LoopCreate` adds one device, or it adds none. -/
theorem loopCreateDevice_devices
    {outcomes : LoopCreateOutcomes}
    {session : Session}
    (wellFormed : session.machine.dxe.WellFormed)
    (fresh : outcomes.create.Fresh session.machine.dxe)
    (fileDevicePath : DevicePath) :
    let created := loopCreateDevice outcomes fileDevicePath session
    (created.1.status = .success ∧
        ∃ disk,
          created.1.loopHandle = some outcomes.create.newHandle ∧
            session.machine.dxe.diskAt outcomes.create.newHandle = none ∧
            outcomes.Describes disk ∧
            created.2.machine.dxe.diskAt =
              Function.update session.machine.dxe.diskAt
                outcomes.create.newHandle (some disk)) ∨
      (created.1.status ≠ .success ∧
        created.1.loopHandle = none ∧
        created.2.machine.dxe.diskAt = session.machine.dxe.diskAt) := by
  have sameDxe := mountLoopFactoryGet_dxe outcomes.factory session
  -- The message of a failure changes nothing.
  have printed (status : EfiStatus) (other : Session) :
      (if status ≠ statusDriverMissing ∧ status ≠ statusSecureBoot then
        other.print (.loopCreateFailed status)
      else
        other).machine = other.machine := by
    split
    · rfl
    · rfl
  simp only [loopCreateDevice]
  generalize mountLoopFactoryGet outcomes.factory session = got at sameDxe ⊢
  obtain ⟨status, later⟩ := got
  rw [← sameDxe] at wellFormed fresh ⊢
  by_cases found : status = .success
  · rw [if_pos found]
    rcases Session.createLoop_devices wellFormed fresh fileDevicePath with
      ⟨created, disk, isNew, absent, describes, added⟩ | ⟨failed, same⟩
    · rw [if_neg (not_not.mpr created)]
      exact .inl ⟨rfl, disk, isNew, absent, describes, added⟩
    · rw [if_pos failed, printed]
      exact .inr ⟨failed, rfl, same⟩
  · rw [if_neg found, if_pos found, printed]
    exact .inr ⟨found, rfl, rfl⟩

/-- The file is closed behind everything else, unless the device has it. -/
theorem loopCreateDeviceOwned_ledger
    (outcomes : LoopCreateOutcomes)
    (fileDevicePath : DevicePath)
    (session : Session)
    (ledger : LoopLedger) :
    let owned :=
      loopCreateDeviceOwned outcomes fileDevicePath session ledger
    owned.ledger =
      ledger ++ outcomes.factory.driverPathEntries ++
          [.giveBack .fileDevicePath] ++
        if owned.created.status = .success then
          []
        else
          [.giveBack (.backingFile outcomes.file)] := by
  simp only [loopCreateDeviceOwned]
  generalize mountLoopFactoryGet outcomes.factory session = got
  obtain ⟨status, later⟩ := got
  by_cases found : status = .success
  · rw [if_pos found]
    by_cases created :
        (later.createLoop outcomes fileDevicePath).1.status = .success
    · rw [if_neg (not_not.mpr created), if_pos rfl, List.append_nil]
    · rw [if_pos created, if_neg created]
  · rw [if_neg found, if_pos found, if_neg found]

/-- Once the device path is there, the creation transfers or releases. -/
theorem loopCreateDeviceOwned_settles
    {outcomes : LoopCreateOutcomes}
    {session : Session}
    (wellFormed : session.machine.dxe.WellFormed)
    (fresh : outcomes.create.Fresh session.machine.dxe)
    (fileDevicePath : DevicePath)
    {ledger : LoopLedger}
    (settles :
      Settles ledger [.fileDevicePath, .backingFile outcomes.file])
    (unused : Entry.obtain Resource.driverDevicePath ∉ ledger) :
    let owned :=
      loopCreateDeviceOwned outcomes fileDevicePath session ledger
    (owned.created.status = .success →
        Transferred outcomes session.machine.dxe owned) ∧
      (owned.created.status ≠ .success →
        Released session.machine.dxe owned) := by
  intro owned
  have freed := (outcomes.factory.settles settles unused).giveBack
  have entries : owned.ledger = _ :=
    loopCreateDeviceOwned_ledger outcomes fileDevicePath session ledger
  have devices :=
    loopCreateDevice_devices wellFormed fresh fileDevicePath
  have erased :
      loopCreateDevice outcomes fileDevicePath session =
        (owned.created, owned.session) :=
    loopCreateDeviceOwned_erase outcomes fileDevicePath session ledger
  rw [erased] at devices
  rcases devices with
    ⟨created, disk, isNew, absent, describes, added⟩ |
    ⟨failed, noHandle, same⟩
  · refine ⟨fun _ => {
      device := ⟨_, disk, isNew, absent, describes, added⟩
      settles := ?_
    }, fun failed => absurd created failed⟩
    rw [entries, if_pos created, List.append_nil]
    exact freed
  · refine ⟨fun created => absurd created failed, fun _ => {
      loopHandle := noHandle
      devices := same
      settles := ?_
    }⟩
    rw [entries, if_neg failed]
    exact freed.giveBack

/--
`LoopCreate` hands the backing file over to one new device, or it leaves no
device and closes what it has opened.
-/
theorem loopCreate_transfers_or_releases
    {outcomes : LoopCreateOutcomes}
    {session : Session}
    (wellFormed : session.machine.dxe.WellFormed)
    (fresh : outcomes.create.Fresh session.machine.dxe)
    (isoPath : Text) :
    let owned := loopCreateOwned outcomes isoPath session
    (owned.created.status = .success →
        Transferred outcomes session.machine.dxe owned) ∧
      (owned.created.status ≠ .success →
        Released session.machine.dxe owned) := by
  have opened :
      Settles [Entry.obtain (Resource.backingFile outcomes.file)]
        [.backingFile outcomes.file] :=
    Settles.nil.obtain List.not_mem_nil
  have informed :
      Settles
        ([Entry.obtain (Resource.backingFile outcomes.file)] ++
          [.obtain .fileInfo])
        [.fileInfo, .backingFile outcomes.file] :=
    opened.obtain (by simp)
  have statted := informed.giveBack
  -- The ways out before there is a device path.
  have refused (status : EfiStatus) (sniff : LoopSniff) (later : Session)
      (ledger : LoopLedger)
      (failed : status ≠ .success)
      (same : later.machine = session.machine)
      (settles : Settles ledger []) :
      let owned : OwnedCreation := ⟨⟨status, none, sniff⟩, later, ledger⟩
      (owned.created.status = .success →
          Transferred outcomes session.machine.dxe owned) ∧
        (owned.created.status ≠ .success →
          Released session.machine.dxe owned) :=
    ⟨fun succeeded => absurd succeeded failed, fun _ => {
      loopHandle := rfl
      devices := by rw [same]
      settles := settles
    }⟩
  simp only [loopCreateOwned]
  split
  · exact refused _ _ _ _ statusIsoError_ne_success rfl .nil
  · split
    · exact refused _ _ _ _ (by decide) rfl opened.giveBack
    · split
      · exact refused _ _ _ _ statusIsoError_ne_success rfl
          informed.giveBack.giveBack
      · split
        · exact refused _ _ _ _ statusIsoError_ne_success rfl
            statted.giveBack
        · have warned :
              (session.warnTail outcomes).machine = session.machine := by
            rw [Session.warnTail]
            split
            · rfl
            · rfl
          cases mountIsoFileDevicePath outcomes with
          | none =>
              exact refused _ _ _ _ statusIsoError_ne_success warned
                statted.giveBack
          | some fileDevicePath =>
              rw [← warned] at wellFormed fresh ⊢
              exact loopCreateDeviceOwned_settles wellFormed fresh
                fileDevicePath (statted.obtain (by simp)) (by simp)

/-- A creation that works throughout, over a file of the given size. -/
def workingCreate
    (fileSize : UInt64)
    (buffer : List UInt8) :
    LoopCreateOutcomes where
  openFile := .success
  file := 7
  infoPool := true
  getInfo := .success
  fileSize := fileSize
  setPosition := .success
  read := .success
  buffer := buffer
  locateShell := .success
  fileDevicePath := some [.filePath (wide "\\disk.iso")]
  factory := {
    locate := .success
    path := ⟨.success, none, true⟩
    load := .success
    image := 1
    start := .success
    locateAgain := .success
  }
  create := ⟨some 0, some 1, .success, 0⟩

/-- The machine at the Shell prompt, before anything has been mounted. -/
def firstMount : Session :=
  ⟨⟨idleLoopDxe, [], fun _ => none⟩, []⟩

theorem firstMount_wellFormed : firstMount.machine.dxe.WellFormed :=
  idleLoopDxe_justLoaded.wellFormed

theorem workingCreate_fresh
    (fileSize : UInt64)
    (buffer : List UInt8) :
    (workingCreate fileSize buffer).create.Fresh firstMount.machine.dxe where
  disk _ := rfl
  path isPath := by
    obtain rfl := Option.some.inj isPath
    exact ⟨rfl, by simp [workingCreate]⟩
  handle := rfl

theorem loopCreate_transfers_or_releases_workingCreate :
    let outcomes := workingCreate 65536 (List.replicate 12288 0)
    Transferred outcomes idleLoopDxe
      (loopCreateOwned outcomes (wide "disk.iso") firstMount) := by
  have settled := loopCreate_transfers_or_releases firstMount_wellFormed
    (workingCreate_fresh 65536 (List.replicate 12288 0)) (wide "disk.iso")
  exact settled.1 (by decide +kernel)

end Ownership

end UefiMount
