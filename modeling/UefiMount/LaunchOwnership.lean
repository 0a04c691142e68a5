import UefiMount.MountPersistence

namespace UefiMount

open ResourceLedgers

/-!
# What a launch owns

The functions that a launch runs through, once more with a ledger of the pool
blocks and the open files that pass through their hands.  Without the ledgers
they are the functions of the other modules.  Whatever the firmware answers, a
launch frees and closes everything exactly once, but for the backing file of a
loop device that it leaves behind.
-/

section Drivers

/-- What `MountDriverLoaded` obtains and has to give back. -/
inductive ScanResource where
  /-- `Handles`. -/
  | handles
  /-- `Text` of one of the images. -/
  | text (index : Nat)
  deriving DecidableEq

/-- The loop of `MountDriverLoaded`, from an index on. -/
def scanImagesOwned
    (scan : ImageScan)
    (driverFile : Text) :
    Nat → List LoadedImage → Bool × List (Entry ScanResource)
  | _, [] =>
      (false, [])
  | index, image :: rest =>
      match image.filePath with
      | none =>
          scanImagesOwned scan driverFile (index + 1) rest
      | some text =>
          if scan.readable image.handle then
            let freed : List (Entry ScanResource) :=
              [.obtain (.text index), .giveBack (.text index)]
            if endsWithDriver text driverFile then
              (true, freed)
            else
              let (found, ledger) :=
                scanImagesOwned scan driverFile (index + 1) rest
              (found, freed ++ ledger)
          else
            scanImagesOwned scan driverFile (index + 1) rest

/-- `MountDriverLoaded`. -/
def mountDriverLoadedOwned
    (scan : ImageScan)
    (driverFile : Text)
    (images : List LoadedImage) :
    Bool × List (Entry ScanResource) :=
  if scan.locate.isError then
    (false, [])
  else
    let (found, ledger) := scanImagesOwned scan driverFile 0 images
    (found, .obtain .handles :: (ledger ++ [.giveBack .handles]))

/-- What `MountLoadDriver` obtains and has to give back. -/
inductive LoadResource where
  | scan (resource : ScanResource)
  /-- `Dp`. -/
  | devicePath
  deriving DecidableEq

/--
The ledger of `MountLoadDriver`: the device path is freed behind `LoadImage`,
whatever that returns.
-/
def loadDriverEntries
    (outcomes : LoadOutcomes)
    (driverFile : Text)
    (images : List LoadedImage) :
    List (Entry LoadResource) :=
  let (loaded, ledger) :=
    mountDriverLoadedOwned outcomes.scan driverFile images
  let ledger := ledger.map (.map .scan)
  if loaded then
    ledger
  else
    match mountBuildDriverDevicePath outcomes.path driverFile with
    | .error _ =>
        ledger
    | .ok _ =>
        ledger ++ [.obtain .devicePath, .giveBack .devicePath]

theorem scanImagesOwned_erase
    (scan : ImageScan)
    (driverFile : Text)
    (index : Nat)
    (images : List LoadedImage) :
    (scanImagesOwned scan driverFile index images).1 =
      images.any fun image =>
        scan.readable image.handle && image.isDriver driverFile := by
  induction images generalizing index with
  | nil => rfl
  | cons image rest inductionHypothesis =>
      rw [List.any_cons, scanImagesOwned, LoadedImage.isDriver]
      cases image.filePath with
      | none => simp [inductionHypothesis]
      | some text =>
          by_cases readable : scan.readable image.handle
          · by_cases ends : endsWithDriver text driverFile
            · simp [readable, ends]
            · simp [readable, ends, inductionHypothesis]
          · simp [readable, inductionHypothesis]

/-- Without its ledger, the check is the one of the commands. -/
theorem mountDriverLoadedOwned_erase
    (scan : ImageScan)
    (driverFile : Text)
    (images : List LoadedImage) :
    (mountDriverLoadedOwned scan driverFile images).1 =
      mountDriverLoaded scan driverFile images := by
  rw [mountDriverLoadedOwned, mountDriverLoaded]
  split
  · rfl
  · exact scanImagesOwned_erase scan driverFile 0 images

/-- The place of a resource in the scan. -/
def ScanResource.stage : ScanResource → Nat
  | handles =>
      0
  | text index =>
      index + 1

theorem settlesBetween_pair
    {Resource : Type}
    [DecidableEq Resource]
    {stage : Resource → Nat}
    {low : Nat}
    {resource : Resource}
    (isLow : stage resource = low) :
    SettlesBetween stage low (low + 1)
      [.obtain resource, .giveBack resource] [] :=
  .bracket isLow (.nil (low + 1) (low + 1)) (Nat.lt_succ_self low)

theorem scanImagesOwned_settles
    (scan : ImageScan)
    (driverFile : Text)
    (index : Nat)
    (images : List LoadedImage) :
    SettlesBetween ScanResource.stage (index + 1) (index + images.length + 1)
      (scanImagesOwned scan driverFile index images).2 [] := by
  induction images generalizing index with
  | nil => exact .nil _ _
  | cons image rest inductionHypothesis =>
      have later :=
        (inductionHypothesis (index + 1)).mono (Nat.le_succ (index + 1))
          (by simp only [List.length_cons]; omega :
            index + 1 + rest.length + 1 ≤
              index + (image :: rest).length + 1)
      rw [scanImagesOwned]
      split
      · exact later
      · split
        · have freed :
              SettlesBetween ScanResource.stage (index + 1) (index + 2)
                [.obtain (.text index), .giveBack (.text index)] [] :=
            settlesBetween_pair rfl
          split
          · exact freed.mono (Nat.le_refl _)
              (by simp only [List.length_cons]; omega)
          · exact freed.append (inductionHypothesis (index + 1)) (by omega)
              |>.mono (Nat.le_refl _)
                (by simp only [List.length_cons]; omega)
        · exact later

/-- The check gives everything back. -/
theorem mountDriverLoadedOwned_settles
    (scan : ImageScan)
    (driverFile : Text)
    (images : List LoadedImage) :
    Settles (mountDriverLoadedOwned scan driverFile images).2 [] := by
  rw [mountDriverLoadedOwned]
  split
  · exact .nil
  · have bracketed :
        SettlesBetween ScanResource.stage 0 (0 + images.length + 1)
          (.obtain .handles ::
            ((scanImagesOwned scan driverFile 0 images).2 ++
              [.giveBack .handles])) [] :=
      .bracket rfl (scanImagesOwned_settles scan driverFile 0 images)
        (Nat.succ_pos _)
    exact bracketed.settles

/-- The place of a resource in a load. -/
def LoadResource.stage : LoadResource → Nat
  | scan _ =>
      0
  | devicePath =>
      1

/-- So does a load. -/
theorem loadDriverEntries_settles
    (outcomes : LoadOutcomes)
    (driverFile : Text)
    (images : List LoadedImage) :
    Settles (loadDriverEntries outcomes driverFile images) [] := by
  have scanned :
      SettlesBetween LoadResource.stage 0 1
        ((mountDriverLoadedOwned outcomes.scan driverFile images).2.map
          (Entry.map LoadResource.scan)) [] :=
    .ofMap (fun _ _ same => LoadResource.scan.inj same) (fun _ => rfl)
      (mountDriverLoadedOwned_settles outcomes.scan driverFile images)
  have freed :
      SettlesBetween LoadResource.stage 1 2
        [.obtain .devicePath, .giveBack .devicePath] [] :=
    settlesBetween_pair rfl
  simp only [loadDriverEntries]
  split
  · exact scanned.settles
  · split
    · exact scanned.settles
    · exact (scanned.append freed (by omega)).settles

end Drivers

section Reports

/-- How the calls of `MapPrintNewVolumes` on one volume end. -/
structure VolumeCalls where
  locateShell : EfiStatus
  /-- `GetMapFromDevicePath`, for a handle that has a device path. -/
  mapName : Option Text
  simpleFileSystem : EfiStatus
  openVolume : EfiStatus
  /-- `AllocatePool` for the label. -/
  infoPool : Bool
  getInfo : EfiStatus
  volumeLabel : Text

namespace VolumeCalls

/-- The volume can be opened. -/
def opens (calls : VolumeCalls) : Bool :=
  !calls.simpleFileSystem.isError && !calls.openVolume.isError

/-- What the report learns from these calls. -/
def outcomes (calls : VolumeCalls) : VolumeOutcomes where
  locateShell := calls.locateShell
  mapName := calls.mapName
  label :=
    if calls.opens && calls.infoPool && !calls.getInfo.isError then
      some calls.volumeLabel
    else
      none

end VolumeCalls

/-- What `MapPrintNewVolumes` obtains and has to give back. -/
inductive ReportResource where
  /-- `Now`. -/
  | now
  /-- `Root` of one of the volumes. -/
  | root (index : Nat)
  /-- `Info` of one of the volumes. -/
  | info (index : Nat)
  deriving DecidableEq

/-- The label query on one new volume. -/
def labelEntries (calls : VolumeCalls) (index : Nat) :
    List (Entry ReportResource) :=
  if calls.opens then
    let info : List (Entry ReportResource) :=
      if calls.infoPool then
        [.obtain (.info index), .giveBack (.info index)]
      else
        []
    .obtain (.root index) :: (info ++ [.giveBack (.root index)])
  else
    []

/-- The loop of `MapPrintNewVolumes`, from an index on. -/
def reportEntriesFrom
    (oldFs : List Handle)
    (volume : Handle → VolumeCalls) :
    Nat → List Handle → List (Entry ReportResource)
  | _, [] =>
      []
  | index, handle :: rest =>
      if oldFs.contains handle then
        reportEntriesFrom oldFs volume (index + 1) rest
      else
        labelEntries (volume handle) index ++
          reportEntriesFrom oldFs volume (index + 1) rest

/-- `MapSnapshotFsHandles` has allocated a buffer. -/
def snapshotTaken (located : EfiStatus × List Handle) : Bool :=
  located.1 ≠ .notFound && !located.1.isError

/-- The ledger of `MapPrintNewVolumes`. -/
def reportEntries
    (oldFs : List Handle)
    (nowFs : EfiStatus × List Handle)
    (volume : Handle → VolumeCalls) :
    List (Entry ReportResource) :=
  let (status, handles) := mapSnapshotFsHandles nowFs
  if status.isError then
    []
  else
    let ledger := reportEntriesFrom oldFs volume 0 handles
    if snapshotTaken nowFs then
      .obtain .now :: (ledger ++ [.giveBack .now])
    else
      -- Now is NULL.
      ledger

/-- How the calls of the rescan, the mapping refresh and the report end. -/
structure RescanCalls where
  blockIo : EfiStatus × List Handle
  connects : Handle → ConnectOutcome
  /-- `LocateProtocol` of `MapRefreshShell`. -/
  locateShell : EfiStatus
  /-- The snapshot of `MapRefreshShell`. -/
  mapFs : EfiStatus × List Handle
  nowFs : EfiStatus × List Handle
  volume : Handle → VolumeCalls

/-- What the rescan and the report make of these calls. -/
def RescanCalls.outcomes (calls : RescanCalls) : RescanOutcomes where
  blockIo := calls.blockIo
  connects := calls.connects
  nowFs := calls.nowFs
  volume handle := (calls.volume handle).outcomes

/-- What the end of both flows obtains and has to give back. -/
inductive RescanResource where
  /-- `Handles` of `MapConnectAllControllers`. -/
  | blockHandles
  /-- `Handles` of `MapRefreshShell`. -/
  | mapHandles
  | report (resource : ReportResource)
  deriving DecidableEq

/-- The ledger of `MapConnectAllControllers`. -/
def connectEntries (calls : RescanCalls) : List (Entry RescanResource) :=
  if calls.blockIo.1 = .notFound ∨ calls.blockIo.1.isError then
    []
  else
    [.obtain .blockHandles, .giveBack .blockHandles]

/-- The ledger of `MapRefreshShell`. -/
def refreshEntries (calls : RescanCalls) : List (Entry RescanResource) :=
  if calls.locateShell.isError then
    []
  else if snapshotTaken calls.mapFs then
    [.obtain .mapHandles, .giveBack .mapHandles]
  else
    []

/-- The ledger of rescan, mapping refresh and report. -/
def rescanEntries
    (calls : RescanCalls)
    (oldFs : List Handle) :
    List (Entry RescanResource) :=
  connectEntries calls ++ refreshEntries calls ++
    (reportEntries oldFs calls.nowFs calls.volume).map (.map .report)

/-- The place of a resource in the report. -/
def ReportResource.stage : ReportResource → Nat
  | now =>
      0
  | root index =>
      2 * index + 1
  | info index =>
      2 * index + 2

theorem labelEntries_settles (calls : VolumeCalls) (index : Nat) :
    SettlesBetween ReportResource.stage (2 * index + 1) (2 * index + 3)
      (labelEntries calls index) [] := by
  rw [labelEntries]
  split
  · refine .bracket rfl ?_ (by omega)
    split
    · exact settlesBetween_pair rfl
    · exact .nil _ _
  · exact .nil _ _

theorem reportEntriesFrom_settles
    (oldFs : List Handle)
    (volume : Handle → VolumeCalls)
    (index : Nat)
    (handles : List Handle) :
    SettlesBetween ReportResource.stage (2 * index + 1)
      (2 * (index + handles.length) + 1)
      (reportEntriesFrom oldFs volume index handles) [] := by
  induction handles generalizing index with
  | nil => exact .nil _ _
  | cons handle rest inductionHypothesis =>
      have later := inductionHypothesis (index + 1)
      have sameEnd :
          2 * (index + 1 + rest.length) + 1 =
            2 * (index + (handle :: rest).length) + 1 := by
        simp only [List.length_cons]
        omega
      rw [sameEnd] at later
      rw [reportEntriesFrom]
      split
      · exact later.mono (by omega) (Nat.le_refl _)
      · exact (labelEntries_settles (volume handle) index).append later
          (by simp only [List.length_cons]; omega)

/-- The report gives everything back. -/
theorem reportEntries_settles
    (oldFs : List Handle)
    (nowFs : EfiStatus × List Handle)
    (volume : Handle → VolumeCalls) :
    Settles (reportEntries oldFs nowFs volume) [] := by
  have loop :=
    reportEntriesFrom_settles oldFs volume 0 (mapSnapshotFsHandles nowFs).2
  simp only [reportEntries]
  split
  · exact .nil
  · split
    · have bracketed :
          SettlesBetween ReportResource.stage 0 _
            (.obtain .now :: (_ ++ [.giveBack .now])) [] :=
        .bracket rfl loop (Nat.succ_pos _)
      exact bracketed.settles
    · exact loop.settles

/-- The place of a resource at the end of the flows. -/
def RescanResource.stage : RescanResource → Nat
  | blockHandles =>
      0
  | mapHandles =>
      1
  | report _ =>
      2

/-- The end of the flows gives everything back. -/
theorem rescanEntries_settles
    (calls : RescanCalls)
    (oldFs : List Handle) :
    Settles (rescanEntries calls oldFs) [] := by
  have connected :
      SettlesBetween RescanResource.stage 0 1 (connectEntries calls) [] := by
    rw [connectEntries]
    split
    · exact .nil _ _
    · exact settlesBetween_pair rfl
  have refreshed :
      SettlesBetween RescanResource.stage 1 2 (refreshEntries calls) [] := by
    rw [refreshEntries]
    split
    · exact .nil _ _
    · split
      · exact settlesBetween_pair rfl
      · exact .nil _ _
  have reported :
      SettlesBetween RescanResource.stage 2 3
        ((reportEntries oldFs calls.nowFs calls.volume).map
          (Entry.map RescanResource.report)) [] :=
    .ofMap (fun _ _ same => RescanResource.report.inj same) (fun _ => rfl)
      (reportEntries_settles oldFs calls.nowFs calls.volume)
  exact ((connected.append refreshed (by omega)).append reported
    (by omega)).settles

end Reports

section Flows

/-- How the calls of `mount -ISO` end. -/
structure IsoCalls where
  oldFs : EfiStatus × List Handle
  create : LoopCreateOutcomes
  scan : ImageScan
  load : LoadOutcomes
  connect : ConnectOutcome
  rescan : RescanCalls

/-- What `MountRunIso` makes of these calls. -/
def IsoCalls.outcomes (calls : IsoCalls) : IsoOutcomes where
  oldFs := calls.oldFs
  create := calls.create
  scan := calls.scan
  load := calls.load
  connect := calls.connect
  rescan := calls.rescan.outcomes

/-- How the calls of `mount -<FORMAT>` end. -/
structure FormatCalls where
  oldFs : EfiStatus × List Handle
  scan : ImageScan
  load : LoadOutcomes
  rescan : RescanCalls

/-- What `MountRunFormat` makes of these calls. -/
def FormatCalls.outcomes (calls : FormatCalls) : FormatOutcomes where
  oldFs := calls.oldFs
  scan := calls.scan
  load := calls.load
  rescan := calls.rescan.outcomes

/-- What a flow obtains and has to give back. -/
inductive FlowResource where
  /-- `OldFs`. -/
  | oldFs
  /-- What `LoopCreate` obtains. -/
  | create (resource : Resource)
  /-- What the flow's own `MountDriverLoaded` obtains. -/
  | scan (resource : ScanResource)
  | load (resource : LoadResource)
  | rescan (resource : RescanResource)
  deriving DecidableEq

/-- The ledger of a flow. -/
abbrev FlowLedger := List (Entry FlowResource)

/-- A way out of a flow: `OldFs` is freed when there is one. -/
def freeOldFs
    (oldFs : EfiStatus × List Handle)
    (ledger : FlowLedger) :
    FlowLedger :=
  if snapshotTaken oldFs then
    .obtain .oldFs :: (ledger ++ [.giveBack .oldFs])
  else
    ledger

/-- `MountRunIso`. -/
def mountRunIsoOwned
    (calls : IsoCalls)
    (isoPath : Text)
    (session : Session) :
    (EfiStatus × Session) × FlowLedger :=
  let owned := loopCreateOwned calls.create isoPath session
  let ledger : FlowLedger := owned.ledger.map (.map .create)
  let finish
      (session : Session)
      (ledger : FlowLedger) :
      (EfiStatus × Session) × FlowLedger :=
    (connectIso calls.outcomes owned.created.loopHandle session,
      freeOldFs calls.oldFs
        (ledger ++
          (rescanEntries calls.rescan (oldSnapshot calls.oldFs)).map
            (.map .rescan)))
  if owned.created.status ≠ .success then
    ((owned.created.status, owned.session), freeOldFs calls.oldFs ledger)
  else
    let session := owned.session.print (.loopCreated isoPath)
    if owned.created.sniff.pureIso then
      let (loaded, scanned) :=
        mountDriverLoadedOwned calls.scan isoDriverFile
          session.machine.images
      let session :=
        session.record (.dedupe isoDriverFile loaded session.machine)
      let ledger := ledger ++ scanned.map (.map .scan)
      if loaded then
        finish session ledger
      else
        let ledger :=
          ledger ++
            (loadDriverEntries calls.load isoDriverFile
              session.machine.images).map (.map .load)
        let (status, session) :=
          mountLoadDriver calls.load (some isoDriverFile) session
        if status ≠ .success then
          ((.success,
            (session.print .isoDriverMissing).print .loopKept),
            freeOldFs calls.oldFs ledger)
        else
          finish session ledger
    else
      finish session ledger

/-- `MountRunFormat`. -/
def mountRunFormatOwned
    (calls : FormatCalls)
    (entry : Option MountFormatEntry)
    (session : Session) :
    (EfiStatus × Session) × FlowLedger :=
  match entry with
  | none =>
      ((statusInvalidParameter, session), [])
  | some entry =>
      let finish
          (session : Session)
          (ledger : FlowLedger) :
          (EfiStatus × Session) × FlowLedger :=
        ((.success,
          rescanAndReport calls.rescan.outcomes (oldSnapshot calls.oldFs)
            session),
          freeOldFs calls.oldFs
            (ledger ++
              (rescanEntries calls.rescan (oldSnapshot calls.oldFs)).map
                (.map .rescan)))
      let (loaded, scanned) :=
        mountDriverLoadedOwned calls.scan entry.driverFile
          session.machine.images
      let session :=
        session.record (.dedupe entry.driverFile loaded session.machine)
      let ledger : FlowLedger := scanned.map (.map .scan)
      if loaded then
        finish (session.print (.driverAlreadyLoaded entry.name)) ledger
      else
        let ledger :=
          ledger ++
            (loadDriverEntries calls.load entry.driverFile
              session.machine.images).map (.map .load)
        let (status, session) :=
          mountLoadDriver calls.load (some entry.driverFile) session
        if status ≠ .success then
          ((status, session), freeOldFs calls.oldFs ledger)
        else
          finish session ledger

/-- Without its ledger, the flow is the one of the commands. -/
theorem mountRunIsoOwned_erase
    (calls : IsoCalls)
    (isoPath : Text)
    (session : Session) :
    (mountRunIsoOwned calls isoPath session).1 =
      mountRunIso calls.outcomes isoPath session := by
  have sameCreate : calls.outcomes.create = calls.create := rfl
  simp only [mountRunIsoOwned, mountRunIso, sameCreate,
    loopCreateOwned_erase, mountDriverLoadedOwned_erase, Session.dedupe,
    apply_ite Prod.fst]
  rfl

/-- Without its ledger, the flow is the one of the commands. -/
theorem mountRunFormatOwned_erase
    (calls : FormatCalls)
    (entry : Option MountFormatEntry)
    (session : Session) :
    (mountRunFormatOwned calls entry session).1 =
      mountRunFormat calls.outcomes entry session := by
  cases entry with
  | none => rfl
  | some entry =>
      simp only [mountRunFormatOwned, mountRunFormat,
        mountDriverLoadedOwned_erase, Session.dedupe, apply_ite Prod.fst]
      rfl

/-- The place of a resource in a flow. -/
def FlowResource.stage : FlowResource → Nat
  | oldFs =>
      0
  | create _ =>
      1
  | scan _ =>
      2
  | load _ =>
      3
  | rescan _ =>
      4

/-- A way out settles what the stages before it settle. -/
theorem freeOldFs_settles
    (oldFs : EfiStatus × List Handle)
    {ledger : FlowLedger}
    {kept : List FlowResource}
    {high : Nat}
    (between : SettlesBetween FlowResource.stage 1 high ledger kept)
    (positive : 0 < high) :
    Settles (freeOldFs oldFs ledger) kept := by
  rw [freeOldFs]
  split
  · have bracketed :
        SettlesBetween FlowResource.stage 0 high
          (.obtain .oldFs :: (ledger ++ [.giveBack .oldFs])) kept :=
      .bracket rfl between positive
    exact bracketed.settles
  · exact between.settles

theorem scanStage
    (scan : ImageScan)
    (driverFile : Text)
    (images : List LoadedImage) :
    SettlesBetween FlowResource.stage 2 3
      ((mountDriverLoadedOwned scan driverFile images).2.map
        (Entry.map FlowResource.scan)) [] :=
  .ofMap (fun _ _ same => FlowResource.scan.inj same) (fun _ => rfl)
    (mountDriverLoadedOwned_settles scan driverFile images)

theorem loadStage
    (outcomes : LoadOutcomes)
    (driverFile : Text)
    (images : List LoadedImage) :
    SettlesBetween FlowResource.stage 3 4
      ((loadDriverEntries outcomes driverFile images).map
        (Entry.map FlowResource.load)) [] :=
  .ofMap (fun _ _ same => FlowResource.load.inj same) (fun _ => rfl)
    (loadDriverEntries_settles outcomes driverFile images)

theorem rescanStage
    (calls : RescanCalls)
    (oldFs : List Handle) :
    SettlesBetween FlowResource.stage 4 5
      ((rescanEntries calls oldFs).map (Entry.map FlowResource.rescan))
      [] :=
  .ofMap (fun _ _ same => FlowResource.rescan.inj same) (fun _ => rfl)
    (rescanEntries_settles calls oldFs)

/-- `mount -<FORMAT>` gives everything back. -/
theorem mountRunFormatOwned_settles
    (calls : FormatCalls)
    (entry : Option MountFormatEntry)
    (session : Session) :
    Settles (mountRunFormatOwned calls entry session).2 [] := by
  cases entry with
  | none => exact .nil
  | some entry =>
      have scanned :=
        (scanStage calls.scan entry.driverFile session.machine.images).mono
          (by omega : 1 ≤ 2) (Nat.le_refl 3)
      have loaded :=
        scanned.append
          (loadStage calls.load entry.driverFile session.machine.images)
          (by omega)
      have rescanned :=
        rescanStage calls.rescan (oldSnapshot calls.oldFs)
      simp only [mountRunFormatOwned, apply_ite Prod.snd]
      split
      · exact freeOldFs_settles calls.oldFs
          ((scanned.mono (Nat.le_refl 1) (by omega : 3 ≤ 4)).append rescanned
            (by omega)) (by omega)
      · split
        · exact freeOldFs_settles calls.oldFs loaded (by omega)
        · exact freeOldFs_settles calls.oldFs
            (loaded.append rescanned (by omega)) (by omega)

/-- `mount -ISO` keeps what its creation keeps. -/
theorem mountRunIsoOwned_ledger
    (calls : IsoCalls)
    (isoPath : Text)
    (session : Session) :
    Settles (mountRunIsoOwned calls isoPath session).2
      (if (loopCreateOwned calls.create isoPath session).created.status =
          .success then
        [.create (.backingFile calls.create.file)]
      else
        []) := by
  have created :
      SettlesBetween FlowResource.stage 1 2 _ _ :=
    .ofMap (fun _ _ same => FlowResource.create.inj same) (fun _ => rfl)
      (loopCreateOwned_settles calls.create isoPath session)
  simp only [mountRunIsoOwned]
  generalize loopCreateOwned calls.create isoPath session = owned
    at created ⊢
  have rescanned :=
    rescanStage calls.rescan (oldSnapshot calls.oldFs)
  by_cases succeeded : owned.created.status = .success
  · have scanned :=
      created.append
        (scanStage calls.scan isoDriverFile owned.session.machine.images)
        (by omega)
    have loaded :=
      scanned.append
        (loadStage calls.load isoDriverFile owned.session.machine.images)
        (by omega)
    simp only [succeeded, ne_eq, not_true, if_false, if_true,
      apply_ite Prod.snd] at created scanned loaded ⊢
    split
    · split
      · exact freeOldFs_settles calls.oldFs
          ((scanned.mono (Nat.le_refl 1) (by omega : 3 ≤ 4)).append rescanned
            (by omega)) (by omega)
      · split
        · exact freeOldFs_settles calls.oldFs loaded (by omega)
        · exact freeOldFs_settles calls.oldFs
            (loaded.append rescanned (by omega)) (by omega)
    · exact freeOldFs_settles calls.oldFs
        ((created.mono (Nat.le_refl 1) (by omega : 2 ≤ 4)).append rescanned
          (by omega)) (by omega)
  · rw [if_neg succeeded] at created ⊢
    rw [if_pos succeeded]
    exact freeOldFs_settles calls.oldFs created (by omega)

/-- That is the backing file of the device it leaves. -/
theorem mountRunIsoOwned_settles
    (calls : IsoCalls)
    (isoPath : Text)
    (session : Session) :
    let ran := mountRunIsoOwned calls isoPath session
    Settles ran.2
      (if ran.1.1 = .success then
        [.create (.backingFile calls.create.file)]
      else
        []) := by
  have sameStatus := (mountRunIso_keeps calls.outcomes isoPath session).1
  rw [← mountRunIsoOwned_erase, loopCreateOwned_erase] at sameStatus
  intro ran
  rw [if_congr sameStatus rfl rfl]
  exact mountRunIsoOwned_ledger calls isoPath session

end Flows

section SelfTest

variable {FileSystem : Type}

/-- What the search for the driver files obtains and has to give back. -/
inductive DriverFileResource where
  /-- `Root` of `MountOpenDriverFile`. -/
  | root (index : Nat)
  /-- `File` of `MountSelfTest`. -/
  | file (index : Nat)
  deriving DecidableEq

/-- `MountOpenDriverFile`, and the close in `MountSelfTest` behind it. -/
def driverFileEntries
    (outcomes : OpenDriverOutcomes)
    (index : Nat) :
    List (Entry DriverFileResource) :=
  match mountGetSelfDir outcomes.path with
  | .error _ =>
      []
  | .ok _ =>
      if outcomes.simpleFileSystem.isError then
        []
      else if outcomes.openVolume.isError then
        []
      else if outcomes.openFile.isError then
        [.obtain (.root index), .giveBack (.root index)]
      else
        [.obtain (.root index), .obtain (.file index),
          .giveBack (.root index), .giveBack (.file index)]

/-- The loop of `MountSelfTest` over the formats, from an index on. -/
def driverFilesEntriesFrom
    (drivers : Text → OpenDriverOutcomes) :
    Nat → List MountFormatEntry → List (Entry DriverFileResource)
  | _, [] =>
      []
  | index, entry :: rest =>
      driverFileEntries (drivers entry.driverFile) index ++
        driverFilesEntriesFrom drivers (index + 1) rest

/-- The place of a resource in the search. -/
def DriverFileResource.stage : DriverFileResource → Nat
  | root index =>
      index
  | file index =>
      index

theorem driverFileEntries_settles
    (outcomes : OpenDriverOutcomes)
    (index : Nat) :
    SettlesBetween DriverFileResource.stage index (index + 1)
      (driverFileEntries outcomes index) [] := by
  have rootOpened :
      Settles [Entry.obtain (DriverFileResource.root index)]
        [.root index] :=
    Settles.nil.obtain List.not_mem_nil
  have fileOpened :
      Settles [Entry.obtain (DriverFileResource.root index),
          .obtain (.file index)]
        [.file index, .root index] :=
    rootOpened.obtain (by simp)
  have closed :
      Settles [Entry.obtain (DriverFileResource.root index),
          .obtain (.file index), .giveBack (.root index),
          .giveBack (.file index)]
        [] := by
    have rootClosed :=
      fileOpened.giveBack_of_mem
        (List.mem_cons_of_mem _ List.mem_cons_self)
    rw [List.erase_cons_tail (by simp), List.erase_cons_head]
      at rootClosed
    exact rootClosed.giveBack
  rw [driverFileEntries]
  split
  · exact .nil _ _
  · split
    · exact .nil _ _
    · split
      · exact .nil _ _
      · split
        · exact settlesBetween_pair rfl
        · refine ⟨closed, fun resource obtained => ?_⟩
          simp only [List.mem_cons, Entry.obtain.injEq, reduceCtorEq,
            List.not_mem_nil, or_false] at obtained
          rcases obtained with rfl | rfl
          · exact ⟨Nat.le_refl _, Nat.lt_succ_self _⟩
          · exact ⟨Nat.le_refl _, Nat.lt_succ_self _⟩

theorem driverFilesEntriesFrom_settles
    (drivers : Text → OpenDriverOutcomes)
    (index : Nat)
    (entries : List MountFormatEntry) :
    SettlesBetween DriverFileResource.stage index (index + entries.length)
      (driverFilesEntriesFrom drivers index entries) [] := by
  induction entries generalizing index with
  | nil => exact .nil _ _
  | cons entry rest inductionHypothesis =>
      have later := inductionHypothesis (index + 1)
      have sameEnd :
          index + 1 + rest.length = index + (entry :: rest).length := by
        simp only [List.length_cons]
        omega
      rw [sameEnd] at later
      exact (driverFileEntries_settles _ index).append later
        (by simp only [List.length_cons]; omega)

end SelfTest

section Launches

variable {FileSystem : Type}

/-- One launch, with how all calls of its functions end. -/
structure LaunchCalls (FileSystem : Type) where
  /-- `HandleProtocol` for the parameters of the Shell. -/
  parameters : EfiStatus
  argv : List Text
  selfTest : SelfTestOutcomes FileSystem
  iso : IsoCalls
  format : FormatCalls

/-- The launch that these calls make. -/
def LaunchCalls.launch (calls : LaunchCalls FileSystem) :
    Launch FileSystem where
  parameters := calls.parameters
  argv := calls.argv
  selfTest := calls.selfTest
  iso := calls.iso.outcomes
  format := calls.format.outcomes

/-- What a launch obtains and has to give back. -/
inductive LaunchResource where
  | driverFile (resource : DriverFileResource)
  | loopTest (resource : SelfTestResource)
  | flow (resource : FlowResource)
  deriving DecidableEq

/-- The ledger of a launch. -/
abbrev LaunchLedger := List (Entry LaunchResource)

/-- The ledger of `MountSelfTest`. -/
def selfTestEntries
    (files : FileProtocol FileSystem)
    (outcomes : SelfTestOutcomes FileSystem)
    (machine : Machine) :
    LaunchLedger :=
  (driverFilesEntriesFrom outcomes.drivers 0 mFormats).map
      (.map .driverFile) ++
    (loopDiskSelfTest files outcomes.loop ⟨machine, []⟩).ledger.map
      (.map .loopTest)

/-- The ledger of `UefiMain`, which obtains nothing itself. -/
def launchEntries
    (files : FileProtocol FileSystem)
    (calls : LaunchCalls FileSystem)
    (machine : Machine) :
    LaunchLedger :=
  let flow := (⟨machine, []⟩ : Session).print .version
  if calls.parameters.isError then
    []
  else
    match calls.argv with
    | [] | [_] =>
        []
    | _ :: option :: rest =>
        if option = wide "-?" ∨ option = wide "-h" then
          []
        else if option = wide "selftest" then
          selfTestEntries files calls.selfTest machine
        else if option = wide "-ISO" then
          match rest with
          | [] =>
              []
          | path :: _ =>
              (mountRunIsoOwned calls.iso path flow).2.map (.map .flow)
        else
          match option with
          | first :: name =>
              if first = dash then
                match mountFindFormat name with
                | none =>
                    []
                | some entry =>
                    (mountRunFormatOwned calls.format (some entry) flow).2.map
                      (.map .flow)
              else
                []
          | [] =>
              []

open Classical in
/-- What a launch does not give back. -/
noncomputable def LaunchCalls.keeps
    (calls : LaunchCalls FileSystem)
    (status : EfiStatus) :
    List LaunchResource :=
  if calls.launch.AsksIso ∧ status = .success then
    [.flow (.create (.backingFile calls.iso.create.file))]
  else if calls.launch.AsksSelfTest ∧ calls.selfTest.loop.Abandons then
    [.loopTest (.loop (.backingFile calls.selfTest.loop.create.file))]
  else
    []

section Dispatch

variable
  (files : FileProtocol FileSystem)
  {calls : LaunchCalls FileSystem}
  {machine : Machine}

theorem launchEntries_iso
    {program path : Text}
    {rest : List Text}
    (shell : calls.parameters.isError = false)
    (argv : calls.argv = program :: wide "-ISO" :: path :: rest) :
    launchEntries files calls machine =
      (mountRunIsoOwned calls.iso path
        ((⟨machine, []⟩ : Session).print .version)).2.map (.map .flow) := by
  have others :
      wide "-ISO" ≠ wide "-?" ∧ wide "-ISO" ≠ wide "-h" ∧
        wide "-ISO" ≠ wide "selftest" := by
    decide
  simp [launchEntries, shell, argv, others]

theorem launchEntries_selfTest
    (asks : calls.launch.AsksSelfTest) :
    launchEntries files calls machine =
      selfTestEntries files calls.selfTest machine := by
  have others :
      wide "selftest" ≠ wide "-?" ∧ wide "selftest" ≠ wide "-h" := by
    decide
  obtain ⟨shell, program, rest, argv⟩ := asks
  change calls.parameters.isError = false at shell
  change calls.argv = _ at argv
  simp [launchEntries, shell, argv, others]

/-- Without a path behind `-ISO` and without the self test, all is freed. -/
theorem launchEntries_settles
    (notIso : ¬ calls.launch.AsksIso)
    (notSelfTest : ¬ calls.launch.AsksSelfTest) :
    Settles (launchEntries files calls machine) [] := by
  simp only [launchEntries]
  split
  case isTrue => exact .nil
  case isFalse shell =>
  have shell : calls.parameters.isError = false :=
    Bool.eq_false_iff.mpr shell
  split
  case h_1 | h_2 => exact .nil
  case h_3 argv =>
  split
  case isTrue => exact .nil
  case isFalse =>
  split
  case isTrue isSelfTest =>
    subst isSelfTest
    exact absurd ⟨shell, _, _, argv⟩ notSelfTest
  case isFalse =>
  split
  case isTrue isIso =>
    subst isIso
    split
    · exact .nil
    · exact absurd ⟨shell, _, _, _, argv⟩ notIso
  case isFalse =>
  split
  case h_2 => exact .nil
  case h_1 =>
  split
  case isFalse => exact .nil
  case isTrue =>
  split
  case h_1 => exact .nil
  case h_2 =>
    exact (mountRunFormatOwned_settles _ _ _).map
      fun _ _ same => LaunchResource.flow.inj same

/-- What a self test keeps, by whether it abandons its device. -/
theorem LoopTest.kept_eq
    {files : FileProtocol FileSystem}
    {outcomes : LoopTestOutcomes FileSystem}
    {before after : LoopDxe}
    {status : EfiStatus}
    {kept : List SelfTestResource}
    (test : LoopTest files outcomes before status after kept) :
    (outcomes.Abandons ∧
        kept = [.loop (.backingFile outcomes.create.file)]) ∨
      (¬ outcomes.Abandons ∧ kept = []) := by
  cases test with
  | unreached unreached =>
      exact .inr ⟨fun abandons => unreached abandons.reached, rfl⟩
  | uncreated _ failed =>
      exact .inr ⟨fun abandons => failed abandons.created, rfl⟩
  | tested _ _ takesAway =>
      exact .inr ⟨fun abandons => abandons.stuck takesAway, rfl⟩
  | abandoned reached succeeded stuck =>
      exact .inl ⟨⟨reached, succeeded, stuck⟩, rfl⟩

/-- The place of a resource in a launch. -/
def LaunchResource.stage : LaunchResource → Nat
  | driverFile _ =>
      0
  | loopTest _ =>
      1
  | flow _ =>
      2

/-- The self test keeps the backing file of a device that it abandons. -/
theorem selfTestEntries_settles
    {outcomes : SelfTestOutcomes FileSystem}
    (fresh : outcomes.loop.create.create.Fresh machine.dxe)
    (freshImage :
      machine.FreshImage outcomes.loop.create.factory.image) :
    ∃ kept status after,
      LoopTest files outcomes.loop machine.dxe status after kept ∧
        Settles (selfTestEntries files outcomes machine)
          (kept.map .loopTest) := by
  obtain ⟨kept, test, tested⟩ :=
    @loopDiskSelfTest_cases _ files outcomes.loop ⟨machine, []⟩ fresh
      freshImage
  have searched :
      SettlesBetween LaunchResource.stage 0 1
        ((driverFilesEntriesFrom outcomes.drivers 0 mFormats).map
          (Entry.map LaunchResource.driverFile)) [] :=
    .ofMap (fun _ _ same => LaunchResource.driverFile.inj same)
      (fun _ => rfl)
      (driverFilesEntriesFrom_settles outcomes.drivers 0 mFormats).settles
  have both :=
    searched.append
      (.ofMap (fun _ _ same => LaunchResource.loopTest.inj same)
        (fun _ => rfl) tested)
      (by omega)
  rw [List.append_nil] at both
  exact ⟨kept, _, _, test, both.settles⟩

/-- A launch keeps the backing file of a device that it leaves. -/
theorem launchStep_settles
    (admissible : calls.launch.Admissible machine) :
    Settles (launchEntries files calls machine)
      (calls.keeps (launchStep files machine calls.launch).1.status) := by
  rw [LaunchCalls.keeps]
  by_cases asksIso : calls.launch.AsksIso
  · obtain ⟨shell, program, path, rest, argv⟩ := asksIso
    have notSelfTest : ¬ calls.launch.AsksSelfTest :=
      Launch.Asks.notSelfTest (.iso shell argv)
    have settled :=
      (mountRunIsoOwned_settles calls.iso path
        ((⟨machine, []⟩ : Session).print .version)).map
        fun _ _ same => LaunchResource.flow.inj same
    have asksIso : calls.launch.AsksIso := ⟨shell, _, _, _, argv⟩
    have status :
        (launchStep files machine calls.launch).1.status =
          (mountRunIsoOwned calls.iso path
            ((⟨machine, []⟩ : Session).print .version)).1.1 := by
      rw [mountRunIsoOwned_erase, launchStep_command files (.iso shell argv)]
      rfl
    rw [← status] at settled
    rw [launchEntries_iso files shell argv]
    by_cases succeeded :
        (launchStep files machine calls.launch).1.status = .success
    · rw [if_pos succeeded] at settled
      rwa [if_pos ⟨asksIso, succeeded⟩]
    · rw [if_neg succeeded] at settled
      rwa [if_neg (fun asks => succeeded asks.2),
        if_neg (fun asks => notSelfTest asks.1)]
  · by_cases asksSelfTest : calls.launch.AsksSelfTest
    · obtain ⟨kept, _, _, test, settled⟩ :=
        @selfTestEntries_settles _ files machine calls.selfTest
          admissible.selfTestDevice admissible.selfTestImage
      rw [launchEntries_selfTest files asksSelfTest]
      rw [if_neg (fun asks => asksIso asks.1)]
      rcases test.kept_eq with ⟨abandons, rfl⟩ | ⟨restores, rfl⟩
      · rwa [if_pos ⟨asksSelfTest, abandons⟩]
      · rwa [if_neg (fun asks => restores asks.2)]
    · rw [if_neg (fun asks => asksIso asks.1),
        if_neg (fun asks => asksSelfTest asks.1)]
      exact launchEntries_settles files asksIso asksSelfTest

end Dispatch

end Launches

section Runs

variable {FileSystem : Type}

/-- The reply to a launch, with its ledger. -/
structure OwnedReply where
  reply : LaunchReply
  ledger : LaunchLedger

/-- The application with the ledgers of its launches. -/
def mountShellAppOwned
    (files : FileProtocol FileSystem) :
    ProcessRuns.Process Machine (LaunchCalls FileSystem) OwnedReply where
  admits machine calls := calls.launch.Admissible machine
  step machine calls :=
    let (reply, machine') := launchStep files machine calls.launch
    (⟨reply, launchEntries files calls machine⟩, machine')

/-- The launches so far, with what they answered. -/
abbrev OwnedHistory (FileSystem : Type) :=
  List (LaunchCalls FileSystem × OwnedReply)

/-- One ledger for all launches, each of which has its own resources. -/
def OwnedHistory.ledger
    (history : OwnedHistory FileSystem) :
    List (Entry (Nat × LaunchResource)) :=
  history.zipIdx.flatMap fun ((_, owned), index) =>
    owned.ledger.map (.map (Prod.mk index))

/-- What the launches do not give back, the last launch first. -/
noncomputable def OwnedHistory.kept
    (history : OwnedHistory FileSystem) :
    List (Nat × LaunchResource) :=
  history.zipIdx.reverse.flatMap fun ((calls, owned), index) =>
    (calls.keeps owned.reply.status).map (Prod.mk index)

/-- The open file that a resource is, when it is what a device reads. -/
def LaunchResource.backingFile : LaunchResource → Option FileHandle
  | loopTest (.loop (.backingFile file)) =>
      some file
  | flow (.create (.backingFile file)) =>
      some file
  | _ =>
      none

/-- What any run of launches makes of what it obtains. -/
structure LaunchesSettle
    (after : LoopDxe)
    (history : OwnedHistory FileSystem) : Prop where
  wellFormed :
    after.WellFormed
  /-- The launches are the stages of one ledger. -/
  settles :
    SettlesBetween Prod.fst 0 history.length
      (OwnedHistory.ledger history) (OwnedHistory.kept history)
  /-- What is kept is the backing file of a live loop device. -/
  owned :
    ∀ index resource, (index, resource) ∈ OwnedHistory.kept history →
      ∃ handle disk,
        after.diskAt handle = some disk ∧
          resource.backingFile = some disk.backingFile

theorem OwnedHistory.ledger_append
    (history : OwnedHistory FileSystem)
    (calls : LaunchCalls FileSystem)
    (owned : OwnedReply) :
    OwnedHistory.ledger (history ++ [(calls, owned)]) =
      OwnedHistory.ledger history ++
        owned.ledger.map (.map (Prod.mk history.length)) := by
  simp [ledger, List.zipIdx_append]

theorem OwnedHistory.kept_append
    (history : OwnedHistory FileSystem)
    (calls : LaunchCalls FileSystem)
    (owned : OwnedReply) :
    OwnedHistory.kept (history ++ [(calls, owned)]) =
      (calls.keeps owned.reply.status).map (Prod.mk history.length) ++
        OwnedHistory.kept history := by
  simp [kept, List.zipIdx_append]

/-- A launch keeps nothing but the file of the device that it leaves. -/
theorem LaunchCalls.leaves_of_keeps
    {calls : LaunchCalls FileSystem}
    {status : EfiStatus}
    {resource : LaunchResource}
    (isKept : resource ∈ calls.keeps status) :
    ∃ outcomes,
      calls.launch.leaves status = some outcomes ∧
        resource.backingFile = some outcomes.file := by
  rw [keeps] at isKept
  rw [Launch.leaves]
  split at isKept
  · rename_i mounted
    obtain rfl := List.mem_singleton.mp isKept
    exact ⟨_, if_pos mounted, rfl⟩
  · rename_i notMounted
    rw [if_neg notMounted]
    split at isKept
    · rename_i abandoned
      obtain rfl := List.mem_singleton.mp isKept
      exact ⟨_, if_pos abandoned, rfl⟩
    · exact absurd isKept List.not_mem_nil

/-- The device that a launch leaves is live and reads its file. -/
theorem DevicesAfter.diskAt_of_left
    {before after : LoopDxe}
    {outcomes : LoopCreateOutcomes}
    (devices : DevicesAfter before after (some outcomes)) :
    ∃ handle disk,
      after.diskAt handle = some disk ∧
        disk.backingFile = outcomes.file := by
  cases devices with
  | left describes installable keeps =>
      exact ⟨_, _, (keeps.device installable.device).diskAt_eq,
        describes.backingFile⟩

/-- A device that is live stays so. -/
theorem DevicesAfter.diskAt
    {before after : LoopDxe}
    {left : Option LoopCreateOutcomes}
    (devices : DevicesAfter before after left)
    (wellFormed : before.WellFormed)
    {handle : Handle}
    {disk : LoopDisk}
    (live : before.diskAt handle = some disk) :
    after.diskAt handle = some disk := by
  obtain ⟨_, _, _, device⟩ := wellFormed.diskAt_iff.mp live
  exact ((devices.registry wellFormed).2.2 device).diskAt_eq

/-- One more launch. -/
theorem LaunchesSettle.launch
    {files : FileProtocol FileSystem}
    {machine : Machine}
    {history : OwnedHistory FileSystem}
    (settled : LaunchesSettle machine.dxe history)
    {calls : LaunchCalls FileSystem}
    (admissible : calls.launch.Admissible machine) :
    let stepped := (mountShellAppOwned files).step machine calls
    LaunchesSettle stepped.2.dxe (history ++ [(calls, stepped.1)]) := by
  have devices :
      DevicesAfter machine.dxe (launchStep files machine calls.launch).2.dxe
        (calls.launch.leaves
          (launchStep files machine calls.launch).1.status) :=
    launchStep_devices files admissible
  have launched :
      SettlesBetween Prod.fst history.length (history.length + 1) _ _ :=
    .ofMap (fun _ _ same => (Prod.mk.inj same).2) (fun _ => rfl)
      (launchStep_settles files admissible)
  refine ⟨(devices.registry settled.wellFormed).1, ?_, ?_⟩
  · rw [OwnedHistory.ledger_append, OwnedHistory.kept_append,
      List.length_append]
    exact settled.settles.append launched
      ⟨Nat.zero_le _, Nat.le_succ _⟩
  · intro index resource isKept
    rw [OwnedHistory.kept_append] at isKept
    rcases List.mem_append.mp isKept with own | earlier
    · obtain ⟨_, keptNow, same⟩ := List.mem_map.mp own
      cases same
      obtain ⟨outcomes, leaves, file⟩ := LaunchCalls.leaves_of_keeps keptNow
      change calls.launch.leaves
        (launchStep files machine calls.launch).1.status = _ at leaves
      rw [leaves] at devices
      obtain ⟨handle, disk, live, reads⟩ := devices.diskAt_of_left
      exact ⟨handle, disk, live, reads ▸ file⟩
    · obtain ⟨handle, disk, live, reads⟩ :=
        settled.owned index resource earlier
      exact ⟨handle, disk, devices.diskAt settled.wellFormed live, reads⟩

/--
Over every run of launches everything that any of them obtains is obtained
once and given back once, but for the backing files of loop devices that are
still there.
-/
theorem launches_settle
    {files : FileProtocol FileSystem}
    {initial machine : Machine}
    {history : OwnedHistory FileSystem}
    (wellFormed : initial.dxe.WellFormed)
    (run : (mountShellAppOwned files).Run initial history machine) :
    LaunchesSettle machine.dxe history := by
  apply run.tracks
    (fun history machine => LaunchesSettle machine.dxe history)
  · exact ⟨wellFormed, .nil 0 0, fun _ _ absurdity =>
      absurd absurdity List.not_mem_nil⟩
  · intro history machine calls settled admissible
    exact settled.launch admissible

/-- The calls of a rescan that finds nothing. -/
def quietCalls : RescanCalls where
  blockIo := (.notFound, [])
  connects := fun _ => ⟨.notFound, [], []⟩
  locateShell := .notFound
  mapFs := (.notFound, [])
  nowFs := (.notFound, [])
  volume := fun _ =>
    ⟨.notFound, none, .notFound, .notFound, false, .notFound, []⟩

/-- The calls of `mount -ISO disk.iso`. -/
def isoCalls : LaunchCalls (FileHandle → Nat) where
  parameters := isoLaunch.parameters
  argv := isoLaunch.argv
  selfTest := isoLaunch.selfTest
  iso := {
    oldFs := (.notFound, [])
    create := sevensCreate
    scan := completeScan
    load := loadAnswering 2 .success .success
    connect := ⟨.success, [], []⟩
    rescan := quietCalls
  }
  format :=
    ⟨(.notFound, []), completeScan, loadAnswering 2 .success .success,
      quietCalls⟩

/-- One launch, which leaves the file of its device open. -/
theorem launches_settle_isoCalls :
    ∃ history machine,
      (mountShellAppOwned (memoryFiles fun _ => List.replicate 65536 7)).Run
          firstMount.machine history machine ∧
        OwnedHistory.kept history =
          [(0, .flow (.create (.backingFile 7)))] ∧
        LaunchesSettle machine.dxe history := by
  let app :=
    mountShellAppOwned (memoryFiles fun _ => List.replicate 65536 7)
  have admitted : app.admits firstMount.machine isoCalls :=
    isoLaunch_admissible
  have run : app.Run firstMount.machine _ _ :=
    ProcessRuns.Process.Run.start.extend admitted
  refine ⟨_, _, run, ?_, launches_settle firstMount_wellFormed run⟩
  have succeeded :
      isoCalls.keeps
          (app.step firstMount.machine isoCalls).1.reply.status =
        [.flow (.create (.backingFile 7))] :=
    if_pos ⟨⟨rfl, _, _, _, rfl⟩, isoLaunch_succeeds⟩
  rw [OwnedHistory.kept_append, succeeded]
  rfl

end Runs

end UefiMount
