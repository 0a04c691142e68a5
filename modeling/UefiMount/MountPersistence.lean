import UefiMount.DriverDedupe
import UefiMount.MountMain

namespace UefiMount

/-!
# Mounts survive

A mount is there to outlive the application.  Over every run of launches, with
self tests and failures among them, the loop devices are those that successful
`-ISO` launches created, and those of self tests that could not take theirs
away; no launch ever changes or removes one.  A device therefore gives back its
image file after whatever launches come behind its own.
-/

namespace LoopDxe

/-- Every device is exactly as it was, and there is no other. -/
structure KeepsDevices (before after : LoopDxe) : Prop where
  pool :
    after.pool = before.pool
  device :
    ∀ {handle diskAddress pathAddress disk path},
      before.Device handle diskAddress pathAddress disk path →
      after.Device handle diskAddress pathAddress disk path
  known :
    ∀ {handle address},
      (after.handles handle).blockIo = some (.loop address) →
      (before.handles handle).blockIo = some (.loop address)

namespace KeepsDevices

variable {before middle after : LoopDxe}

theorem refl (dxe : LoopDxe) : dxe.KeepsDevices dxe where
  pool := rfl
  device := id
  known := id

theorem trans
    (earlier : before.KeepsDevices middle)
    (later : middle.KeepsDevices after) :
    before.KeepsDevices after where
  pool := later.pool.trans earlier.pool
  device := fun device => later.device (earlier.device device)
  known := fun blockIo => earlier.known (later.known blockIo)

/-- The sequence counter belongs to no device. -/
theorem setSeq (dxe : LoopDxe) (seq : UInt32) :
    dxe.KeepsDevices { dxe with mLoopSeq := seq } where
  pool := rfl
  device := fun device => { device with }
  known := id

theorem claim (dxe : LoopDxe) (claimed : Handle) :
    dxe.KeepsDevices (dxe.claim claimed) := by
  -- Only the file system flag of one handle may change.
  have interfaces (handle : Handle) :
      ∃ simpleFileSystem,
        (dxe.claim claimed).handles handle =
          { dxe.handles handle with
            simpleFileSystem := simpleFileSystem } := by
    simp only [LoopDxe.claim]
    split
    · by_cases isClaimed : handle = claimed
      · exact ⟨true, by simp [setHandle, isClaimed]⟩
      · exact ⟨(dxe.handles handle).simpleFileSystem,
          by simp [setHandle, isClaimed]⟩
    · exact ⟨_, rfl⟩
  have pool : (dxe.claim claimed).pool = dxe.pool := by
    simp only [LoopDxe.claim]
    split <;> rfl
  exact {
    pool := pool
    device := by
      intro handle diskAddress pathAddress disk path device
      obtain ⟨_, same⟩ := interfaces handle
      exact {
        device with
        blockIo := by rw [same]; exact device.blockIo
        blockIo2 := by rw [same]; exact device.blockIo2
        devicePath := by rw [same]; exact device.devicePath
        diskBlock := by rw [pool]; exact device.diskBlock
        pathBlock := by rw [pool]; exact device.pathBlock
      }
    known := by
      intro handle address blockIo
      obtain ⟨_, same⟩ := interfaces handle
      rwa [same] at blockIo
  }

theorem addChild (dxe : LoopDxe) (child : ChildHandle) :
    dxe.KeepsDevices (dxe.addChild child) := by
  by_cases unused : dxe.handles child.handle = .unused
  · simp only [LoopDxe.addChild, unused, ↓reduceIte]
    exact {
      pool := rfl
      device := by
        intro handle diskAddress pathAddress disk path device
        have notChild : handle ≠ child.handle := by
          rintro rfl
          have blockIo := device.blockIo
          simp [unused, Protocols.unused] at blockIo
        exact {
          device with
          blockIo := by simpa [setHandle, notChild] using device.blockIo
          blockIo2 := by simpa [setHandle, notChild] using device.blockIo2
          devicePath := by
            simpa [setHandle, notChild] using device.devicePath
        }
      known := by
        intro handle address blockIo
        by_cases isChild : handle = child.handle
        · subst isChild
          exact absurd (by simpa [setHandle] using blockIo)
            (child.notLoop address)
        · simpa [setHandle, isChild] using blockIo
    }
  · simp only [LoopDxe.addChild, unused, ↓reduceIte]
    exact .refl dxe

/-- A fold whose steps keep the devices keeps them. -/
theorem foldl
    {bind : LoopDxe → β → LoopDxe}
    (step : ∀ (dxe : LoopDxe) item, dxe.KeepsDevices (bind dxe item))
    (items : List β)
    (dxe : LoopDxe) :
    dxe.KeepsDevices (items.foldl bind dxe) := by
  induction items generalizing dxe with
  | nil =>
      exact .refl dxe
  | cons item rest inductionHypothesis =>
      exact (step dxe item).trans (inductionHypothesis (bind dxe item))

/-- Drivers that bind change no loop device. -/
theorem connect (dxe : LoopDxe) (outcome : ConnectOutcome) :
    dxe.KeepsDevices (dxe.connect outcome) :=
  (foldl claim outcome.claimed dxe).trans
    (foldl addChild outcome.children _)

/-- In a well-formed driver no device is added. -/
theorem device_iff
    (keeps : before.KeepsDevices after)
    (wellFormed : before.WellFormed)
    {handle : Handle}
    {diskAddress pathAddress : Address}
    {disk : LoopDisk}
    {path : DevicePath} :
    after.Device handle diskAddress pathAddress disk path ↔
      before.Device handle diskAddress pathAddress disk path := by
  refine ⟨fun device => ?_, keeps.device⟩
  obtain ⟨oldPathAddress, oldDisk, oldPath, old⟩ :=
    wellFormed.device (keeps.known device.blockIo)
  have kept := keeps.device old
  have sameDisk : oldDisk = disk := by
    simpa using kept.diskBlock.symm.trans device.diskBlock
  have sameAddress : oldPathAddress = pathAddress := by
    simpa using kept.devicePath.symm.trans device.devicePath
  subst sameDisk sameAddress
  have samePath : oldPath = path := by
    simpa using kept.pathBlock.symm.trans device.pathBlock
  exact samePath ▸ old

/-- The ownership discipline is kept. -/
theorem wellFormed
    (keeps : before.KeepsDevices after)
    (wellFormed : before.WellFormed) :
    after.WellFormed where
  device := by
    intro handle address blockIo
    obtain ⟨pathAddress, disk, path, device⟩ :=
      wellFormed.device (keeps.known blockIo)
    exact ⟨pathAddress, disk, path, keeps.device device⟩
  pathOwner := fun first second =>
    wellFormed.pathOwner ((keeps.device_iff wellFormed).mp first)
      ((keeps.device_iff wellFormed).mp second)
  accounted := by
    intro address block allocated
    rw [keeps.pool] at allocated
    obtain ⟨handle, diskAddress, pathAddress, disk, path, device, owned⟩ :=
      wellFormed.accounted allocated
    exact ⟨handle, diskAddress, pathAddress, disk, path,
      keeps.device device, owned⟩

/-- The registry stays as it is. -/
theorem registry_eq
    (keeps : before.KeepsDevices after)
    (wellFormed : before.WellFormed) :
    after.registry = before.registry := by
  have afterwards := keeps.wellFormed wellFormed
  have disks : after.diskAt = before.diskAt := by
    funext handle
    apply Option.ext
    intro disk
    rw [afterwards.diskAt_iff, wellFormed.diskAt_iff]
    simp only [keeps.device_iff wellFormed]
  funext handle
  rw [registry, registry, disks]

end KeepsDevices

end LoopDxe

section Flows

/-- A driver load leaves the loop driver alone. -/
theorem mountLoadDriver_dxe
    (outcomes : LoadOutcomes)
    (driverFile : Text)
    (session : Session) :
    (mountLoadDriver outcomes (some driverFile) session).2.machine.dxe =
      session.machine.dxe := by
  have loaded (path : Text) (session : Session) :
      (session.loadImage driverFile path outcomes.load
        outcomes.image).machine.dxe = session.machine.dxe := by
    simp only [Session.loadImage]
    split <;> rfl
  have started (session : Session) :
      (session.startImage driverFile outcomes.image
        outcomes.start).machine.dxe = session.machine.dxe := by
    simp only [Session.startImage]
    split <;> rfl
  simp only [mountLoadDriver]
  split
  · rfl
  · split
    · rfl
    · split
      · exact loaded _ _
      · split
        · exact loaded _ _
        · split
          · exact loaded _ _
          · split
            · exact (started _).trans (loaded _ _)
            · exact (started _).trans (loaded _ _)

/-- The rescan only connects. -/
theorem mapConnectHandles_keeps
    (connects : Handle → ConnectOutcome)
    (listed : List Handle)
    (session : Session) :
    session.machine.dxe.KeepsDevices
      (mapConnectHandles connects listed session).machine.dxe := by
  induction listed generalizing session with
  | nil =>
      exact .refl _
  | cons handle rest inductionHypothesis =>
      simp only [mapConnectHandles]
      split
      · exact inductionHypothesis session
      · exact (LoopDxe.KeepsDevices.connect _ (connects handle)).trans
          (inductionHypothesis
            (session.connectController handle (connects handle)))

/-- The report prints and does nothing else. -/
theorem mapPrintNewVolumes_machine
    (oldFs : List Handle)
    (nowFs : EfiStatus × List Handle)
    (volume : Handle → VolumeOutcomes)
    (session : Session) :
    (mapPrintNewVolumes oldFs nowFs volume session).machine =
      session.machine := by
  have printed (new : List Handle) (session : Session) :
      (new.foldl
        (fun session handle => session.print (volumeLine (volume handle)))
        session).machine = session.machine := by
    induction new generalizing session with
    | nil =>
        rfl
    | cons handle rest inductionHypothesis =>
        exact inductionHypothesis _
  simp only [mapPrintNewVolumes]
  split
  · rfl
  · exact printed _ _

/-- Rescan, refresh and report keep the devices. -/
theorem rescanAndReport_keeps
    (outcomes : RescanOutcomes)
    (oldFs : List Handle)
    (session : Session) :
    session.machine.dxe.KeepsDevices
      (rescanAndReport outcomes oldFs session).machine.dxe := by
  simp only [rescanAndReport, mapPrintNewVolumes_machine,
    mapConnectAllControllers, Session.record]
  split
  · exact .refl _
  · split
    · exact .refl _
    · exact mapConnectHandles_keeps outcomes.connects outcomes.blockIo.2
        session

/-- The end of `MountRunIso` keeps the devices. -/
theorem connectIso_keeps
    (outcomes : IsoOutcomes)
    (loopHandle : Option Handle)
    (session : Session) :
    let connected := connectIso outcomes loopHandle session
    connected.1 = .success ∧
      session.machine.dxe.KeepsDevices connected.2.machine.dxe := by
  refine ⟨rfl, ?_⟩
  cases loopHandle with
  | none =>
      exact rescanAndReport_keeps _ _ _
  | some handle =>
      exact (LoopDxe.KeepsDevices.connect _ outcomes.connect).trans
        (rescanAndReport_keeps outcomes.rescan (oldSnapshot outcomes.oldFs)
          (session.connectController handle outcomes.connect))

/-- Behind the creation of its device, `MountRunIso` keeps the devices. -/
theorem mountRunIso_keeps
    (outcomes : IsoOutcomes)
    (isoPath : Text)
    (session : Session) :
    let created := loopCreate outcomes.create isoPath session
    let ran := mountRunIso outcomes isoPath session
    (ran.1 = .success ↔ created.1.status = .success) ∧
      created.2.machine.dxe.KeepsDevices ran.2.machine.dxe := by
  simp only [mountRunIso]
  generalize loopCreate outcomes.create isoPath session = created
  obtain ⟨created, later⟩ := created
  by_cases succeeded : created.status = .success
  · have unloaded :=
      mountLoadDriver_dxe outcomes.load isoDriverFile
        ((later.print (.loopCreated isoPath)).dedupe outcomes.scan
          isoDriverFile).2
    have finish (session : Session)
        (same : session.machine.dxe = later.machine.dxe) :
        let connected := connectIso outcomes created.loopHandle session
        (connected.1 = .success ↔ created.status = .success) ∧
          later.machine.dxe.KeepsDevices connected.2.machine.dxe := by
      obtain ⟨status, keeps⟩ :=
        connectIso_keeps outcomes created.loopHandle session
      rw [same] at keeps
      exact ⟨⟨fun _ => succeeded, fun _ => status⟩, keeps⟩
    simp only [succeeded, ne_eq, not_true_eq_false, ↓reduceIte]
      at finish ⊢
    split
    · split
      · exact finish _ rfl
      · split
        · refine ⟨by simp, ?_⟩
          change later.machine.dxe.KeepsDevices
            (mountLoadDriver outcomes.load (some isoDriverFile)
              _).2.machine.dxe
          rw [unloaded]
          exact .refl _
        · exact finish _ unloaded
    · exact finish _ rfl
  · rw [if_pos succeeded]
    exact ⟨.rfl, .refl _⟩

/-- `MountRunFormat` keeps the devices. -/
theorem mountRunFormat_keeps
    (outcomes : FormatOutcomes)
    (entry : Option MountFormatEntry)
    (session : Session) :
    session.machine.dxe.KeepsDevices
      (mountRunFormat outcomes entry session).2.machine.dxe := by
  cases entry with
  | none =>
      exact .refl _
  | some entry =>
      have unloaded :=
        mountLoadDriver_dxe outcomes.load entry.driverFile
          (session.dedupe outcomes.scan entry.driverFile).2
      simp only [mountRunFormat]
      split
      · exact rescanAndReport_keeps outcomes.rescan
          (oldSnapshot outcomes.oldFs)
          ((session.dedupe outcomes.scan entry.driverFile).2.print
            (.driverAlreadyLoaded entry.name))
      · split
        · rw [unloaded]
          exact .refl _
        · have keeps :=
            rescanAndReport_keeps outcomes.rescan
              (oldSnapshot outcomes.oldFs)
              (mountLoadDriver outcomes.load (some entry.driverFile)
                (session.dedupe outcomes.scan entry.driverFile).2).2
          rw [unloaded] at keeps
          exact keeps

end Flows

section Launches

variable {FileSystem : Type}

/-- The arguments ask for `-ISO` with a path. -/
def Launch.AsksIso (launch : Launch FileSystem) : Prop :=
  launch.parameters.isError = false ∧
    ∃ program path rest,
      launch.argv = program :: wide "-ISO" :: path :: rest

section Questions

variable {launch : Launch FileSystem}

theorem Launch.AsksSelfTest.notIso
    (asks : launch.AsksSelfTest) :
    ¬ launch.AsksIso := by
  have other : wide "selftest" ≠ wide "-ISO" := by decide
  obtain ⟨_, _, _, argv⟩ := asks
  rintro ⟨_, _, _, _, same⟩
  simp [argv, other] at same

theorem Launch.Asks.notSelfTest
    {command : Command}
    (asks : launch.Asks command) :
    ¬ launch.AsksSelfTest := by
  rintro ⟨_, _, _, same⟩
  have isoOther : wide "-ISO" ≠ wide "selftest" := by decide
  have dashOther : some dash ≠ (wide "selftest").head? := by decide
  cases asks with
  | iso shell argv =>
      simp [argv, isoOther] at same
  | format shell argv notHelp notIso =>
      simp only [argv, List.cons.injEq] at same
      rw [← same.2.1] at dashOther
      exact dashOther rfl

end Questions

open Classical in
/-- The creation whose device a launch leaves behind, if it leaves one. -/
noncomputable def Launch.leaves
    (launch : Launch FileSystem)
    (status : EfiStatus) :
    Option LoopCreateOutcomes :=
  if launch.AsksIso ∧ status = .success then
    some launch.iso.create
  else if launch.AsksSelfTest ∧ launch.selfTest.loop.Abandons then
    some launch.selfTest.loop.create
  else
    none

/-- What a launch does to the devices. -/
inductive DevicesAfter
    (before after : LoopDxe) :
    Option LoopCreateOutcomes → Prop where
  | kept
      (keeps : before.KeepsDevices after) :
      DevicesAfter before after none
  | left
      {outcomes : LoopCreateOutcomes}
      {diskAddress pathAddress : Address}
      {disk : LoopDisk}
      {path : DevicePath}
      (describes : outcomes.Describes disk)
      (installable :
        before.Installable outcomes.create.newHandle diskAddress
          pathAddress disk path)
      (keeps :
        (before.addDevice outcomes.create.newHandle diskAddress
          pathAddress disk path).KeepsDevices after) :
      DevicesAfter before after (some outcomes)

/-- What `mount -ISO` does to the devices. -/
theorem mountStep_iso_devices
    {machine : Machine}
    {path : Text}
    {outcomes : IsoOutcomes}
    (fresh : outcomes.create.create.Fresh machine.dxe) :
    let stepped := mountStep machine (.iso path outcomes)
    DevicesAfter machine.dxe stepped.2.dxe
      (if stepped.1.status = .success then some outcomes.create
      else none) := by
  intro stepped
  obtain ⟨status_iff, keeps⟩ :=
    mountRunIso_keeps outcomes path
      ((⟨machine, []⟩ : Session).print .version)
  have status :
      stepped.1.status =
        (mountRunIso outcomes path
          ((⟨machine, []⟩ : Session).print .version)).1 :=
    rfl
  have dxe :
      stepped.2.dxe =
        (mountRunIso outcomes path
          ((⟨machine, []⟩ : Session).print .version)).2.machine.dxe :=
    rfl
  rw [status, dxe]
  rcases @loopCreate_dxe outcomes.create
      ((⟨machine, []⟩ : Session).print .version) fresh path with
    ⟨succeeded, _, diskAddress, pathAddress, disk, devicePath, describes,
      installable, installed⟩ |
    ⟨failed, _, seq, same⟩
  · rw [if_pos (status_iff.mpr succeeded)]
    rw [installed] at keeps
    exact .left describes installable keeps
  · rw [if_neg (fun succeeded => failed (status_iff.mp succeeded))]
    rw [same] at keeps
    exact .kept ((LoopDxe.KeepsDevices.setSeq machine.dxe seq).trans keeps)

/-- What `mount -<FORMAT>` does to the devices. -/
theorem mountStep_format_devices
    (machine : Machine)
    (name : Text)
    (outcomes : FormatOutcomes) :
    machine.dxe.KeepsDevices
      (mountStep machine (.format name outcomes)).2.dxe := by
  simp only [mountStep, uefiMain]
  cases mountFindFormat name with
  | none =>
      have printed := foldl_print
        (.helpTitle :: helpLines.map .helpText ++ mFormats.map .helpFormat)
        (((⟨machine, []⟩ : Session).print .version).print
          (.unknownFormat name))
      simp only [printHelp, printed]
      exact .refl _
  | some entry =>
      exact mountRunFormat_keeps outcomes (some entry)
        ((⟨machine, []⟩ : Session).print .version)

/-- What the self test does to the devices is what it leaves. -/
theorem selfTest_devices
    (files : FileProtocol FileSystem)
    {machine : Machine}
    {launch : Launch FileSystem}
    (admissible : launch.Admissible machine)
    (asks : launch.AsksSelfTest)
    (status : EfiStatus) :
    DevicesAfter machine.dxe
      (loopDiskSelfTest files launch.selfTest.loop
        ⟨machine, []⟩).session.machine.dxe
      (launch.leaves status) := by
  rw [Launch.leaves, if_neg (fun asked => asks.notIso asked.1)]
  obtain ⟨kept, test, _⟩ :=
    @loopDiskSelfTest_cases _ files launch.selfTest.loop
      ⟨machine, []⟩ admissible.selfTestDevice admissible.selfTestImage
  generalize loopDiskSelfTest files launch.selfTest.loop ⟨machine, []⟩ =
    loop at test ⊢
  obtain ⟨loopStatus, ⟨⟨dxe, _, _⟩, _⟩, _⟩ := loop
  dsimp only at test ⊢
  cases test with
  | unreached unreached _ =>
      rw [if_neg (fun asked => unreached asked.2.reached)]
      exact .kept (.refl _)
  | uncreated _ uncreated seq =>
      rw [if_neg (fun asked => uncreated asked.2.created)]
      exact .kept (.setSeq _ _)
  | tested _ _ takesAway _ =>
      rw [if_neg (fun asked => asked.2.stuck takesAway)]
      exact .kept (.setSeq _ _)
  | abandoned reached succeeded stuck describes installable =>
      rw [if_pos ⟨asks, reached, succeeded, stuck⟩]
      exact .left describes installable (.refl _)

/-- What a launch does to the devices is what it says it leaves. -/
theorem launchStep_devices
    (files : FileProtocol FileSystem)
    {machine : Machine}
    {launch : Launch FileSystem}
    (admissible : launch.Admissible machine) :
    let stepped := launchStep files machine launch
    DevicesAfter machine.dxe stepped.2.dxe
      (launch.leaves stepped.1.status) := by
  obtain ⟨status, events, after, run, answer⟩ :=
    launchStep_cases files admissible
  rw [answer]
  dsimp only
  -- A launch that asks for neither leaves nothing.
  have nothing
      (notIso : ¬ launch.AsksIso)
      (notSelfTest : ¬ launch.AsksSelfTest)
      (keeps : machine.dxe.KeepsDevices after.dxe) :
      DevicesAfter machine.dxe after.dxe (launch.leaves status) := by
    rw [Launch.leaves, if_neg (fun asks => notIso asks.1),
      if_neg (fun asks => notSelfTest asks.1)]
    exact .kept keeps
  cases run with
  | noShell noParameters =>
      refine nothing ?_ ?_ (.refl _)
      · rintro ⟨shell, _⟩
        simp [noParameters] at shell
      · rintro ⟨shell, _⟩
        simp [noParameters] at shell
  | listing shell few =>
      refine nothing ?_ ?_ (.refl _)
      · rintro ⟨_, program, path, rest, argv⟩
        simp [argv] at few
      · rintro ⟨_, program, rest, argv⟩
        simp [argv] at few
  | help shell argv isHelp =>
      have others :
          (wide "-ISO" ≠ wide "-?" ∧ wide "-ISO" ≠ wide "-h") ∧
            wide "selftest" ≠ wide "-?" ∧ wide "selftest" ≠ wide "-h" := by
        decide
      refine nothing ?_ ?_ (.refl _)
      · rintro ⟨_, _, _, _, same⟩
        simp only [argv, List.cons.injEq] at same
        simp [same.2.1, others] at isHelp
      · rintro ⟨_, _, _, same⟩
        simp only [argv, List.cons.injEq] at same
        simp [same.2.1, others] at isHelp
  | isoNeedsPath shell argv =>
      have other : wide "-ISO" ≠ wide "selftest" := by decide
      refine nothing ?_ ?_ (.refl _)
      · rintro ⟨_, _, _, _, same⟩
        simp [argv] at same
      · rintro ⟨_, _, _, same⟩
        simp [argv, other] at same
  | unknownOption shell argv noOption notSelfTest =>
      have isoDash : (wide "-ISO").head? = some dash := by decide
      refine nothing ?_ ?_ (.refl _)
      · rintro ⟨_, _, _, _, same⟩
        simp only [argv, List.cons.injEq] at same
        rw [same.2.1] at noOption
        exact noOption isoDash
      · rintro ⟨_, _, _, same⟩
        simp only [argv, List.cons.injEq] at same
        exact notSelfTest same.2.1
  | @selfTest asks loop isLoop status passes events =>
      subst isLoop
      exact selfTest_devices files admissible asks status
  | @command command asks status events after stepped run =>
      have notSelfTest := asks.notSelfTest
      cases asks with
      | @iso _ path _ shell argv =>
          have devices :=
            @mountStep_iso_devices _ path _ (admissible.iso path).1
          have asksIso : launch.AsksIso := ⟨shell, _, _, _, argv⟩
          rw [stepped] at devices
          simpa [Launch.leaves, asksIso, notSelfTest] using devices
      | @format _ name _ shell argv notHelp notIso =>
          have keeps :=
            mountStep_format_devices machine name launch.format
          rw [stepped] at keeps
          refine nothing ?_ notSelfTest keeps
          rintro ⟨_, _, _, _, same⟩
          simp only [argv, List.cons.injEq] at same
          exact notIso same.2.1

end Launches

section Runs

variable {FileSystem : Type}

/-- One more mount. -/
def LoopRegistry.mount
    (registry : LoopRegistry)
    (outcomes : LoopCreateOutcomes) :
    LoopRegistry :=
  Function.update registry outcomes.create.newHandle
    (some ⟨outcomes.file, loopLastBlock outcomes.fileSize⟩)

/-- The mounts behind a launch that leaves a device or none. -/
def LoopRegistry.leave (registry : LoopRegistry) :
    Option LoopCreateOutcomes → LoopRegistry
  | none =>
      registry
  | some outcomes =>
      registry.mount outcomes

/-- The mounts after a history of launches. -/
noncomputable def LoopRegistry.ofLaunches
    (registry : LoopRegistry)
    (history : List (Launch FileSystem × LaunchReply)) :
    LoopRegistry :=
  history.foldl
    (fun registry (launch, reply) =>
      registry.leave (launch.leaves reply.status))
    registry

theorem LoopRegistry.ofLaunches_append
    (registry : LoopRegistry)
    (history : List (Launch FileSystem × LaunchReply))
    (launch : Launch FileSystem)
    (reply : LaunchReply) :
    registry.ofLaunches (history ++ [(launch, reply)]) =
      (registry.ofLaunches history).leave
        (launch.leaves reply.status) := by
  simp [ofLaunches]

/-- What a launch leaves of the driver, the registry and the devices. -/
theorem DevicesAfter.registry
    {before after : LoopDxe}
    {left : Option LoopCreateOutcomes}
    (devices : DevicesAfter before after left)
    (wellFormed : before.WellFormed) :
    after.WellFormed ∧
      after.registry = before.registry.leave left ∧
      ∀ {handle diskAddress pathAddress disk path},
        before.Device handle diskAddress pathAddress disk path →
        after.Device handle diskAddress pathAddress disk path := by
  cases devices with
  | kept keeps =>
      exact ⟨keeps.wellFormed wellFormed, keeps.registry_eq wellFormed,
        keeps.device⟩
  | @left outcomes _ _ _ _ describes installable keeps =>
      have installed := wellFormed.addDevice installable
      refine ⟨keeps.wellFormed installed, ?_, fun device =>
        keeps.device (installable.device_of_device device)⟩
      rw [keeps.registry_eq installed]
      funext handle
      simp only [LoopDxe.registry, LoopRegistry.leave, LoopRegistry.mount,
        installable.diskAt_addDevice wellFormed]
      by_cases isNew : handle = outcomes.create.newHandle
      · simp [isNew, describes.backingFile, describes.lastBlock]
      · simp [isNew, LoopDxe.registry]

/-- What any run of launches makes of the devices. -/
structure MountsPersist
    (before after : LoopDxe)
    (history : List (Launch FileSystem × LaunchReply)) : Prop where
  wellFormed :
    after.WellFormed
  /-- The devices are those that were there and those that were left. -/
  registry :
    after.registry = before.registry.ofLaunches history
  /-- A device that was there still is, with its disk and its path. -/
  device :
    ∀ {handle diskAddress pathAddress disk path},
      before.Device handle diskAddress pathAddress disk path →
      after.Device handle diskAddress pathAddress disk path

/--
Over every run of launches the loop devices are the ones that were there and
the ones that the launches left, and none of them ever changes.
-/
theorem mounts_persist
    {files : FileProtocol FileSystem}
    {initial machine : Machine}
    {history : List (Launch FileSystem × LaunchReply)}
    (wellFormed : initial.dxe.WellFormed)
    (run : (mountShellApp files).Run initial history machine) :
    MountsPersist initial.dxe machine.dxe history := by
  apply run.tracks
    (fun history machine => MountsPersist initial.dxe machine.dxe history)
  · exact ⟨wellFormed, rfl, id⟩
  · intro history machine launch persists admissible
    obtain ⟨wellFormed', registry, device⟩ :=
      (launchStep_devices files admissible).registry persists.wellFormed
    refine ⟨wellFormed', ?_, fun old => device (persists.device old)⟩
    rw [LoopRegistry.ofLaunches_append, ← persists.registry]
    exact registry

/-- A successful `-ISO` launch has created its device. -/
theorem Launch.Admissible.isoSucceeds
    {files : FileProtocol FileSystem}
    {machine : Machine}
    {launch : Launch FileSystem}
    (admissible : launch.Admissible machine)
    (asks : launch.AsksIso)
    (succeeded :
      (launchStep files machine launch).1.status = .success) :
    launch.iso.create.Succeeds := by
  obtain ⟨shell, program, path, rest, argv⟩ := asks
  obtain ⟨freshDevice, freshDriver, _⟩ := admissible.iso path
  rw [launchStep_command files (.iso shell argv)] at succeeded
  obtain ⟨status_iff, _⟩ :=
    mountRunIso_keeps launch.iso path
      ((⟨machine, []⟩ : Session).print .version)
  exact (@loopCreate_success_iff launch.iso.create
    ((⟨machine, []⟩ : Session).print .version) freshDevice freshDriver
    path).mp (status_iff.mp succeeded)

/--
The device of a successful `-ISO` launch reads its image faithfully, whatever
launches have come behind.
-/
theorem mounted_reads
    {files : FileProtocol FileSystem}
    {content : FileHandle → List UInt8}
    {position : FileSystem → FileHandle → Nat}
    (faithful : files.Faithful content position)
    {machine later : Machine}
    {launch : Launch FileSystem}
    {history : List (Launch FileSystem × LaunchReply)}
    (wellFormed : machine.dxe.WellFormed)
    (admissible : launch.Admissible machine)
    (asks : launch.AsksIso)
    (succeeded :
      (launchStep files machine launch).1.status = .success)
    (sized :
      (content launch.iso.create.file).length =
        launch.iso.create.fileSize.toNat)
    (run :
      (mountShellApp files).Run (launchStep files machine launch).2
        history later) :
    ∃ disk,
      later.dxe.diskAt launch.iso.create.create.newHandle = some disk ∧
        disk.backingFile = launch.iso.create.file ∧
        ∀ mediaId lba bufferSize buffer fileSystem,
          let outcome :=
            loopReadBlocks files disk mediaId lba bufferSize buffer
              fileSystem
          ReadFidelity (content launch.iso.create.file) disk mediaId lba
            bufferSize buffer outcome.status outcome.buffer := by
  obtain ⟨_, accepted⟩ :=
    (admissible.isoSucceeds asks succeeded).accepted
  have devices :
      DevicesAfter machine.dxe (launchStep files machine launch).2.dxe
        (launch.leaves (launchStep files machine launch).1.status) :=
    launchStep_devices files admissible
  have leaves :
      launch.leaves (launchStep files machine launch).1.status =
        some launch.iso.create := by
    simp [Launch.leaves, asks, succeeded]
  have afterwards := (devices.registry wellFormed).1
  rw [leaves] at devices
  generalize (launchStep files machine launch).2 = mounted
    at run devices afterwards
  cases devices with
  | @left _ diskAddress pathAddress disk path describes installable keeps =>
      have device :=
        (mounts_persist afterwards run).device
          (keeps.device installable.device)
      refine ⟨disk, device.diskAt_eq, describes.backingFile, ?_⟩
      intro mediaId lba bufferSize buffer fileSystem
      have geometry :
          LoopGeometry (content disk.backingFile) disk.lastBlock := by
        rw [describes.backingFile, describes.lastBlock]
        exact ⟨_, sized, UInt64.not_lt.mp accepted.large, rfl⟩
      rw [← describes.backingFile]
      exact loopReadBlocks_fidelity faithful geometry mediaId lba
        bufferSize buffer fileSystem

/-- A creation that works over a file of 65536 bytes with the value 7. -/
def sevensCreate : LoopCreateOutcomes :=
  workingCreate 65536 (List.replicate 12288 7)

/-- `mount -ISO disk.iso` over an image of 32 blocks. -/
def isoLaunch : Launch (FileHandle → Nat) where
  parameters := .success
  argv := [wide "mount", wide "-ISO", wide "disk.iso"]
  selfTest := ⟨fun _ => runningFrom [], workingLoopTest .success⟩
  iso := {
    oldFs := (.notFound, [])
    create := sevensCreate
    scan := completeScan
    load := loadAnswering 2 .success .success
    connect := ⟨.success, [], []⟩
    rescan := quietRescan
  }
  format :=
    ⟨(.notFound, []), completeScan, loadAnswering 2 .success .success,
      quietRescan⟩

theorem isoLaunch_admissible : isoLaunch.Admissible firstMount.machine := by
  have noImage (image : Handle) : firstMount.machine.FreshImage image :=
    fun _ absent => absurd absent List.not_mem_nil
  exact {
    selfTestDevice := workingCreate_fresh 32768 []
    selfTestImage := noImage _
    iso := fun _ =>
      ⟨workingCreate_fresh 65536 _, noImage _, noImage _, by decide⟩
    format := fun _ => noImage _
  }

theorem isoLaunch_succeeds :
    (launchStep (memoryFiles fun _ => List.replicate 65536 7)
      firstMount.machine isoLaunch).1.status = .success := by
  decide +kernel

/-- The mount of one launch. -/
theorem mounts_persist_isoLaunch :
    ∃ history machine,
      (mountShellApp (memoryFiles fun _ => List.replicate 65536 7)).Run
          firstMount.machine history machine ∧
        history ≠ [] ∧
        MountsPersist firstMount.machine.dxe machine.dxe history := by
  let app := mountShellApp (memoryFiles fun _ => List.replicate 65536 7)
  have run : app.Run firstMount.machine _ _ :=
    ProcessRuns.Process.Run.start.extend isoLaunch_admissible
  exact ⟨_, _, run, by simp, mounts_persist firstMount_wellFormed run⟩

/-- `mount -ISO disk2.iso` behind that launch, which gets handle 1. -/
def nextLaunch : Launch (FileHandle → Nat) :=
  let create : CreateOutcomes := ⟨some 2, some 3, .success, 1⟩
  { isoLaunch with
    argv := [wide "mount", wide "-ISO", wide "disk2.iso"]
    selfTest.loop.create.create := create
    iso.create :=
      { sevensCreate with
        file := 8
        fileDevicePath := some [.filePath (wide "\\disk2.iso")]
        create := create } }

theorem nextLaunch_admissible :
    nextLaunch.Admissible
      (launchStep (memoryFiles fun _ => List.replicate 65536 7)
        firstMount.machine isoLaunch).2 := by
  let machine :=
    (launchStep (memoryFiles fun _ => List.replicate 65536 7)
      firstMount.machine isoLaunch).2
  have noImages : machine.images = [] := by decide +kernel
  have noImage (image : Handle) : machine.FreshImage image := by
    simp [Machine.FreshImage, noImages]
  have fresh : nextLaunch.iso.create.create.Fresh machine.dxe := {
    disk := by
      rintro address isDisk
      obtain rfl := Option.some.inj isDisk
      exact Option.isNone_iff_eq_none.mp (by decide +kernel)
    path := by
      rintro address isPath
      obtain rfl := Option.some.inj isPath
      exact ⟨Option.isNone_iff_eq_none.mp (by decide +kernel), by decide⟩
    handle := by decide +kernel
  }
  exact {
    selfTestDevice := fresh
    selfTestImage := noImage _
    iso := fun _ => ⟨fresh, noImage _, noImage _, by decide⟩
    format := fun _ => noImage _
  }

/-- Reads of the first mount behind the second one. -/
theorem mounted_reads_isoLaunch :
    let files := memoryFiles fun _ => List.replicate 65536 7
    let machine := (launchStep files firstMount.machine isoLaunch).2
    ∃ reply later disk,
      (mountShellApp files).Run machine [(nextLaunch, reply)] later ∧
        reply.status = .success ∧
        (later.dxe.diskAt 1).isSome = true ∧
        later.dxe.diskAt 0 = some disk ∧
        disk.backingFile = 7 ∧
        ∀ mediaId lba bufferSize buffer fileSystem,
          let outcome :=
            loopReadBlocks files disk mediaId lba bufferSize buffer
              fileSystem
          ReadFidelity (List.replicate 65536 7) disk mediaId lba
            bufferSize buffer outcome.status outcome.buffer := by
  intro files machine
  have run :
      (mountShellApp files).Run machine [(nextLaunch, _)] _ :=
    ProcessRuns.Process.Run.start.extend nextLaunch_admissible
  obtain ⟨disk, live, file, reads⟩ :=
    mounted_reads
      (memoryFiles_faithful fun _ => List.replicate 65536 7)
      firstMount_wellFormed isoLaunch_admissible
      ⟨rfl, _, _, _, rfl⟩ isoLaunch_succeeds
      (show (List.replicate 65536 (7 : UInt8)).length = 65536 from
        List.length_replicate)
      run
  exact ⟨_, _, disk, run, by decide +kernel, by decide +kernel, live, file,
    reads⟩

end Runs

end UefiMount
