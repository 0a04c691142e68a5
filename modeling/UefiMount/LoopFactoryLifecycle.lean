import UefiMount.LoopFactoryOwnership

namespace UefiMount

/-!
# Life cycle of loop devices

The purpose of the factory is a registry: a Create binds a new handle to a
backing file and a geometry, a Destroy takes the binding away and hands the
file back.  `LoopRegistry` is that purpose, computed from the calls and their
replies alone.  The driver state refines it over every run.
-/

/-- What one live loop device was created over. -/
structure LoopBinding where
  backingFile : FileHandle
  lastBlock : UInt64
  deriving Repr, DecidableEq

/-- The live loop devices and what each was created over. -/
abbrev LoopRegistry := Handle → Option LoopBinding

namespace LoopRegistry

/-- The registry after one answered call. -/
def record (registry : LoopRegistry) :
    FactoryCall × FactoryReply → LoopRegistry
  | (.create _ backingFile _ lastBlock _, .created result) =>
      match backingFile, result.loopHandle with
      | some backingFile, some handle =>
          if result.status = .success then
            Function.update registry handle (some ⟨backingFile, lastBlock⟩)
          else
            registry
      | _, _ =>
          registry
  | (.destroy _ loopHandle _, .destroyed result) =>
      match loopHandle with
      | some handle =>
          if result.status = .success then
            Function.update registry handle none
          else
            registry
      | none =>
          registry
  | _ =>
      registry

/-- Successful Creates minus successful Destroys. -/
def ofHistory (history : List (FactoryCall × FactoryReply)) : LoopRegistry :=
  history.foldl record fun _ => none

theorem ofHistory_append
    (history : List (FactoryCall × FactoryReply))
    (answered : FactoryCall × FactoryReply) :
    ofHistory (history ++ [answered]) =
      (ofHistory history).record answered := by
  simp [ofHistory]

end LoopRegistry

namespace LoopDxe

/-- The registry that the driver state implements. -/
def registry (dxe : LoopDxe) : LoopRegistry :=
  fun handle =>
    (dxe.diskAt handle).map fun disk => ⟨disk.backingFile, disk.lastBlock⟩

variable {dxe : LoopDxe}
  {handle : Handle}
  {diskAddress pathAddress : Address}
  {disk : LoopDisk}
  {path : DevicePath}

theorem Device.registry_eq
    (device : dxe.Device handle diskAddress pathAddress disk path) :
    dxe.registry handle = some ⟨disk.backingFile, disk.lastBlock⟩ := by
  simp [registry, device.diskAt_eq]

/-- Installing a device changes the live disk of its own handle only. -/
theorem Installable.diskAt_addDevice
    (wellFormed : dxe.WellFormed)
    (installable :
      dxe.Installable handle diskAddress pathAddress disk path) :
    (dxe.addDevice handle diskAddress pathAddress disk path).diskAt =
      Function.update dxe.diskAt handle (some disk) := by
  have afterwards := wellFormed.addDevice installable
  funext other
  apply Option.ext
  intro found
  by_cases isNew : other = handle
  · subst isNew
    simp [installable.device.diskAt_eq]
  · rw [Function.update_of_ne isNew, afterwards.diskAt_iff,
      wellFormed.diskAt_iff]
    constructor
    · rintro ⟨otherDisk, otherPath, otherBlock, device⟩
      rcases installable.device_cases wellFormed device with
        ⟨sameHandle, _⟩ | old
      · exact (isNew sameHandle).elim
      · exact ⟨otherDisk, otherPath, otherBlock, old⟩
    · rintro ⟨otherDisk, otherPath, otherBlock, device⟩
      exact ⟨otherDisk, otherPath, otherBlock,
        installable.device_of_device device⟩

/-- Removing a device changes the live disk of its own handle only. -/
theorem WellFormed.diskAt_removeDevice
    (wellFormed : dxe.WellFormed)
    (device : dxe.Device handle diskAddress pathAddress disk path) :
    (dxe.removeDevice handle diskAddress pathAddress).diskAt =
      Function.update dxe.diskAt handle none := by
  have afterwards := wellFormed.removeDevice device
  funext other
  apply Option.ext
  intro found
  by_cases isRemoved : other = handle
  · subst isRemoved
    have bare :
        ((dxe.removeDevice other diskAddress pathAddress).handles
          other).blockIo = none := by
      simp [LoopDxe.removeDevice]
    simp only [diskAt, bare, Function.update_self]
    simp
  · rw [Function.update_of_ne isRemoved, afterwards.diskAt_iff,
      wellFormed.diskAt_iff]
    constructor
    · rintro ⟨otherDisk, otherPath, otherBlock, kept⟩
      obtain ⟨_, oldPath, oldFound, oldBlock, old, oldKept⟩ :=
        wellFormed.device_cases_removed device kept.blockIo
      have sameFound : oldFound = found := by
        simpa using oldKept.diskBlock.symm.trans kept.diskBlock
      subst sameFound
      exact ⟨otherDisk, oldPath, oldBlock, old⟩
    · rintro ⟨otherDisk, otherPath, otherBlock, old⟩
      exact ⟨otherDisk, otherPath, otherBlock,
        wellFormed.device_of_device_removed device old isRemoved⟩

end LoopDxe

/-- The device that a successful Create is about to install is installable. -/
theorem CreateOutcomes.Fresh.installable
    {dxe : LoopDxe}
    {outcomes : CreateOutcomes}
    (fresh : outcomes.Fresh dxe)
    {diskAddress pathAddress : Address}
    (diskPool : outcomes.diskPool = some diskAddress)
    (pathPool : outcomes.pathPool = some pathAddress)
    (file : FileHandle)
    (lastBlock : UInt64)
    (path : DevicePath) :
    dxe.Installable outcomes.newHandle diskAddress pathAddress
      { newLoopDisk file lastBlock (dxe.mLoopSeq + 1) with
        devicePath := some pathAddress
        handle := some outcomes.newHandle }
      (path ++ [loopVendorNode (dxe.mLoopSeq + 1)]) where
  freshHandle := fresh.handle
  freshDisk := fresh.disk diskPool
  freshPath := (fresh.path pathPool).1
  different := by
    rintro rfl
    exact (fresh.path pathPool).2 diskPool
  signature := rfl
  selfHandle := rfl
  selfPath := rfl
  geometry := rfl
  mediaId := rfl
  vendorNode := by simp [newLoopDisk]

/--
One factory call keeps the ownership discipline and changes the implemented
registry exactly as its reply says.
-/
theorem factoryStep_refines
    {dxe : LoopDxe}
    (wellFormed : dxe.WellFormed)
    {call : FactoryCall}
    (admissible : call.Admissible dxe) :
    (factoryStep dxe call).2.WellFormed ∧
      (factoryStep dxe call).2.registry =
        dxe.registry.record (call, (factoryStep dxe call).1) := by
  cases call with
  | create outcomes backingFile fileDevicePath lastBlock loopHandle =>
      have fresh : outcomes.Fresh dxe := admissible
      rcases loopFactoryCreate_cases fresh backingFile fileDevicePath
          lastBlock loopHandle with
        ⟨status, failed, result⟩ |
        ⟨file, path, diskAddress, pathAddress, rfl, rfl,
          diskPool, pathPool, _, result⟩
      · simp only [factoryStep, result]
        refine ⟨wellFormed.setSeq _, ?_⟩
        cases backingFile <;> rfl
      · have installable :=
          fresh.installable diskPool pathPool file lastBlock path
        simp only [factoryStep, result]
        refine ⟨wellFormed.addDevice installable, ?_⟩
        funext other
        simp only [LoopDxe.registry, LoopRegistry.record, ↓reduceIte,
          installable.diskAt_addDevice wellFormed]
        by_cases isNew : other = outcomes.newHandle
        · simp [isNew, newLoopDisk]
        · simp [isNew, LoopDxe.registry]
  | destroy uninstall loopHandle wantsFile =>
      rcases loopFactoryDestroy_cases wellFormed uninstall loopHandle
          wantsFile with
        ⟨_, result⟩ |
        ⟨handle, diskAddress, pathAddress, disk, path, rfl, device, result⟩
      · simp only [factoryStep, result]
        refine ⟨wellFormed, ?_⟩
        cases loopHandle <;> rfl
      · cases failed : uninstall.isError with
        | true =>
            simp only [failed, ↓reduceIte] at result
            simp only [factoryStep, result]
            refine ⟨wellFormed, ?_⟩
            simp [LoopRegistry.record,
              EfiStatus.ne_success_of_isError failed]
        | false =>
            simp only [failed, Bool.false_eq_true, ↓reduceIte] at result
            simp only [factoryStep, result]
            refine ⟨wellFormed.removeDevice device, ?_⟩
            funext other
            simp only [LoopDxe.registry, LoopRegistry.record, ↓reduceIte,
              wellFormed.diskAt_removeDevice device]
            by_cases isRemoved : other = handle
            · simp [isRemoved]
            · simp [isRemoved, LoopDxe.registry]

/-- Over every run the driver is well formed and implements the registry. -/
theorem factory_refines
    {initial dxe : LoopDxe}
    {history : List (FactoryCall × FactoryReply)}
    (loaded : initial.JustLoaded)
    (run : factory.Run initial history dxe) :
    dxe.WellFormed ∧ dxe.registry = LoopRegistry.ofHistory history := by
  apply run.tracks
    (fun history dxe =>
      dxe.WellFormed ∧ dxe.registry = LoopRegistry.ofHistory history)
  · refine ⟨loaded.wellFormed, ?_⟩
    funext handle
    have nothing : initial.diskAt handle = none := by
      apply Option.eq_none_iff_forall_ne_some.mpr
      intro disk live
      obtain ⟨_, _, _, device⟩ := loaded.wellFormed.diskAt_iff.mp live
      exact loaded.blockIo _ _ device.blockIo
    simp [LoopDxe.registry, LoopRegistry.ofHistory, nothing]
  · rintro history dxe call ⟨wellFormed, refines⟩ admissible
    obtain ⟨wellFormed', refines'⟩ :=
      factoryStep_refines wellFormed admissible
    exact ⟨wellFormed', by
      rw [LoopRegistry.ofHistory_append, ← refines]
      exact refines'⟩

/-- A driver that has just been loaded on a machine without block devices. -/
def idleLoopDxe : LoopDxe where
  mLoopSeq := 0
  pool := fun _ => none
  handles := fun _ => .unused

theorem idleLoopDxe_justLoaded : idleLoopDxe.JustLoaded where
  seq := rfl
  pool := fun _ => rfl
  blockIo := by simp [idleLoopDxe, Protocols.unused]

/-- A Create over one image file whose firmware calls all succeed. -/
def createOverIso
    (handle : Handle)
    (diskAddress pathAddress : Address) :
    FactoryCall :=
  .create
    ⟨some diskAddress, some pathAddress, .success, handle⟩
    (some 1) (some [.filePath (wide "\\a.iso")]) 15 true

/-- A Create over fresh blocks and a fresh handle succeeds. -/
theorem createOverIso_answer
    {dxe : LoopDxe}
    {handle : Handle}
    {diskAddress pathAddress : Address}
    (freshHandle : dxe.handles handle = .unused)
    (freshDisk : dxe.pool diskAddress = none)
    (freshPath : dxe.pool pathAddress = none)
    (different : pathAddress ≠ diskAddress) :
    ∃ disk path,
      (createOverIso handle diskAddress pathAddress).Admissible dxe ∧
        dxe.Installable handle diskAddress pathAddress disk path ∧
        disk.seq = dxe.mLoopSeq + 1 ∧
        factoryStep dxe (createOverIso handle diskAddress pathAddress) =
          (.created ⟨.success, some handle⟩,
            dxe.addDevice handle diskAddress pathAddress disk path) := by
  have fresh :
      CreateOutcomes.Fresh
        ⟨some diskAddress, some pathAddress, .success, handle⟩ dxe := {
    disk := by simp [freshDisk]
    path := by simpa [freshPath] using Ne.symm different
    handle := freshHandle
  }
  have installable :=
    fresh.installable rfl rfl 1 15 [.filePath (wide "\\a.iso")]
  refine ⟨_, _, fresh, installable, rfl, ?_⟩
  rcases loopFactoryCreate_cases fresh (some 1)
      (some [.filePath (wide "\\a.iso")]) 15 true with
    ⟨status, failed, result⟩ |
    ⟨file, path, disk, block, isFile, isPath, isDisk, isBlock, _, result⟩
  · have impossible := congrArg (fun answer => answer.1.loopHandle) result
    simp [loopFactoryCreate] at impossible
  · simp only [Option.some.injEq] at isFile isPath isDisk isBlock
    subst isFile isPath isDisk isBlock
    simp only [factoryStep, createOverIso, result]

/-- Destroying a device that was just installed restores the state before it. -/
theorem destroy_answer
    {dxe : LoopDxe}
    {handle : Handle}
    {diskAddress pathAddress : Address}
    {disk : LoopDisk}
    {path : DevicePath}
    (installable :
      dxe.Installable handle diskAddress pathAddress disk path) :
    factoryStep (dxe.addDevice handle diskAddress pathAddress disk path)
        (.destroy .success (some handle) false) =
      (.destroyed ⟨.success, none⟩,
        { dxe with mLoopSeq := disk.seq }) := by
  have device := installable.device
  have poolRestored :
      Function.update
          (Function.update
            (Function.update
              (Function.update dxe.pool pathAddress
                (some (.devicePath path)))
              diskAddress (some (.disk disk)))
            pathAddress none)
          diskAddress none =
        dxe.pool := by
    funext address
    by_cases isDisk : address = diskAddress
    · simp [isDisk, installable.freshDisk]
    · by_cases isPath : address = pathAddress
      · simp [isPath, installable.different, installable.freshPath]
      · simp [isDisk, isPath]
  have handlesRestored :
      Function.update dxe.handles handle .unused = dxe.handles := by
    rw [← installable.freshHandle, Function.update_eq_self]
  simp only [factoryStep, loopFactoryDestroy, Option.bind_some,
    device.blockIo, device.recoverDisk_eq, EfiStatus.isError_success,
    Bool.false_eq_true, ↓reduceIte, device.selfHandle, device.selfPath,
    LoopDxe.setHandle, LoopDxe.freePool]
  simp only [LoopDxe.addDevice, Function.update_self,
    Function.update_idem, poolRestored]
  rw [← Protocols.unused, handlesRestored]

/-- One device created on handle 1 and destroyed again. -/
def roundTrip : List (FactoryCall × FactoryReply) :=
  [(createOverIso 1 2 3, .created ⟨.success, some 1⟩),
    (.destroy .success (some 1) false, .destroyed ⟨.success, none⟩)]

/-- A device kept on handle 0, then `count` others that come and go. -/
def keptAndRoundTrips (count : Nat) : List (FactoryCall × FactoryReply) :=
  (createOverIso 0 0 1, .created ⟨.success, some 0⟩) ::
    (List.replicate count roundTrip).flatten

theorem keptAndRoundTrips_succ (count : Nat) :
    keptAndRoundTrips (count + 1) = keptAndRoundTrips count ++ roundTrip := by
  simp [keptAndRoundTrips, List.replicate_succ']

/-- The kept device stays, and the blocks and handle of the others are free again. -/
theorem keptAndRoundTrips_run (count : Nat) :
    ∃ dxe,
      factory.Run idleLoopDxe (keptAndRoundTrips count) dxe ∧
        dxe.handles 1 = .unused ∧
        dxe.pool 2 = none ∧
        dxe.pool 3 = none := by
  induction count with
  | zero =>
      obtain ⟨disk, path, admissible, _, _, answer⟩ :=
        createOverIso_answer
          (rfl : idleLoopDxe.handles 0 = .unused)
          (rfl : idleLoopDxe.pool 0 = none)
          (rfl : idleLoopDxe.pool 1 = none) (by decide)
      exact ⟨_, factory_answer .start admissible answer, rfl, rfl, rfl⟩
  | succ count inductionHypothesis =>
      obtain ⟨dxe, run, freshHandle, freshDisk, freshPath⟩ :=
        inductionHypothesis
      obtain ⟨disk, path, admissible, installable, _, created⟩ :=
        createOverIso_answer freshHandle freshDisk freshPath (by decide)
      have destroyed := destroy_answer installable
      have destroyAdmissible :
          (FactoryCall.destroy .success (some 1) false).Admissible
            (dxe.addDevice 1 2 3 disk path) :=
        trivial
      have extended :=
        factory_answer (factory_answer run admissible created)
          destroyAdmissible destroyed
      rw [keptAndRoundTrips_succ]
      refine ⟨_, by simpa [roundTrip] using extended, ?_, ?_, ?_⟩
      · exact freshHandle
      · exact freshDisk
      · exact freshPath

/-- The life-cycle contract of the factory, after a history that led to `dxe`. -/
structure FactoryLifecycle
    (history : List (FactoryCall × FactoryReply))
    (dxe : LoopDxe) : Prop where
  /-- The live devices are the successful Creates minus the successful Destroys. -/
  live :
    dxe.registry = LoopRegistry.ofHistory history
  /-- A live handle has one `LOOP_DISK`, with the file and geometry of its Create. -/
  oneDisk :
    ∀ {handle binding},
      LoopRegistry.ofHistory history handle = some binding →
      ∃ diskAddress disk,
        (dxe.handles handle).blockIo = some (.loop diskAddress) ∧
          dxe.pool diskAddress = some (.disk disk) ∧
          disk.backingFile = binding.backingFile ∧
          disk.lastBlock = binding.lastBlock ∧
          disk.media.lastBlock = binding.lastBlock ∧
          ∀ other,
            (dxe.handles other).blockIo = some (.loop diskAddress) →
            other = handle
  /-- Every pool block the driver holds belongs to a live device. -/
  noLeak :
    ∀ {address block},
      dxe.pool address = some block →
      ∃ handle binding,
        LoopRegistry.ofHistory history handle = some binding ∧
          ((dxe.handles handle).blockIo = some (.loop address) ∨
            (dxe.handles handle).devicePath = some (.loop address))
  /-- A failed Create leaves handles and pool as they were and returns no handle. -/
  createFailed :
    ∀ {outcomes backingFile fileDevicePath lastBlock loopHandle result dxe'},
      outcomes.Fresh dxe →
      loopFactoryCreate outcomes backingFile fileDevicePath
          lastBlock loopHandle dxe = (result, dxe') →
      result.status ≠ .success →
      result.loopHandle = none ∧
        dxe'.handles = dxe.handles ∧
        dxe'.pool = dxe.pool
  /-- A successful Create binds one handle that was unused and no other. -/
  createSucceeded :
    ∀ {outcomes backingFile fileDevicePath lastBlock loopHandle result dxe'},
      outcomes.Fresh dxe →
      loopFactoryCreate outcomes backingFile fileDevicePath
          lastBlock loopHandle dxe = (result, dxe') →
      result.status = .success →
      ∃ file handle,
        backingFile = some file ∧
          result.loopHandle = some handle ∧
          dxe.handles handle = .unused ∧
          dxe'.registry handle = some ⟨file, lastBlock⟩ ∧
          ∀ other,
            other ≠ handle →
            dxe'.handles other = dxe.handles other ∧
              dxe'.diskAt other = dxe.diskAt other
  /-- A successful Destroy hands back the file of its Create and touches no other device. -/
  destroySucceeded :
    ∀ {uninstall loopHandle wantsFile result dxe'},
      loopFactoryDestroy uninstall loopHandle wantsFile dxe =
        (result, dxe') →
      result.status = .success →
      ∃ handle binding,
        loopHandle = some handle ∧
          LoopRegistry.ofHistory history handle = some binding ∧
          result.backingFile =
            (if wantsFile then some binding.backingFile else none) ∧
          dxe'.registry handle = none ∧
          ∀ other,
            other ≠ handle →
            dxe'.handles other = dxe.handles other ∧
              dxe'.diskAt other = dxe.diskAt other
  /-- A failed Destroy changes nothing. -/
  destroyFailed :
    ∀ {uninstall loopHandle wantsFile result dxe'},
      loopFactoryDestroy uninstall loopHandle wantsFile dxe =
        (result, dxe') →
      result.status ≠ .success →
      dxe' = dxe ∧ result.backingFile = none
  /-- Destroy of a handle without BlockIo is not found. -/
  destroyNotFound :
    ∀ uninstall loopHandle wantsFile,
      (∀ handle,
        loopHandle = some handle →
        (dxe.handles handle).blockIo = none) →
      loopFactoryDestroy uninstall loopHandle wantsFile dxe =
        (⟨.notFound, none⟩, dxe)

/-- A binding of the registry is that of a live device. -/
theorem LoopDxe.WellFormed.device_of_registry
    {dxe : LoopDxe}
    (wellFormed : dxe.WellFormed)
    {handle : Handle}
    {binding : LoopBinding}
    (bound : dxe.registry handle = some binding) :
    ∃ diskAddress pathAddress disk path,
      dxe.Device handle diskAddress pathAddress disk path ∧
        binding = ⟨disk.backingFile, disk.lastBlock⟩ := by
  obtain ⟨disk, live, isBinding⟩ := Option.map_eq_some_iff.mp bound
  obtain ⟨diskAddress, pathAddress, path, device⟩ :=
    wellFormed.diskAt_iff.mp live
  exact ⟨diskAddress, pathAddress, disk, path, device, isBinding.symm⟩

/-- The life-cycle contract holds after every run of the factory. -/
theorem factory_lifecycle
    {initial dxe : LoopDxe}
    {history : List (FactoryCall × FactoryReply)}
    (loaded : initial.JustLoaded)
    (run : factory.Run initial history dxe) :
    FactoryLifecycle history dxe := by
  obtain ⟨wellFormed, refines⟩ := factory_refines loaded run
  have binding_of_device :
      ∀ {handle diskAddress pathAddress disk path},
        dxe.Device handle diskAddress pathAddress disk path →
        LoopRegistry.ofHistory history handle =
          some ⟨disk.backingFile, disk.lastBlock⟩ := by
    intro handle diskAddress pathAddress disk path device
    rw [← refines]
    exact device.registry_eq
  exact {
    live := refines
    oneDisk := by
      intro handle binding bound
      rw [← refines] at bound
      obtain ⟨diskAddress, pathAddress, disk, path, device, rfl⟩ :=
        wellFormed.device_of_registry bound
      refine ⟨diskAddress, disk, device.blockIo, device.diskBlock,
        rfl, rfl, device.geometry, ?_⟩
      intro other sameDisk
      obtain ⟨_, _, _, another⟩ := wellFormed.device sameDisk
      exact device.handle_eq_of_disk another
    noLeak := by
      intro address block allocated
      obtain ⟨handle, _, _, disk, _, device, owned⟩ :=
        wellFormed.accounted allocated
      refine ⟨handle, _, binding_of_device device, ?_⟩
      rcases owned with rfl | rfl
      · exact .inl device.blockIo
      · exact .inr device.devicePath
    createFailed := by
      intro outcomes backingFile fileDevicePath lastBlock loopHandle
        result dxe' fresh ran failed
      rcases loopFactoryCreate_cases fresh backingFile fileDevicePath
          lastBlock loopHandle with
        ⟨status, _, answer⟩ | ⟨_, _, _, _, _, _, _, _, _, answer⟩
      · rw [ran, Prod.mk.injEq] at answer
        obtain ⟨rfl, rfl⟩ := answer
        exact ⟨rfl, rfl, rfl⟩
      · rw [ran, Prod.mk.injEq] at answer
        obtain ⟨rfl, rfl⟩ := answer
        exact (failed rfl).elim
    createSucceeded := by
      intro outcomes backingFile fileDevicePath lastBlock loopHandle
        result dxe' fresh ran succeeded
      rcases loopFactoryCreate_cases fresh backingFile fileDevicePath
          lastBlock loopHandle with
        ⟨status, failed, answer⟩ |
        ⟨file, path, diskAddress, pathAddress, rfl, rfl,
          diskPool, pathPool, _, answer⟩
      · rw [ran, Prod.mk.injEq] at answer
        obtain ⟨rfl, rfl⟩ := answer
        exact (EfiStatus.ne_success_of_isError failed succeeded).elim
      · have installable :=
          fresh.installable diskPool pathPool file lastBlock path
        rw [ran, Prod.mk.injEq] at answer
        obtain ⟨rfl, rfl⟩ := answer
        refine ⟨file, outcomes.newHandle, rfl, rfl, fresh.handle,
          installable.device.registry_eq, ?_⟩
        intro other different
        rw [installable.diskAt_addDevice wellFormed]
        simp [LoopDxe.addDevice, different]
    destroySucceeded := by
      intro uninstall loopHandle wantsFile result dxe' ran succeeded
      rcases loopFactoryDestroy_cases wellFormed uninstall loopHandle
          wantsFile with
        ⟨_, answer⟩ |
        ⟨handle, diskAddress, pathAddress, disk, path, rfl, device,
          answer⟩
      · rw [ran, Prod.mk.injEq] at answer
        obtain ⟨rfl, rfl⟩ := answer
        simp [EfiStatus.notFound, EfiStatus.success, EfiStatus.encodeError,
          EfiStatus.errorBit] at succeeded
      · cases failed : uninstall.isError with
        | true =>
            simp only [failed, ↓reduceIte, ran, Prod.mk.injEq] at answer
            obtain ⟨rfl, rfl⟩ := answer
            exact (EfiStatus.ne_success_of_isError failed succeeded).elim
        | false =>
            simp only [failed, Bool.false_eq_true, ↓reduceIte, ran,
              Prod.mk.injEq] at answer
            obtain ⟨rfl, rfl⟩ := answer
            refine ⟨handle, _, rfl, binding_of_device device, rfl, ?_, ?_⟩
            · simp [LoopDxe.registry,
                wellFormed.diskAt_removeDevice device]
            · intro other different
              rw [wellFormed.diskAt_removeDevice device]
              simp [LoopDxe.removeDevice, different]
    destroyFailed := by
      intro uninstall loopHandle wantsFile result dxe' ran notSucceeded
      rcases loopFactoryDestroy_cases wellFormed uninstall loopHandle
          wantsFile with
        ⟨_, answer⟩ |
        ⟨handle, diskAddress, pathAddress, disk, path, rfl, device,
          answer⟩
      · rw [ran, Prod.mk.injEq] at answer
        obtain ⟨rfl, rfl⟩ := answer
        exact ⟨rfl, rfl⟩
      · cases failed : uninstall.isError with
        | true =>
            simp only [failed, ↓reduceIte, ran, Prod.mk.injEq] at answer
            obtain ⟨rfl, rfl⟩ := answer
            exact ⟨rfl, rfl⟩
        | false =>
            simp only [failed, Bool.false_eq_true, ↓reduceIte, ran,
              Prod.mk.injEq] at answer
            obtain ⟨rfl, rfl⟩ := answer
            exact (notSucceeded rfl).elim
    destroyNotFound := by
      intro uninstall loopHandle wantsFile noBlockIo
      cases loopHandle with
      | none =>
          simp [loopFactoryDestroy]
      | some handle =>
          simp [loopFactoryDestroy, noBlockIo handle rfl]
  }

/-- The contract after a run that creates three devices and destroys two. -/
theorem factory_lifecycle_two_roundTrips :
    ∃ dxe,
      factory.Run idleLoopDxe (keptAndRoundTrips 2) dxe ∧
        FactoryLifecycle (keptAndRoundTrips 2) dxe := by
  obtain ⟨dxe, run, _⟩ := keptAndRoundTrips_run 2
  exact ⟨dxe, run, factory_lifecycle idleLoopDxe_justLoaded run⟩

end UefiMount
