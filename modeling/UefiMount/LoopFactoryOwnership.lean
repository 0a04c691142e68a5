import UefiMount.LoopFactory

namespace UefiMount

/-!
# Ownership of loop devices

Every live loop handle owns exactly one `LOOP_DISK` block and one device path
block, no block has two owners, and the driver holds no block without an
owner.  The module states what one Create and one Destroy can do, and shows
that both keep this ownership discipline.
-/

namespace LoopDxe

/--
`handle` is a live loop device whose `LOOP_DISK` and device path sit at the
two given addresses.
-/
structure Device
    (dxe : LoopDxe)
    (handle : Handle)
    (diskAddress pathAddress : Address)
    (disk : LoopDisk)
    (path : DevicePath) : Prop where
  blockIo :
    (dxe.handles handle).blockIo = some (.loop diskAddress)
  blockIo2 :
    (dxe.handles handle).blockIo2 = some (.loop diskAddress)
  devicePath :
    (dxe.handles handle).devicePath = some (.loop pathAddress)
  diskBlock :
    dxe.pool diskAddress = some (.disk disk)
  pathBlock :
    dxe.pool pathAddress = some (.devicePath path)
  signature :
    disk.signature = loopDiskSig
  selfHandle :
    disk.handle = some handle
  selfPath :
    disk.devicePath = some pathAddress
  geometry :
    disk.media.lastBlock = disk.lastBlock
  mediaId :
    disk.media.mediaId = loopMediaId
  vendorNode :
    path.getLast? = some (loopVendorNode disk.seq)

/-- The ownership discipline of the driver's pool blocks. -/
structure WellFormed (dxe : LoopDxe) : Prop where
  device :
    ∀ {handle address},
      (dxe.handles handle).blockIo = some (.loop address) →
      ∃ pathAddress disk path,
        dxe.Device handle address pathAddress disk path
  pathOwner :
    ∀ {first second firstDisk secondDisk pathAddress disk disk' path path'},
      dxe.Device first firstDisk pathAddress disk path →
      dxe.Device second secondDisk pathAddress disk' path' →
      first = second
  accounted :
    ∀ {address block},
      dxe.pool address = some block →
      ∃ handle diskAddress pathAddress disk path,
        dxe.Device handle diskAddress pathAddress disk path ∧
          (address = diskAddress ∨ address = pathAddress)

/-- The state after a new device has been installed. -/
def addDevice
    (dxe : LoopDxe)
    (handle : Handle)
    (diskAddress pathAddress : Address)
    (disk : LoopDisk)
    (path : DevicePath) :
    LoopDxe where
  mLoopSeq := disk.seq
  pool :=
    Function.update
      (Function.update dxe.pool pathAddress (some (.devicePath path)))
      diskAddress (some (.disk disk))
  handles :=
    Function.update dxe.handles handle {
      devicePath := some (.loop pathAddress)
      blockIo := some (.loop diskAddress)
      blockIo2 := some (.loop diskAddress)
      simpleFileSystem := false
    }

/-- The state after a device has been uninstalled and freed. -/
def removeDevice
    (dxe : LoopDxe)
    (handle : Handle)
    (diskAddress pathAddress : Address) :
    LoopDxe where
  mLoopSeq := dxe.mLoopSeq
  pool :=
    Function.update
      (Function.update dxe.pool pathAddress none)
      diskAddress none
  handles :=
    Function.update dxe.handles handle
      { dxe.handles handle with
        devicePath := none
        blockIo := none
        blockIo2 := none }

namespace Device

variable {dxe : LoopDxe}
  {handle : Handle}
  {diskAddress pathAddress : Address}
  {disk : LoopDisk}
  {path : DevicePath}

/-- `BASE_CR` recovers exactly the disk that the handle owns. -/
theorem recoverDisk_eq
    (device : dxe.Device handle diskAddress pathAddress disk path) :
    dxe.recoverDisk (.loop diskAddress) = some (diskAddress, disk) := by
  simp [recoverDisk, device.diskBlock, device.signature]

/-- The live disk of a device handle. -/
theorem diskAt_eq
    (device : dxe.Device handle diskAddress pathAddress disk path) :
    dxe.diskAt handle = some disk := by
  simp [diskAt, device.blockIo, device.recoverDisk_eq]

/-- The device path that the firmware finds on a device handle. -/
theorem devicePathAt_eq
    (device : dxe.Device handle diskAddress pathAddress disk path) :
    dxe.devicePathAt handle = some path := by
  simp [devicePathAt, device.devicePath, device.pathBlock]

/-- Handles that share a disk block are the same handle. -/
theorem handle_eq_of_disk
    (device : dxe.Device handle diskAddress pathAddress disk path)
    {other : Handle}
    {otherPath : Address}
    {otherDisk : LoopDisk}
    {otherPathBlock : DevicePath}
    (same :
      dxe.Device other diskAddress otherPath otherDisk otherPathBlock) :
    other = handle := by
  have sameDisk : otherDisk = disk := by
    have blocks := same.diskBlock.symm.trans device.diskBlock
    simpa using blocks
  have selfHandles := same.selfHandle
  rw [sameDisk, device.selfHandle] at selfHandles
  exact (Option.some.inj selfHandles).symm

/-- A disk block is never a path block. -/
theorem diskAddress_ne_path
    (device : dxe.Device handle diskAddress pathAddress disk path)
    {other : Handle}
    {otherDiskAddress otherPathAddress : Address}
    {otherDisk : LoopDisk}
    {otherPath : DevicePath}
    (another :
      dxe.Device other otherDiskAddress otherPathAddress
        otherDisk otherPath) :
    diskAddress ≠ otherPathAddress := by
  intro same
  have blocks := device.diskBlock
  rw [same, another.pathBlock] at blocks
  simp at blocks

end Device

/-- In a well-formed state the live disks are exactly the owned ones. -/
theorem WellFormed.diskAt_iff
    {dxe : LoopDxe}
    (wellFormed : dxe.WellFormed)
    {handle : Handle}
    {disk : LoopDisk} :
    dxe.diskAt handle = some disk ↔
      ∃ diskAddress pathAddress path,
        dxe.Device handle diskAddress pathAddress disk path := by
  constructor
  · intro live
    cases blockIo : (dxe.handles handle).blockIo with
    | none =>
        simp [diskAt, blockIo] at live
    | some interface =>
        cases interface with
        | firmware container =>
            simp [diskAt, blockIo, recoverDisk] at live
        | loop address =>
            obtain ⟨pathAddress, owned, path, device⟩ :=
              wellFormed.device blockIo
            have sameDisk : owned = disk := by
              simpa [device.diskAt_eq] using live
            subst sameDisk
            exact ⟨address, pathAddress, path, device⟩
  · rintro ⟨diskAddress, pathAddress, path, device⟩
    exact device.diskAt_eq

/-- A freshly loaded driver owns nothing. -/
theorem JustLoaded.wellFormed
    {dxe : LoopDxe}
    (loaded : dxe.JustLoaded) :
    dxe.WellFormed where
  device := fun blockIo => (loaded.blockIo _ _ blockIo).elim
  pathOwner := fun device _ => (loaded.blockIo _ _ device.blockIo).elim
  accounted := fun allocated => by
    simp [loaded.pool] at allocated

end LoopDxe

/--
A Create call draws a sequence number: its arguments are given and the
allocation of the `LOOP_DISK` succeeds.
-/
def FactoryCall.counted : FactoryCall → Bool
  | .create outcomes (some _) (some _) _ true =>
      outcomes.diskPool.isSome
  | _ =>
      false

/-- Everything one Create can do. -/
theorem loopFactoryCreate_cases
    {dxe : LoopDxe}
    {outcomes : CreateOutcomes}
    (fresh : outcomes.Fresh dxe)
    (backingFile : Option FileHandle)
    (fileDevicePath : Option DevicePath)
    (lastBlock : UInt64)
    (loopHandle : Bool) :
    let call :=
      FactoryCall.create outcomes backingFile fileDevicePath
        lastBlock loopHandle
    (∃ status,
      status.isError = true ∧
        loopFactoryCreate outcomes backingFile fileDevicePath
            lastBlock loopHandle dxe =
          (⟨status, none⟩,
            { dxe with
              mLoopSeq :=
                dxe.mLoopSeq + if call.counted then 1 else 0 })) ∨
    (∃ file path diskAddress pathAddress,
      backingFile = some file ∧
        fileDevicePath = some path ∧
        outcomes.diskPool = some diskAddress ∧
        outcomes.pathPool = some pathAddress ∧
        call.counted = true ∧
        loopFactoryCreate outcomes backingFile fileDevicePath
            lastBlock loopHandle dxe =
          (⟨.success, some outcomes.newHandle⟩,
            dxe.addDevice outcomes.newHandle diskAddress pathAddress
              { newLoopDisk file lastBlock (dxe.mLoopSeq + 1) with
                devicePath := some pathAddress
                handle := some outcomes.newHandle }
              (path ++ [loopVendorNode (dxe.mLoopSeq + 1)]))) := by
  intro call
  cases backingFile with
  | none =>
      exact .inl ⟨.invalidParameter, by simp,
        by simp [loopFactoryCreate, call, FactoryCall.counted]⟩
  | some file =>
  cases fileDevicePath with
  | none =>
      exact .inl ⟨.invalidParameter, by simp,
        by simp [loopFactoryCreate, call, FactoryCall.counted]⟩
  | some path =>
  cases loopHandle with
  | false =>
      exact .inl ⟨.invalidParameter, by simp,
        by simp [loopFactoryCreate, call, FactoryCall.counted]⟩
  | true =>
  cases diskPool : outcomes.diskPool with
  | none =>
      exact .inl ⟨.outOfResources, by simp,
        by simp [loopFactoryCreate, call, FactoryCall.counted, diskPool]⟩
  | some diskAddress =>
  have diskFresh := fresh.disk diskPool
  have counted : call.counted = true := by
    simp [call, FactoryCall.counted, diskPool]
  cases pathPool : outcomes.pathPool with
  | none =>
      refine .inl ⟨.outOfResources, by simp, ?_⟩
      simp [loopFactoryCreate, diskPool, pathPool, counted,
        LoopDxe.store, LoopDxe.freePool, ← diskFresh]
  | some pathAddress =>
  obtain ⟨pathFresh, pathNotDisk⟩ := fresh.path pathPool
  have different : pathAddress ≠ diskAddress := by
    intro same
    exact pathNotDisk (by rw [diskPool, same])
  cases failed : outcomes.install.isError with
  | true =>
      refine .inl ⟨outcomes.install, failed, ?_⟩
      simp only [loopFactoryCreate, diskPool, pathPool, failed, counted,
        LoopDxe.store, LoopDxe.freePool, ↓reduceIte]
      have restored :
          Function.update
              (Function.update
                (Function.update
                  (Function.update
                    (Function.update dxe.pool diskAddress
                      (some (.disk
                        (newLoopDisk file lastBlock (dxe.mLoopSeq + 1)))))
                    pathAddress
                    (some (.devicePath
                      (path ++ [loopVendorNode (dxe.mLoopSeq + 1)]))))
                  diskAddress
                  (some (.disk
                    { newLoopDisk file lastBlock (dxe.mLoopSeq + 1) with
                      devicePath := some pathAddress })))
                pathAddress none)
              diskAddress none =
            dxe.pool := by
        funext address
        by_cases isDisk : address = diskAddress
        · simp [isDisk, diskFresh]
        · by_cases isPath : address = pathAddress
          · simp [isPath, different, pathFresh]
          · simp [isDisk, isPath]
      rw [restored]
  | false =>
      refine .inr ⟨file, path, diskAddress, pathAddress,
        rfl, rfl, rfl, rfl, counted, ?_⟩
      simp only [loopFactoryCreate, diskPool, pathPool, failed,
        LoopDxe.store, LoopDxe.setHandle, LoopDxe.addDevice,
        Bool.false_eq_true, ↓reduceIte]
      congr 2
      funext address
      by_cases isDisk : address = diskAddress
      · simp [isDisk]
      · by_cases isPath : address = pathAddress
        · simp [isPath, different]
        · simp [isDisk, isPath]

/-- Everything one Destroy can do in a well-formed state. -/
theorem loopFactoryDestroy_cases
    {dxe : LoopDxe}
    (wellFormed : dxe.WellFormed)
    (uninstall : EfiStatus)
    (loopHandle : Option Handle)
    (wantsFile : Bool) :
    (loopHandle.bind dxe.diskAt = none ∧
      loopFactoryDestroy uninstall loopHandle wantsFile dxe =
        (⟨.notFound, none⟩, dxe)) ∨
    (∃ handle diskAddress pathAddress disk path,
      loopHandle = some handle ∧
        dxe.Device handle diskAddress pathAddress disk path ∧
        if uninstall.isError then
          loopFactoryDestroy uninstall loopHandle wantsFile dxe =
            (⟨uninstall, none⟩, dxe)
        else
          loopFactoryDestroy uninstall loopHandle wantsFile dxe =
            (⟨.success, if wantsFile then some disk.backingFile else none⟩,
              dxe.removeDevice handle diskAddress pathAddress)) := by
  cases loopHandle with
  | none =>
      exact .inl ⟨by simp, by simp [loopFactoryDestroy]⟩
  | some handle =>
  cases blockIo : (dxe.handles handle).blockIo with
  | none =>
      exact .inl
        ⟨by simp [LoopDxe.diskAt, blockIo],
          by simp [loopFactoryDestroy, blockIo]⟩
  | some interface =>
  cases interface with
  | firmware container =>
      exact .inl
        ⟨by simp [LoopDxe.diskAt, blockIo, LoopDxe.recoverDisk],
          by simp [loopFactoryDestroy, blockIo, LoopDxe.recoverDisk]⟩
  | loop diskAddress =>
      obtain ⟨pathAddress, disk, path, device⟩ :=
        wellFormed.device blockIo
      refine .inr
        ⟨handle, diskAddress, pathAddress, disk, path,
          rfl, device, ?_⟩
      cases failed : uninstall.isError with
      | true =>
          simp [loopFactoryDestroy, blockIo, device.recoverDisk_eq, failed]
      | false =>
          simp [loopFactoryDestroy, blockIo, device.recoverDisk_eq, failed,
            device.selfHandle, device.selfPath, LoopDxe.setHandle,
            LoopDxe.freePool, LoopDxe.removeDevice]

namespace LoopDxe

/-- What a Create has made sure of before it installs a device. -/
structure Installable
    (dxe : LoopDxe)
    (handle : Handle)
    (diskAddress pathAddress : Address)
    (disk : LoopDisk)
    (path : DevicePath) : Prop where
  freshHandle :
    dxe.handles handle = .unused
  freshDisk :
    dxe.pool diskAddress = none
  freshPath :
    dxe.pool pathAddress = none
  different :
    pathAddress ≠ diskAddress
  signature :
    disk.signature = loopDiskSig
  selfHandle :
    disk.handle = some handle
  selfPath :
    disk.devicePath = some pathAddress
  geometry :
    disk.media.lastBlock = disk.lastBlock
  mediaId :
    disk.media.mediaId = loopMediaId
  vendorNode :
    path.getLast? = some (loopVendorNode disk.seq)

section AddDevice

variable {dxe : LoopDxe}
  {handle : Handle}
  {diskAddress pathAddress : Address}
  {disk : LoopDisk}
  {path : DevicePath}

/-- The installed device is live and owns its two blocks. -/
theorem Installable.device
    (installable :
      dxe.Installable handle diskAddress pathAddress disk path) :
    (dxe.addDevice handle diskAddress pathAddress disk path).Device
      handle diskAddress pathAddress disk path where
  blockIo := by simp [addDevice]
  blockIo2 := by simp [addDevice]
  devicePath := by simp [addDevice]
  diskBlock := by simp [addDevice]
  pathBlock := by simp [addDevice, installable.different]
  signature := installable.signature
  selfHandle := installable.selfHandle
  selfPath := installable.selfPath
  geometry := installable.geometry
  mediaId := installable.mediaId
  vendorNode := installable.vendorNode

/-- A block that is in use is untouched by installing another device. -/
theorem Installable.pool_eq
    (installable :
      dxe.Installable handle diskAddress pathAddress disk path)
    {address : Address}
    {block : PoolBlock}
    (allocated : dxe.pool address = some block) :
    (dxe.addDevice handle diskAddress pathAddress disk path).pool address =
      some block := by
  have notDisk : address ≠ diskAddress := by
    rintro rfl
    simp [installable.freshDisk] at allocated
  have notPath : address ≠ pathAddress := by
    rintro rfl
    simp [installable.freshPath] at allocated
  simp [addDevice, notDisk, notPath, allocated]

/-- Devices that were live before an install stay exactly as they were. -/
theorem Installable.device_of_device
    (installable :
      dxe.Installable handle diskAddress pathAddress disk path)
    {other : Handle}
    {otherDiskAddress otherPathAddress : Address}
    {otherDisk : LoopDisk}
    {otherPath : DevicePath}
    (device :
      dxe.Device other otherDiskAddress otherPathAddress
        otherDisk otherPath) :
    (dxe.addDevice handle diskAddress pathAddress disk path).Device
      other otherDiskAddress otherPathAddress otherDisk otherPath := by
  have notNew : other ≠ handle := by
    rintro rfl
    have blockIo := device.blockIo
    simp [installable.freshHandle, Protocols.unused] at blockIo
  exact {
    device with
    blockIo := by simpa [addDevice, notNew] using device.blockIo
    blockIo2 := by simpa [addDevice, notNew] using device.blockIo2
    devicePath := by simpa [addDevice, notNew] using device.devicePath
    diskBlock := installable.pool_eq device.diskBlock
    pathBlock := installable.pool_eq device.pathBlock
  }

/-- Every device after an install is the new one or was there before. -/
theorem Installable.device_cases
    (wellFormed : dxe.WellFormed)
    (installable :
      dxe.Installable handle diskAddress pathAddress disk path)
    {other : Handle}
    {otherDiskAddress otherPathAddress : Address}
    {otherDisk : LoopDisk}
    {otherPath : DevicePath}
    (device :
      (dxe.addDevice handle diskAddress pathAddress disk path).Device
        other otherDiskAddress otherPathAddress otherDisk otherPath) :
    (other = handle ∧ otherPathAddress = pathAddress) ∨
      dxe.Device other otherDiskAddress otherPathAddress
        otherDisk otherPath := by
  by_cases isNew : other = handle
  · subst isNew
    have paths := device.devicePath
    simp only [addDevice, Function.update_self, Option.some.injEq,
      DevicePathInterface.loop.injEq] at paths
    exact .inl ⟨rfl, paths.symm⟩
  · have blockIo :
        (dxe.handles other).blockIo = some (.loop otherDiskAddress) := by
      simpa [addDevice, isNew] using device.blockIo
    obtain ⟨oldPathAddress, oldDisk, oldPath, old⟩ :=
      wellFormed.device blockIo
    have kept := installable.device_of_device old
    have sameDisk : oldDisk = otherDisk := by
      simpa using kept.diskBlock.symm.trans device.diskBlock
    have sameAddress : oldPathAddress = otherPathAddress := by
      simpa using kept.devicePath.symm.trans device.devicePath
    subst sameDisk sameAddress
    have samePath : oldPath = otherPath := by
      simpa using kept.pathBlock.symm.trans device.pathBlock
    subst samePath
    exact .inr old

/-- Installing a device on fresh blocks and a fresh handle keeps the discipline. -/
theorem WellFormed.addDevice
    (wellFormed : dxe.WellFormed)
    (installable :
      dxe.Installable handle diskAddress pathAddress disk path) :
    (dxe.addDevice handle diskAddress pathAddress disk path).WellFormed where
  device := by
    intro other address blockIo
    by_cases isNew : other = handle
    · subst isNew
      have sameAddress : diskAddress = address := by
        simpa [LoopDxe.addDevice] using blockIo
      subst sameAddress
      exact ⟨pathAddress, disk, path, installable.device⟩
    · have oldBlockIo :
          (dxe.handles other).blockIo = some (.loop address) := by
        simpa [LoopDxe.addDevice, isNew] using blockIo
      obtain ⟨otherPathAddress, otherDisk, otherPath, old⟩ :=
        wellFormed.device oldBlockIo
      exact ⟨otherPathAddress, otherDisk, otherPath,
        installable.device_of_device old⟩
  pathOwner := by
    intro first second firstDisk secondDisk shared _ _ _ _
      firstDevice secondDevice
    rcases installable.device_cases wellFormed firstDevice with
        ⟨firstNew, sharedNew⟩ | firstOld
    · rcases installable.device_cases wellFormed secondDevice with
          ⟨secondNew, _⟩ | secondOld
      · rw [firstNew, secondNew]
      · have pathBlock := secondOld.pathBlock
        simp [sharedNew, installable.freshPath] at pathBlock
    · rcases installable.device_cases wellFormed secondDevice with
          ⟨_, sharedNew⟩ | secondOld
      · have pathBlock := firstOld.pathBlock
        simp [sharedNew, installable.freshPath] at pathBlock
      · exact wellFormed.pathOwner firstOld secondOld
  accounted := by
    intro address block allocated
    by_cases isDisk : address = diskAddress
    · exact ⟨handle, diskAddress, pathAddress, disk, path,
        installable.device, .inl isDisk⟩
    · by_cases isPath : address = pathAddress
      · exact ⟨handle, diskAddress, pathAddress, disk, path,
          installable.device, .inr isPath⟩
      · have oldAllocated : dxe.pool address = some block := by
          simpa [LoopDxe.addDevice, isDisk, isPath] using allocated
        obtain ⟨owner, ownerDisk, ownerPath, _, _, old, owned⟩ :=
          wellFormed.accounted oldAllocated
        exact ⟨owner, ownerDisk, ownerPath, _, _,
          installable.device_of_device old, owned⟩

end AddDevice

section RemoveDevice

variable {dxe : LoopDxe}
  {handle : Handle}
  {diskAddress pathAddress : Address}
  {disk : LoopDisk}
  {path : DevicePath}

/-- Removing a device leaves every other device exactly as it was. -/
theorem WellFormed.device_of_device_removed
    (wellFormed : dxe.WellFormed)
    (removed : dxe.Device handle diskAddress pathAddress disk path)
    {other : Handle}
    {otherDiskAddress otherPathAddress : Address}
    {otherDisk : LoopDisk}
    {otherPath : DevicePath}
    (device :
      dxe.Device other otherDiskAddress otherPathAddress
        otherDisk otherPath)
    (different : other ≠ handle) :
    (dxe.removeDevice handle diskAddress pathAddress).Device
      other otherDiskAddress otherPathAddress otherDisk otherPath := by
  have diskKept : otherDiskAddress ≠ diskAddress := by
    rintro rfl
    exact different (removed.handle_eq_of_disk device)
  have pathKept : otherPathAddress ≠ pathAddress := by
    rintro rfl
    exact different (wellFormed.pathOwner device removed)
  have diskNotPath := device.diskAddress_ne_path removed
  have pathNotDisk := (removed.diskAddress_ne_path device).symm
  exact {
    device with
    blockIo := by simpa [removeDevice, different] using device.blockIo
    blockIo2 := by simpa [removeDevice, different] using device.blockIo2
    devicePath := by
      simpa [removeDevice, different] using device.devicePath
    diskBlock := by
      simpa [removeDevice, diskKept, diskNotPath] using device.diskBlock
    pathBlock := by
      simpa [removeDevice, pathKept, pathNotDisk] using device.pathBlock
  }

/-- Every device after a removal was there before and is another one. -/
theorem WellFormed.device_cases_removed
    (wellFormed : dxe.WellFormed)
    (removed : dxe.Device handle diskAddress pathAddress disk path)
    {other : Handle}
    {address : Address}
    (blockIo :
      ((dxe.removeDevice handle diskAddress pathAddress).handles
        other).blockIo = some (.loop address)) :
    other ≠ handle ∧
      ∃ otherPathAddress otherDisk otherPath,
        dxe.Device other address otherPathAddress otherDisk otherPath ∧
          (dxe.removeDevice handle diskAddress pathAddress).Device
            other address otherPathAddress otherDisk otherPath := by
  have different : other ≠ handle := by
    rintro rfl
    simp [removeDevice] at blockIo
  have oldBlockIo :
      (dxe.handles other).blockIo = some (.loop address) := by
    simpa [removeDevice, different] using blockIo
  obtain ⟨otherPathAddress, otherDisk, otherPath, old⟩ :=
    wellFormed.device oldBlockIo
  exact ⟨different, otherPathAddress, otherDisk, otherPath, old,
    wellFormed.device_of_device_removed removed old different⟩

/-- Removing a device keeps the discipline. -/
theorem WellFormed.removeDevice
    (wellFormed : dxe.WellFormed)
    (removed : dxe.Device handle diskAddress pathAddress disk path) :
    (dxe.removeDevice handle diskAddress pathAddress).WellFormed where
  device := by
    intro other address blockIo
    obtain ⟨_, otherPathAddress, otherDisk, otherPath, _, kept⟩ :=
      wellFormed.device_cases_removed removed blockIo
    exact ⟨otherPathAddress, otherDisk, otherPath, kept⟩
  pathOwner := by
    intro first second _ _ _ _ _ _ _ firstDevice secondDevice
    obtain ⟨_, _, _, _, firstOld, firstKept⟩ :=
      wellFormed.device_cases_removed removed firstDevice.blockIo
    obtain ⟨_, _, _, _, secondOld, secondKept⟩ :=
      wellFormed.device_cases_removed removed secondDevice.blockIo
    have firstPath :=
      firstKept.devicePath.symm.trans firstDevice.devicePath
    have secondPath :=
      secondKept.devicePath.symm.trans secondDevice.devicePath
    simp only [Option.some.injEq, DevicePathInterface.loop.injEq]
      at firstPath secondPath
    subst firstPath
    subst secondPath
    exact wellFormed.pathOwner firstOld secondOld
  accounted := by
    intro address block allocated
    have notDisk : address ≠ diskAddress := by
      rintro rfl
      simp [LoopDxe.removeDevice] at allocated
    have notPath : address ≠ pathAddress := by
      rintro rfl
      simp [LoopDxe.removeDevice, notDisk] at allocated
    have oldAllocated : dxe.pool address = some block := by
      simpa [LoopDxe.removeDevice, notDisk, notPath] using allocated
    obtain ⟨owner, ownerDisk, ownerPath, _, _, old, owned⟩ :=
      wellFormed.accounted oldAllocated
    have different : owner ≠ handle := by
      rintro rfl
      have sameDisk : ownerDisk = diskAddress := by
        simpa using old.blockIo.symm.trans removed.blockIo
      have samePath : ownerPath = pathAddress := by
        simpa using old.devicePath.symm.trans removed.devicePath
      rcases owned with isDisk | isPath
      · exact notDisk (isDisk.trans sameDisk)
      · exact notPath (isPath.trans samePath)
    exact ⟨owner, ownerDisk, ownerPath, _, _,
      wellFormed.device_of_device_removed removed old different, owned⟩

end RemoveDevice

/-- Only the sequence counter differs, so ownership is the same. -/
theorem WellFormed.setSeq
    {dxe : LoopDxe}
    (wellFormed : dxe.WellFormed)
    (seq : UInt32) :
    ({ dxe with mLoopSeq := seq } : LoopDxe).WellFormed := by
  have sameDevice :
      ∀ {handle diskAddress pathAddress disk path},
        ({ dxe with mLoopSeq := seq } : LoopDxe).Device
            handle diskAddress pathAddress disk path ↔
          dxe.Device handle diskAddress pathAddress disk path :=
    ⟨fun device => { device with }, fun device => { device with }⟩
  exact {
    device := fun blockIo => by
      simpa only [sameDevice] using wellFormed.device blockIo
    pathOwner := fun first second =>
      wellFormed.pathOwner (sameDevice.mp first) (sameDevice.mp second)
    accounted := fun allocated => by
      simpa only [sameDevice] using wellFormed.accounted allocated
  }

end LoopDxe

end UefiMount
