import UefiMount.LoopFactoryLifecycle

namespace UefiMount

/-!
# Reads of loop devices over arbitrary call histories

The resident driver as one process: factory calls and BlockIo or BlockIo2
calls on live devices, in any order, over one file system whose positions all
devices share.  Every read of every reachable state returns the requested part
of the backing file or refuses it without touching the buffer.
-/

/-- The driver together with the state of the files behind its devices. -/
structure LoopSystem (FileSystem : Type) where
  dxe : LoopDxe
  fileSystem : FileSystem

/-- Calls into one loop device. -/
inductive BlockCall where
  | reset (extendedVerification : Bool)
  | readBlocks
      (mediaId : UInt32) (lba bufferSize : UInt64) (buffer : Option Memory)
  | writeBlocks (mediaId : UInt32) (lba bufferSize : UInt64)
  | flushBlocks
  | resetEx (extendedVerification : Bool)
  | readBlocksEx
      (mediaId : UInt32) (lba : UInt64) (token : Option BlockIo2Token)
      (bufferSize : UInt64) (buffer : Option Memory)
  | writeBlocksEx
      (mediaId : UInt32) (lba : UInt64) (token : Option BlockIo2Token)
      (bufferSize : UInt64)
  | flushBlocksEx (token : Option BlockIo2Token)

/-- What a device call returns and leaves in the caller's buffer and token. -/
structure BlockReply where
  status : EfiStatus
  buffer : Option Memory
  completion : TokenOutcome

/-- No token was passed, so none is completed. -/
def TokenOutcome.none : TokenOutcome where
  token := Option.none
  signalled := Option.none

/-- Run one call on the disk behind a device. -/
def blockStep
    {FileSystem : Type}
    (files : FileProtocol FileSystem)
    (disk : LoopDisk)
    (fileSystem : FileSystem) :
    BlockCall → BlockReply × FileSystem
  | .reset extendedVerification =>
      (⟨loopReset disk extendedVerification, none, .none⟩, fileSystem)
  | .readBlocks mediaId lba bufferSize buffer =>
      let outcome :=
        loopReadBlocks files disk mediaId lba bufferSize buffer fileSystem
      (⟨outcome.status, outcome.buffer, .none⟩, outcome.fileSystem)
  | .writeBlocks mediaId lba bufferSize =>
      (⟨loopWriteBlocks disk mediaId lba bufferSize, none, .none⟩,
        fileSystem)
  | .flushBlocks =>
      (⟨loopFlushBlocks disk, none, .none⟩, fileSystem)
  | .resetEx extendedVerification =>
      (⟨loopResetEx disk extendedVerification, none, .none⟩, fileSystem)
  | .readBlocksEx mediaId lba token bufferSize buffer =>
      let (outcome, completion) :=
        loopReadBlocksEx files disk mediaId lba token bufferSize
          buffer fileSystem
      (⟨outcome.status, outcome.buffer, completion⟩, outcome.fileSystem)
  | .writeBlocksEx mediaId lba token bufferSize =>
      let (status, completion) :=
        loopWriteBlocksEx disk mediaId lba token bufferSize
      (⟨status, none, completion⟩, fileSystem)
  | .flushBlocksEx token =>
      let (status, completion) := loopFlushBlocksEx disk token
      (⟨status, none, completion⟩, fileSystem)

/-- One call into the driver: the factory, or a device found on a handle. -/
inductive LoopCall where
  | factory (call : FactoryCall)
  | block (handle : Handle) (call : BlockCall)

/-- What a driver call returns; a handle that is no device answers nothing. -/
inductive LoopReply where
  | factory (reply : FactoryReply)
  | block (reply : BlockReply)
  | noDevice

/-- Run one call into the driver. -/
def loopStep
    {FileSystem : Type}
    (files : FileProtocol FileSystem)
    (system : LoopSystem FileSystem) :
    LoopCall → LoopReply × LoopSystem FileSystem
  | .factory call =>
      let (reply, dxe) := factoryStep system.dxe call
      (.factory reply, { system with dxe := dxe })
  | .block handle call =>
      match system.dxe.diskAt handle with
      | none =>
          (.noDevice, system)
      | some disk =>
          let (reply, fileSystem) :=
            blockStep files disk system.fileSystem call
          (.block reply, { system with fileSystem := fileSystem })

/-- A size that `LoopCreate` accepts, and the geometry it derives from it. -/
structure LoopGeometry
    (content : List UInt8)
    (lastBlock : UInt64) : Prop where
  sized :
    ∃ fileSize : UInt64,
      content.length = fileSize.toNat ∧
        loopMinSize ≤ fileSize ∧
        lastBlock = loopLastBlock fileSize

/--
Creates pass the geometry that `LoopCreate` computes from the size of the
backing file, and device calls go to live devices.
-/
def LoopCall.Admissible
    {FileSystem : Type}
    (content : FileHandle → List UInt8)
    (system : LoopSystem FileSystem) :
    LoopCall → Prop
  | .factory call =>
      call.Admissible system.dxe ∧
        match call with
        | .create _ (some file) _ lastBlock _ =>
            LoopGeometry (content file) lastBlock
        | _ =>
            True
  | .block handle _ =>
      (system.dxe.diskAt handle).isSome

/-- The resident driver over files whose content does not change. -/
def loopDriver
    {FileSystem : Type}
    (files : FileProtocol FileSystem)
    (content : FileHandle → List UInt8) :
    ProcessRuns.Process (LoopSystem FileSystem) LoopCall LoopReply where
  admits := LoopCall.Admissible content
  step := loopStep files

/-- The reads that lie inside the device, in unbounded integers. -/
structure AcceptedRead
    (content : List UInt8)
    (disk : LoopDisk)
    (mediaId : UInt32)
    (lba bufferSize : UInt64)
    (buffer : Option Memory) : Prop where
  mediaId :
    mediaId = disk.media.mediaId
  buffer :
    buffer ≠ none
  wholeBlocks :
    bufferSize.toNat % 2048 = 0
  start :
    lba.toNat ≤ disk.lastBlock.toNat
  range :
    lba.toNat + bufferSize.toNat / 2048 ≤ content.length / 2048

/-- What a read has to do: deliver the requested bytes, or refuse. -/
structure ReadFidelity
    (content : List UInt8)
    (disk : LoopDisk)
    (mediaId : UInt32)
    (lba bufferSize : UInt64)
    (buffer : Option Memory)
    (status : EfiStatus)
    (buffer' : Option Memory) : Prop where
  succeeds :
    status = .success ↔
      AcceptedRead content disk mediaId lba bufferSize buffer
  delivers :
    AcceptedRead content disk mediaId lba bufferSize buffer →
    ∃ before after,
      buffer = some before ∧
        buffer' = some after ∧
        (∀ offset,
          offset < bufferSize.toNat →
          content[lba.toNat * 2048 + offset]? = some (after offset)) ∧
        (∀ offset,
          bufferSize.toNat ≤ offset →
          after offset = before offset)
  refuses :
    ¬ AcceptedRead content disk mediaId lba bufferSize buffer →
    status = .invalidParameter ∧ buffer' = buffer
  noDeviceError :
    status ≠ .deviceError

/-- Neither the bound nor the offset of a read wraps in 64 bits. -/
structure NoWrap (disk : LoopDisk) (lba : UInt64) : Prop where
  blocks :
    (disk.lastBlock + 1).toNat = disk.lastBlock.toNat + 1
  remaining :
    lba ≤ disk.lastBlock →
    (disk.lastBlock + 1 - lba).toNat =
      disk.lastBlock.toNat + 1 - lba.toNat
  offset :
    lba ≤ disk.lastBlock →
    (lba * loopBlockSize).toNat = lba.toNat * 2048 ∧
      lba * loopBlockSize ≠ seekToEnd

namespace LoopGeometry

variable {content : List UInt8}
  {disk : LoopDisk}

/-- The last block in unbounded integers. -/
theorem blocks_eq
    {lastBlock : UInt64}
    (geometry : LoopGeometry content lastBlock) :
    lastBlock.toNat + 1 = content.length / 2048 ∧
      lastBlock.toNat < 2 ^ 53 := by
  obtain ⟨fileSize, sizeIs, accepted, rfl⟩ := geometry.sized
  have least : (32768 : Nat) ≤ fileSize.toNat := by
    simpa [loopMinSize, loopBlockSize, UInt64.le_iff_toNat_le] using accepted
  have below := fileSize.toNat_lt
  have quotient : (fileSize / loopBlockSize).toNat = fileSize.toNat / 2048 := by
    simp [loopBlockSize, UInt64.toNat_div]
  have positive : (1 : UInt64) ≤ fileSize / loopBlockSize := by
    rw [UInt64.le_iff_toNat_le, quotient]
    simp only [UInt64.toNat_one]
    omega
  have difference :
      (loopLastBlock fileSize).toNat = fileSize.toNat / 2048 - 1 := by
    rw [loopLastBlock, UInt64.toNat_sub_of_le _ _ positive, quotient]
    rfl
  rw [difference, sizeIs]
  omega

/-- No bound or offset computation of a read on the device wraps. -/
theorem noWrap
    (geometry : LoopGeometry content disk.lastBlock)
    (lba : UInt64) :
    NoWrap disk lba := by
  obtain ⟨_, small⟩ := geometry.blocks_eq
  have blocks :
      (disk.lastBlock + 1).toNat = disk.lastBlock.toNat + 1 := by
    rw [UInt64.toNat_add]
    simp only [UInt64.toNat_one]
    omega
  refine ⟨blocks, ?_, ?_⟩
  · intro inside
    rw [UInt64.le_iff_toNat_le] at inside
    rw [UInt64.toNat_sub_of_le, blocks]
    rw [UInt64.le_iff_toNat_le, blocks]
    omega
  · intro inside
    rw [UInt64.le_iff_toNat_le] at inside
    have exact : (lba * loopBlockSize).toNat = lba.toNat * 2048 := by
      rw [UInt64.toNat_mul]
      simp only [loopBlockSize, UInt64.reduceToNat]
      omega
    refine ⟨exact, ?_⟩
    intro reserved
    rw [reserved] at exact
    simp only [seekToEnd, UInt64.reduceToNat] at exact
    omega

end LoopGeometry

/-- The two range checks of `LoopReadBlocks` accept exactly the reads inside the device. -/
theorem acceptedRead_iff_checks
    {content : List UInt8}
    {disk : LoopDisk}
    (geometry : LoopGeometry content disk.lastBlock)
    (mediaId : UInt32)
    (lba bufferSize : UInt64)
    (buffer : Option Memory) :
    AcceptedRead content disk mediaId lba bufferSize buffer ↔
      ¬ (mediaId ≠ disk.media.mediaId ∨ buffer.isNone = true ∨
          bufferSize % loopBlockSize ≠ 0) ∧
        ¬ (disk.lastBlock < lba ∨
          disk.lastBlock + 1 - lba < bufferSize / loopBlockSize) := by
  obtain ⟨blocks, _⟩ := geometry.blocks_eq
  have wraps := geometry.noWrap lba
  have whole :
      bufferSize % loopBlockSize = 0 ↔ bufferSize.toNat % 2048 = 0 := by
    rw [← UInt64.toNat_inj]
    simp [loopBlockSize, UInt64.toNat_mod]
  have quotient :
      (bufferSize / loopBlockSize).toNat = bufferSize.toNat / 2048 := by
    simp [loopBlockSize, UInt64.toNat_div]
  constructor
  · intro accepted
    have start : lba ≤ disk.lastBlock := accepted.start
    have remaining := wraps.remaining start
    have range := accepted.range
    refine ⟨?_, ?_⟩
    · rintro (otherMedia | noBuffer | ragged)
      · exact otherMedia accepted.mediaId
      · exact accepted.buffer (Option.isNone_iff_eq_none.mp noBuffer)
      · exact ragged (whole.mpr accepted.wholeBlocks)
    · rintro (beyond | tooLong)
      · exact UInt64.not_lt.mpr start beyond
      · rw [UInt64.lt_iff_toNat_lt, quotient, remaining] at tooLong
        omega
  · rintro ⟨parameters, inside⟩
    simp only [not_or, ne_eq, not_not, Bool.not_eq_true] at parameters inside
    obtain ⟨sameMedia, hasBuffer, wholeBlocks⟩ := parameters
    obtain ⟨notBeyond, notTooLong⟩ := inside
    have start : lba ≤ disk.lastBlock := UInt64.not_lt.mp notBeyond
    have startNat : lba.toNat ≤ disk.lastBlock.toNat := start
    have remaining := wraps.remaining start
    rw [UInt64.not_lt, UInt64.le_iff_toNat_le, quotient, remaining]
      at notTooLong
    exact {
      mediaId := sameMedia
      buffer := by
        rintro rfl
        simp at hasBuffer
      wholeBlocks := whole.mp wholeBlocks
      start := startNat
      range := by omega
    }

/-- Every read of a device with an accepted geometry is faithful. -/
theorem loopReadBlocks_fidelity
    {FileSystem : Type}
    {files : FileProtocol FileSystem}
    {content : FileHandle → List UInt8}
    {position : FileSystem → FileHandle → Nat}
    (faithful : files.Faithful content position)
    {disk : LoopDisk}
    (geometry : LoopGeometry (content disk.backingFile) disk.lastBlock)
    (mediaId : UInt32)
    (lba bufferSize : UInt64)
    (buffer : Option Memory)
    (fileSystem : FileSystem) :
    let outcome :=
      loopReadBlocks files disk mediaId lba bufferSize buffer fileSystem
    ReadFidelity (content disk.backingFile) disk mediaId lba bufferSize
      buffer outcome.status outcome.buffer := by
  intro outcome
  have checks :=
    acceptedRead_iff_checks geometry mediaId lba bufferSize buffer
  by_cases accepted :
      AcceptedRead (content disk.backingFile) disk mediaId lba
        bufferSize buffer
  · obtain ⟨parameters, inside⟩ := checks.mp accepted
    obtain ⟨blocks, _⟩ := geometry.blocks_eq
    obtain ⟨offsetExact, notReserved⟩ :=
      (geometry.noWrap lba).offset accepted.start
    obtain ⟨before, hasBuffer⟩ :=
      Option.ne_none_iff_exists'.mp accepted.buffer
    have wholeBlocks := accepted.wholeBlocks
    have range := accepted.range
    -- The seek lands on the first requested byte, whatever the position was.
    let seeked :=
      (files.setPosition disk.backingFile (lba * loopBlockSize)
        fileSystem).2
    have positioned :
        position seeked disk.backingFile = lba.toNat * 2048 := by
      rw [← offsetExact]
      exact faithful.setPosition_position _ _ _ notReserved
    have withinFile :
        position seeked disk.backingFile ≤
          (content disk.backingFile).length := by
      omega
    have bytes := faithful.read_bytes disk.backingFile bufferSize seeked
      withinFile
    rw [positioned] at bytes
    have fullLength :
        (files.read disk.backingFile bufferSize seeked).2.1.length =
          bufferSize.toNat := by
      rw [bytes, List.length_take, List.length_drop]
      omega
    have outcomeIs :
        outcome =
          ⟨.success,
            some (before.write
              (files.read disk.backingFile bufferSize seeked).2.1),
            (files.read disk.backingFile bufferSize seeked).2.2⟩ := by
      change loopReadBlocks files disk mediaId lba bufferSize buffer
        fileSystem = _
      rw [loopReadBlocks, if_neg parameters, if_neg inside]
      simp only [faithful.setPosition_status, EfiStatus.isError_success,
        Bool.false_eq_true, ↓reduceIte, hasBuffer, Option.map_some]
      change (if (files.read disk.backingFile bufferSize
          seeked).1.isError then _ else _) = _
      rw [faithful.read_status _ _ _ withinFile]
      simp only [EfiStatus.isError_success, Bool.false_eq_true,
        ↓reduceIte, fullLength, seeked]
    rw [outcomeIs]
    exact {
      succeeds := by simp [accepted]
      delivers := by
        intro _
        refine ⟨before, _, hasBuffer, rfl, ?_, ?_⟩
        · intro offset requested
          have inBytes :
              offset <
                (files.read disk.backingFile bufferSize
                  seeked).2.1.length := by
            rw [fullLength]
            exact requested
          simp only [Memory.write, List.getElem?_eq_getElem inBytes,
            Option.getD_some]
          rw [← List.getElem?_eq_getElem inBytes, bytes,
            List.getElem?_take_of_lt requested, List.getElem?_drop]
        · intro offset behind
          have pastBytes :
              (files.read disk.backingFile bufferSize
                seeked).2.1.length ≤ offset := by
            rw [fullLength]
            exact behind
          simp [Memory.write, List.getElem?_eq_none pastBytes]
      refuses := fun refused => (refused accepted).elim
      noDeviceError := EfiStatus.success_ne_deviceError
    }
  · have outcomeIs :
        outcome = ⟨.invalidParameter, buffer, fileSystem⟩ := by
      simp only [outcome, loopReadBlocks]
      rw [checks, not_and_or, not_not, not_not] at accepted
      rcases accepted with badParameters | outside
      · rw [if_pos badParameters]
      · rw [if_pos outside, ite_self]
    rw [outcomeIs]
    exact {
      succeeds :=
        iff_of_false EfiStatus.invalidParameter_ne_success accepted
      delivers := fun accepted' => (accepted accepted').elim
      refuses := fun _ => ⟨rfl, rfl⟩
      noDeviceError := EfiStatus.invalidParameter_ne_deviceError
    }

/-- Every binding of a registry has a geometry that `LoopCreate` computed. -/
def LoopRegistry.Sized
    (content : FileHandle → List UInt8)
    (registry : LoopRegistry) : Prop :=
  ∀ {handle binding},
    registry handle = some binding →
    LoopGeometry (content binding.backingFile) binding.lastBlock

/-- An admissible factory call keeps the registry sized. -/
theorem LoopRegistry.Sized.record
    {FileSystem : Type}
    {content : FileHandle → List UInt8}
    {registry : LoopRegistry}
    (sized : registry.Sized content)
    {system : LoopSystem FileSystem}
    {call : FactoryCall}
    (admissible : (LoopCall.factory call).Admissible content system)
    (reply : FactoryReply) :
    (registry.record (call, reply)).Sized content := by
  intro handle binding bound
  cases call with
  | create outcomes backingFile fileDevicePath lastBlock loopHandle =>
      cases reply with
      | destroyed result =>
          exact sized bound
      | created result =>
          cases backingFile with
          | none =>
              exact sized bound
          | some file =>
          cases newHandle : result.loopHandle with
          | none =>
              simp only [LoopRegistry.record, newHandle] at bound
              exact sized bound
          | some created =>
              simp only [LoopRegistry.record, newHandle] at bound
              split at bound
              · by_cases isNew : handle = created
                · subst isNew
                  simp only [Function.update_self, Option.some.injEq]
                    at bound
                  subst bound
                  exact admissible.2
                · rw [Function.update_of_ne isNew] at bound
                  exact sized bound
              · exact sized bound
  | destroy uninstall loopHandle wantsFile =>
      cases reply with
      | created result =>
          exact sized bound
      | destroyed result =>
          cases loopHandle with
          | none =>
              exact sized bound
          | some removed =>
              simp only [LoopRegistry.record] at bound
              split at bound
              · by_cases isRemoved : handle = removed
                · simp [isRemoved] at bound
                · rw [Function.update_of_ne isRemoved] at bound
                  exact sized bound
              · exact sized bound

/-- A device call leaves the driver state alone. -/
theorem loopStep_block_dxe
    {FileSystem : Type}
    (files : FileProtocol FileSystem)
    (system : LoopSystem FileSystem)
    (handle : Handle)
    (call : BlockCall) :
    (loopStep files system (.block handle call)).2.dxe = system.dxe := by
  simp only [loopStep]
  split <;> rfl

/-- Over every run the driver is well formed and its devices are sized. -/
theorem loopDriver_sized
    {FileSystem : Type}
    {files : FileProtocol FileSystem}
    {content : FileHandle → List UInt8}
    {initial system : LoopSystem FileSystem}
    {history : List (LoopCall × LoopReply)}
    (loaded : initial.dxe.JustLoaded)
    (run : (loopDriver files content).Run initial history system) :
    system.dxe.WellFormed ∧ system.dxe.registry.Sized content := by
  apply run.invariant
    (fun system =>
      system.dxe.WellFormed ∧ system.dxe.registry.Sized content)
  · refine ⟨loaded.wellFormed, ?_⟩
    intro handle binding bound
    obtain ⟨disk, live, _⟩ := Option.map_eq_some_iff.mp bound
    obtain ⟨_, _, _, device⟩ := loaded.wellFormed.diskAt_iff.mp live
    exact (loaded.blockIo _ _ device.blockIo).elim
  · rintro system call ⟨wellFormed, sized⟩ admissible
    cases call with
    | factory call =>
        obtain ⟨wellFormed', refines⟩ :=
          factoryStep_refines wellFormed admissible.1
        refine ⟨wellFormed', ?_⟩
        change (factoryStep system.dxe call).2.registry.Sized content
        rw [refines]
        exact sized.record admissible _
    | block handle call =>
        have unchanged := loopStep_block_dxe files system handle call
        change
          (loopStep files system (.block handle call)).2.dxe.WellFormed ∧
            (loopStep files system
              (.block handle call)).2.dxe.registry.Sized content
        rw [unchanged]
        exact ⟨wellFormed, sized⟩

/-- What every live device of a driver state guarantees to its callers. -/
structure LoopReadContract
    {FileSystem : Type}
    (files : FileProtocol FileSystem)
    (content : FileHandle → List UInt8)
    (system : LoopSystem FileSystem)
    (handle : Handle)
    (disk : LoopDisk) : Prop where
  /-- The device covers the whole blocks of its backing file. -/
  geometry :
    disk.lastBlock.toNat =
      (content disk.backingFile).length / 2048 - 1
  noWrap :
    ∀ lba, NoWrap disk lba
  readBlocks :
    ∀ mediaId lba bufferSize buffer,
      ∃ reply system',
        loopStep files system
            (.block handle (.readBlocks mediaId lba bufferSize buffer)) =
          (.block reply, system') ∧
        ReadFidelity (content disk.backingFile) disk mediaId lba
          bufferSize buffer reply.status reply.buffer
  /-- BlockIo2 reads alike, and completes the token with the same status. -/
  readBlocksEx :
    ∀ mediaId lba token bufferSize buffer,
      ∃ reply system',
        loopStep files system
            (.block handle
              (.readBlocksEx mediaId lba token bufferSize buffer)) =
          (.block reply, system') ∧
        ReadFidelity (content disk.backingFile) disk mediaId lba
          bufferSize buffer reply.status reply.buffer ∧
        reply.completion.token =
          token.map ({ · with transactionStatus := reply.status }) ∧
        reply.completion.signalled =
          if reply.status = .success then
            token.bind BlockIo2Token.event
          else
            none
  noDeviceError :
    ∀ call reply system',
      loopStep files system (.block handle call) =
        (.block reply, system') →
      reply.status ≠ .deviceError

/-- A read succeeds or is refused; there is no third status. -/
theorem ReadFidelity.status_cases
    {content : List UInt8}
    {disk : LoopDisk}
    {mediaId : UInt32}
    {lba bufferSize : UInt64}
    {buffer buffer' : Option Memory}
    {status : EfiStatus}
    (fidelity :
      ReadFidelity content disk mediaId lba bufferSize buffer
        status buffer') :
    status = .success ∨ status = .invalidParameter := by
  by_cases accepted :
      AcceptedRead content disk mediaId lba bufferSize buffer
  · exact .inl (fidelity.succeeds.mpr accepted)
  · exact .inr (fidelity.refuses accepted).1

/--
In every state that any history of factory and device calls leads to, every
live device reads its backing file faithfully.
-/
theorem loop_read_fidelity
    {FileSystem : Type}
    {files : FileProtocol FileSystem}
    {content : FileHandle → List UInt8}
    {position : FileSystem → FileHandle → Nat}
    (faithful : files.Faithful content position)
    {initial system : LoopSystem FileSystem}
    {history : List (LoopCall × LoopReply)}
    (loaded : initial.dxe.JustLoaded)
    (run : (loopDriver files content).Run initial history system)
    {handle : Handle}
    {disk : LoopDisk}
    (live : system.dxe.diskAt handle = some disk) :
    LoopReadContract files content system handle disk := by
  obtain ⟨_, sized⟩ := loopDriver_sized loaded run
  have geometry : LoopGeometry (content disk.backingFile) disk.lastBlock :=
    @sized handle ⟨disk.backingFile, disk.lastBlock⟩
      (by simp [LoopDxe.registry, live])
  have reads := fun mediaId lba bufferSize buffer =>
    loopReadBlocks_fidelity faithful geometry mediaId lba bufferSize
      buffer system.fileSystem
  exact {
    geometry := by
      have := geometry.blocks_eq
      omega
    noWrap := geometry.noWrap
    readBlocks := by
      intro mediaId lba bufferSize buffer
      exact ⟨_, _, by simp only [loopStep, live, blockStep]; rfl,
        reads mediaId lba bufferSize buffer⟩
    readBlocksEx := by
      intro mediaId lba token bufferSize buffer
      have fidelity := reads mediaId lba bufferSize buffer
      refine ⟨_, _,
        by simp only [loopStep, live, blockStep, loopReadBlocksEx]; rfl,
        fidelity, ?_, ?_⟩
      · cases token <;> rfl
      · cases token with
        | none =>
            simp [loopCompleteToken]
        | some token =>
            rcases fidelity.status_cases with succeeded | refused
            · simp [loopCompleteToken, succeeded]
            · simp [loopCompleteToken, refused,
                EfiStatus.invalidParameter_ne_success]
    noDeviceError := by
      intro call reply system' stepped
      simp only [loopStep, live, Prod.mk.injEq, LoopReply.block.injEq]
        at stepped
      obtain ⟨rfl, -⟩ := stepped
      cases call with
      | reset =>
          exact EfiStatus.success_ne_deviceError
      | readBlocks mediaId lba bufferSize buffer =>
          exact (reads mediaId lba bufferSize buffer).noDeviceError
      | writeBlocks =>
          exact EfiStatus.writeProtected_ne_deviceError
      | flushBlocks =>
          exact EfiStatus.success_ne_deviceError
      | resetEx =>
          exact EfiStatus.success_ne_deviceError
      | readBlocksEx mediaId lba token bufferSize buffer =>
          exact (reads mediaId lba bufferSize buffer).noDeviceError
      | writeBlocksEx =>
          exact EfiStatus.writeProtected_ne_deviceError
      | flushBlocksEx =>
          exact EfiStatus.success_ne_deviceError
  }

/-- Files held in memory; the state is the position of every open file. -/
def memoryFiles
    (content : FileHandle → List UInt8) :
    FileProtocol (FileHandle → Nat) where
  setPosition file offset positions :=
    (.success,
      Function.update positions file
        (if offset = seekToEnd then (content file).length
          else offset.toNat))
  read file size positions :=
    let bytes := ((content file).drop (positions file)).take size.toNat
    (.success, bytes,
      Function.update positions file (positions file + bytes.length))

/-- Files in memory behave as the firmware documents. -/
theorem memoryFiles_faithful
    (content : FileHandle → List UInt8) :
    (memoryFiles content).Faithful content
      fun positions => positions where
  setPosition_status := fun _ _ _ => rfl
  setPosition_position := by
    intro file offset positions notReserved
    simp [memoryFiles, notReserved]
  read_status := fun _ _ _ _ => rfl
  read_bytes := fun _ _ _ _ => rfl

/-- Two devices over one open file of sixteen blocks, one run that creates both. -/
theorem loop_read_fidelity_shared_file :
    ∃ history system disk,
      (loopDriver (memoryFiles fun _ => List.replicate 32768 7)
          fun _ => List.replicate 32768 7).Run
        ⟨idleLoopDxe, fun _ => 0⟩ history system ∧
      LoopReadContract (memoryFiles fun _ => List.replicate 32768 7)
        (fun _ => List.replicate 32768 7) system 1 disk := by
  have geometry : LoopGeometry (List.replicate 32768 7) 15 :=
    ⟨32768, by rw [List.length_replicate]; rfl, by decide, by decide⟩
  obtain ⟨firstDisk, firstPath, firstAdmissible, _, _, firstAnswer⟩ :=
    createOverIso_answer
      (rfl : idleLoopDxe.handles 0 = .unused)
      (rfl : idleLoopDxe.pool 0 = none)
      (rfl : idleLoopDxe.pool 1 = none) (by decide)
  obtain ⟨disk, path, admissible, installable, _, answer⟩ :=
    createOverIso_answer
      (rfl : (idleLoopDxe.addDevice 0 0 1 firstDisk firstPath).handles 1 =
        .unused)
      (rfl : (idleLoopDxe.addDevice 0 0 1 firstDisk firstPath).pool 2 =
        none)
      (rfl : (idleLoopDxe.addDevice 0 0 1 firstDisk firstPath).pool 3 =
        none)
      (by decide)
  let driver :=
    loopDriver (memoryFiles fun _ => List.replicate 32768 7)
      fun _ => List.replicate 32768 7
  have first :
      driver.Run ⟨idleLoopDxe, fun _ => 0⟩ _
        ⟨idleLoopDxe.addDevice 0 0 1 firstDisk firstPath, fun _ => 0⟩ :=
    ProcessRuns.Process.Run.start.answer
      (show driver.admits _ (.factory (createOverIso 0 0 1)) from
        ⟨firstAdmissible, geometry⟩)
      (by simp only [driver, loopDriver, loopStep, firstAnswer]; rfl)
  have second := first.answer
    (show driver.admits _ (.factory (createOverIso 1 2 3)) from
      ⟨admissible, geometry⟩)
    (by simp only [driver, loopDriver, loopStep, answer]; rfl)
  exact ⟨_, _, disk, second,
    loop_read_fidelity (memoryFiles_faithful _) idleLoopDxe_justLoaded
      second installable.device.diskAt_eq⟩

end UefiMount
