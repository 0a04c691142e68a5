import UefiMount.LoopFactoryLifecycle

namespace UefiMount

/-!
# Vendor nodes over a run of the factory

A vendor-media node carries the low eight bits of the 32-bit sequence number
that its Create drew.  `LoopOrdinals` counts the draws of a history without a
bound and remembers which draw made each live device; two nodes agree exactly
when their draws are a multiple of 256 apart.
-/

/-- Two vendor nodes agree exactly when their sequence numbers agree modulo 256. -/
theorem loopVendorNode_inj
    {first second : Nat} :
    loopVendorNode (UInt32.ofNat first) =
        loopVendorNode (UInt32.ofNat second) ↔
      first % 256 = second % 256 := by
  simp only [loopVendorNode, DevicePathNode.vendorMedia.injEq,
    EfiGuid.mk.injEq, List.cons.injEq, and_true, true_and,
    ← UInt8.toNat_inj, UInt32.toNat_toUInt8, UInt32.toNat_ofNat']
  omega

/-- How many sequence numbers were drawn, and which draw made each live device. -/
structure LoopOrdinals where
  drawn : Nat
  ordinal : Handle → Option Nat

namespace LoopOrdinals

/-- The ordinals after one answered call. -/
def record (ordinals : LoopOrdinals) :
    FactoryCall × FactoryReply → LoopOrdinals
  | (call, .created result) =>
      let drawn := ordinals.drawn + if call.counted then 1 else 0
      match result.loopHandle with
      | some handle =>
          { drawn := drawn
            ordinal :=
              Function.update ordinals.ordinal handle (some drawn) }
      | none =>
          { ordinals with drawn := drawn }
  | (.destroy _ (some handle) _, .destroyed result) =>
      if result.status = .success then
        { ordinals with
          ordinal := Function.update ordinals.ordinal handle none }
      else
        ordinals
  | _ =>
      ordinals

/-- The ordinals of a whole history. -/
def ofHistory (history : List (FactoryCall × FactoryReply)) : LoopOrdinals :=
  history.foldl record ⟨0, fun _ => none⟩

theorem ofHistory_append
    (history : List (FactoryCall × FactoryReply))
    (answered : FactoryCall × FactoryReply) :
    ofHistory (history ++ [answered]) =
      (ofHistory history).record answered := by
  simp [ofHistory]

end LoopOrdinals

/--
No Create draws its sequence number a multiple of 256 draws after the Create
of a device that is still live.
-/
def SpacedCreates (history : List (FactoryCall × FactoryReply)) : Prop :=
  ∀ earlier call reply later,
    history = earlier ++ (call, reply) :: later →
    call.counted = true →
    ∀ {handle ordinal},
      (LoopOrdinals.ofHistory earlier).ordinal handle = some ordinal →
      ¬ 256 ∣ (LoopOrdinals.ofHistory earlier).drawn + 1 - ordinal

/--
Whenever a Create builds its vendor node, the node differs from the vendor
node of every device that is live at that moment.
-/
def VendorNodesUnique
    (initial : LoopDxe)
    (history : List (FactoryCall × FactoryReply)) : Prop :=
  ∀ earlier call reply later middle,
    history = earlier ++ (call, reply) :: later →
    factory.Run initial earlier middle →
    call.counted = true →
    ∀ handle disk path,
      middle.diskAt handle = some disk →
      middle.devicePathAt handle = some path →
      path.getLast? ≠ some (loopVendorNode (middle.mLoopSeq + 1))

/-- The driver state and the ordinals of the history that led to it agree. -/
structure LoopOrdinals.Describes
    (ordinals : LoopOrdinals)
    (dxe : LoopDxe) : Prop where
  counter :
    dxe.mLoopSeq = UInt32.ofNat ordinals.drawn
  live :
    ∀ handle,
      (ordinals.ordinal handle).isSome = (dxe.diskAt handle).isSome
  seq :
    ∀ {handle ordinal disk},
      ordinals.ordinal handle = some ordinal →
      dxe.diskAt handle = some disk →
      disk.seq = UInt32.ofNat ordinal
  bounded :
    ∀ {handle ordinal},
      ordinals.ordinal handle = some ordinal →
      ordinal ≤ ordinals.drawn

/-- One factory call keeps the ordinals in step with the driver state. -/
theorem LoopOrdinals.Describes.step
    {ordinals : LoopOrdinals}
    {dxe : LoopDxe}
    (describes : ordinals.Describes dxe)
    (wellFormed : dxe.WellFormed)
    {call : FactoryCall}
    (admissible : call.Admissible dxe) :
    (ordinals.record (call, (factoryStep dxe call).1)).Describes
      (factoryStep dxe call).2 := by
  cases call with
  | create outcomes backingFile fileDevicePath lastBlock loopHandle =>
      have fresh : outcomes.Fresh dxe := admissible
      rcases loopFactoryCreate_cases fresh backingFile fileDevicePath
          lastBlock loopHandle with
        ⟨status, failed, result⟩ |
        ⟨file, path, diskAddress, pathAddress, rfl, rfl,
          diskPool, pathPool, counted, result⟩
      · simp only [factoryStep, result, LoopOrdinals.record]
        refine ⟨?_, describes.live, describes.seq, ?_⟩
        · rw [describes.counter]
          split <;> simp
        · intro handle ordinal live
          exact Nat.le_trans (describes.bounded live) (Nat.le_add_right _ _)
      · have installable :=
          fresh.installable diskPool pathPool file lastBlock path
        have nextSeq :
            dxe.mLoopSeq + 1 = UInt32.ofNat (ordinals.drawn + 1) := by
          rw [describes.counter]
          simp
        simp only [factoryStep, result, LoopOrdinals.record, counted,
          ↓reduceIte]
        refine ⟨nextSeq, ?_, ?_, ?_⟩
        · intro handle
          rw [installable.diskAt_addDevice wellFormed]
          by_cases isNew : handle = outcomes.newHandle
          · simp [isNew]
          · simpa [isNew] using describes.live handle
        · intro handle ordinal disk live found
          rw [installable.diskAt_addDevice wellFormed] at found
          by_cases isNew : handle = outcomes.newHandle
          · subst isNew
            simp only [Function.update_self, Option.some.injEq]
              at live found
            subst live
            subst found
            simpa [newLoopDisk] using nextSeq
          · simp only [Function.update_of_ne isNew] at live found
            exact describes.seq live found
        · intro handle ordinal live
          by_cases isNew : handle = outcomes.newHandle
          · subst isNew
            simp only [Function.update_self, Option.some.injEq] at live
            exact Nat.le_of_eq live.symm
          · simp only [Function.update_of_ne isNew] at live
            exact Nat.le_trans (describes.bounded live) (Nat.le_succ _)
  | destroy uninstall loopHandle wantsFile =>
      rcases loopFactoryDestroy_cases wellFormed uninstall loopHandle
          wantsFile with
        ⟨_, result⟩ |
        ⟨handle, diskAddress, pathAddress, disk, path, rfl, device, result⟩
      · simp only [factoryStep, result]
        cases loopHandle <;> exact describes
      · cases failed : uninstall.isError with
        | true =>
            simp only [failed, ↓reduceIte] at result
            simpa [factoryStep, result, LoopOrdinals.record,
              EfiStatus.ne_success_of_isError failed] using describes
        | false =>
            simp only [failed, Bool.false_eq_true, ↓reduceIte] at result
            simp only [factoryStep, result, LoopOrdinals.record, ↓reduceIte]
            refine ⟨describes.counter, ?_, ?_, ?_⟩
            · intro other
              rw [wellFormed.diskAt_removeDevice device]
              by_cases isRemoved : other = handle
              · simp [isRemoved]
              · simpa [isRemoved] using describes.live other
            · intro other ordinal found live diskAt
              rw [wellFormed.diskAt_removeDevice device] at diskAt
              by_cases isRemoved : other = handle
              · simp [isRemoved] at live
              · simp only [Function.update_of_ne isRemoved] at live diskAt
                exact describes.seq live diskAt
            · intro other ordinal live
              by_cases isRemoved : other = handle
              · simp [isRemoved] at live
              · simp only [Function.update_of_ne isRemoved] at live
                exact describes.bounded live

/-- Over every run the ordinals of the history describe the driver state. -/
theorem ordinals_describe
    {initial dxe : LoopDxe}
    {history : List (FactoryCall × FactoryReply)}
    (loaded : initial.JustLoaded)
    (run : factory.Run initial history dxe) :
    dxe.WellFormed ∧ (LoopOrdinals.ofHistory history).Describes dxe := by
  apply run.tracks
    (fun history dxe =>
      dxe.WellFormed ∧ (LoopOrdinals.ofHistory history).Describes dxe)
  · refine ⟨loaded.wellFormed, by simp [LoopOrdinals.ofHistory, loaded.seq],
      ?_, by simp [LoopOrdinals.ofHistory], by simp [LoopOrdinals.ofHistory]⟩
    intro handle
    have nothing : initial.diskAt handle = none := by
      apply Option.eq_none_iff_forall_ne_some.mpr
      intro disk live
      obtain ⟨_, _, _, device⟩ := loaded.wellFormed.diskAt_iff.mp live
      exact loaded.blockIo _ _ device.blockIo
    simp [LoopOrdinals.ofHistory, nothing]
  · rintro history dxe call ⟨wellFormed, describes⟩ admissible
    refine ⟨(factoryStep_refines wellFormed admissible).1, ?_⟩
    rw [LoopOrdinals.ofHistory_append]
    exact describes.step wellFormed admissible

/--
A live device's vendor node is the one the next Create builds exactly when a
multiple of 256 draws lies between the two.
-/
theorem LoopOrdinals.Describes.node_eq_iff
    {ordinals : LoopOrdinals}
    {dxe : LoopDxe}
    (describes : ordinals.Describes dxe)
    (wellFormed : dxe.WellFormed)
    {handle : Handle}
    {ordinal : Nat}
    (live : ordinals.ordinal handle = some ordinal) :
    ∃ disk path,
      dxe.diskAt handle = some disk ∧
        dxe.devicePathAt handle = some path ∧
        path.getLast? = some (loopVendorNode (UInt32.ofNat ordinal)) ∧
        (path.getLast? = some (loopVendorNode (dxe.mLoopSeq + 1)) ↔
          256 ∣ ordinals.drawn + 1 - ordinal) := by
  have isLive : (dxe.diskAt handle).isSome := by
    rw [← describes.live handle, live]
    rfl
  obtain ⟨disk, diskAt⟩ := Option.isSome_iff_exists.mp isLive
  obtain ⟨_, _, path, device⟩ := wellFormed.diskAt_iff.mp diskAt
  have node := device.vendorNode
  rw [describes.seq live diskAt] at node
  refine ⟨disk, path, diskAt, device.devicePathAt_eq, node, ?_⟩
  have nextSeq :
      dxe.mLoopSeq + 1 = UInt32.ofNat (ordinals.drawn + 1) := by
    rw [describes.counter]
    simp
  have bounded := describes.bounded live
  rw [node, nextSeq, Option.some.injEq, loopVendorNode_inj]
  omega

/-- Extending a history can only add conditions. -/
theorem SpacedCreates.of_append
    {history trailing : List (FactoryCall × FactoryReply)}
    (spaced : SpacedCreates (history ++ trailing)) :
    SpacedCreates history := by
  intro earlier call reply later shape
  exact spaced earlier call reply (later ++ trailing) (by simp [shape])

/-- In a spaced run no two live devices carry the same vendor node. -/
theorem ordinals_distinct
    {initial dxe : LoopDxe}
    {history : List (FactoryCall × FactoryReply)}
    (loaded : initial.JustLoaded)
    (run : factory.Run initial history dxe)
    (spaced : SpacedCreates history)
    {first second : Handle}
    (different : first ≠ second)
    {firstOrdinal secondOrdinal : Nat}
    (firstLive :
      (LoopOrdinals.ofHistory history).ordinal first = some firstOrdinal)
    (secondLive :
      (LoopOrdinals.ofHistory history).ordinal second =
        some secondOrdinal) :
    firstOrdinal % 256 ≠ secondOrdinal % 256 := by
  induction run generalizing firstOrdinal secondOrdinal with
  | start =>
      simp [LoopOrdinals.ofHistory] at firstLive
  | @extend history dxe run call admissible inductionHypothesis =>
      obtain ⟨wellFormed, describes⟩ := ordinals_describe loaded run
      have earlierDistinct :=
        fun {n m} => @inductionHypothesis spaced.of_append n m
      rw [LoopOrdinals.ofHistory_append] at firstLive secondLive
      cases call with
      | create outcomes backingFile fileDevicePath lastBlock loopHandle =>
          have fresh : outcomes.Fresh dxe := admissible
          rcases loopFactoryCreate_cases fresh backingFile fileDevicePath
              lastBlock loopHandle with
            ⟨status, failed, result⟩ |
            ⟨file, path, _, _, rfl, rfl, _, _, counted, result⟩
          · simp only [factory, factoryStep, result, LoopOrdinals.record]
              at firstLive secondLive
            exact earlierDistinct firstLive secondLive
          · simp only [factory, factoryStep, result, LoopOrdinals.record,
              counted, ↓reduceIte] at firstLive secondLive
            -- An older device is never a multiple of 256 draws behind the new one.
            have apart :
                ∀ {handle ordinal},
                  (LoopOrdinals.ofHistory history).ordinal handle =
                    some ordinal →
                  ordinal % 256 ≠
                    ((LoopOrdinals.ofHistory history).drawn + 1) % 256 := by
              intro handle ordinal live
              have bounded := describes.bounded live
              have notMultiple :=
                spaced history _ _ [] rfl counted live
              omega
            by_cases firstNew : first = outcomes.newHandle
            · subst firstNew
              simp only [Function.update_self,
                Function.update_of_ne (Ne.symm different),
                Option.some.injEq] at firstLive secondLive
              subst firstLive
              exact (apart secondLive).symm
            · by_cases secondNew : second = outcomes.newHandle
              · subst secondNew
                simp only [Function.update_self,
                  Function.update_of_ne different,
                  Option.some.injEq] at firstLive secondLive
                subst secondLive
                exact apart firstLive
              · simp only [Function.update_of_ne firstNew,
                  Function.update_of_ne secondNew]
                  at firstLive secondLive
                exact earlierDistinct firstLive secondLive
      | destroy uninstall loopHandle wantsFile =>
          have stillLive :
              ∀ {handle ordinal},
                ((LoopOrdinals.ofHistory history).record
                    (.destroy uninstall loopHandle wantsFile,
                      (factoryStep dxe
                        (.destroy uninstall loopHandle wantsFile)).1)
                  ).ordinal handle = some ordinal →
                (LoopOrdinals.ofHistory history).ordinal handle =
                  some ordinal := by
            intro handle ordinal live
            cases loopHandle with
            | none =>
                exact live
            | some removed =>
                simp only [LoopOrdinals.record, factoryStep] at live
                split at live
                · by_cases isRemoved : handle = removed
                  · simp [isRemoved] at live
                  · simpa [isRemoved] using live
                · exact live
          exact earlierDistinct (stillLive firstLive) (stillLive secondLive)

/--
Over every run, each new vendor node differs from those of the live devices
exactly when the Creates are spaced; and in a spaced run two live devices
never share a device path.
-/
theorem vendorNodes_unique_iff_spaced
    {initial dxe : LoopDxe}
    {history : List (FactoryCall × FactoryReply)}
    (loaded : initial.JustLoaded)
    (run : factory.Run initial history dxe) :
    (VendorNodesUnique initial history ↔ SpacedCreates history) ∧
      (SpacedCreates history →
        ∀ {first second firstDisk secondDisk firstPath secondPath},
          first ≠ second →
          dxe.diskAt first = some firstDisk →
          dxe.diskAt second = some secondDisk →
          dxe.devicePathAt first = some firstPath →
          dxe.devicePathAt second = some secondPath →
          firstPath ≠ secondPath) := by
  refine ⟨⟨?_, ?_⟩, ?_⟩
  · intro unique earlier call reply later shape counted handle ordinal
      live multiple
    obtain ⟨middle, reached, _, _, _⟩ := run.split shape
    obtain ⟨wellFormed, describes⟩ := ordinals_describe loaded reached
    obtain ⟨disk, path, diskAt, pathAt, _, sameNode⟩ :=
      describes.node_eq_iff wellFormed live
    exact unique _ _ _ _ _ shape reached counted _ _ _ diskAt pathAt
      (sameNode.mpr multiple)
  · intro spaced earlier call reply later middle shape reached counted
      handle disk path diskAt pathAt clash
    obtain ⟨wellFormed, describes⟩ := ordinals_describe loaded reached
    have hasOrdinal :
        ((LoopOrdinals.ofHistory earlier).ordinal handle).isSome := by
      rw [describes.live handle, diskAt]
      rfl
    obtain ⟨ordinal, live⟩ := Option.isSome_iff_exists.mp hasOrdinal
    obtain ⟨_, livePath, _, livePathAt, _, sameNode⟩ :=
      describes.node_eq_iff wellFormed live
    have samePath : livePath = path :=
      Option.some.inj (livePathAt.symm.trans pathAt)
    subst samePath
    exact spaced earlier call reply later shape counted live
      (sameNode.mp clash)
  · intro spaced first second firstDisk secondDisk firstPath secondPath
      different firstAt secondAt firstPathAt secondPathAt samePath
    obtain ⟨wellFormed, describes⟩ := ordinals_describe loaded run
    have firstOrdinal :
        ((LoopOrdinals.ofHistory history).ordinal first).isSome := by
      rw [describes.live first, firstAt]
      rfl
    have secondOrdinal :
        ((LoopOrdinals.ofHistory history).ordinal second).isSome := by
      rw [describes.live second, secondAt]
      rfl
    obtain ⟨n, firstLive⟩ := Option.isSome_iff_exists.mp firstOrdinal
    obtain ⟨m, secondLive⟩ := Option.isSome_iff_exists.mp secondOrdinal
    obtain ⟨_, _, _, firstFound, firstNode, _⟩ :=
      describes.node_eq_iff wellFormed firstLive
    obtain ⟨_, _, _, secondFound, secondNode, _⟩ :=
      describes.node_eq_iff wellFormed secondLive
    rw [firstPathAt, Option.some.injEq] at firstFound
    rw [secondPathAt, Option.some.injEq] at secondFound
    subst firstFound
    subst secondFound
    rw [samePath, secondNode, Option.some.injEq, loopVendorNode_inj]
      at firstNode
    exact ordinals_distinct loaded run spaced different firstLive
      secondLive firstNode.symm

/-- The uniqueness theorem at a run of three creates and two destroys. -/
theorem vendorNodes_unique_two_roundTrips :
    ∃ dxe,
      factory.Run idleLoopDxe (keptAndRoundTrips 2) dxe ∧
        (VendorNodesUnique idleLoopDxe (keptAndRoundTrips 2) ↔
          SpacedCreates (keptAndRoundTrips 2)) := by
  obtain ⟨dxe, run, _⟩ := keptAndRoundTrips_run 2
  exact ⟨dxe, run,
    (vendorNodes_unique_iff_spaced idleLoopDxe_justLoaded run).1⟩

/-- The kept device is the first draw, and every other one adds a draw. -/
theorem keptAndRoundTrips_ordinals (count : Nat) :
    (LoopOrdinals.ofHistory (keptAndRoundTrips count)).ordinal 0 = some 1 ∧
      (LoopOrdinals.ofHistory (keptAndRoundTrips count)).drawn =
        count + 1 := by
  induction count with
  | zero =>
      exact ⟨rfl, rfl⟩
  | succ count inductionHypothesis =>
      obtain ⟨kept, drawn⟩ := inductionHypothesis
      rw [keptAndRoundTrips_succ]
      simp [roundTrip, LoopOrdinals.ofHistory, List.foldl_append]
      simp only [LoopOrdinals.ofHistory] at kept drawn
      simp [LoopOrdinals.record, createOverIso, FactoryCall.counted,
        kept, drawn]

/-- A kept device, 255 others that came and went, and one more Create. -/
def wrapAroundHistory : List (FactoryCall × FactoryReply) :=
  keptAndRoundTrips 255 ++
    [(createOverIso 1 2 3, .created ⟨.success, some 1⟩)]

/--
The sequence byte wraps: the last Create of this run builds the vendor node of
the device that is still live.
-/
theorem vendorNodes_wrap_around :
    (∃ dxe, factory.Run idleLoopDxe wrapAroundHistory dxe) ∧
      ¬ VendorNodesUnique idleLoopDxe wrapAroundHistory := by
  obtain ⟨dxe, run, freshHandle, freshDisk, freshPath⟩ :=
    keptAndRoundTrips_run 255
  obtain ⟨disk, path, admissible, _, _, answer⟩ :=
    createOverIso_answer freshHandle freshDisk freshPath (by decide)
  have extended := factory_answer run admissible answer
  refine ⟨⟨_, extended⟩, ?_⟩
  intro unique
  obtain ⟨kept, drawn⟩ := keptAndRoundTrips_ordinals 255
  obtain ⟨wellFormed, describes⟩ :=
    ordinals_describe idleLoopDxe_justLoaded run
  obtain ⟨_, _, diskAt, pathAt, _, sameNode⟩ :=
    describes.node_eq_iff wellFormed kept
  refine unique _ _ _ [] _ rfl run rfl _ _ _ diskAt pathAt
    (sameNode.mpr ⟨1, ?_⟩)
  omega

end UefiMount
