import UefiMount.MountTransitions

namespace UefiMount

/-!
# What a rescan and a whole command can do

The rescan only connects controllers and prints its report: it loads no image
and takes no file system away from a device.  With that, every command ends in
one of the ways listed at the end of the module.
-/

/-- The events of the rescan and the report. -/
def Event.isRescan : Event → Bool
  | .connect _ _ => true
  | .refreshShell => true
  | .print (.newVolume _ _) => true
  | .print (.mapRefreshed _) => true
  | _ => false

/-- Every handle that carried a file system still carries one. -/
def LoopDxe.KeepsFileSystems (before after : LoopDxe) : Prop :=
  ∀ handle,
    (before.handles handle).simpleFileSystem = true →
    (after.handles handle).simpleFileSystem = true

/-- From one machine to another by connects and report lines only. -/
structure Rescanned
    (before : Machine)
    (events : List Event)
    (after : Machine) : Prop where
  images :
    after.images = before.images
  sniffed :
    after.sniffed = before.sniffed
  fileSystems :
    before.dxe.KeepsFileSystems after.dxe
  quiet :
    ∀ event ∈ events, event.isRescan = true
  connects :
    ∀ {target seen},
      .connect target seen ∈ events →
      seen.images = before.images ∧
        seen.sniffed = before.sniffed ∧
        before.dxe.KeepsFileSystems seen.dxe

namespace LoopDxe

theorem KeepsFileSystems.refl (dxe : LoopDxe) : dxe.KeepsFileSystems dxe :=
  fun _ kept => kept

theorem KeepsFileSystems.trans
    {first second third : LoopDxe}
    (earlier : first.KeepsFileSystems second)
    (later : second.KeepsFileSystems third) :
    first.KeepsFileSystems third :=
  fun handle kept => later handle (earlier handle kept)

theorem keepsFileSystems_claim (dxe : LoopDxe) (claimed : Handle) :
    dxe.KeepsFileSystems (dxe.claim claimed) := by
  intro handle kept
  simp only [claim]
  split
  · by_cases isClaimed : handle = claimed
    · simp [setHandle, isClaimed]
    · simpa [setHandle, isClaimed] using kept
  · exact kept

theorem keepsFileSystems_addChild (dxe : LoopDxe) (child : ChildHandle) :
    dxe.KeepsFileSystems (dxe.addChild child) := by
  intro handle kept
  simp only [addChild]
  split
  case isTrue unused =>
    by_cases isChild : handle = child.handle
    · rw [isChild, unused] at kept
      simp [Protocols.unused] at kept
    · simpa [setHandle, isChild] using kept
  case isFalse =>
    exact kept

/-- A fold whose steps keep the file systems keeps them. -/
theorem keepsFileSystems_foldl
    {bind : LoopDxe → β → LoopDxe}
    (step :
      ∀ (dxe : LoopDxe) item, dxe.KeepsFileSystems (bind dxe item))
    (items : List β)
    (dxe : LoopDxe) :
    dxe.KeepsFileSystems (items.foldl bind dxe) := by
  induction items generalizing dxe with
  | nil =>
      exact .refl dxe
  | cons item rest inductionHypothesis =>
      exact (step dxe item).trans (inductionHypothesis (bind dxe item))

/-- Drivers that bind take no file system away. -/
theorem keepsFileSystems_connect (dxe : LoopDxe) (outcome : ConnectOutcome) :
    dxe.KeepsFileSystems (dxe.connect outcome) :=
  (keepsFileSystems_foldl keepsFileSystems_claim outcome.claimed dxe).trans
    (keepsFileSystems_foldl keepsFileSystems_addChild outcome.children _)

end LoopDxe

namespace Rescanned

variable {before middle after : Machine}

theorem refl (machine : Machine) : Rescanned machine [] machine where
  images := rfl
  sniffed := rfl
  fileSystems := .refl _
  quiet := by simp
  connects := by simp

theorem trans
    {earlier later : List Event}
    (first : Rescanned before earlier middle)
    (second : Rescanned middle later after) :
    Rescanned before (earlier ++ later) after where
  images := second.images.trans first.images
  sniffed := second.sniffed.trans first.sniffed
  fileSystems := first.fileSystems.trans second.fileSystems
  quiet := by
    intro event member
    rcases List.mem_append.mp member with early | late
    · exact first.quiet event early
    · exact second.quiet event late
  connects := by
    intro target seen member
    rcases List.mem_append.mp member with early | late
    · exact first.connects early
    · obtain ⟨images, sniffed, fileSystems⟩ := second.connects late
      exact ⟨images.trans first.images, sniffed.trans first.sniffed,
        first.fileSystems.trans fileSystems⟩

/-- One event that touches nothing. -/
theorem event
    (machine : Machine)
    {event : Event}
    (quiet : event.isRescan = true)
    (noConnect : ∀ target seen, event ≠ .connect target seen) :
    Rescanned machine [event] machine where
  images := rfl
  sniffed := rfl
  fileSystems := .refl _
  quiet := by simpa using quiet
  connects := by
    intro target seen member
    exact (noConnect target seen (List.mem_singleton.mp member).symm).elim

/-- One `ConnectController`. -/
theorem connect
    (session : Session)
    (target : Handle)
    (outcome : ConnectOutcome) :
    ∃ events,
      Rescanned session.machine events
          (session.connectController target outcome).machine ∧
        (session.connectController target outcome).trace =
          session.trace ++ events := by
  refine ⟨[.connect target session.machine], ?_, rfl⟩
  exact {
    images := rfl
    sniffed := rfl
    fileSystems := LoopDxe.keepsFileSystems_connect _ outcome
    quiet := by simp [Event.isRescan]
    connects := by
      intro other seen member
      simp only [List.mem_singleton, Event.connect.injEq] at member
      obtain ⟨rfl, rfl⟩ := member
      exact ⟨rfl, rfl, .refl _⟩
  }

/-- The handle loop of the rescan. -/
theorem handles
    (connects : Handle → ConnectOutcome)
    (listed : List Handle)
    (session : Session) :
    ∃ events,
      Rescanned session.machine events
          (mapConnectHandles connects listed session).machine ∧
        (mapConnectHandles connects listed session).trace =
          session.trace ++ events := by
  induction listed generalizing session with
  | nil =>
      exact ⟨[], .refl _, by simp [mapConnectHandles]⟩
  | cons handle rest inductionHypothesis =>
      simp only [mapConnectHandles]
      split
      · exact inductionHypothesis session
      · obtain ⟨first, connected, firstTrace⟩ :=
          connect session handle (connects handle)
        obtain ⟨later, rescanned, laterTrace⟩ :=
          inductionHypothesis
            (session.connectController handle (connects handle))
        refine ⟨first ++ later, connected.trans rescanned, ?_⟩
        rw [laterTrace, firstTrace, List.append_assoc]

/-- The report prints lines and does nothing else. -/
theorem report
    (volume : Handle → VolumeOutcomes)
    (new : List Handle)
    (session : Session) :
    ∃ events,
      Rescanned session.machine events session.machine ∧
        new.foldl
            (fun session handle =>
              session.print (volumeLine (volume handle)))
            session =
          ⟨session.machine, session.trace ++ events⟩ := by
  induction new generalizing session with
  | nil =>
      exact ⟨[], .refl _, by simp⟩
  | cons handle rest inductionHypothesis =>
      obtain ⟨later, rescanned, answer⟩ :=
        inductionHypothesis (session.print (volumeLine (volume handle)))
      have line :=
        event session.machine
          (show (Event.print (volumeLine (volume handle))).isRescan = true
            from rfl)
          (by simp)
      refine ⟨_, line.trans rescanned, ?_⟩
      rw [List.foldl_cons, answer]
      simp [Session.print, Session.record]

/-- The rescan, the mapping refresh and the report. -/
theorem rescanAndReport
    (outcomes : RescanOutcomes)
    (oldFs : List Handle)
    (session : Session) :
    ∃ events after,
      Rescanned session.machine events after ∧
        UefiMount.rescanAndReport outcomes oldFs session =
          ⟨after, session.trace ++ events⟩ := by
  -- The rescan proper.
  obtain ⟨connected, rescanned, connectedTrace⟩ :
      ∃ events,
        Rescanned session.machine events
            (mapConnectAllControllers outcomes.blockIo outcomes.connects
              session).2.machine ∧
          (mapConnectAllControllers outcomes.blockIo outcomes.connects
              session).2.trace =
            session.trace ++ events := by
    simp only [mapConnectAllControllers]
    split
    · exact ⟨[], .refl _, by simp⟩
    · split
      · exact ⟨[], .refl _, by simp⟩
      · exact handles outcomes.connects outcomes.blockIo.2 session
  -- The refresh and the report.
  let scanned :=
    (mapConnectAllControllers outcomes.blockIo outcomes.connects session).2
  have refreshed :=
    event scanned.machine
      (show Event.refreshShell.isRescan = true from rfl) (by simp)
  simp only [UefiMount.rescanAndReport, mapPrintNewVolumes]
  split
  · refine ⟨_, _, rescanned.trans refreshed, ?_⟩
    rw [← List.append_assoc, ← connectedTrace]
    rfl
  · obtain ⟨lines, reported, answer⟩ :=
      report outcomes.volume
        ((mapSnapshotFsHandles outcomes.nowFs).2.filter
          fun handle => !oldFs.contains handle)
        (scanned.record .refreshShell)
    have last :=
      event scanned.machine
        (show (Event.print (.mapRefreshed
            ((mapSnapshotFsHandles outcomes.nowFs).2.filter
              fun handle => !oldFs.contains handle).length)).isRescan =
            true from rfl)
        (by simp)
    refine ⟨_, _,
      (rescanned.trans refreshed).trans (reported.trans last), ?_⟩
    rw [answer]
    simp only [Session.print, Session.record, scanned, connectedTrace,
      List.append_assoc]

end Rescanned

/-- The ways `MountRunIso` ends. -/
inductive IsoRun
    (outcomes : IsoOutcomes)
    (isoPath : Text)
    (machine : Machine) :
    EfiStatus → List Event → Machine → Prop where
  | refused
      {created : LoopCreated}
      {events : List Event}
      {machine' : Machine}
      (creation :
        LoopCreation outcomes.create isoPath machine created events
          machine')
      (failed : created.status ≠ .success) :
      IsoRun outcomes isoPath machine created.status events machine'
  | connected
      {created : LoopCreated}
      {events : List Event}
      {machine' : Machine}
      (creation :
        LoopCreation outcomes.create isoPath machine created events
          machine')
      (succeeded : created.status = .success)
      (notPure : created.sniff.pureIso = false)
      {rescan : List Event}
      {after : Machine}
      (rescanned : Rescanned machine' rescan after) :
      IsoRun outcomes isoPath machine .success
        (events ++ (.print (.loopCreated isoPath) :: rescan)) after
  | claimable
      {created : LoopCreated}
      {events : List Event}
      {machine' : Machine}
      (creation :
        LoopCreation outcomes.create isoPath machine created events
          machine')
      (succeeded : created.status = .success)
      (pure : created.sniff.pureIso = true)
      (found :
        mountDriverLoaded outcomes.scan isoDriverFile machine'.images =
          true)
      {rescan : List Event}
      {after : Machine}
      (rescanned : Rescanned machine' rescan after) :
      IsoRun outcomes isoPath machine .success
        (events ++ (.print (.loopCreated isoPath) ::
          .dedupe isoDriverFile true machine' :: rescan)) after
  | driverLoaded
      {created : LoopCreated}
      {events : List Event}
      {machine' : Machine}
      (creation :
        LoopCreation outcomes.create isoPath machine created events
          machine')
      (succeeded : created.status = .success)
      (pure : created.sniff.pureIso = true)
      (absent :
        mountDriverLoaded outcomes.scan isoDriverFile machine'.images =
          false)
      {loading : List Event}
      {machine'' : Machine}
      (load :
        DriverLoad outcomes.load isoDriverFile machine' .success loading
          machine'')
      {rescan : List Event}
      {after : Machine}
      (rescanned : Rescanned machine'' rescan after) :
      IsoRun outcomes isoPath machine .success
        (events ++ (.print (.loopCreated isoPath) ::
          .dedupe isoDriverFile false machine' :: (loading ++ rescan)))
        after
  | degraded
      {created : LoopCreated}
      {events : List Event}
      {machine' : Machine}
      (creation :
        LoopCreation outcomes.create isoPath machine created events
          machine')
      (succeeded : created.status = .success)
      (pure : created.sniff.pureIso = true)
      (absent :
        mountDriverLoaded outcomes.scan isoDriverFile machine'.images =
          false)
      {status : EfiStatus}
      {loading : List Event}
      {machine'' : Machine}
      (load :
        DriverLoad outcomes.load isoDriverFile machine' status loading
          machine'')
      (failed : status ≠ .success) :
      IsoRun outcomes isoPath machine .success
        (events ++ (.print (.loopCreated isoPath) ::
          .dedupe isoDriverFile false machine' ::
            (loading ++ [.print .isoDriverMissing, .print .loopKept])))
        machine''

/-- The ways `MountRunFormat` ends. -/
inductive FormatRun
    (outcomes : FormatOutcomes)
    (entry : MountFormatEntry)
    (machine : Machine) :
    EfiStatus → List Event → Machine → Prop where
  | alreadyLoaded
      (found :
        mountDriverLoaded outcomes.scan entry.driverFile machine.images =
          true)
      {rescan : List Event}
      {after : Machine}
      (rescanned : Rescanned machine rescan after) :
      FormatRun outcomes entry machine .success
        (.dedupe entry.driverFile true machine ::
          .print (.driverAlreadyLoaded entry.name) :: rescan)
        after
  | driverLoaded
      (absent :
        mountDriverLoaded outcomes.scan entry.driverFile machine.images =
          false)
      {loading : List Event}
      {machine' : Machine}
      (load :
        DriverLoad outcomes.load entry.driverFile machine .success loading
          machine')
      {rescan : List Event}
      {after : Machine}
      (rescanned : Rescanned machine' rescan after) :
      FormatRun outcomes entry machine .success
        (.dedupe entry.driverFile false machine :: (loading ++ rescan))
        after
  | refused
      (absent :
        mountDriverLoaded outcomes.scan entry.driverFile machine.images =
          false)
      {status : EfiStatus}
      {loading : List Event}
      {machine' : Machine}
      (load :
        DriverLoad outcomes.load entry.driverFile machine status loading
          machine')
      (failed : status ≠ .success) :
      FormatRun outcomes entry machine status
        (.dedupe entry.driverFile false machine :: loading) machine'

/-- The ways a command ends. -/
inductive CommandRun
    (machine : Machine) :
    Command → EfiStatus → List Event → Machine → Prop where
  | iso
      {path : Text}
      {outcomes : IsoOutcomes}
      {status : EfiStatus}
      {events : List Event}
      {after : Machine}
      (run : IsoRun outcomes path machine status events after) :
      CommandRun machine (.iso path outcomes) status
        (.print .version :: events) after
  | format
      {name : Text}
      {outcomes : FormatOutcomes}
      {entry : MountFormatEntry}
      (known : mountFindFormat name = some entry)
      {status : EfiStatus}
      {events : List Event}
      {after : Machine}
      (run : FormatRun outcomes entry machine status events after) :
      CommandRun machine (.format name outcomes) status
        (.print .version :: events) after
  | unknownFormat
      {name : Text}
      {outcomes : FormatOutcomes}
      (unknown : mountFindFormat name = none) :
      CommandRun machine (.format name outcomes) statusInvalidParameter
        (.print .version :: .print (.unknownFormat name) ::
          (.helpTitle :: helpLines.map PrintLine.helpText ++
            mFormats.map PrintLine.helpFormat).map Event.print)
        machine

/-- A handle stays fresh while another image is loaded. -/
theorem FactoryGet.freshImage
    {outcomes : FactoryOutcomes}
    {machine machine' : Machine}
    {status : EfiStatus}
    {events : List Event}
    (factory : FactoryGet outcomes machine status events machine')
    {image : Handle}
    (fresh : machine.FreshImage image)
    (different : image ≠ outcomes.image) :
    machine'.FreshImage image := by
  have added :
      ∀ path started,
        (machine.addImage ⟨outcomes.image, path, started⟩).FreshImage
          image := by
    intro path started loaded member
    rcases List.mem_append.mp member with old | new
    · exact fresh loaded old
    · obtain rfl := List.mem_singleton.mp new
      exact Ne.symm different
  cases factory
  case resident | noPath | loadFailed | startFailed =>
    exact fresh
  case blocked | unpublished | started =>
    exact added _ _

/-- Creating the loop device leaves the images of the factory's driver load. -/
theorem LoopCreation.freshImage
    {outcomes : LoopCreateOutcomes}
    {isoPath : Text}
    {machine machine' : Machine}
    {created : LoopCreated}
    {events : List Event}
    (creation :
      LoopCreation outcomes isoPath machine created events machine')
    {image : Handle}
    (fresh : machine.FreshImage image)
    (different : image ≠ outcomes.factory.image) :
    machine'.FreshImage image := by
  cases creation with
  | cannotOpen | noInfoPool | cannotStat | tooSmall | unresolved =>
      exact fresh
  | noFactory _ factory _ =>
      exact factory.freshImage fresh different
  | createFailed _ factory _ _ _ =>
      exact factory.freshImage fresh different
  | created _ factory _ _ =>
      exact factory.freshImage fresh different

/-- The end of `MountRunIso` connects the new device and rescans. -/
theorem connectIso_rescanned
    (outcomes : IsoOutcomes)
    (loopHandle : Option Handle)
    (session : Session) :
    ∃ events after,
      Rescanned session.machine events after ∧
        connectIso outcomes loopHandle session =
          (.success, ⟨after, session.trace ++ events⟩) := by
  cases loopHandle with
  | none =>
      obtain ⟨events, after, rescanned, answer⟩ :=
        Rescanned.rescanAndReport outcomes.rescan
          (oldSnapshot outcomes.oldFs) session
      exact ⟨events, after, rescanned, by simp [connectIso, answer]⟩
  | some handle =>
      obtain ⟨first, connected, connectedTrace⟩ :=
        Rescanned.connect session handle outcomes.connect
      obtain ⟨later, after, rescanned, answer⟩ :=
        Rescanned.rescanAndReport outcomes.rescan
          (oldSnapshot outcomes.oldFs)
          (session.connectController handle outcomes.connect)
      refine ⟨first ++ later, after, connected.trans rescanned, ?_⟩
      simp [connectIso, answer, connectedTrace]

/-- `MountRunIso` ends in one of the listed ways. -/
theorem mountRunIso_cases
    {outcomes : IsoOutcomes}
    (isoPath : Text)
    {machine : Machine}
    (freshDevice : outcomes.create.create.Fresh machine.dxe)
    (freshDriver : machine.FreshImage outcomes.create.factory.image)
    (freshImage : machine.FreshImage outcomes.load.image)
    (different : outcomes.load.image ≠ outcomes.create.factory.image)
    (trace : List Event) :
    ∃ status events after,
      IsoRun outcomes isoPath machine status events after ∧
        mountRunIso outcomes isoPath ⟨machine, trace⟩ =
          (status, ⟨after, trace ++ events⟩) := by
  obtain ⟨created, events, machine', creation, answer⟩ :=
    @loopCreate_cases outcomes.create isoPath ⟨machine, trace⟩
      freshDevice freshDriver
  by_cases succeeded : created.status = .success
  · cases pure : created.sniff.pureIso with
    | false =>
        obtain ⟨rescan, after, rescanned, finish⟩ :=
          connectIso_rescanned outcomes created.loopHandle
            ⟨machine',
              trace ++ (events ++ [.print (.loopCreated isoPath)])⟩
        refine ⟨_, _, _,
          .connected creation succeeded pure rescanned, ?_⟩
        simp [mountRunIso, answer, succeeded, pure, Session.print,
          Session.record, finish]
    | true =>
        cases verdict :
            mountDriverLoaded outcomes.scan isoDriverFile
              machine'.images with
        | true =>
            obtain ⟨rescan, after, rescanned, finish⟩ :=
              connectIso_rescanned outcomes created.loopHandle
                ⟨machine',
                  trace ++ (events ++ [.print (.loopCreated isoPath),
                    .dedupe isoDriverFile true machine'])⟩
            refine ⟨_, _, _,
              .claimable creation succeeded pure verdict rescanned, ?_⟩
            simp [mountRunIso, answer, succeeded, pure, Session.print,
              Session.record, Session.dedupe, verdict, finish]
        | false =>
            obtain ⟨status, loading, machine'', load, loaded⟩ :=
              @mountLoadDriver_cases outcomes.load isoDriverFile
                ⟨machine',
                  trace ++ (events ++ [.print (.loopCreated isoPath),
                    .dedupe isoDriverFile false machine'])⟩
                (creation.freshImage freshImage different)
            by_cases driverLoaded : status = .success
            · subst driverLoaded
              obtain ⟨rescan, after, rescanned, finish⟩ :=
                connectIso_rescanned outcomes created.loopHandle
                  ⟨machine'',
                    trace ++ (events ++ .print (.loopCreated isoPath) ::
                      .dedupe isoDriverFile false machine' :: loading)⟩
              refine ⟨_, _, _,
                .driverLoaded creation succeeded pure verdict load
                  rescanned, ?_⟩
              simp [mountRunIso, answer, succeeded, pure, Session.print,
                Session.record, Session.dedupe, verdict, loaded, finish]
            · refine ⟨_, _, _,
                .degraded creation succeeded pure verdict load
                  driverLoaded, ?_⟩
              simp [mountRunIso, answer, succeeded, pure, Session.print,
                Session.record, Session.dedupe, verdict, loaded,
                driverLoaded]
  · refine ⟨_, _, _, .refused creation succeeded, ?_⟩
    simp [mountRunIso, answer, succeeded]

/-- `MountRunFormat` ends in one of the listed ways. -/
theorem mountRunFormat_cases
    {outcomes : FormatOutcomes}
    (entry : MountFormatEntry)
    {machine : Machine}
    (freshImage : machine.FreshImage outcomes.load.image)
    (trace : List Event) :
    ∃ status events after,
      FormatRun outcomes entry machine status events after ∧
        mountRunFormat outcomes (some entry) ⟨machine, trace⟩ =
          (status, ⟨after, trace ++ events⟩) := by
  cases verdict :
      mountDriverLoaded outcomes.scan entry.driverFile machine.images with
  | true =>
      obtain ⟨rescan, after, rescanned, finish⟩ :=
        Rescanned.rescanAndReport outcomes.rescan
          (oldSnapshot outcomes.oldFs)
          ⟨machine,
            trace ++ [.dedupe entry.driverFile true machine,
              .print (.driverAlreadyLoaded entry.name)]⟩
      refine ⟨_, _, _, .alreadyLoaded verdict rescanned, ?_⟩
      simp [mountRunFormat, Session.dedupe, Session.record,
        Session.print, verdict, finish]
  | false =>
      obtain ⟨status, loading, machine', load, loaded⟩ :=
        @mountLoadDriver_cases outcomes.load entry.driverFile
          ⟨machine, trace ++ [.dedupe entry.driverFile false machine]⟩
          freshImage
      by_cases driverLoaded : status = .success
      · subst driverLoaded
        obtain ⟨rescan, after, rescanned, finish⟩ :=
          Rescanned.rescanAndReport outcomes.rescan
            (oldSnapshot outcomes.oldFs)
            ⟨machine',
              trace ++ (.dedupe entry.driverFile false machine ::
                loading)⟩
        refine ⟨_, _, _, .driverLoaded verdict load rescanned, ?_⟩
        simp [mountRunFormat, Session.dedupe, Session.record, verdict,
          loaded, finish]
      · refine ⟨_, _, _, .refused verdict load driverLoaded, ?_⟩
        simp [mountRunFormat, Session.dedupe, Session.record, verdict,
          loaded, driverLoaded]

/-- Printing lines one after the other. -/
theorem foldl_print
    (lines : List PrintLine)
    (session : Session) :
    lines.foldl Session.print session =
      ⟨session.machine, session.trace ++ lines.map .print⟩ := by
  induction lines generalizing session with
  | nil =>
      simp
  | cons line rest inductionHypothesis =>
      simp [inductionHypothesis, Session.print, Session.record]

/-- Every admitted command ends in one of the listed ways. -/
theorem mountStep_cases
    {machine : Machine}
    {command : Command}
    (admissible : command.Admissible machine) :
    ∃ status events after,
      CommandRun machine command status events after ∧
        mountStep machine command = (⟨status, events⟩, after) := by
  cases command with
  | iso path outcomes =>
      obtain ⟨freshDevice, freshDriver, freshImage, different⟩ :=
        admissible
      obtain ⟨status, events, after, run, answer⟩ :=
        mountRunIso_cases path freshDevice freshDriver freshImage
          different [.print .version]
      refine ⟨_, _, _, .iso run, ?_⟩
      simp [mountStep, uefiMain, Session.print, Session.record, answer]
  | format name outcomes =>
      cases known : mountFindFormat name with
      | none =>
          refine ⟨_, _, _, .unknownFormat known, ?_⟩
          simp [mountStep, uefiMain, printHelp, known, foldl_print,
            Session.print, Session.record]
      | some entry =>
          obtain ⟨status, events, after, run, answer⟩ :=
            mountRunFormat_cases entry admissible [.print .version]
          refine ⟨_, _, _, .format known run, ?_⟩
          simp [mountStep, uefiMain, known, Session.print, Session.record,
            answer]

end UefiMount
