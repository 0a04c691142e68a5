import UefiMount.MountCommands

namespace UefiMount

/-!
# What the two flows report

`MountRunIso` and `MountRunFormat` seen through what they print about volumes.
Everything before the mapping refresh reports nothing, so a flow either
reports nothing at all or ends with the refresh and the lines of
`MapPrintNewVolumes`.
-/

/-- The lines of the report. -/
def PrintLine.isReport : PrintLine → Bool
  | .newVolume .. =>
      true
  | .mapRefreshed _ =>
      true
  | _ =>
      false

/-- The events of the mapping refresh and of the report behind it. -/
def Event.isReport : Event → Bool
  | .print line =>
      line.isReport
  | .refreshShell =>
      true
  | .dedupe .. | .loadImage .. | .startImage .. | .connect .. =>
      false

/-- What a session has reported so far. -/
def Session.report (session : Session) : List Event :=
  session.trace.filter Event.isReport

/-- One of the two flows, with how its firmware calls end. -/
inductive Flow where
  | iso (isoPath : Text) (outcomes : IsoOutcomes)
  | format (entry : Option MountFormatEntry) (outcomes : FormatOutcomes)

namespace Flow

/-- `MountRunIso` or `MountRunFormat`. -/
def run (session : Session) : Flow → EfiStatus × Session
  | .iso isoPath outcomes =>
      mountRunIso outcomes isoPath session
  | .format entry outcomes =>
      mountRunFormat outcomes entry session

/-- The snapshot at the start. -/
def oldFs : Flow → EfiStatus × List Handle
  | .iso _ outcomes =>
      outcomes.oldFs
  | .format _ outcomes =>
      outcomes.oldFs

def rescan : Flow → RescanOutcomes
  | .iso _ outcomes =>
      outcomes.rescan
  | .format _ outcomes =>
      outcomes.rescan

end Flow

namespace Session

@[simp]
theorem report_record
    (session : Session)
    (event : Event) :
    (session.record event).report =
      session.report ++ if event.isReport then [event] else [] := by
  rw [report, record, List.filter_append, List.filter_singleton,
    Bool.cond_eq_ite]
  rfl

@[simp]
theorem report_print
    (session : Session)
    (line : PrintLine) :
    (session.print line).report =
      session.report ++ if line.isReport then [.print line] else [] :=
  session.report_record (.print line)

@[simp]
theorem report_dedupe
    (session : Session)
    (scan : ImageScan)
    (driverFile : Text) :
    (session.dedupe scan driverFile).2.report = session.report := by
  simp [dedupe, Event.isReport]

@[simp]
theorem report_setImages
    (session : Session)
    (images : List LoadedImage) :
    (session.setImages images).report = session.report :=
  rfl

@[simp]
theorem report_loadImage
    (session : Session)
    (driverFile path : Text)
    (status : EfiStatus)
    (image : Handle) :
    (session.loadImage driverFile path status image).report =
      session.report := by
  simp only [loadImage]
  split
  · simp [Event.isReport]
  · simp [Event.isReport]

@[simp]
theorem report_startImage
    (session : Session)
    (driverFile : Text)
    (image : Handle)
    (status : EfiStatus) :
    (session.startImage driverFile image status).report =
      session.report := by
  simp only [startImage]
  split
  · simp [Event.isReport]
  · simp [Event.isReport]

@[simp]
theorem report_unloadImage
    (session : Session)
    (image : Handle) :
    (session.unloadImage image).report = session.report :=
  rfl

@[simp]
theorem report_createLoop
    (session : Session)
    (outcomes : LoopCreateOutcomes)
    (fileDevicePath : DevicePath) :
    (session.createLoop outcomes fileDevicePath).2.report =
      session.report :=
  rfl

@[simp]
theorem report_connectController
    (session : Session)
    (target : Handle)
    (outcome : ConnectOutcome) :
    (session.connectController target outcome).report =
      session.report := by
  have recorded :=
    session.report_record (.connect target session.machine)
  rwa [Event.isReport, if_neg Bool.false_ne_true, List.append_nil]
    at recorded

@[simp]
theorem report_warnTail
    (session : Session)
    (outcomes : LoopCreateOutcomes) :
    (session.warnTail outcomes).report = session.report := by
  rw [warnTail]
  split
  · simp [PrintLine.isReport]
  · rfl

end Session

/-- A driver load reports nothing. -/
theorem report_mountLoadDriver
    (outcomes : LoadOutcomes)
    (driverFile : Option Text)
    (session : Session) :
    (mountLoadDriver outcomes driverFile session).2.report =
      session.report := by
  have same
      {driverFile : Text}
      {loaded : Bool}
      {later : Session}
      (asked :
        session.dedupe outcomes.scan driverFile = (loaded, later)) :
      later.report = session.report := by
    rw [← session.report_dedupe outcomes.scan driverFile, asked]
  fun_cases mountLoadDriver outcomes driverFile session with
  | case1 =>
      rfl
  | case2 _ _ asked =>
      exact same asked
  | case3 _ _ _ asked | case4 _ _ _ asked | case5 _ _ _ asked
  | case6 _ _ _ asked | case7 _ _ _ asked | case8 _ _ _ asked =>
      simp +zetaDelta [PrintLine.isReport, same asked]

/-- Nor does the search for the loop factory. -/
theorem report_mountLoopFactoryGet
    (outcomes : FactoryOutcomes)
    (session : Session) :
    (mountLoopFactoryGet outcomes session).2.report = session.report := by
  fun_cases mountLoopFactoryGet outcomes session with
  | case1 =>
      rfl
  | case2 | case3 | case4 | case5 | case6 | case7 =>
      simp +zetaDelta [PrintLine.isReport]

/-- Nor does the creation of the loop device. -/
theorem report_loopCreate
    (outcomes : LoopCreateOutcomes)
    (isoPath : Text)
    (session : Session) :
    (loopCreate outcomes isoPath session).2.report = session.report := by
  have device
      (fileDevicePath : DevicePath)
      (session : Session) :
      (loopCreateDevice outcomes fileDevicePath session).2.report =
        session.report := by
    simp only [loopCreateDevice]
    have found := report_mountLoopFactoryGet outcomes.factory session
    generalize mountLoopFactoryGet outcomes.factory session = got at found ⊢
    obtain ⟨status, later⟩ := got
    rw [← found]
    split
    · split
      · split
        · simp [PrintLine.isReport]
        · simp
      · simp
    · split
      · simp [PrintLine.isReport]
      · rfl
  fun_cases loopCreate outcomes isoPath session with
  | case1 | case3 | case4 | case5 =>
      simp +zetaDelta [PrintLine.isReport]
  | case2 =>
      rfl
  | case6 =>
      simp +zetaDelta [device]

/-- Nor does the rescan of the controllers. -/
theorem report_mapConnectAllControllers
    (blockIo : EfiStatus × List Handle)
    (connects : Handle → ConnectOutcome)
    (session : Session) :
    (mapConnectAllControllers blockIo connects session).2.report =
      session.report := by
  have handles
      (listed : List Handle)
      (session : Session) :
      (mapConnectHandles connects listed session).report =
        session.report := by
    induction listed generalizing session with
    | nil =>
        rfl
    | cons handle rest inductionHypothesis =>
        simp only [mapConnectHandles]
        split
        · exact inductionHypothesis session
        · rw [inductionHypothesis, Session.report_connectController]
  simp only [mapConnectAllControllers]
  split
  · rfl
  · split
    · rfl
    · exact handles _ session

/-- The handles that `MapPrintNewVolumes` prints a line for. -/
def newVolumes (oldFs handles : List Handle) : List Handle :=
  handles.filter fun handle => !oldFs.contains handle

/-- What the report adds. -/
theorem report_mapPrintNewVolumes
    (oldFs : List Handle)
    (nowFs : EfiStatus × List Handle)
    (volume : Handle → VolumeOutcomes)
    (session : Session) :
    (mapPrintNewVolumes oldFs nowFs volume session).report =
      session.report ++
        if (mapSnapshotFsHandles nowFs).1.isError then
          []
        else
          let new := newVolumes oldFs (mapSnapshotFsHandles nowFs).2
          new.map (fun handle => .print (volumeLine (volume handle))) ++
            [.print (.mapRefreshed new.length)] := by
  have lines (new : List Handle) (session : Session) :
      (new.foldl
          (fun session handle =>
            session.print (volumeLine (volume handle)))
          session).report =
        session.report ++
          new.map fun handle => .print (volumeLine (volume handle)) := by
    induction new generalizing session with
    | nil =>
        simp
    | cons handle rest inductionHypothesis =>
        have isLine : (volumeLine (volume handle)).isReport = true := rfl
        rw [List.foldl_cons, inductionHypothesis, Session.report_print,
          if_pos isLine, List.map_cons, List.append_assoc,
          List.singleton_append]
  simp only [mapPrintNewVolumes]
  split
  · rw [List.append_nil]
  · simp [lines, newVolumes, PrintLine.isReport]

/-- A flow reports nothing, or it ends with the refresh and the report. -/
theorem Flow.run_cases (flow : Flow) (session : Session) :
    (flow.run session).2.report = session.report ∨
      ∃ refreshed : Session,
        refreshed.report = session.report ++ [.refreshShell] ∧
          (flow.run session).2 =
            mapPrintNewVolumes (oldSnapshot flow.oldFs) flow.rescan.nowFs
              flow.rescan.volume refreshed := by
  -- The rescan between the flow and the report.
  have reaches
      (outcomes : RescanOutcomes)
      (oldFs : List Handle)
      {before : Session}
      (quiet : before.report = session.report) :
      ∃ refreshed : Session,
        refreshed.report = session.report ++ [.refreshShell] ∧
          rescanAndReport outcomes oldFs before =
            mapPrintNewVolumes oldFs outcomes.nowFs outcomes.volume
              refreshed := by
    refine ⟨(mapConnectAllControllers outcomes.blockIo outcomes.connects
      before).2.record .refreshShell, ?_, rfl⟩
    rw [Session.report_record, report_mapConnectAllControllers, quiet]
    rfl
  cases flow with
  | iso isoPath outcomes =>
      have created := report_loopCreate outcomes.create isoPath session
      have connects
          (loopHandle : Option Handle)
          {before : Session}
          (quiet : before.report = session.report) :
          ∃ refreshed : Session,
            refreshed.report = session.report ++ [.refreshShell] ∧
              (connectIso outcomes loopHandle before).2 =
                mapPrintNewVolumes (oldSnapshot outcomes.oldFs)
                  outcomes.rescan.nowFs outcomes.rescan.volume
                  refreshed := by
        cases loopHandle with
        | none =>
            exact reaches outcomes.rescan _ quiet
        | some handle =>
            exact reaches outcomes.rescan _
              ((Session.report_connectController ..).trans quiet)
      simp only [run, oldFs, rescan, mountRunIso]
      generalize loopCreate outcomes.create isoPath session = made
        at created ⊢
      obtain ⟨loop, later⟩ := made
      split
      · exact .inl created
      · split
        · split
          · refine .inr (connects _ ?_)
            simp [PrintLine.isReport, created]
          · split
            · left
              simp [PrintLine.isReport, report_mountLoadDriver, created]
            · refine .inr (connects _ ?_)
              simp [PrintLine.isReport, report_mountLoadDriver, created]
        · refine .inr (connects _ ?_)
          simp [PrintLine.isReport, created]
  | format entry outcomes =>
      cases entry with
      | none =>
          exact .inl rfl
      | some entry =>
          simp only [run, oldFs, rescan, mountRunFormat]
          split
          · refine .inr (reaches outcomes.rescan _ ?_)
            simp [PrintLine.isReport]
          · split
            · left
              simp [report_mountLoadDriver]
            · refine .inr (reaches outcomes.rescan _ ?_)
              simp [report_mountLoadDriver]

/-- What a flow that reaches the report adds. -/
theorem Flow.run_report
    {flow : Flow}
    {session : Session}
    {events : List Event}
    (ran : (flow.run session).2.report = session.report ++ events)
    (reached : .refreshShell ∈ events) :
    events =
      .refreshShell ::
        if (mapSnapshotFsHandles flow.rescan.nowFs).1.isError then
          []
        else
          let new :=
            newVolumes (oldSnapshot flow.oldFs)
              (mapSnapshotFsHandles flow.rescan.nowFs).2
          new.map
              (fun handle =>
                .print (volumeLine (flow.rescan.volume handle))) ++
            [.print (.mapRefreshed new.length)] := by
  rcases flow.run_cases session with quiet | ⟨refreshed, refresh, answer⟩
  · rw [quiet] at ran
    obtain rfl := List.self_eq_append_right.mp ran
    cases reached
  · rw [answer, report_mapPrintNewVolumes, refresh, List.append_assoc]
      at ran
    exact (List.append_cancel_left ran).symm

end UefiMount
