import UefiMount.LoopSelfTest
import UefiMount.MountRescan
import UefiMount.SelfRelativePaths

namespace UefiMount

/-!
# The whole command line

`UefiMain` with all its branches, `MountSelfTest`, and the application as a
process over the machine: a launch brings the arguments of the Shell and how
the firmware calls end.  The two flows are the commands that the other modules
speak about; here they are what two branches of the dispatch run.
-/

section Model

/-- The lines that `UefiMain` and the self test print themselves. -/
inductive MainLine where
  | isoNeedsPath
  | unknownOption (option : Text)
  | selfTestItem (name : String) (ok : Bool)
  | driverMissing (driverFile : Text)
  | allPass
  | selfTestFailed (failures : Nat)
  deriving DecidableEq

namespace MainLine

/-- The format string that the source passes to `Print`. -/
def format : MainLine → String
  | isoNeedsPath => "MOUNT: error - -ISO requires a file path\n"
  | unknownOption _ => "MOUNT: error - unknown option '%s'\n"
  | selfTestItem _ _ => "SELFTEST: %-28s %s\n"
  | driverMissing _ => "SELFTEST:   missing %s\n"
  | allPass => "SELFTEST: ALL PASS\n"
  | selfTestFailed _ => "SELFTEST: FAILED (%u)\n"

end MainLine

/-- What happens while the application runs. -/
inductive MainEvent where
  /-- An event of one of the functions that the flows are made of. -/
  | flow (event : Event)
  | print (line : MainLine)
  /-- `ShellExecute` of `map`. -/
  | listMappings

/-- The application in progress. -/
structure MainSession where
  machine : Machine
  trace : List MainEvent

namespace MainSession

def record (session : MainSession) (event : MainEvent) : MainSession :=
  { session with trace := session.trace ++ [event] }

def print (session : MainSession) (line : MainLine) : MainSession :=
  session.record (.print line)

/-- Go on with what a function of the flows leaves. -/
def resume (session : MainSession) (inner : Session) : MainSession where
  machine := inner.machine
  trace := session.trace ++ inner.trace.map .flow

/-- What a flow leaves. -/
def ofFlow (session : Session) : MainSession where
  machine := session.machine
  trace := session.trace.map .flow

/-- `PrintHelp`. -/
def help (session : MainSession) : MainSession :=
  session.resume (printHelp ⟨session.machine, []⟩)

end MainSession

/-- How the firmware calls of `MountSelfTest` end. -/
structure SelfTestOutcomes (FileSystem : Type) where
  drivers : Text → OpenDriverOutcomes
  loop : LoopTestOutcomes FileSystem

/-- No two entries of the table have one name. -/
def formatNamesUnique : List MountFormatEntry → Bool
  | [] =>
      true
  | entry :: rest =>
      rest.all (fun other => entry.name != other.name) &&
        formatNamesUnique rest

/-- The driver files that do not open. -/
def missingDrivers
    {FileSystem : Type}
    (outcomes : SelfTestOutcomes FileSystem) :
    List Text :=
  (mFormats.map (·.driverFile)).filter fun driverFile =>
    (mountOpenDriverFile (outcomes.drivers driverFile) (some driverFile)
      true).status.isError

/-- `Report`, with the failures counted so far. -/
def selfTestReport
    (name : String)
    (ok : Bool)
    (failures : Nat)
    (session : MainSession) :
    Nat × MainSession :=
  (if ok then failures else failures + 1,
    session.print (.selfTestItem name ok))

/-- `MountSelfTest`. -/
def mountSelfTest
    {FileSystem : Type}
    (files : FileProtocol FileSystem)
    (outcomes : SelfTestOutcomes FileSystem)
    (session : MainSession) :
    EfiStatus × MainSession :=
  let (failures, session) :=
    selfTestReport "format table integrity" (formatNamesUnique mFormats) 0
      session
  let missing := missingDrivers outcomes
  let session :=
    missing.foldl
      (fun session driverFile => session.print (.driverMissing driverFile))
      session
  let (failures, session) :=
    selfTestReport "driver files present" missing.isEmpty failures session
  let loop := loopDiskSelfTest files outcomes.loop ⟨session.machine, []⟩
  let session := session.resume loop.session
  let (failures, session) :=
    selfTestReport "loop blockio roundtrip" (!loop.status.isError) failures
      session
  if failures = 0 then
    (.success, session.print .allPass)
  else
    (.deviceError, session.print (.selfTestFailed failures))

/-- One launch of the application. -/
structure Launch (FileSystem : Type) where
  /-- `HandleProtocol` for the parameters of the Shell. -/
  parameters : EfiStatus
  argv : List Text
  selfTest : SelfTestOutcomes FileSystem
  iso : IsoOutcomes
  format : FormatOutcomes

/-- `L'-'`. -/
def dash : Char16 := 0x2D

/-- `UefiMain`. -/
def uefiMainLaunch
    {FileSystem : Type}
    (files : FileProtocol FileSystem)
    (launch : Launch FileSystem)
    (session : Session) :
    EfiStatus × MainSession :=
  let flow := session.print .version
  let session := MainSession.ofFlow flow
  let finish (reply : EfiStatus × Session) : EfiStatus × MainSession :=
    (reply.1, .ofFlow reply.2)
  if launch.parameters.isError then
    -- Not launched from a UEFI Shell.
    (.success, session.help)
  else
    match launch.argv with
    | [] | [_] =>
        (.success, (session.record .listMappings).help)
    | _ :: option :: rest =>
        if option = wide "-?" ∨ option = wide "-h" then
          (.success, session.help)
        else if option = wide "selftest" then
          mountSelfTest files launch.selfTest session
        else if option = wide "-ISO" then
          match rest with
          | [] =>
              (statusInvalidParameter, session.print .isoNeedsPath)
          | path :: _ =>
              finish (mountRunIso launch.iso path flow)
        else
          match option with
          | first :: name =>
              if first = dash then
                match mountFindFormat name with
                | none =>
                    finish (statusInvalidParameter,
                      printHelp (flow.print (.unknownFormat name)))
                | some entry =>
                    finish (mountRunFormat launch.format (some entry) flow)
              else
                (statusInvalidParameter,
                  session.print (.unknownOption option))
          | [] =>
              (statusInvalidParameter,
                session.print (.unknownOption option))

/-- The exit status of a launch and what happened meanwhile. -/
structure LaunchReply where
  status : EfiStatus
  trace : List MainEvent

/-- Run one launch. -/
def launchStep
    {FileSystem : Type}
    (files : FileProtocol FileSystem)
    (machine : Machine)
    (launch : Launch FileSystem) :
    LaunchReply × Machine :=
  let (status, session) := uefiMainLaunch files launch ⟨machine, []⟩
  (⟨status, session.trace⟩, session.machine)

/-- New handles, images and pool blocks are not in use yet. -/
structure Launch.Admissible
    {FileSystem : Type}
    (machine : Machine)
    (launch : Launch FileSystem) : Prop where
  selfTestDevice :
    launch.selfTest.loop.create.create.Fresh machine.dxe
  selfTestImage :
    machine.FreshImage launch.selfTest.loop.create.factory.image
  iso :
    ∀ path, (Command.iso path launch.iso).Admissible machine
  format :
    ∀ name, (Command.format name launch.format).Admissible machine

/-- The whole application as a process over the machine. -/
def mountShellApp
    {FileSystem : Type}
    (files : FileProtocol FileSystem) :
    ProcessRuns.Process Machine (Launch FileSystem) LaunchReply where
  admits := Launch.Admissible
  step := launchStep files

end Model

section Dispatch

variable {FileSystem : Type}

/-- The arguments ask for one of the two flows. -/
inductive Launch.Asks (launch : Launch FileSystem) : Command → Prop where
  | iso
      {program path : Text}
      {rest : List Text}
      (shell : launch.parameters.isError = false)
      (argv : launch.argv = program :: wide "-ISO" :: path :: rest) :
      Asks launch (.iso path launch.iso)
  | format
      {program name : Text}
      {rest : List Text}
      (shell : launch.parameters.isError = false)
      (argv : launch.argv = program :: (dash :: name) :: rest)
      (notHelp : dash :: name ≠ wide "-?" ∧ dash :: name ≠ wide "-h")
      (notIso : dash :: name ≠ wide "-ISO") :
      Asks launch (.format name launch.format)

/-- The arguments ask for the self test. -/
def Launch.AsksSelfTest (launch : Launch FileSystem) : Prop :=
  launch.parameters.isError = false ∧
    ∃ program rest, launch.argv = program :: wide "selftest" :: rest

/-- The lines of `PrintHelp`. -/
def helpPrinted : List MainEvent :=
  ((.helpTitle :: helpLines.map PrintLine.helpText ++
    mFormats.map PrintLine.helpFormat).map Event.print).map .flow

/-- The ways a launch ends. -/
inductive LaunchRun
    (files : FileProtocol FileSystem)
    (machine : Machine)
    (launch : Launch FileSystem) :
    EfiStatus → List MainEvent → Machine → Prop where
  | command
      {command : Command}
      (asks : launch.Asks command)
      {status : EfiStatus}
      {events : List Event}
      {machine' : Machine}
      (stepped :
        mountStep machine command = (⟨status, events⟩, machine'))
      (run : CommandRun machine command status events machine') :
      LaunchRun files machine launch status (events.map .flow) machine'
  | selfTest
      (asks : launch.AsksSelfTest)
      {loop : LoopTestRun}
      (isLoop :
        loop =
          loopDiskSelfTest files launch.selfTest.loop ⟨machine, []⟩)
      {status : EfiStatus}
      (passes :
        status = .success ↔
          missingDrivers launch.selfTest = [] ∧
            loop.status.isError = false)
      {events : List MainEvent} :
      LaunchRun files machine launch status events loop.session.machine
  | noShell
      (noParameters : launch.parameters.isError = true) :
      LaunchRun files machine launch .success
        (.flow (.print .version) :: helpPrinted) machine
  | listing
      (shell : launch.parameters.isError = false)
      (few : launch.argv.length < 2) :
      LaunchRun files machine launch .success
        (.flow (.print .version) :: .listMappings :: helpPrinted) machine
  | help
      (shell : launch.parameters.isError = false)
      {program option : Text}
      {rest : List Text}
      (argv : launch.argv = program :: option :: rest)
      (isHelp : option = wide "-?" ∨ option = wide "-h") :
      LaunchRun files machine launch .success
        (.flow (.print .version) :: helpPrinted) machine
  | isoNeedsPath
      (shell : launch.parameters.isError = false)
      {program : Text}
      (argv : launch.argv = [program, wide "-ISO"]) :
      LaunchRun files machine launch statusInvalidParameter
        [.flow (.print .version), .print .isoNeedsPath] machine
  | unknownOption
      (shell : launch.parameters.isError = false)
      {program option : Text}
      {rest : List Text}
      (argv : launch.argv = program :: option :: rest)
      (noOption : option.head? ≠ some dash)
      (notSelfTest : option ≠ wide "selftest") :
      LaunchRun files machine launch statusInvalidParameter
        [.flow (.print .version), .print (.unknownOption option)] machine

/-- The help is printed and nothing else happens. -/
theorem MainSession.help_eq (session : MainSession) :
    session.help = ⟨session.machine, session.trace ++ helpPrinted⟩ := by
  simp [help, printHelp, resume, foldl_print, helpPrinted,
    Session.print, Session.record]

/-- The lines of the missing drivers. -/
theorem foldl_driverMissing
    (missing : List Text)
    (session : MainSession) :
    missing.foldl
        (fun session driverFile =>
          session.print (.driverMissing driverFile))
        session =
      ⟨session.machine,
        session.trace ++
          missing.map fun driverFile =>
            .print (.driverMissing driverFile)⟩ := by
  induction missing generalizing session with
  | nil =>
      simp
  | cons driverFile rest inductionHypothesis =>
      rw [List.foldl_cons, inductionHypothesis]
      simp [MainSession.print, MainSession.record]

/-- The self test passes when its two open questions are answered well. -/
theorem mountSelfTest_cases
    (files : FileProtocol FileSystem)
    (outcomes : SelfTestOutcomes FileSystem)
    (session : MainSession) :
    let loop := loopDiskSelfTest files outcomes.loop ⟨session.machine, []⟩
    let tested := mountSelfTest files outcomes session
    (tested.1 = .success ↔
        missingDrivers outcomes = [] ∧ loop.status.isError = false) ∧
      tested.2.machine = loop.session.machine := by
  have unique : formatNamesUnique mFormats = true := by decide
  have failed : EfiStatus.deviceError ≠ .success :=
    EfiStatus.success_ne_deviceError.symm
  simp only [mountSelfTest, unique, selfTestReport, foldl_driverMissing]
  simp only [MainSession.print, MainSession.record]
  rcases Bool.eq_false_or_eq_true
      (loopDiskSelfTest files outcomes.loop
        ⟨session.machine, []⟩).status.isError with stuck | stuck
  · cases missing : missingDrivers outcomes <;>
      simp [MainSession.resume, stuck, failed]
  · cases missing : missingDrivers outcomes <;>
      simp [MainSession.resume, stuck, failed]

/-- A launch that asks for a command is a step of the mount commands. -/
theorem launchStep_command
    (files : FileProtocol FileSystem)
    {machine : Machine}
    {launch : Launch FileSystem}
    {command : Command}
    (asks : launch.Asks command) :
    launchStep files machine launch =
      (⟨(mountStep machine command).1.status,
          (mountStep machine command).1.trace.map .flow⟩,
        (mountStep machine command).2) := by
  cases asks with
  | @iso program path rest shell argv =>
      have others :
          wide "-ISO" ≠ wide "-?" ∧ wide "-ISO" ≠ wide "-h" ∧
            wide "-ISO" ≠ wide "selftest" := by
        decide
      simp [launchStep, uefiMainLaunch, shell, argv, others, mountStep,
        uefiMain, MainSession.ofFlow]
  | @format program name rest shell argv notHelp notIso =>
      have notSelfTest : dash :: name ≠ wide "selftest" := by
        intro same
        have first : some dash = some (0x73 : Char16) :=
          congrArg List.head? same
        exact absurd first (by decide)
      simp only [launchStep, uefiMainLaunch, shell, argv, notHelp,
        notSelfTest, notIso, mountStep, uefiMain, Bool.false_eq_true,
        or_self, ↓reduceIte]
      cases mountFindFormat name <;> rfl

/-- Every admitted launch ends in one of the listed ways. -/
theorem launchStep_cases
    (files : FileProtocol FileSystem)
    {machine : Machine}
    {launch : Launch FileSystem}
    (admissible : launch.Admissible machine) :
    ∃ status events machine',
      LaunchRun files machine launch status events machine' ∧
        launchStep files machine launch = (⟨status, events⟩, machine') := by
  have commands {command : Command} (asks : launch.Asks command)
      (admits : command.Admissible machine) :
      ∃ status events machine',
        LaunchRun files machine launch status events machine' ∧
          launchStep files machine launch =
            (⟨status, events⟩, machine') := by
    obtain ⟨status, events, after, run, stepped⟩ := mountStep_cases admits
    refine ⟨_, _, _, .command asks stepped run, ?_⟩
    rw [launchStep_command files asks, stepped]
  cases parameters : launch.parameters.isError with
  | true =>
      refine ⟨_, _, _, .noShell parameters, ?_⟩
      simp [launchStep, uefiMainLaunch, parameters, MainSession.help_eq,
        MainSession.ofFlow, Session.print, Session.record]
  | false =>
  cases argv : launch.argv with
  | nil =>
      refine ⟨_, _, _, .listing parameters (by simp [argv]), ?_⟩
      simp [launchStep, uefiMainLaunch, parameters, argv,
        MainSession.help_eq, MainSession.ofFlow, MainSession.record,
        Session.print, Session.record]
  | cons program arguments =>
  cases arguments with
  | nil =>
      refine ⟨_, _, _, .listing parameters (by simp [argv]), ?_⟩
      simp [launchStep, uefiMainLaunch, parameters, argv,
        MainSession.help_eq, MainSession.ofFlow, MainSession.record,
        Session.print, Session.record]
  | cons option rest =>
  by_cases isHelp : option = wide "-?" ∨ option = wide "-h"
  · refine ⟨_, _, _, .help parameters argv isHelp, ?_⟩
    simp [launchStep, uefiMainLaunch, parameters, argv, isHelp,
      MainSession.help_eq, MainSession.ofFlow, Session.print,
      Session.record]
  by_cases isSelfTest : option = wide "selftest"
  · subst isSelfTest
    let session := (⟨machine, []⟩ : Session).print .version
    obtain ⟨passes, machineIs⟩ :=
      mountSelfTest_cases files launch.selfTest (.ofFlow session)
    let tested := mountSelfTest files launch.selfTest (.ofFlow session)
    refine ⟨tested.1, tested.2.trace, _,
      .selfTest ⟨parameters, _, _, argv⟩ rfl passes, ?_⟩
    simp only [launchStep, uefiMainLaunch, parameters, argv, isHelp,
      Bool.false_eq_true, ↓reduceIte]
    exact congrArg _ machineIs
  by_cases isIso : option = wide "-ISO"
  · subst isIso
    cases rest with
    | nil =>
        refine ⟨_, _, _, .isoNeedsPath parameters argv, ?_⟩
        simp [launchStep, uefiMainLaunch, parameters, argv, isHelp,
          isSelfTest, MainSession.print, MainSession.ofFlow,
          MainSession.record, Session.print, Session.record]
    | cons path rest =>
        exact commands (.iso parameters argv) (admissible.iso path)
  cases option with
  | nil =>
      refine ⟨_, _, _,
        .unknownOption parameters argv (by simp) isSelfTest, ?_⟩
      have noWord : wide "-?" ≠ [] ∧ wide "-h" ≠ [] := by decide
      simp [launchStep, uefiMainLaunch, parameters, argv, noWord,
        isSelfTest, isIso, MainSession.print, MainSession.ofFlow,
        MainSession.record, Session.print, Session.record]
  | cons first name =>
      by_cases isDash : first = dash
      · subst isDash
        exact commands (.format parameters argv (not_or.mp isHelp) isIso)
          (admissible.format name)
      · refine ⟨_, _, _,
          .unknownOption parameters argv (by simpa using isDash)
            isSelfTest, ?_⟩
        simp [launchStep, uefiMainLaunch, parameters, argv, isHelp,
          isSelfTest, isIso, isDash, MainSession.print,
          MainSession.ofFlow, MainSession.record, Session.print,
          Session.record]

end Dispatch

end UefiMount
