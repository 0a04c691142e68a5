import UefiMount.QmpScript

namespace UefiMount.QmpDrive

/-!
# The frames of a run

The whole `while` of `main`, and the frames that it captures: those that the
script asks for by name, in order, and numbered ones when the script is done.
The loop always ends.  A frame overwrites an earlier one just when the script
repeats a name, or takes for a name the number of a later frame.
-/

section Model

/-- The frame of a shot. -/
def Action.frame : Action → Option Frame
  | .shot frame =>
      some frame
  | _ =>
      none

/-- The frames that are captured, in order. -/
def frames (actions : List Action) : List Frame :=
  actions.filterMap Action.frame

/-- The names that a script has behind its `screendump` tokens. -/
def screendumps : List Token → List Token
  | [] | [_] =>
      []
  | t :: name :: rest =>
      if t = "screendump".toList then
        name :: screendumps rest
      else
        screendumps (name :: rest)

/--
The `while` of `main`, as far as QEMU answers every call and every screendump
file appears: all that it does, and how it ends, which is with the last
progress or with the exception of a token.  QEMU is found alive or not at each
turn that comes to the test.
-/
def Interpreter.mainLoop
    (py : Interpreter)
    (o : Options)
    (alive : Nat → Bool) :
    Nat → Nat → Progress → Option (List Action × Except Problem Progress)
  | 0, _, _ =>
      none
  | fuel + 1, turn, s =>
      match py.round o s with
      | .error problem =>
          some ([], .error problem)
      | .ok done =>
          if done.tested && o.ends (alive turn) done.after.shots then
            some (done.actions, .ok done.after)
          else
            (mainLoop py o alive fuel (turn + 1) done.after).map
              fun (actions, ended) => (done.actions ++ actions, ended)

end Model

section Rounds

@[simp] theorem frames_append (first second : List Action) :
    frames (first ++ second) = frames first ++ frames second :=
  List.filterMap_append

theorem frames_sendkey (name : Token) (n : Nat) :
    frames (sendkey name n) = [] := by
  have each (i : Nat) :
      (.sendKey (chord name) ::
          if i < n - 1 then [.sleep spacing] else []).filterMap
        Action.frame = [] := by
    split <;> rfl
  simp [frames, sendkey, List.filterMap_flatMap, each]

theorem screendumps_cons
    {t : Token}
    (other : t ≠ "screendump".toList)
    (rest : List Token) :
    screendumps (t :: rest) = screendumps rest := by
  cases rest with
  | nil => rfl
  | cons name rest => exact if_neg other

/-- The ways a round advances. -/
inductive Advances : Progress → Round → Prop where
  /-- A sleep, a command or a key. -/
  | other
      {t : Token}
      {rest : List Token}
      {shots : Nat}
      {actions : List Action}
      {tested : Bool}
      (noName : t ≠ "screendump".toList)
      (noFrame : frames actions = []) :
      Advances ⟨t :: rest, shots⟩ ⟨actions, ⟨rest, shots⟩, tested⟩
  | named
      (name : Token)
      (rest : List Token)
      (shots : Nat) :
      Advances ⟨"screendump".toList :: name :: rest, shots⟩
        ⟨[.shot (.named name)], ⟨rest, shots + 1⟩, false⟩
  | numbered
      (interval : Literal)
      (shots : Nat) :
      Advances ⟨[], shots⟩
        ⟨[.sleep interval, .shot (.numbered (shots + 1))],
          ⟨[], shots + 1⟩, true⟩

namespace Interpreter

variable {py : Interpreter} {o : Options}

/-- A token that makes the driver sleep asks for no frame. -/
theorem sleepToken_ne
    {t : Token}
    {seconds : Literal}
    (sleeps : py.sleepToken t = .ok (some seconds)) :
    t ≠ "screendump".toList := by
  rintro rfl
  simp [sleepToken] at sleeps

theorem command_advances
    {t : Token}
    {rest : List Token}
    {shots : Nat}
    {done : Round}
    (ran : py.command t rest shots = .ok done) :
    Advances ⟨t :: rest, shots⟩ done := by
  have stop : "vmstop".toList ≠ "screendump".toList := by decide
  have cont : "vmcont".toList ≠ "screendump".toList := by decide
  unfold command at ran
  split at ran
  case isTrue isName =>
    subst isName
    cases rest with
    | nil => cases ran
    | cons name rest =>
        cases ran
        exact .named name rest shots
  case isFalse noName =>
  split at ran
  case isTrue isStop =>
    cases ran
    exact .other noName rfl
  case isFalse =>
  split at ran
  case isTrue isCont =>
    cases ran
    exact .other noName rfl
  case isFalse =>
  cases read : py.readKey t with
  | error problem =>
      rw [read] at ran
      cases ran
  | ok key =>
      rw [read] at ran
      cases ran
      exact .other noName (frames_sendkey key.1 key.2)

/-- What a round does to the progress and to the frames. -/
theorem round_advances
    {s : Progress}
    {done : Round}
    (ran : py.round o s = .ok done) :
    Advances s done := by
  obtain ⟨tokens, shots⟩ := s
  cases tokens with
  | nil =>
      cases slept : py.sleep o.interval with
      | error problem =>
          simp [round, slept, bind, Except.bind] at ran
      | ok =>
          simp only [round, slept, bind, Except.bind, pure, Except.pure,
            Except.ok.injEq] at ran
          subst ran
          exact .numbered o.interval shots
  | cons t rest =>
      cases slept : py.sleepToken t with
      | error problem =>
          simp [round, slept, bind, Except.bind] at ran
      | ok seconds =>
          cases seconds with
          | none =>
              simp only [round, slept, bind, Except.bind] at ran
              exact command_advances ran
          | some seconds =>
              simp only [round, slept, bind, Except.bind, pure, Except.pure,
                Except.ok.injEq] at ran
              subst ran
              exact .other (sleepToken_ne slept) rfl

end Interpreter

end Rounds

section Captures

/-- What a part of a run captures, with so many numbered frames. -/
structure Captures
    (s last : Progress)
    (captured : List Frame)
    (count : Nat) : Prop where
  frames :
    captured ++ (screendumps last.tokens).map .named =
      (screendumps s.tokens).map .named ++
        (List.range' (s.shots + (screendumps s.tokens).length + 1)
          count).map .numbered
  shots :
    last.shots = s.shots + captured.length
  /-- Frames are numbered when the script is done. -/
  done :
    count ≠ 0 → last.tokens = []
  exhausted :
    s.tokens = [] → last.tokens = []

namespace Captures

variable
  {s middle last : Progress}
  {captured later : List Frame}
  {count countLater : Nat}

theorem refl (s : Progress) : Captures s s [] 0 where
  frames := (List.append_nil _).symm
  shots := rfl
  done absurdity := absurd rfl absurdity
  exhausted := id

theorem trans
    (first : Captures s middle captured count)
    (next : Captures middle last later countLater) :
    Captures s last (captured ++ later) (count + countLater) where
  frames := by
    -- The numbers go on where the first part stopped.
    have numbers :
        middle.shots + (screendumps middle.tokens).length =
          s.shots + (screendumps s.tokens).length + count := by
      have lengths := congrArg List.length first.frames
      simp only [List.length_append, List.length_map, List.length_range']
        at lengths
      rw [first.shots]
      omega
    have goesOn :
        s.shots + (screendumps s.tokens).length + count + 1 =
          s.shots + (screendumps s.tokens).length + 1 + count := by
      omega
    rw [List.append_assoc, next.frames, ← List.append_assoc, first.frames,
      numbers, goesOn, List.append_assoc, ← List.map_append,
      List.range'_append_1]
  shots := by
    rw [next.shots, first.shots, List.length_append, Nat.add_assoc]
  done := by
    intro some
    by_cases none : count = 0
    · exact next.done (by omega)
    · exact next.exhausted (first.done none)
  exhausted empty := next.exhausted (first.exhausted empty)

end Captures

/-- A round captures at most one frame, numbered when the script is done. -/
theorem Advances.captures
    {s : Progress}
    {done : Round}
    (advances : Advances s done) :
    ∃ count,
      Captures s done.after (frames done.actions) count ∧
        count ≤ 1 ∧
        (count ≠ 0 → s.tokens = [] ∧ done.tested = true) := by
  cases advances with
  | other noName noFrame =>
      refine ⟨0, ?_, Nat.zero_le 1, fun absurdity => absurd rfl absurdity⟩
      exact {
        frames := by simp [noFrame, screendumps_cons noName]
        shots := by simp [noFrame]
        done := fun absurdity => absurd rfl absurdity
        exhausted := fun empty => absurd empty (List.cons_ne_nil _ _)
      }
  | named name rest shots =>
      refine ⟨0, ?_, Nat.zero_le 1, fun absurdity => absurd rfl absurdity⟩
      exact {
        frames := by simp [frames, Action.frame, screendumps]
        shots := rfl
        done := fun absurdity => absurd rfl absurdity
        exhausted := fun empty => absurd empty (List.cons_ne_nil _ _)
      }
  | numbered interval shots =>
      exact ⟨1, ⟨rfl, rfl, fun _ => rfl, id⟩, Nat.le_refl 1,
        fun _ => ⟨rfl, rfl⟩⟩

/-- A run goes on over numbered frames only below the limit. -/
theorem Interpreter.Rounds.captures
    {py : Interpreter}
    {o : Options}
    {s last : Progress}
    {actions : List Action}
    (run : py.Rounds o s actions last) :
    ∃ count,
      Captures s last (frames actions) count ∧
        (count ≠ 0 → (last.shots : Int) < o.maxShots) := by
  induction run with
  | refl s =>
      exact ⟨0, .refl s, fun absurdity => absurd rfl absurdity⟩
  | @step s last done actions ran goesOn _ inductionHypothesis =>
      obtain ⟨own, first, _, numbered⟩ :=
        (round_advances ran).captures
      obtain ⟨count, next, below⟩ := inductionHypothesis
      rw [frames_append]
      refine ⟨own + count, first.trans next, fun some => ?_⟩
      by_cases none : count = 0
      · subst none
        obtain ⟨empty, tested⟩ := numbered some
        have noName := first.exhausted empty
        have noFrame : frames actions = [] := by
          have same := next.frames
          rw [noName, next.exhausted noName] at same
          simpa [screendumps] using same
        obtain ⟨alive, running⟩ := goesOn tested
        simp only [Options.ends, Bool.or_eq_false_iff,
          decide_eq_false_iff_not, Int.not_le] at running
        rw [next.shots, noFrame]
        exact running.2
      · exact below none

end Captures

section Loop

variable
  {py : Interpreter}
  {o : Options}
  {alive : Nat → Bool}

/-- The ways the loop ends. -/
inductive LoopEnd
    (py : Interpreter)
    (o : Options)
    (alive : Nat → Bool)
    (s : Progress) :
    List Action → Except Problem Progress → Prop where
  | raised
      {actions : List Action}
      {middle : Progress}
      (run : py.Rounds o s actions middle)
      {problem : Problem}
      (raises : py.round o middle = .error problem) :
      LoopEnd py o alive s actions (.error problem)
  | returned
      {actions : List Action}
      {middle : Progress}
      (run : py.Rounds o s actions middle)
      {done : Round}
      (ran : py.round o middle = .ok done)
      (turn : Nat)
      (ends : o.ends (alive turn) done.after.shots = true) :
      LoopEnd py o alive s (actions ++ done.actions) (.ok done.after)

namespace Interpreter

/-- The loop is rounds up to its end. -/
theorem mainLoop_loopEnd
    {fuel turn : Nat}
    {s : Progress}
    {actions : List Action}
    {ended : Except Problem Progress}
    (ran : py.mainLoop o alive fuel turn s = some (actions, ended)) :
    LoopEnd py o alive s actions ended := by
  induction fuel generalizing turn s actions with
  | zero => cases ran
  | succ fuel inductionHypothesis =>
      rw [mainLoop] at ran
      split at ran
      · rename_i problem raises
        cases ran
        exact .raised (.refl s) raises
      · rename_i done round
        split at ran
        · rename_i stops
          cases ran
          exact .returned (.refl s) round turn (Bool.and_eq_true_iff.mp stops).2
        · rename_i goesOn
          obtain ⟨⟨later, last⟩, rest, same⟩ := Option.map_eq_some_iff.mp ran
          cases same
          have continues :
              done.tested = true →
                ∃ alive, o.ends alive done.after.shots = false := by
            intro tested
            rw [tested, Bool.true_and] at goesOn
            exact ⟨_, Bool.eq_false_iff.mpr goesOn⟩
          cases inductionHypothesis rest with
          | raised run raises =>
              exact .raised (.step round continues run) raises
          | returned run last turn ends =>
              rw [← List.append_assoc]
              exact .returned (.step round continues run) last turn ends

/-- The rounds that may still come. -/
def roundsLeft (o : Options) (s : Progress) : Nat :=
  s.tokens.length + max 1 (o.maxShots - s.shots).toNat

/-- A round that goes on leaves fewer rounds. -/
theorem roundsLeft_lt
    {s : Progress}
    {done : Round}
    (ran : py.round o s = .ok done)
    {turn : Nat}
    (goesOn :
      (done.tested && o.ends (alive turn) done.after.shots) = false) :
    roundsLeft o done.after < roundsLeft o s := by
  unfold roundsLeft
  cases round_advances ran with
  | other =>
      simp only [List.length_cons]
      omega
  | named =>
      simp only [List.length_cons]
      omega
  | numbered interval shots =>
      simp only [Bool.true_and, Options.ends, Bool.or_eq_false_iff,
        decide_eq_false_iff_not] at goesOn
      simp only [List.length_nil]
      omega

/-- The loop ends within the rounds that are left. -/
theorem mainLoop_isSome
    {fuel turn : Nat}
    {s : Progress}
    (enough : roundsLeft o s ≤ fuel) :
    ∃ actions ended,
      py.mainLoop o alive fuel turn s = some (actions, ended) := by
  induction fuel generalizing turn s with
  | zero =>
      unfold roundsLeft at enough
      omega
  | succ fuel inductionHypothesis =>
      rw [mainLoop]
      split
      · exact ⟨_, _, rfl⟩
      · rename_i done round
        split
        · exact ⟨_, _, rfl⟩
        · rename_i goesOn
          have fewer := roundsLeft_lt round (Bool.eq_false_iff.mpr goesOn)
          obtain ⟨actions, ended, rest⟩ :=
            @inductionHypothesis (turn + 1) done.after (by omega)
          exact ⟨_, _, by rw [rest]; rfl⟩

end Interpreter

/-- What a run of the loop captures for a script. -/
structure RunFrames
    (o : Options)
    (alive : Nat → Bool)
    (script : List Token)
    (actions : List Action)
    (ended : Except Problem Progress) : Prop where
  /-- The names in order, and numbered frames only behind all of them. -/
  captured :
    ∃ taken count,
      frames actions =
          ((screendumps script).take taken).map .named ++
            (List.range' ((screendumps script).length + 1) count).map
              .numbered ∧
        (count ≠ 0 → (screendumps script).length ≤ taken) ∧
        (count : Int) ≤ max 1 (o.maxShots - (screendumps script).length)
  shots :
    ∀ last, ended = .ok last → last.shots = (frames actions).length
  /-- The loop returns at the limit, or when QEMU is found dead. -/
  stopped :
    ∀ last, ended = .ok last →
      o.maxShots ≤ last.shots ∨ o.qemuPid ≠ 0 ∧ ∃ turn, alive turn = false

/-- A part of a run takes its frames from the front. -/
theorem Captures.split
    {script : List Token}
    {last : Progress}
    {captured : List Frame}
    {count : Nat}
    (captures : Captures ⟨script, 0⟩ last captured count) :
    ∃ taken,
      captured =
          ((screendumps script).take taken).map .named ++
            (List.range' ((screendumps script).length + 1) count).map
              .numbered ∧
        (count ≠ 0 → (screendumps script).length ≤ taken) := by
  have same := captures.frames
  rw [Nat.zero_add] at same
  by_cases none : count = 0
  · subst none
    simp only [List.range'_zero, List.map_nil, List.append_nil] at same ⊢
    refine ⟨captured.length, ?_, fun absurdity => absurd rfl absurdity⟩
    rw [List.map_take, ← same, List.take_left]
  · rw [captures.done none] at same
    simp only [screendumps, List.map_nil, List.append_nil] at same
    refine ⟨_, ?_, fun _ => Nat.le_refl _⟩
    rwa [List.take_length]

/-- Numbered frames come behind all that the script names. -/
theorem Captures.shots_of_numbered
    {script : List Token}
    {last : Progress}
    {captured : List Frame}
    {count : Nat}
    (captures : Captures ⟨script, 0⟩ last captured count)
    (some : count ≠ 0) :
    last.shots = (screendumps script).length + count := by
  have lengths := congrArg List.length captures.frames
  rw [captures.done some] at lengths
  simp only [screendumps, List.map_nil, List.append_nil, List.length_append,
    List.length_map, List.length_range'] at lengths
  rw [captures.shots, lengths, Nat.zero_add]

/-- However the loop ends, this is what it has captured. -/
theorem LoopEnd.runFrames
    {script : List Token}
    {actions : List Action}
    {ended : Except Problem Progress}
    (ends : LoopEnd py o alive ⟨script, 0⟩ actions ended) :
    RunFrames o alive script actions ended := by
  cases ends with
  | raised run =>
      obtain ⟨count, captures, below⟩ := run.captures
      obtain ⟨taken, captured, all⟩ := captures.split
      refine ⟨⟨taken, count, captured, all, ?_⟩, nofun, nofun⟩
      by_cases none : count = 0
      · omega
      · have shots := captures.shots_of_numbered none
        have limit := below none
        omega
  | @returned actions middle run done ran turn ends =>
      obtain ⟨count, captures, below⟩ := run.captures
      obtain ⟨own, last, atMost, _⟩ :=
        (Interpreter.round_advances ran).captures
      have together := captures.trans last
      obtain ⟨taken, captured, all⟩ := together.split
      rw [← frames_append] at together captured
      refine ⟨⟨taken, count + own, captured, all, ?_⟩, ?_, ?_⟩
      · by_cases none : count = 0
        · omega
        · have shots := captures.shots_of_numbered none
          have limit := below none
          omega
      · intro last same
        cases same
        rw [together.shots, Nat.zero_add]
      · intro last same
        cases same
        simp only [Options.ends, Bool.or_eq_true, Bool.and_eq_true,
          decide_eq_true_eq, Bool.not_eq_true'] at ends
        rcases ends with ⟨watched, dead⟩ | limit
        · exact .inr ⟨by simpa using watched, turn, dead⟩
        · exact .inl limit

/--
The loop always ends, within as many rounds as the script has tokens and the
limit allows shots, and captures the frames of the script in order.
-/
theorem mainLoop_frames
    (py : Interpreter)
    (o : Options)
    (alive : Nat → Bool)
    (script : List Token) :
    ∃ actions ended,
      py.mainLoop o alive (script.length + max 1 o.maxShots.toNat) 0
          ⟨script, 0⟩ =
        some (actions, ended) ∧
      RunFrames o alive script actions ended := by
  have enough :
      Interpreter.roundsLeft o ⟨script, 0⟩ ≤
        script.length + max 1 o.maxShots.toNat := by
    simp [Interpreter.roundsLeft]
  obtain ⟨actions, ended, ran⟩ :=
    @Interpreter.mainLoop_isSome py o alive _ 0 _ enough
  exact ⟨actions, ended, ran, (Interpreter.mainLoop_loopEnd ran).runFrames⟩

end Loop

section Files

/-- `path.replace(".ppm", ".png")`. -/
def asPng : Token → Token
  | '.' :: 'p' :: 'p' :: 'm' :: rest =>
      '.' :: 'p' :: 'n' :: 'g' :: asPng rest
  | c :: rest =>
      c :: asPng rest
  | [] =>
      []

/-- `f"{number:03d}"`. -/
def numeral3 (number : Nat) : Token :=
  (Decimal.padded 3 number).map Nat.digitChar

namespace Frame

/-- What stands behind the time stamp. -/
def text : Frame → Token
  | named name =>
      name
  | numbered number =>
      numeral3 number

/--
The file that QEMU writes, behind the directory and the time stamp, which are
the same for all of a run.
-/
def ppm (front : Token) (frame : Frame) : Token :=
  front ++ '_' :: (frame.text ++ ".ppm".toList)

/-- The file that `shot` converts it to. -/
def png (front : Token) (frame : Frame) : Token :=
  asPng (frame.ppm front)

/-- The name of a frame that has one. -/
def name : Frame → Option Token
  | named name =>
      some name
  | numbered _ =>
      none

end Frame

/-- What is replaced starts with its only full stop. -/
theorem asPng_append
    {later : Token}
    (apart : later.head? ≠ some 'p' ∧ later.head? ≠ some 'm')
    (text : Token) :
    asPng (text ++ later) = asPng text ++ asPng later := by
  fun_induction asPng text with
  | case1 rest inductionHypothesis =>
      simp [asPng, inductionHypothesis]
  | case2 c rest other inductionHypothesis =>
      -- The text and what follows it do not share an occurrence.
      have noPpm :
          ∀ further, c = '.' →
            rest ++ later = 'p' :: 'p' :: 'm' :: further → False := by
        intro further isStop same
        match rest, other with
        | [], _ =>
            exact apart.1 (congrArg List.head? same)
        | [_], _ =>
            exact apart.1 (congrArg List.head? (List.cons.inj same).2)
        | [_, _], _ =>
            have behind := (List.cons.inj (List.cons.inj same).2).2
            exact apart.2 (congrArg List.head? behind)
        | first :: second :: third :: more, other =>
            simp only [List.cons_append, List.cons.injEq] at same
            obtain ⟨rfl, rfl, rfl, _⟩ := same
            exact other more isStop rfl
      rw [List.cons_append, asPng, inductionHypothesis]
      · rfl
      · exact noPpm
  | case3 => rfl

theorem asPng_of_notMem
    {text : Token}
    (noStop : '.' ∉ text) :
    asPng text = text := by
  fun_induction asPng text with
  | case1 rest => exact absurd List.mem_cons_self noStop
  | case2 c rest other inductionHypothesis =>
      rw [inductionHypothesis fun member =>
        noStop (List.mem_cons_of_mem _ member)]
  | case3 => rfl

/-- The name of a converted file. -/
theorem Frame.png_eq (front : Token) (frame : Frame) :
    frame.png front =
      asPng front ++ '_' :: (asPng frame.text ++ ".png".toList) := by
  have stem :
      asPng (frame.text ++ ".ppm".toList) =
        asPng frame.text ++ ".png".toList :=
    asPng_append (by decide) frame.text
  rw [png, ppm, asPng_append (by simp) front, ← stem]
  rfl

theorem digitChar_injective
    {digit other : Nat}
    (below : digit < 10)
    (otherBelow : other < 10)
    (same : Nat.digitChar digit = Nat.digitChar other) :
    digit = other := by
  have value := (Interpreter.digitChar_spec below).2.2
  have otherValue := (Interpreter.digitChar_spec otherBelow).2.2
  rw [← value, same, otherValue]

theorem numeral3_injective
    {first second : Nat}
    (same : numeral3 first = numeral3 second) :
    first = second :=
  Decimal.padded_map_injective digitChar_injective same

theorem asPng_numeral3 (number : Nat) :
    asPng (numeral3 number) = numeral3 number := by
  refine asPng_of_notMem fun member => ?_
  obtain ⟨digit, digitMember, isStop⟩ := List.mem_map.mp member
  have isDigit :=
    (Interpreter.digitChar_spec (Decimal.padded_digit_lt digitMember)).2.1
  rw [isStop] at isDigit
  cases isDigit

/-- The files of some frames differ when what tells them apart does. -/
theorem nodup_files_iff
    {file : Frame → Token}
    {write : Token → Token}
    (told :
      ∀ {first second : Frame},
        file first = file second ↔ write first.text = write second.text)
    (plain : ∀ number, write (numeral3 number) = numeral3 number)
    (names : List Token)
    {numbers : List Nat}
    (distinct : numbers.Nodup) :
    ((names.map Frame.named ++ numbers.map Frame.numbered).map file).Nodup ↔
      (names.map write).Nodup ∧
        ∀ name ∈ names, ∀ number ∈ numbers,
          write name ≠ numeral3 number := by
  have numbersDiffer :
      numbers.Pairwise fun first second =>
        ¬ numeral3 first = numeral3 second :=
    distinct.imp fun different same => different (numeral3_injective same)
  simp only [List.Nodup, List.pairwise_map, List.pairwise_append, ne_eq,
    told, Frame.text, plain, numbersDiffer, true_and, List.forall_mem_map]

/-- Files are told apart by what stands behind the time stamp. -/
theorem Frame.ppm_inj
    {front : Token}
    {first second : Frame} :
    first.ppm front = second.ppm front ↔ first.text = second.text := by
  simp only [ppm, List.append_cancel_left_eq, List.cons.injEq, true_and,
    List.append_cancel_right_eq]

theorem Frame.png_inj
    {front : Token}
    {first second : Frame} :
    first.png front = second.png front ↔
      asPng first.text = asPng second.text := by
  simp only [png_eq, List.append_cancel_left_eq, List.cons.injEq, true_and,
    List.append_cancel_right_eq]

/-- The names that a run has captured. -/
def capturedNames (actions : List Action) : List Token :=
  (frames actions).filterMap Frame.name

/-- No frame takes the place of an earlier one. -/
structure FilesKept
    (front : Token)
    (actions : List Action) : Prop where
  ppm :
    ((frames actions).map (Frame.ppm front)).Nodup
  png :
    ((frames actions).map (Frame.png front)).Nodup

/--
No frame of a run takes the place of another one exactly when the names differ,
also with `.png` for `.ppm` in them, and none of them is the number of a frame
behind the script.
-/
theorem mainLoop_filesKept_iff
    {py : Interpreter}
    {o : Options}
    {alive : Nat → Bool}
    {fuel : Nat}
    {script : List Token}
    {actions : List Action}
    {ended : Except Problem Progress}
    (ran :
      py.mainLoop o alive fuel 0 ⟨script, 0⟩ = some (actions, ended))
    (front : Token) :
    FilesKept front actions ↔
      ((capturedNames actions).map asPng).Nodup ∧
        ∀ name ∈ capturedNames actions, ∀ number,
          (screendumps script).length < number →
          number ≤ (frames actions).length →
          asPng name ≠ numeral3 number := by
  obtain ⟨taken, count, captured, all, _⟩ :=
    (Interpreter.mainLoop_loopEnd ran).runFrames.captured
  have named :
      capturedNames actions = (screendumps script).take taken := by
    have isName : Frame.name ∘ Frame.named = some := rfl
    have noName : Frame.name ∘ Frame.numbered = fun _ => none := rfl
    rw [capturedNames, captured, List.filterMap_append, List.filterMap_map,
      List.filterMap_map, isName, noName, List.filterMap_some,
      List.filterMap_none, List.append_nil]
  have numbers (number : Nat) :
      number ∈ List.range' ((screendumps script).length + 1) count ↔
        (screendumps script).length < number ∧
          number ≤ (frames actions).length := by
    rw [List.mem_range'_1, captured]
    simp only [List.length_append, List.length_map, List.length_take,
      List.length_range']
    by_cases none : count = 0
    · omega
    · have whole := all none
      omega
  have differ :
      (List.range' ((screendumps script).length + 1) count).Nodup :=
    List.nodup_range'
  have pngs :=
    nodup_files_iff (@Frame.png_inj front) asPng_numeral3
      (capturedNames actions) differ
  have ppms :=
    @nodup_files_iff (Frame.ppm front) id Frame.ppm_inj (fun _ => rfl)
      (capturedNames actions) _ differ
  rw [named, ← captured, ← named] at pngs ppms
  simp only [numbers, and_imp] at pngs ppms
  constructor
  · intro kept
    exact pngs.mp kept.png
  · intro differing
    refine ⟨ppms.mpr ⟨?_, fun name member number above upTo same => ?_⟩,
      pngs.mpr differing⟩
    · rw [List.map_id]
      exact differing.1.of_map
    · refine differing.2 name member number above upTo ?_
      rw [id_eq] at same
      rw [same, asPng_numeral3]

/-- Two shots at most, two seconds apart, whatever becomes of QEMU. -/
def twoShots : Options where
  interval := .number false [2] 0 0
  maxShots := 2
  qemuPid := 0

/-- A frame that the script calls `002` is lost to the second frame. -/
theorem mainLoop_filesKept_iff_second :
    ∃ actions ended,
      asciiInterpreter.mainLoop twoShots (fun _ => true) 4 0
          ⟨["screendump".toList, "002".toList], 0⟩ =
        some (actions, ended) ∧
      ¬ FilesKept "snapshot/20260821_120000".toList actions := by
  have ran :
      asciiInterpreter.mainLoop twoShots (fun _ => true) 4 0
          ⟨["screendump".toList, "002".toList], 0⟩ =
        some
          ([.shot (.named "002".toList), .sleep twoShots.interval,
              .shot (.numbered 2)],
            .ok ⟨[], 2⟩) :=
    rfl
  refine ⟨_, _, ran, fun kept => ?_⟩
  have differ := (mainLoop_filesKept_iff ran _).mp kept
  exact differ.2 "002".toList (List.mem_singleton.mpr rfl) 2 (by decide)
    (by decide) (by decide)

end Files

end UefiMount.QmpDrive
