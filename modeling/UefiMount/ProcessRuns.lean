namespace ProcessRuns

/-!
# Runs of input-output processes

A process answers one admitted input at a time and moves to its next state.
Its runs carry the whole history of inputs and answers, so that a property of
a reachable state can be stated against what the environment asked for and
what it was told.  Every induction over a run in the development goes through
the three rules of this module: an invariant of the state, a relation between
history and state, and the reachable state in which a recorded answer was
given.
-/

/-- A deterministic machine together with the inputs its environment may offer. -/
structure Process (State : Type u) (Input : Type v) (Output : Type w) where
  admits : State → Input → Prop
  step : State → Input → Output × State

namespace Process

variable {State : Type u} {Input : Type v} {Output : Type w}

/-- A finite run from `initial`, with its history in the order it happened. -/
inductive Run
    (process : Process State Input Output)
    (initial : State) :
    List (Input × Output) → State → Prop where
  | start :
      Run process initial [] initial
  | extend
      {history : List (Input × Output)}
      {state : State}
      (earlier : Run process initial history state)
      {input : Input}
      (admitted : process.admits state input) :
      Run process initial
        (history ++ [(input, (process.step state input).1)])
        (process.step state input).2

namespace Run

variable {process : Process State Input Output}
  {initial : State}
  {history : List (Input × Output)}
  {state : State}

/--
A relation between history and state that every admitted step preserves holds
at the end of every run.
-/
theorem tracks
    (run : process.Run initial history state)
    (relation : List (Input × Output) → State → Prop)
    (initially : relation [] initial)
    (preserved :
      ∀ {history state input},
        relation history state →
        process.admits state input →
        relation
          (history ++ [(input, (process.step state input).1)])
          (process.step state input).2) :
    relation history state := by
  induction run with
  | start =>
      exact initially
  | extend earlier admitted inductionHypothesis =>
      exact preserved inductionHypothesis admitted

/-- A run without answers stays where it is. -/
theorem nil_eq (run : process.Run initial [] state) : state = initial := by
  apply run.tracks (fun history reached => history = [] → reached = initial)
  · exact fun _ => rfl
  · intro history middle input _ _ isEmpty
    simp at isEmpty
  · rfl

/-- A property of states that every admitted step preserves is invariant. -/
theorem invariant
    (run : process.Run initial history state)
    (property : State → Prop)
    (initially : property initial)
    (preserved :
      ∀ {state input},
        property state →
        process.admits state input →
        property (process.step state input).2) :
    property state :=
  run.tracks (fun _ reached => property reached)
    initially (fun holds admitted => preserved holds admitted)

/--
A run can be cut at any of its answers: what came before is a run of its own,
and the answer is the one the process gives in the state reached there.
-/
theorem split
    (run : process.Run initial history state)
    {earlier later : List (Input × Output)}
    {input : Input}
    {output : Output}
    (shape : history = earlier ++ (input, output) :: later) :
    ∃ middle,
      process.Run initial earlier middle ∧
        process.admits middle input ∧
        output = (process.step middle input).1 ∧
        process.Run (process.step middle input).2 later state := by
  induction run generalizing later with
  | start =>
      simp at shape
  | @extend history middle run last admitted inductionHypothesis =>
      rcases List.eq_nil_or_concat later with
        isEmpty | ⟨shorter, answered, isConcat⟩
      · subst isEmpty
        obtain ⟨sameHistory, sameAnswer⟩ := List.append_inj' shape rfl
        subst sameHistory
        simp only [List.cons.injEq, Prod.mk.injEq, and_true] at sameAnswer
        obtain ⟨rfl, rfl⟩ := sameAnswer
        exact ⟨middle, run, admitted, rfl, .start⟩
      · subst isConcat
        rw [List.concat_eq_append] at shape ⊢
        rw [← List.cons_append, ← List.append_assoc] at shape
        obtain ⟨sameHistory, sameAnswer⟩ := List.append_inj' shape rfl
        simp only [List.cons.injEq, and_true] at sameAnswer
        obtain ⟨reached, first, admittedThere, output, rest⟩ :=
          inductionHypothesis sameHistory
        refine ⟨reached, first, admittedThere, output, ?_⟩
        rw [← sameAnswer]
        exact rest.extend admitted

/-- Extend a run by a step whose answer and next state are known. -/
theorem answer
    (run : process.Run initial history state)
    {input : Input}
    (admitted : process.admits state input)
    {output : Output}
    {next : State}
    (stepped : process.step state input = (output, next)) :
    process.Run initial (history ++ [(input, output)]) next := by
  have extended := run.extend admitted
  rwa [stepped] at extended

end Run

end Process

end ProcessRuns
