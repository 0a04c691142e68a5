import UefiMount.QmpDrive

namespace UefiMount.QmpDrive

/-!
# Replies and commands

The client takes the greeting for the reply to the command that it sends first
on a connection, so from then on it reads the reply to the command before the
one that it has sent.  Its calls return what QEMU answered just as long as QEMU
answers each command as it answered the one before.
-/

variable {Value : Type}

section Watching

/-- The answers are the same to a caller. -/
def Reply.Agrees : Reply Value → Reply Value → Prop
  | .success first, .success second =>
      first = second
  | .error _, .error _ =>
      True
  | _, _ =>
      False

/-- What has been seen of the current connection. -/
structure Watch (Value : Type) where
  greeted : Bool
  /-- The answer to the command before the last one. -/
  previous : Option (Reply Value)
  /-- The answer to the last command. -/
  own : Option (Reply Value)

namespace Watch

/-- Nothing has been seen of the connection. -/
def start : Watch Value :=
  ⟨false, none, none⟩

def after (w : Watch Value) : Happening Value → Watch Value
  | .opened =>
      start
  | .received answer =>
      { w with previous := w.own, own := some answer }
  | .unheard =>
      { w with previous := w.own, own := none }
  | .line =>
      { w with greeted := true }
  | _ =>
      w

/--
A line behind the greeting comes when the last command has an answer and the
one before it has the same.
-/
def Allows (w : Watch Value) : Happening Value → Prop
  | .line =>
      w.greeted = true →
        ∃ first second,
          w.previous = some first ∧ w.own = some second ∧
            first.Agrees second
  | _ =>
      True

def along (w : Watch Value) (trace : List (Happening Value)) :
    Watch Value :=
  trace.foldl after w

/-- QEMU answers each command as it answered the one before. -/
def Steady : Watch Value → List (Happening Value) → Prop
  | _, [] =>
      True
  | w, happening :: rest =>
      w.Allows happening ∧ (w.after happening).Steady rest

@[simp] theorem along_append
    (w : Watch Value)
    (first second : List (Happening Value)) :
    w.along (first ++ second) = (w.along first).along second :=
  List.foldl_append

theorem steady_append
    {w : Watch Value}
    {first second : List (Happening Value)} :
    w.Steady (first ++ second) ↔
      w.Steady first ∧ (w.along first).Steady second := by
  induction first generalizing w with
  | nil =>
      simp [Steady, along]
  | cons happening rest inductionHypothesis =>
      simp only [List.cons_append, Steady, inductionHypothesis, and_assoc]
      rfl

/-- Events leave no trace. -/
theorem along_events (w : Watch Value) (count : Nat) :
    w.along (List.replicate count .event) = w := by
  induction count with
  | zero =>
      rfl
  | succ count inductionHypothesis =>
      exact inductionHypothesis

theorem steady_events (w : Watch Value) (count : Nat) :
    w.Steady (List.replicate count .event) := by
  induction count with
  | zero =>
      trivial
  | succ count inductionHypothesis =>
      exact ⟨trivial, inductionHypothesis⟩

theorem steady_events_append
    {w : Watch Value}
    {count : Nat}
    {happening : Happening Value} :
    w.Steady (List.replicate count .event ++ [happening]) ↔
      w.Allows happening := by
  rw [steady_append, along_events]
  exact ⟨fun steady => steady.2.1,
    fun allowed => ⟨steady_events w count, allowed, trivial⟩⟩

theorem along_events_append
    (w : Watch Value)
    (count : Nat)
    (happening : Happening Value) :
    w.along (List.replicate count .event ++ [happening]) =
      w.after happening := by
  rw [along_append, along_events]
  rfl

end Watch

end Watching

section Reading

/-- What a line that is no event does to the call that reads it. -/
def Message.outcome
    (cmd : String)
    (msg : Message Value) :
    Except (Raised Value) (Option Value) :=
  match msg.error with
  | some problem =>
      .error (.runtime cmd problem)
  | none =>
      .ok msg.result

/-- The exceptions that are no answer. -/
def Raised.Lost : Raised Value → Prop
  | .runtime _ _ =>
      False
  | _ =>
      True

/-- Happenings that a watch does not mind. -/
def Silent (happening : Happening Value) : Prop :=
  ∀ w : Watch Value, w.Allows happening ∧ w.after happening = w

/-- What one read can give. -/
inductive ReadCase
    (c : Connection Value) :
    Happening Value → Read Value → Connection Value → Prop where
  | line
      {msg : Message Value}
      {queue : List (Message Value)}
      (queued : c.queue = msg :: queue) :
      ReadCase c .line (.message msg) { c with queue := queue }
  | event :
      ReadCase c .event (.message .anEvent) c
  | part :
      ReadCase c .cut .part .lost
  | nothing :
      ReadCase c .closed .nothing .lost
  | failed :
      ReadCase c .readFailed .failed .lost

theorem readline_cases
    {c later : Connection Value}
    {happening : Happening Value}
    {read : Read Value}
    (ran : c.readline happening = some (read, later)) :
    ReadCase c happening read later := by
  cases happening with
  | line =>
      simp only [Connection.readline] at ran
      split at ran
      · rename_i queued
        cases ran
        exact .line queued
      · cases ran
  | event =>
      simp only [Connection.readline] at ran
      split at ran
      · cases ran
      · cases ran
        exact .event
  | cut =>
      simp only [Connection.readline] at ran
      split at ran
      · cases ran
      · cases ran
        exact .part
  | closed =>
      cases ran
      exact .nothing
  | readFailed =>
      cases ran
      exact .failed
  | refused | opened | received | unheard | sendFailed =>
      cases ran

/-- How the loop over the lines can end. -/
inductive ReadEnds
    (cmd : String)
    (c : Connection Value) :
    Happening Value → Except (Raised Value) (Option Value) →
      Option (Connection Value) → Prop where
  | lost
      {last : Happening Value}
      {raised : Raised Value}
      (silent : Silent last)
      (isLost : raised.Lost) :
      ReadEnds cmd c last (.error raised) (some .lost)
  | line
      {msg : Message Value}
      {queue : List (Message Value)}
      (queued : c.queue = msg :: queue) :
      ReadEnds cmd c .line (msg.outcome cmd)
        (some { c with queue := queue })

/-- The loop reads events up to one last line, or to the end. -/
theorem readReply_ends
    {cmd : String}
    {c : Connection Value}
    (noEvents : ∀ msg ∈ c.queue, msg.event = false)
    {trace : List (Happening Value)}
    {outcome : Except (Raised Value) (Option Value)}
    {s : Session Value}
    (ended : readReply cmd c trace = some (outcome, s)) :
    ∃ count last,
      trace = List.replicate count .event ++ [last] ++ s.trace ∧
        ReadEnds cmd c last outcome s.connection := by
  induction trace with
  | nil =>
      cases ended
  | cons happening rest inductionHypothesis =>
      rw [readReply] at ended
      cases read : c.readline happening with
      | none =>
          rw [read] at ended
          cases ended
      | some result =>
          obtain ⟨given, later⟩ := result
          rw [read] at ended
          cases readline_cases read with
          | @line msg queue queued =>
              have ordinary : msg.event = false :=
                noEvents msg (by rw [queued]; exact List.mem_cons_self ..)
              refine ⟨0, .line, ?_⟩
              have both :
                  some (msg.outcome cmd,
                      (⟨some { c with queue := queue }, rest⟩ :
                        Session Value)) =
                    some (outcome, s) := by
                rw [← ended]
                simp only [ordinary, Bool.false_eq_true, ↓reduceIte,
                  Message.outcome]
                cases msg.error with
                | none =>
                    rfl
                | some problem =>
                    rfl
              cases both
              exact ⟨rfl, .line queued⟩
          | event =>
              obtain ⟨count, last, rfl, ends⟩ := inductionHypothesis ended
              exact ⟨count + 1, last, rfl, ends⟩
          | part =>
              cases ended
              exact ⟨0, .cut, rfl, .lost (fun _ => ⟨trivial, rfl⟩) trivial⟩
          | nothing =>
              cases ended
              exact ⟨0, .closed, rfl,
                .lost (fun _ => ⟨trivial, rfl⟩) trivial⟩
          | failed =>
              cases ended
              exact ⟨0, .readFailed, rfl,
                .lost (fun _ => ⟨trivial, rfl⟩) trivial⟩

end Reading

section Exchanging

/-- Between two commands: at most the reply to the last one is unread. -/
inductive Idle (w : Watch Value) : Option (Connection Value) → Prop where
  | none :
      Idle w none
  | dead :
      Idle w (some .lost)
  | answered
      {reply : Reply Value}
      (greeted : w.greeted = true)
      (own : w.own = some reply) :
      Idle w (some ⟨[reply.message], .live, some reply⟩)
  | unanswered
      (greeted : w.greeted = true)
      (own : w.own = Option.none) :
      Idle w (some ⟨[], .deaf, Option.none⟩)

/-- Behind a command: the reply to the one before it is unread, too. -/
inductive Sent (w : Watch Value) : Connection Value → Prop where
  | dead :
      Sent w .lost
  | answered
      {first second : Reply Value}
      (greeted : w.greeted = true)
      (previous : w.previous = some first)
      (own : w.own = some second) :
      Sent w ⟨[first.message, second.message], .live, some second⟩
  | unheard
      {first : Option (Reply Value)}
      (greeted : w.greeted = true)
      (own : w.own = none) :
      Sent w ⟨first.toList.map Reply.message, .deaf, none⟩

/-- What some operations of a call come to. -/
structure Tracked
    (w : Watch Value)
    (used : List (Happening Value))
    (outcome : Except (Raised Value) (Option Value))
    (later : Option (Connection Value)) : Prop where
  idle : Idle (w.along used) later
  steady :
    w.Steady used ↔
      Record.Matches ⟨outcome, later.bind Connection.answer⟩
  lost :
    ∀ raised, outcome = .error raised → raised.Lost →
      later.bind Connection.answer = none

/-- A call without an answer that ends without one is no mismatch. -/
theorem matches_lost
    {raised : Raised Value}
    (isLost : raised.Lost) :
    Record.Matches (⟨.error raised, none⟩ : Record Value) where
  returned value same := by
    cases same
  raised := by
    constructor
    · rintro ⟨cmd, problem, same⟩
      obtain rfl := Except.error.inj same
      exact absurd isLost id
    · rintro ⟨problem, same⟩
      cases same

/-- A reply matches exactly the answers that agree with it. -/
theorem matches_reply_iff
    {cmd : String}
    {reply answer : Reply Value} :
    Record.Matches ⟨reply.message.outcome cmd, some answer⟩ ↔
      reply.Agrees answer := by
  constructor
  · rintro ⟨returned, raised⟩
    cases reply with
    | success value =>
        obtain ⟨result, same, own⟩ := returned (some value) rfl
        obtain rfl := Option.some.inj same
        obtain rfl := Option.some.inj own
        exact rfl
    | error problem =>
        obtain ⟨other, own⟩ := raised.mp ⟨cmd, problem, rfl⟩
        obtain rfl := Option.some.inj own
        trivial
  · intro agrees
    cases reply with
    | success value =>
        cases answer with
        | success other =>
            obtain rfl : value = other := agrees
            refine ⟨?_, ?_⟩
            · intro result same
              obtain rfl := Except.ok.inj same
              exact ⟨value, rfl, rfl⟩
            · constructor
              · rintro ⟨_, _, same⟩
                cases same
              · rintro ⟨_, same⟩
                cases same
        | error problem =>
            exact absurd agrees id
    | error problem =>
        cases answer with
        | success other =>
            exact absurd agrees id
        | error own =>
            refine ⟨?_, ?_⟩
            · intro result same
              cases same
            · exact ⟨fun _ => ⟨own, rfl⟩, fun _ => ⟨cmd, problem, rfl⟩⟩

/-- A reply to a command without an answer is a mismatch. -/
theorem not_matches_unanswered
    {cmd : String}
    {reply : Reply Value} :
    ¬ Record.Matches ⟨reply.message.outcome cmd, none⟩ := by
  rintro ⟨returned, raised⟩
  cases reply with
  | success value =>
      obtain ⟨result, _, own⟩ := returned (some value) rfl
      cases own
  | error problem =>
      obtain ⟨other, own⟩ := raised.mp ⟨cmd, problem, rfl⟩
      cases own

/-- A line that is no event is an answer. -/
theorem not_lost_of_outcome
    {cmd : String}
    {msg : Message Value}
    {raised : Raised Value}
    (same : msg.outcome cmd = .error raised) :
    ¬ raised.Lost := by
  rw [Message.outcome] at same
  split at same
  · cases same
    exact id
  · cases same

@[simp] theorem Reply.message_event (reply : Reply Value) :
    reply.message.event = false := by
  cases reply with
  | success value =>
      rfl
  | error problem =>
      rfl

theorem Sent.noEvents
    {w : Watch Value}
    {c : Connection Value}
    (sent : Sent w c) :
    ∀ msg ∈ c.queue, msg.event = false := by
  cases sent with
  | dead =>
      exact fun msg member => absurd member List.not_mem_nil
  | answered _ _ _ =>
      simp
  | @unheard first _ _ =>
      cases first with
      | none =>
          exact fun msg member => absurd member List.not_mem_nil
      | some reply =>
          simp

/-- The client reads the reply to the command before the last one. -/
theorem readReply_tracked
    {w : Watch Value}
    {cmd : String}
    {c : Connection Value}
    (sent : Sent w c)
    {trace : List (Happening Value)}
    {outcome : Except (Raised Value) (Option Value)}
    {s : Session Value}
    (ended : readReply cmd c trace = some (outcome, s)) :
    ∃ used, trace = used ++ s.trace ∧
      Tracked w used outcome s.connection := by
  obtain ⟨count, last, rfl, ends⟩ := readReply_ends sent.noEvents ended
  refine ⟨_, rfl, ?_⟩
  have along := w.along_events_append count last
  have steady : w.Steady (List.replicate count .event ++ [last]) ↔
      w.Allows last :=
    Watch.steady_events_append
  generalize s.connection = later at ends
  cases ends with
  | @lost last raised silent isLost =>
      exact {
        idle := .dead
        steady := steady.trans
          ⟨fun _ => matches_lost isLost, fun _ => (silent w).1⟩
        lost := fun _ _ _ => rfl
      }
  | @line msg queue queued =>
      cases sent with
      | dead =>
          cases queued
      | @answered first second greeted previous own =>
          cases queued
          exact {
            idle := by
              rw [along]
              exact .answered rfl own
            steady := by
              rw [steady]
              refine Iff.trans ?_ matches_reply_iff.symm
              constructor
              · intro allowed
                obtain ⟨one, two, before, last, agrees⟩ := allowed greeted
                obtain rfl := Option.some.inj (previous.symm.trans before)
                obtain rfl := Option.some.inj (own.symm.trans last)
                exact agrees
              · exact fun agrees _ => ⟨first, second, previous, own, agrees⟩
            lost := fun raised same isLost =>
              absurd isLost (not_lost_of_outcome same)
          }
      | @unheard first greeted own =>
          cases first with
          | none =>
              cases queued
          | some reply =>
              cases queued
              exact {
                idle := by
                  rw [along]
                  exact .unanswered rfl own
                steady := by
                  rw [steady]
                  refine iff_of_false ?_ not_matches_unanswered
                  intro allowed
                  obtain ⟨_, two, _, last, _⟩ := allowed greeted
                  cases own.symm.trans last
                lost := fun _ _ _ => rfl
              }

theorem sendall_sent
    {w : Watch Value}
    {c later : Connection Value}
    (idle : Idle w (some c))
    {happening : Happening Value}
    (ran : c.sendall happening = some (true, later)) :
    Sent (w.after happening) later ∧ w.Allows happening := by
  cases happening with
  | received answer =>
      simp only [Connection.sendall] at ran
      split at ran
      · rename_i live
        cases ran
        cases idle with
        | dead =>
            cases live
        | answered greeted own =>
            exact ⟨.answered greeted own rfl, trivial⟩
        | unanswered _ _ =>
            cases live
      · cases ran
  | unheard =>
      simp only [Connection.sendall] at ran
      cases idle with
      | dead =>
          cases ran
          exact ⟨.dead, trivial⟩
      | @answered reply greeted _ =>
          cases ran
          exact ⟨@Sent.unheard _ _ (some reply) greeted rfl, trivial⟩
      | unanswered greeted _ =>
          cases ran
          exact ⟨@Sent.unheard _ _ none greeted rfl, trivial⟩
  | refused | opened | sendFailed | line | event | cut | closed |
    readFailed =>
      cases ran

theorem sendall_failed
    {c later : Connection Value}
    {happening : Happening Value}
    (ran : c.sendall happening = some (false, later)) :
    later = .lost ∧ Silent happening := by
  cases happening with
  | received answer =>
      simp only [Connection.sendall] at ran
      split at ran
      · cases ran
      · cases ran
  | unheard =>
      simp only [Connection.sendall] at ran
      split at ran
      · cases ran
      · cases ran
  | sendFailed =>
      cases ran
      exact ⟨rfl, fun _ => ⟨trivial, rfl⟩⟩
  | refused | opened | line | event | cut | closed | readFailed =>
      cases ran

/-- A command on a connection between two commands. -/
theorem exchange_tracked
    {w : Watch Value}
    {cmd : String}
    {s last : Session Value}
    (idle : Idle w s.connection)
    {outcome : Except (Raised Value) (Option Value)}
    (ran : exchange cmd s = some (outcome, last)) :
    ∃ used, s.trace = used ++ last.trace ∧
      Tracked w used outcome last.connection := by
  obtain ⟨connection, trace⟩ := s
  cases connection with
  | none =>
      cases ran
      exact ⟨[], rfl, {
        idle := .none
        steady := ⟨fun _ => matches_lost trivial, fun _ => trivial⟩
        lost := fun _ _ _ => rfl
      }⟩
  | some c =>
      cases trace with
      | nil =>
          cases ran
      | cons happening rest =>
          simp only [exchange] at ran
          cases sent : c.sendall happening with
          | none =>
              rw [sent] at ran
              cases ran
          | some result =>
              obtain ⟨succeeds, later⟩ := result
              rw [sent] at ran
              cases succeeds with
              | true =>
                  obtain ⟨state, allowed⟩ := sendall_sent idle sent
                  obtain ⟨used, rfl, tracked⟩ := readReply_tracked state ran
                  exact ⟨happening :: used, rfl, {
                    idle := tracked.idle
                    steady := ⟨fun steady => tracked.steady.mp steady.2,
                      fun fits => ⟨allowed, tracked.steady.mpr fits⟩⟩
                    lost := tracked.lost
                  }⟩
              | false =>
                  obtain ⟨rfl, silent⟩ := sendall_failed sent
                  cases ran
                  exact ⟨[happening], rfl, {
                    idle := .dead
                    steady := ⟨fun _ => matches_lost trivial,
                      fun _ => ⟨(silent w).1, trivial⟩⟩
                    lost := fun _ _ _ => rfl
                  }⟩

end Exchanging

section Handshake

/-- The connection behind the command that is sent first on it. -/
inductive Greeting (w : Watch Value) : Connection Value → Prop where
  | answered
      {reply : Reply Value}
      (own : w.own = some reply) :
      Greeting w ⟨[.greeting, reply.message], .live, some reply⟩
  | unheard
      (own : w.own = none) :
      Greeting w ⟨[.greeting], .deaf, none⟩

theorem Greeting.noEvents
    {w : Watch Value}
    {c : Connection Value}
    (sent : Greeting w c) :
    ∀ msg ∈ c.queue, msg.event = false := by
  cases sent with
  | answered _ =>
      simp [Message.greeting]
  | unheard _ =>
      simp [Message.greeting]

/-- What the negotiation on a new connection comes to. -/
structure Negotiated
    (w : Watch Value)
    (used : List (Happening Value))
    (outcome : Except (Raised Value) (Option Value))
    (later : Option (Connection Value)) : Prop where
  steady : w.Steady used
  idle : Idle (w.along used) later
  ends :
    (∃ value, outcome = .ok value) ∨
      ∃ raised, outcome = .error raised ∧ raised.Lost ∧
        later.bind Connection.answer = none

/-- The client takes the greeting for the reply. -/
theorem readReply_greeting
    {w : Watch Value}
    (ungreeted : w.greeted = false)
    {cmd : String}
    {c : Connection Value}
    (sent : Greeting w c)
    {trace : List (Happening Value)}
    {outcome : Except (Raised Value) (Option Value)}
    {s : Session Value}
    (ended : readReply cmd c trace = some (outcome, s)) :
    ∃ used, trace = used ++ s.trace ∧
      Negotiated w used outcome s.connection := by
  obtain ⟨count, last, rfl, ends⟩ := readReply_ends sent.noEvents ended
  refine ⟨_, rfl, ?_⟩
  have along := w.along_events_append count last
  have steady : w.Steady (List.replicate count .event ++ [last]) ↔
      w.Allows last :=
    Watch.steady_events_append
  generalize s.connection = later at ends
  cases ends with
  | @lost last raised silent isLost =>
      exact {
        steady := steady.mpr (silent w).1
        idle := .dead
        ends := .inr ⟨raised, rfl, isLost, rfl⟩
      }
  | @line msg queue queued =>
      have allowed : w.Allows .line := by
        intro greeted
        rw [ungreeted] at greeted
        cases greeted
      cases sent with
      | answered own =>
          cases queued
          exact {
            steady := steady.mpr allowed
            idle := by
              rw [along]
              exact .answered rfl own
            ends := .inl ⟨none, rfl⟩
          }
      | unheard own =>
          cases queued
          exact {
            steady := steady.mpr allowed
            idle := by
              rw [along]
              exact .unanswered rfl own
            ends := .inl ⟨none, rfl⟩
          }

/-- The first command on a new connection. -/
theorem exchange_fresh
    {cmd : String}
    {trace : List (Happening Value)}
    {last : Session Value}
    {outcome : Except (Raised Value) (Option Value)}
    (ran : exchange cmd ⟨some .fresh, trace⟩ = some (outcome, last)) :
    ∃ used, trace = used ++ last.trace ∧
      Negotiated .start used outcome last.connection := by
  cases trace with
  | nil =>
      cases ran
  | cons happening rest =>
      have further
          {w : Watch Value}
          {c : Connection Value}
          (after : Watch.start.after happening = w)
          (allowed : Watch.start.Allows happening)
          (ungreeted : w.greeted = false)
          (sent : Greeting w c)
          (read : readReply cmd c rest = some (outcome, last)) :
          ∃ used, happening :: rest = used ++ last.trace ∧
            Negotiated .start used outcome last.connection := by
        obtain ⟨used, rfl, negotiated⟩ :=
          readReply_greeting ungreeted sent read
        subst after
        exact ⟨happening :: used, rfl, {
          steady := ⟨allowed, negotiated.steady⟩
          idle := negotiated.idle
          ends := negotiated.ends
        }⟩
      cases happening with
      | received answer =>
          exact further rfl trivial rfl (.answered rfl) ran
      | unheard =>
          exact further rfl trivial rfl (.unheard rfl) ran
      | sendFailed =>
          cases ran
          exact ⟨[.sendFailed], rfl, {
            steady := ⟨trivial, trivial⟩
            idle := .dead
            ends := .inr ⟨.connection, rfl, trivial, rfl⟩
          }⟩
      | refused | opened | line | event | cut | closed | readFailed =>
          cases ran

theorem andThen_eq_some
    {first : Ended Value α}
    {next : α → Session Value → Ended Value β}
    {outcome : Except (Raised Value) β}
    {last : Session Value}
    (ran : andThen first next = some (outcome, last)) :
    (∃ value s, first = some (.ok value, s) ∧
        next value s = some (outcome, last)) ∨
      ∃ raised, first = some (.error raised, last) ∧
        outcome = .error raised := by
  cases first with
  | none =>
      cases ran
  | some result =>
      obtain ⟨front, s⟩ := result
      cases front with
      | ok value =>
          exact .inl ⟨value, s, rfl, ran⟩
      | error raised =>
          cases ran
          exact .inr ⟨raised, rfl, rfl⟩

theorem openSocket_eq_some
    {s last : Session Value}
    {outcome : Except (Raised Value) Unit}
    (ran : openSocket s = some (outcome, last)) :
    (s.trace = .refused :: last.trace ∧
        outcome = .error .connection ∧ last.connection = s.connection) ∨
      (s.trace = .opened :: last.trace ∧ outcome = .ok () ∧
        last.connection = some .fresh) := by
  rw [openSocket] at ran
  split at ran
  · rename_i rest refused
    cases ran
    exact .inl ⟨refused, rfl, rfl⟩
  · rename_i rest opened
    cases ran
    exact .inr ⟨opened, rfl, rfl⟩
  · cases ran

/-- A new connection is as good as the first one. -/
theorem reconnect_negotiated
    (w : Watch Value)
    {s last : Session Value}
    {outcome : Except (Raised Value) Unit}
    (ran : reconnect s = some (outcome, last)) :
    ∃ used, s.trace = used ++ last.trace ∧
      w.Steady used ∧
      Idle (w.along used) last.connection ∧
      (outcome = .ok () ∨
        ∃ raised, outcome = .error raised ∧ raised.Lost ∧
          last.connection.bind Connection.answer = none) := by
  rcases andThen_eq_some ran with
    ⟨_, opened, first, second⟩ | ⟨raised, first, rfl⟩
  · rcases openSocket_eq_some first with
      ⟨_, failed, _⟩ | ⟨begins, _, isFresh⟩
    · cases failed
    · obtain ⟨connection, trace⟩ := opened
      obtain rfl := isFresh
      rcases andThen_eq_some second with
        ⟨value, _, third, rest⟩ | ⟨raised, third, rfl⟩
      · cases rest
        obtain ⟨used, rfl, negotiated⟩ := exchange_fresh third
        exact ⟨.opened :: used, begins, ⟨trivial, negotiated.steady⟩,
          negotiated.idle, .inl rfl⟩
      · obtain ⟨used, rfl, negotiated⟩ := exchange_fresh third
        refine ⟨.opened :: used, begins, ⟨trivial, negotiated.steady⟩,
          negotiated.idle, .inr ?_⟩
        rcases negotiated.ends with ⟨_, same⟩ | ⟨other, same, isLost, gone⟩
        · cases same
        · obtain rfl := Except.error.inj same
          exact ⟨raised, rfl, isLost, gone⟩
  · rcases openSocket_eq_some first with
      ⟨begins, same, closed⟩ | ⟨_, same, _⟩
    · obtain rfl := Except.error.inj same
      have gone : last.connection = none := closed
      exact ⟨[.refused], begins, ⟨trivial, trivial⟩, by
        rw [gone]
        exact .none, .inr ⟨.connection, rfl, trivial, by rw [gone]; rfl⟩⟩
    · cases same

end Handshake

section Calls

theorem catching_eq_some
    {body : Ended Value α}
    {handler : Session Value → Ended Value α}
    {outcome : Except (Raised Value) α}
    {last : Session Value}
    (ran : catching body handler = some (outcome, last)) :
    (∃ s, body = some (.error .connection, s) ∧
        handler s = some (outcome, last)) ∨
      body = some (outcome, last) := by
  rw [catching.eq_def] at ran
  split at ran
  · exact .inl ⟨_, rfl, ran⟩
  · exact .inr ran

/-- What has come before does no harm. -/
theorem Tracked.behind
    {w : Watch Value}
    {used more : List (Happening Value)}
    {outcome : Except (Raised Value) (Option Value)}
    {later : Option (Connection Value)}
    (steady : w.Steady used)
    (tracked : Tracked (w.along used) more outcome later) :
    Tracked w (used ++ more) outcome later where
  idle := by
    rw [Watch.along_append]
    exact tracked.idle
  steady := by
    rw [Watch.steady_append, tracked.steady]
    exact ⟨And.right, fun fits => ⟨steady, fits⟩⟩
  lost := tracked.lost

/-- One call, with the new connection that it may need. -/
theorem call_tracked
    {w : Watch Value}
    {cmd : String}
    {s last : Session Value}
    (idle : Idle w s.connection)
    {outcome : Except (Raised Value) (Option Value)}
    (ran : call cmd s = some (outcome, last)) :
    ∃ used, s.trace = used ++ last.trace ∧
      Tracked w used outcome last.connection := by
  rcases catching_eq_some ran with ⟨broken, first, retried⟩ | first
  · obtain ⟨used, begins, tracked⟩ := exchange_tracked idle first
    have steady : w.Steady used := by
      rw [tracked.steady, tracked.lost .connection rfl trivial]
      exact matches_lost trivial
    rcases andThen_eq_some retried with
      ⟨_, opened, second, third⟩ | ⟨raised, second, rfl⟩
    · obtain ⟨more, further, steadyToo, idleAgain, _⟩ :=
        reconnect_negotiated (w.along used) second
      obtain ⟨rest, ends, trackedAgain⟩ := exchange_tracked idleAgain third
      refine ⟨used ++ (more ++ rest), by
        rw [begins, further, ends, List.append_assoc, List.append_assoc], ?_⟩
      exact .behind steady (.behind steadyToo trackedAgain)
    · obtain ⟨more, further, steadyToo, idleAgain, ends⟩ :=
        reconnect_negotiated (w.along used) second
      refine ⟨used ++ more, by rw [begins, further, List.append_assoc], ?_⟩
      rcases ends with same | ⟨other, same, isLost, gone⟩
      · cases same
      · obtain rfl := Except.error.inj same
        exact .behind steady {
          idle := idleAgain
          steady := by
            rw [gone]
            exact ⟨fun _ => matches_lost isLost, fun _ => steadyToo⟩
          lost := fun _ _ _ => gone
        }
  · exact exchange_tracked idle first

/-- Calls one after the other. -/
theorem calls_tracked
    {w : Watch Value}
    {cmds : List String}
    {s last : Session Value}
    (idle : Idle w s.connection)
    {records : List (Record Value)}
    (ran : calls cmds s = some (records, last)) :
    ∃ used, s.trace = used ++ last.trace ∧
      (w.Steady used ↔ ∀ record ∈ records, record.Matches) := by
  induction cmds generalizing w s records with
  | nil =>
      cases ran
      exact ⟨[], rfl, fun _ record member =>
        absurd member List.not_mem_nil, fun _ => trivial⟩
  | cons cmd rest inductionHypothesis =>
      rw [calls] at ran
      cases called : call cmd s with
      | none =>
          rw [called] at ran
          cases ran
      | some result =>
          obtain ⟨outcome, middle⟩ := result
          rw [called] at ran
          obtain ⟨⟨others, _⟩, further, joined⟩ :=
            Option.map_eq_some_iff.mp ran
          cases joined
          obtain ⟨used, begins, tracked⟩ := call_tracked idle called
          obtain ⟨more, ends, steady⟩ :=
            inductionHypothesis tracked.idle further
          refine ⟨used ++ more, by rw [begins, ends, List.append_assoc], ?_⟩
          rw [Watch.steady_append, tracked.steady, steady,
            List.forall_mem_cons]
          rfl

/-- The negotiation of a new client. -/
theorem call_fresh
    {cmd : String}
    {trace : List (Happening Value)}
    {last : Session Value}
    {outcome : Except (Raised Value) (Option Value)}
    (ran : call cmd ⟨some .fresh, trace⟩ = some (outcome, last)) :
    ∃ used, trace = used ++ last.trace ∧
      Idle (Watch.start.along used) last.connection := by
  rcases catching_eq_some ran with ⟨broken, first, retried⟩ | first
  · obtain ⟨used, rfl, _⟩ := exchange_fresh first
    rcases andThen_eq_some retried with
      ⟨_, opened, second, third⟩ | ⟨raised, second, _⟩
    · obtain ⟨more, further, _, idle, _⟩ :=
        reconnect_negotiated (Watch.start.along used) second
      obtain ⟨rest, ends, tracked⟩ := exchange_tracked idle third
      refine ⟨used ++ (more ++ rest), by
        rw [further, ends, List.append_assoc, List.append_assoc], ?_⟩
      rw [Watch.along_append, Watch.along_append]
      exact tracked.idle
    · obtain ⟨more, further, _, idle, _⟩ :=
        reconnect_negotiated (Watch.start.along used) second
      refine ⟨used ++ more, by rw [further, List.append_assoc], ?_⟩
      rw [Watch.along_append]
      exact idle
  · obtain ⟨used, begins, negotiated⟩ := exchange_fresh first
    exact ⟨used, begins, negotiated.idle⟩

/-- One attempt of the construction. -/
theorem attempt_idle
    (w : Watch Value)
    {s last : Session Value}
    {outcome : Except (Raised Value) Unit}
    (ran :
      (andThen (openSocket s) fun _ s =>
        andThen (call capabilities s) fun _ s =>
          some (.ok (), s)) = some (outcome, last)) :
    ∃ used, s.trace = used ++ last.trace ∧
      (outcome = .ok () → Idle (w.along used) last.connection) := by
  rcases andThen_eq_some ran with
    ⟨_, opened, first, second⟩ | ⟨raised, first, rfl⟩
  · rcases openSocket_eq_some first with
      ⟨_, failed, _⟩ | ⟨begins, _, isFresh⟩
    · cases failed
    · obtain ⟨connection, trace⟩ := opened
      obtain rfl := isFresh
      rcases andThen_eq_some second with
        ⟨_, _, third, rest⟩ | ⟨raised, third, rfl⟩
      · cases rest
        obtain ⟨used, rfl, idle⟩ := call_fresh third
        exact ⟨.opened :: used, begins, fun _ => idle⟩
      · obtain ⟨used, rfl, _⟩ := call_fresh third
        refine ⟨.opened :: used, begins, fun same => ?_⟩
        cases same
  · rcases openSocket_eq_some first with ⟨begins, _, _⟩ | ⟨_, same, _⟩
    · refine ⟨[.refused], begins, fun same => ?_⟩
      cases same
    · cases same

/-- A client that has been constructed is between two commands. -/
theorem construct_idle
    (w : Watch Value)
    {attempts : Nat}
    {s ready : Session Value}
    (constructed : construct attempts s = some (.ok (), ready)) :
    ∃ used, s.trace = used ++ ready.trace ∧
      Idle (w.along used) ready.connection := by
  induction attempts generalizing w s with
  | zero =>
      cases constructed
  | succ attempts inductionHypothesis =>
      rw [construct] at constructed
      rcases catching_eq_some constructed with ⟨broken, first, again⟩ | first
      · obtain ⟨used, begins, _⟩ := attempt_idle w first
        obtain ⟨more, ends, idle⟩ :=
          inductionHypothesis (w.along used) again
        refine ⟨used ++ more, ?_, ?_⟩
        · rw [begins, List.append_assoc]
          exact congrArg _ ends
        · rw [Watch.along_append]
          exact idle
      · obtain ⟨used, begins, idle⟩ := attempt_idle w first
        exact ⟨used, begins, idle rfl⟩

/--
After the construction, the calls return and raise what QEMU answers to their
commands if and only if QEMU answers each command as it answered the one before.
-/
theorem calls_match_iff
    {before after : List (Happening Value)}
    {connection : Option (Connection Value)}
    (constructed :
      construct connectAttempts ⟨none, before ++ after⟩ =
        some (.ok (), ⟨connection, after⟩))
    {cmds : List String}
    {records : List (Record Value)}
    {last : Option (Connection Value)}
    (called :
      calls cmds ⟨connection, after⟩ = some (records, ⟨last, []⟩)) :
    (∀ record ∈ records, record.Matches) ↔
      (Watch.start.along before).Steady after := by
  obtain ⟨used, begins, idle⟩ := construct_idle .start constructed
  obtain rfl := List.append_cancel_right begins
  obtain ⟨whole, same, steady⟩ := calls_tracked idle called
  rw [← steady, show after = whole by simpa using same]

/-- A JSON object with strings as members. -/
abbrev Json : Type :=
  List (String × String)

/-- The client connects; `qmp_capabilities` succeeds. -/
def negotiation : List (Happening Json) :=
  [.opened, .received (.success []), .line]

/-- QEMU answers the next command with an error. -/
def refusal : List (Happening Json) :=
  [.received (.error [("class", "GenericError")]), .line]

/-- The connection once the client has read a line behind the command. -/
def behindRefusal : Connection Json :=
  ⟨[Reply.message (.error [("class", "GenericError")])], .live,
    some (.error [("class", "GenericError")])⟩

/-- What becomes of the call. -/
def sendKeyRecord : Record Json where
  outcome := .ok (some [])
  answer := some (.error [("class", "GenericError")])

theorem construct_negotiation :
    construct connectAttempts ⟨none, negotiation ++ refusal⟩ =
      some (.ok (),
        ⟨some ⟨[Reply.message (.success [])], .live, some (.success [])⟩,
          refusal⟩) :=
  rfl

theorem calls_refusal :
    calls ["send-key"]
        ⟨some ⟨[Reply.message (.success [])], .live, some (.success [])⟩,
          refusal⟩ =
      some ([sendKeyRecord], ⟨some behindRefusal, []⟩) :=
  rfl

theorem calls_match_iff_refusal :
    (∀ record ∈ [sendKeyRecord], record.Matches) ↔
      (Watch.start.along negotiation).Steady refusal :=
  calls_match_iff construct_negotiation calls_refusal

/-- A call returns normally, and QEMU has answered its command with an error. -/
theorem calls_mismatch_refusal :
    ∃ ready records last,
      construct connectAttempts ⟨none, negotiation ++ refusal⟩ =
          some (.ok (), ready) ∧
        calls ["send-key"] ready = some (records, last) ∧
        ¬ ∀ record ∈ records, record.Matches := by
  refine ⟨_, _, _, construct_negotiation, calls_refusal, fun fits => ?_⟩
  obtain ⟨result, _, own⟩ :=
    (fits sendKeyRecord (List.mem_singleton_self _)).returned (some []) rfl
  cases own

end Calls

end UefiMount.QmpDrive
