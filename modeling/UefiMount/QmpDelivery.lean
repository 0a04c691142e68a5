import UefiMount.QmpReplies

namespace UefiMount.QmpDrive

/-!
# What QEMU receives

The client calls one command after the other until a call raises, and makes a
new connection when it loses one.  A call can return although QEMU has never
received its command, and can send it a second time on a new connection.  So
commands can be lost and can be received twice, but they stay in order, every
connection is negotiated first, and of its commands at most one is lost or
received again on the next one.  No more can be said: every such delivery is
that of some run.
-/

variable {Value Arguments : Type}

section Model

/-- What `call` sends. -/
structure Request (Arguments : Type) where
  execute : String
  /-- Without arguments, `{}` is sent. -/
  arguments : Option Arguments
  deriving DecidableEq

/-- The command of a negotiation. -/
def Request.capabilities : Request Arguments :=
  ⟨QmpDrive.capabilities, none⟩

/-- What QEMU sees of the client. -/
inductive Sight (Arguments : Type) where
  | accepted
  | received (request : Request Arguments)
  deriving DecidableEq

/-- The command, when QEMU receives it. -/
def exchangeHeard
    (request : Request Arguments)
    (s : Session Value) :
    List (Request Arguments) :=
  match s.connection, s.trace with
  | some _, .received _ :: _ =>
      [request]
  | _, _ =>
      []

/-- What QEMU sees of an exchange. -/
def exchangeSeen
    (request : Request Arguments)
    (s : Session Value) :
    List (Sight Arguments) :=
  (exchangeHeard request s).map .received

/-- What QEMU sees of `_open`. -/
def openSeen (s : Session Value) : List (Sight Arguments) :=
  match s.trace with
  | .opened :: _ =>
      [.accepted]
  | _ =>
      []

/-- What QEMU sees of a statement behind another one. -/
def seenBehind
    (first : Ended Value α)
    (next : α → Session Value → List (Sight Arguments)) :
    List (Sight Arguments) :=
  match first with
  | some (.ok value, s) =>
      next value s
  | _ =>
      []

/-- What QEMU sees of an exception's handler. -/
def seenCatching
    (body : Ended Value α)
    (handler : Session Value → List (Sight Arguments)) :
    List (Sight Arguments) :=
  match body with
  | some (.error .connection, s) =>
      handler s
  | _ =>
      []

/-- What QEMU sees of `_reconnect`. -/
def reconnectSeen (s : Session Value) : List (Sight Arguments) :=
  openSeen (closeSocket s) ++
    seenBehind (openSocket (closeSocket s)) fun _ s =>
      exchangeSeen .capabilities s

/-- What QEMU sees of `call`. -/
def callSeen
    (request : Request Arguments)
    (s : Session Value) :
    List (Sight Arguments) :=
  exchangeSeen request s ++
    seenCatching (exchange request.execute s) fun s =>
      reconnectSeen s ++
        seenBehind (reconnect s) fun _ s => exchangeSeen request s

/-- What QEMU sees of `__init__`. -/
def constructSeen : Nat → Session Value → List (Sight Arguments)
  | 0, _ =>
      []
  | attempts + 1, s =>
      openSeen s ++
        ((seenBehind (openSocket s) fun _ s => callSeen .capabilities s) ++
          seenCatching
            (andThen (openSocket s) fun _ s =>
              andThen (call capabilities s) fun _ s =>
                some (.ok (), s))
            fun s => constructSeen attempts (closeSocket s))

/-- The calls of `main`, until one raises. -/
def drive : List (Request Arguments) → Session Value → Ended Value Unit
  | [], s =>
      some (.ok (), s)
  | request :: rest, s =>
      andThen (call request.execute s) fun _ s => drive rest s

/-- What QEMU sees of the calls. -/
def driveSeen :
    List (Request Arguments) → Session Value → List (Sight Arguments)
  | [], _ =>
      []
  | request :: rest, s =>
      callSeen request s ++
        seenBehind (call request.execute s) fun _ s => driveSeen rest s

/-- The commands of each connection, from within one of them. -/
def connectionsFrom :
    List (Request Arguments) → List (Sight Arguments) →
      List (List (Request Arguments))
  | received, [] =>
      [received]
  | received, .accepted :: rest =>
      received :: connectionsFrom [] rest
  | received, .received request :: rest =>
      connectionsFrom (received ++ [request]) rest

/-- The commands that QEMU receives on each connection. -/
def connections
    (seen : List (Sight Arguments)) :
    List (List (Request Arguments)) :=
  (connectionsFrom [] seen).tail

end Model

section Delivery

/--
What a connection receives when some calls return on it, and the next one, if
there is one, fails on it.
-/
inductive Carries
    (next : Option (Request Arguments)) :
    List (Request Arguments) → List (Request Arguments) → Prop where
  | all (returned : List (Request Arguments)) :
      Carries next returned returned
  /-- The last call has returned, but its command is not received. -/
  | lost
      (returned : List (Request Arguments))
      (request : Request Arguments) :
      Carries next (returned ++ [request]) returned
  /-- The call has failed, but its command is received. -/
  | failed
      (returned : List (Request Arguments))
      {request : Request Arguments}
      (isNext : next = some request) :
      Carries next returned (returned ++ [request])

/--
What the connections receive: the first is negotiated so many times, and on
each of the others a call returns that has failed on the one before.
-/
inductive Delivers
    (raising : Option (Request Arguments)) :
    Nat → List (List (Request Arguments)) →
      List (List (Request Arguments)) → Prop where
  | last
      {count : Nat}
      {returned received : List (Request Arguments)}
      (carries :
        Carries raising (List.replicate count .capabilities ++ returned)
          received) :
      Delivers raising count [returned] [received]
  /-- The call that raises fails on two connections. -/
  | retried
      {count : Nat}
      {returned received again : List (Request Arguments)}
      {request : Request Arguments}
      (raises : raising = some request)
      (carries :
        Carries (some request)
          (List.replicate count .capabilities ++ returned) received)
      (retry : again <+: [.capabilities, request]) :
      Delivers raising count [returned] [received, again]
  | reconnected
      {count : Nat}
      {returned received more : List (Request Arguments)}
      {request : Request Arguments}
      {later others : List (List (Request Arguments))}
      (carries :
        Carries (some request)
          (List.replicate count .capabilities ++ returned) received)
      (delivers : Delivers raising 1 ((request :: more) :: later) others) :
      Delivers raising count (returned :: (request :: more) :: later)
        (received :: others)

/-- Which calls return, and which one raises, when calls end so. -/
inductive Ran
    (requests : List (Request Arguments)) :
    Except (Raised Value) Unit → List (Request Arguments) →
      Option (Request Arguments) → Prop where
  | returned :
      Ran requests (.ok ()) requests none
  | raised
      {front rest : List (Request Arguments)}
      {request : Request Arguments}
      (split : requests = front ++ request :: rest)
      (raised : Raised Value) :
      Ran requests (.error raised) front (some request)

/--
The commands are received in order, connection by connection, behind the
connections of construction attempts that have failed.
-/
inductive Delivered
    (requests : List (Request Arguments))
    (outcome : Except (Raised Value) Unit)
    (received : List (List (Request Arguments))) : Prop where
  | intro
      {attempts delivered segments : List (List (Request Arguments))}
      {count : Nat}
      {raising : Option (Request Arguments)}
      (splits : received = attempts ++ delivered)
      (failed :
        ∀ attempt ∈ attempts, attempt <+: [.capabilities, .capabilities])
      (negotiated : count = 1 ∨ count = 2)
      (ran : Ran requests outcome segments.flatten raising)
      (delivers : Delivers raising count segments delivered)

end Delivery

section Exchanges

/-- Between two calls on a connection, while all of them return. -/
inductive Standing
    (returned received : List (Request Arguments)) :
    Option (Connection Value) → Prop where
  /-- The reply to the last command is unread. -/
  | behind
      (all : returned = received)
      (reply : Reply Value) :
      Standing returned received
        (some ⟨[reply.message], .live, some reply⟩)
  /-- The last command is lost, and all the others will be. -/
  | deaf
      {request : Request Arguments}
      (lost : returned = received ++ [request]) :
      Standing returned received (some ⟨[], .deaf, none⟩)

theorem Standing.carries
    {returned received : List (Request Arguments)}
    {connection : Option (Connection Value)}
    (standing : Standing returned received connection)
    (next : Option (Request Arguments)) :
    Carries next returned received := by
  cases standing with
  | behind all _ =>
      rw [all]
      exact .all received
  | deaf lost =>
      rw [lost]
      exact .lost received _

/-- A call that reads a line has taken it from the queue. -/
theorem readReply_returned
    {cmd : String}
    {c : Connection Value}
    (noEvents : ∀ msg ∈ c.queue, msg.event = false)
    {trace : List (Happening Value)}
    {value : Option Value}
    {s : Session Value}
    (ended : readReply cmd c trace = some (.ok value, s)) :
    ∃ msg queue, c.queue = msg :: queue ∧
      s.connection = some { c with queue := queue } := by
  obtain ⟨_, _, _, ends⟩ := readReply_ends noEvents ended
  generalize same : Except.ok value = outcome at ends
  generalize s.connection = later at ends
  cases ends with
  | lost _ _ =>
      cases same
  | @line msg queue queued =>
      exact ⟨msg, queue, queued, rfl⟩

/-- What an exchange comes to. -/
def Exchanges
    (returned received : List (Request Arguments))
    (request : Request Arguments)
    (s : Session Value) : Prop :=
  ∀ outcome last,
    exchange request.execute s = some (outcome, last) →
    Carries (some request) returned (received ++ exchangeHeard request s) ∧
      ∀ value, outcome = .ok value →
        Standing (returned ++ [request])
          (received ++ exchangeHeard request s) last.connection

/-- A command is sent while one line is unread. -/
theorem exchanges_unread
    (returned : List (Request Arguments))
    {msg : Message Value}
    (ordinary : msg.event = false)
    (answer : Option (Reply Value))
    (trace : List (Happening Value))
    (request : Request Arguments) :
    Exchanges returned returned request
      ⟨some ⟨[msg], .live, answer⟩, trace⟩ := by
  intro outcome last ran
  cases trace with
  | nil =>
      cases ran
  | cons happening rest =>
      cases happening with
      | received reply =>
          refine ⟨.failed returned rfl, ?_⟩
          rintro value rfl
          obtain ⟨_, _, queued, later⟩ :=
            readReply_returned (by simp [ordinary]) ran
          cases queued
          rw [later]
          exact .behind rfl reply
      | unheard =>
          simp only [exchangeHeard, List.append_nil]
          refine ⟨.all returned, ?_⟩
          rintro value rfl
          obtain ⟨_, _, queued, later⟩ :=
            readReply_returned (by simp [ordinary]) ran
          cases queued
          rw [later]
          exact .deaf rfl
      | sendFailed =>
          simp only [exchangeHeard, List.append_nil]
          cases ran
          exact ⟨.all returned, fun value same => by cases same⟩
      | refused | opened | line | event | cut | closed | readFailed =>
          cases ran

/-- A command is sent when nothing is received any more. -/
theorem exchanges_deaf
    (received : List (Request Arguments))
    (earlier : Request Arguments)
    (trace : List (Happening Value))
    (request : Request Arguments) :
    Exchanges (received ++ [earlier]) received request
      ⟨some ⟨[], .deaf, none⟩, trace⟩ := by
  intro outcome last ran
  cases trace with
  | nil =>
      cases ran
  | cons happening rest =>
      cases happening with
      | unheard =>
          simp only [exchangeHeard, List.append_nil]
          refine ⟨.lost received earlier, ?_⟩
          rintro value rfl
          obtain ⟨_, _, queued, _⟩ := readReply_returned (by simp) ran
          cases queued
      | sendFailed =>
          simp only [exchangeHeard, List.append_nil]
          cases ran
          exact ⟨.lost received earlier, fun value same => by cases same⟩
      | received | refused | opened | line | event | cut | closed |
        readFailed =>
          cases ran

theorem Standing.exchanges
    {returned received : List (Request Arguments)}
    {s : Session Value}
    (standing : Standing returned received s.connection)
    (request : Request Arguments) :
    Exchanges returned received request s := by
  obtain ⟨connection, trace⟩ := s
  cases standing with
  | behind all reply =>
      rw [all]
      exact exchanges_unread received reply.message_event _ trace request
  | @deaf earlier lost =>
      rw [lost]
      exact exchanges_deaf received earlier trace request

/-- The first command of a connection, where the greeting is unread. -/
theorem exchanges_fresh
    (request : Request Arguments)
    (trace : List (Happening Value)) :
    Exchanges [] [] request ⟨some .fresh, trace⟩ :=
  exchanges_unread [] rfl none trace request

end Exchanges

section Calls

theorem Carries.begins
    {returned received : List (Request Arguments)}
    {request : Request Arguments}
    (carries : Carries (some request) returned received) :
    received <+: returned ++ [request] := by
  cases carries with
  | all _ =>
      exact List.prefix_append ..
  | lost _ other =>
      rw [List.append_assoc]
      exact List.prefix_append ..
  | failed _ isNext =>
      cases isNext
      exact List.prefix_rfl

theorem andThen_seen
    {first : Ended Value α}
    {next : α → Session Value → Ended Value β}
    {outcome : Except (Raised Value) β}
    {last : Session Value}
    (ran : andThen first next = some (outcome, last))
    (seen : α → Session Value → List (Sight Arguments)) :
    (∃ value s, first = some (.ok value, s) ∧
        next value s = some (outcome, last) ∧
        seenBehind first seen = seen value s) ∨
      ∃ raised, first = some (.error raised, last) ∧
        outcome = .error raised ∧ seenBehind first seen = [] := by
  rcases andThen_eq_some ran with
    ⟨value, s, rfl, further⟩ | ⟨raised, rfl, same⟩
  · exact .inl ⟨value, s, rfl, further, rfl⟩
  · exact .inr ⟨raised, rfl, same, rfl⟩

theorem catching_seen
    {body : Ended Value α}
    {handler : Session Value → Ended Value α}
    {outcome : Except (Raised Value) α}
    {last : Session Value}
    (ran : catching body handler = some (outcome, last))
    (seen : Session Value → List (Sight Arguments)) :
    (∃ s, body = some (.error .connection, s) ∧
        handler s = some (outcome, last) ∧
        seenCatching body seen = seen s) ∨
      body = some (outcome, last) ∧ seenCatching body seen = [] := by
  rw [catching.eq_def] at ran
  split at ran
  case h_1 =>
    exact .inl ⟨_, rfl, ran, rfl⟩
  case h_2 other =>
    refine .inr ⟨ran, ?_⟩
    rw [seenCatching.eq_def]
    split
    · exact absurd rfl (other _)
    · rfl

/-- What a new connection has received when it is ready, or when it is not. -/
theorem reconnect_seen
    {s last : Session Value}
    {outcome : Except (Raised Value) Unit}
    (ran : reconnect s = some (outcome, last)) :
    (∃ raised, outcome = .error raised ∧
        (reconnectSeen s : List (Sight Arguments)) = []) ∨
      ∃ heard : List (Request Arguments),
        reconnectSeen s = .accepted :: heard.map .received ∧
          heard <+: [.capabilities] ∧
          (outcome = .ok () →
            Standing [.capabilities] heard last.connection) := by
  rcases andThen_eq_some ran with
    ⟨_, ⟨connection, trace⟩, first, second⟩ | ⟨raised, first, rfl⟩
  · rcases openSocket_eq_some first with
      ⟨_, failed, _⟩ | ⟨begins, _, isFresh⟩
    · cases failed
    · obtain rfl := isFresh
      have negotiates :=
        @exchanges_fresh Value Arguments .capabilities trace
      have opened :
          (openSeen (closeSocket s) : List (Sight Arguments)) =
            [.accepted] := by
        rw [openSeen, begins]
      refine .inr
        ⟨exchangeHeard .capabilities ⟨some .fresh, trace⟩, ?_, ?_⟩
      · rw [reconnectSeen, opened, first]
        rfl
      · rcases andThen_eq_some second with
          ⟨value, _, third, rest⟩ | ⟨raised, third, rfl⟩
        · cases rest
          obtain ⟨carries, standing⟩ := negotiates _ _ third
          exact ⟨carries.begins, fun _ => standing value rfl⟩
        · obtain ⟨carries, _⟩ := negotiates _ _ third
          exact ⟨carries.begins, fun same => by cases same⟩
  · refine .inl ⟨raised, rfl, ?_⟩
    rcases openSocket_eq_some first with ⟨begins, _, _⟩ | ⟨_, same, _⟩
    · rw [reconnectSeen, openSeen, begins, first]
      rfl
    · cases same

/-- What a call comes to, and what QEMU sees of it. -/
inductive CallEnds
    (returned received : List (Request Arguments))
    (request : Request Arguments) :
    Except (Raised Value) (Option Value) → Option (Connection Value) →
      List (Sight Arguments) → Prop where
  | returned
      {value : Option Value}
      {connection : Option (Connection Value)}
      {heard : List (Request Arguments)}
      (standing :
        Standing (returned ++ [request]) (received ++ heard) connection) :
      CallEnds returned received request (.ok value) connection
        (heard.map .received)
  | raised
      {raised : Raised Value}
      {connection : Option (Connection Value)}
      {heard : List (Request Arguments)}
      (carries : Carries (some request) returned (received ++ heard)) :
      CallEnds returned received request (.error raised) connection
        (heard.map .received)
  /-- It returns on a new connection. -/
  | reconnected
      {value : Option Value}
      {connection : Option (Connection Value)}
      {heard again : List (Request Arguments)}
      (carries : Carries (some request) returned (received ++ heard))
      (standing : Standing [.capabilities, request] again connection) :
      CallEnds returned received request (.ok value) connection
        (heard.map .received ++ .accepted :: again.map .received)
  /-- It raises on a new connection. -/
  | retried
      {raised : Raised Value}
      {connection : Option (Connection Value)}
      {heard again : List (Request Arguments)}
      (carries : Carries (some request) returned (received ++ heard))
      (retry : again <+: [.capabilities, request]) :
      CallEnds returned received request (.error raised) connection
        (heard.map .received ++ .accepted :: again.map .received)

theorem Exchanges.call
    {returned received : List (Request Arguments)}
    {request : Request Arguments}
    {s last : Session Value}
    (exchanges : Exchanges returned received request s)
    {outcome : Except (Raised Value) (Option Value)}
    (ran : call request.execute s = some (outcome, last)) :
    CallEnds returned received request outcome last.connection
      (callSeen request s) := by
  rcases catching_seen ran _ with
    ⟨broken, first, retried, seen⟩ | ⟨first, seen⟩
  · rw [callSeen, seen]
    obtain ⟨carries, _⟩ := exchanges _ _ first
    rcases andThen_seen retried _ with
      ⟨_, opened, second, third, behind⟩ | ⟨raised, second, rfl, behind⟩
    · rcases reconnect_seen second with
        ⟨raised, same, _⟩ | ⟨heard, negotiated, _, standing⟩
      · cases same
      · obtain ⟨carriesAgain, standingAgain⟩ :=
          (standing rfl).exchanges request _ _ third
        rw [behind, negotiated, exchangeSeen, exchangeSeen,
          List.cons_append, ← List.map_append]
        cases outcome with
        | ok value =>
            exact .reconnected carries (standingAgain value rfl)
        | error raised =>
            exact .retried carries carriesAgain.begins
    · rw [behind, List.append_nil]
      rcases reconnect_seen second with
        ⟨_, _, unseen⟩ | ⟨heard, negotiated, begins, _⟩
      · rw [unseen, List.append_nil]
        exact .raised carries
      · rw [negotiated]
        exact .retried carries
          (begins.trans (List.prefix_append [.capabilities] [request]))
  · rw [callSeen, seen, List.append_nil]
    obtain ⟨carries, standing⟩ := exchanges _ _ first
    cases outcome with
    | ok value =>
        exact .returned (standing value rfl)
    | error raised =>
        exact .raised carries

/-- A command that is received belongs to the connection under way. -/
theorem connectionsFrom_heard
    (received heard : List (Request Arguments))
    (rest : List (Sight Arguments)) :
    connectionsFrom received (heard.map .received ++ rest) =
      connectionsFrom (received ++ heard) rest := by
  induction heard generalizing received with
  | nil =>
      rw [List.append_nil]
      rfl
  | cons request others inductionHypothesis =>
      rw [List.map_cons, List.cons_append, connectionsFrom,
        inductionHypothesis, List.append_assoc]
      rfl

theorem connectionsFrom_accepted
    (received heard : List (Request Arguments))
    (rest : List (Sight Arguments)) :
    connectionsFrom received (.accepted :: heard.map .received ++ rest) =
      received :: connectionsFrom heard rest := by
  rw [List.cons_append, connectionsFrom, connectionsFrom_heard,
    List.nil_append]

theorem connectionsFrom_reconnected
    (received heard again : List (Request Arguments))
    (rest : List (Sight Arguments)) :
    connectionsFrom received
        (heard.map .received ++ .accepted :: again.map .received ++ rest) =
      (received ++ heard) :: connectionsFrom again rest := by
  rw [List.append_assoc, connectionsFrom_heard, connectionsFrom_accepted]

theorem connectionsFrom_twice
    (received heard again : List (Request Arguments))
    (rest : List (Sight Arguments)) :
    connectionsFrom received
        (.accepted ::
          (heard.map .received ++ .accepted :: again.map .received) ++
            rest) =
      received :: heard :: connectionsFrom again rest := by
  rw [List.cons_append, connectionsFrom, connectionsFrom_reconnected,
    List.nil_append]

theorem Ran.cons
    {requests returned : List (Request Arguments)}
    {outcome : Except (Raised Value) Unit}
    {raising : Option (Request Arguments)}
    (ran : Ran requests outcome returned raising)
    (request : Request Arguments) :
    Ran (request :: requests) outcome (request :: returned) raising := by
  cases ran with
  | returned =>
      exact .returned
  | raised split raised =>
      exact .raised (congrArg (request :: ·) split) raised

/-- The calls that follow on a connection. -/
theorem Standing.drive
    {count : Nat}
    {returned received : List (Request Arguments)}
    {s last : Session Value}
    (standing :
      Standing (List.replicate count .capabilities ++ returned) received
        s.connection)
    {requests : List (Request Arguments)}
    {outcome : Except (Raised Value) Unit}
    (ran : QmpDrive.drive requests s = some (outcome, last)) :
    ∃ raising front later,
      Ran requests outcome (front ++ List.flatten later) raising ∧
        Delivers raising count ((returned ++ front) :: later)
          (connectionsFrom received (driveSeen requests s)) := by
  induction requests generalizing count returned received s with
  | nil =>
      cases ran
      refine ⟨none, [], [], .returned, ?_⟩
      rw [List.append_nil]
      exact .last (standing.carries none)
  | cons request rest inductionHypothesis =>
      rw [driveSeen]
      rcases andThen_seen ran _ with
        ⟨value, middle, called, further, behind⟩ |
          ⟨raised, called, rfl, behind⟩
      · rw [behind]
        have ends := (standing.exchanges request).call called
        generalize callSeen request s = seen at ends
        generalize isConnection : middle.connection = connection at ends
        cases ends with
        | @returned _ _ heard standing =>
            rw [← isConnection, List.append_assoc] at standing
            obtain ⟨raising, front, later, ran, delivers⟩ :=
              inductionHypothesis standing further
            rw [List.append_assoc] at delivers
            refine ⟨raising, request :: front, later, ran.cons request, ?_⟩
            rw [connectionsFrom_heard]
            exact delivers
        | @reconnected _ _ heard again carries standing =>
            rw [← isConnection] at standing
            obtain ⟨raising, front, later, ran, delivers⟩ :=
              @inductionHypothesis 1 [request] again middle standing further
            refine ⟨raising, [], (request :: front) :: later,
              ran.cons request, ?_⟩
            rw [connectionsFrom_reconnected, List.append_nil]
            exact .reconnected carries delivers
      · rw [behind]
        have ends := (standing.exchanges request).call called
        generalize callSeen request s = seen at ends
        refine ⟨some request, [], [],
          @Ran.raised _ _ (request :: rest) [] rest request rfl raised, ?_⟩
        rw [List.append_nil]
        cases ends with
        | raised carries =>
            rw [connectionsFrom_heard]
            exact .last carries
        | retried carries retry =>
            rw [connectionsFrom_reconnected]
            exact .retried rfl carries retry

end Calls

section Runs

/-- What QEMU sees of one attempt of the construction. -/
theorem attempt_seen
    {s last : Session Value}
    {outcome : Except (Raised Value) Unit}
    (ran :
      (andThen (openSocket s) fun _ s =>
        andThen (call capabilities s) fun _ s =>
          some (.ok (), s)) = some (outcome, last)) :
    (outcome ≠ .ok () ∧
        openSeen s ++ (seenBehind (openSocket s) fun _ s =>
          callSeen .capabilities s) = ([] : List (Sight Arguments))) ∨
      ∃ (ended : Except (Raised Value) (Option Value))
        (seen : List (Sight Arguments)),
        CallEnds [] [] .capabilities ended last.connection seen ∧
          (outcome = .ok () ↔ ∃ value, ended = .ok value) ∧
          openSeen s ++ (seenBehind (openSocket s) fun _ s =>
            callSeen .capabilities s) = .accepted :: seen := by
  rcases andThen_eq_some ran with
    ⟨_, ⟨connection, trace⟩, first, second⟩ | ⟨raised, first, rfl⟩
  · rcases openSocket_eq_some first with
      ⟨_, failed, _⟩ | ⟨begins, _, isFresh⟩
    · cases failed
    · obtain rfl := isFresh
      have negotiates :=
        @exchanges_fresh Value Arguments .capabilities trace
      refine .inr ?_
      rw [openSeen, begins, first]
      rcases andThen_eq_some second with
        ⟨value, _, third, rest⟩ | ⟨raised, third, rfl⟩
      · cases rest
        exact ⟨.ok value, _, negotiates.call third, by simp, rfl⟩
      · exact ⟨.error raised, _, negotiates.call third, by simp, rfl⟩
  · rcases openSocket_eq_some first with ⟨begins, _, _⟩ | ⟨_, same, _⟩
    · refine .inl ⟨by simp, ?_⟩
      rw [openSeen, begins, first]
      rfl
    · cases same

/-- The connections of a construction that succeeds. -/
theorem construct_seen
    {attempts : Nat}
    {s ready : Session Value}
    (constructed : construct attempts s = some (.ok (), ready))
    (current : List (Request Arguments))
    (rest : List (Sight Arguments)) :
    ∃ failed count received,
      (∀ attempt ∈ failed, attempt <+: [.capabilities, .capabilities]) ∧
        (count = 1 ∨ count = 2) ∧
        Standing (List.replicate count .capabilities) received
          ready.connection ∧
        connectionsFrom current (constructSeen attempts s ++ rest) =
          current :: (failed ++ connectionsFrom received rest) := by
  have once {heard : List (Request Arguments)}
      (carries : Carries (some .capabilities) [] ([] ++ heard)) :
      heard <+: [.capabilities, .capabilities] := by
    have begins := carries.begins
    rw [List.nil_append, List.nil_append] at begins
    exact begins.trans (List.prefix_append [_] [_])
  induction attempts generalizing s current with
  | zero =>
      cases constructed
  | succ attempts inductionHypothesis =>
      rw [construct] at constructed
      rcases catching_seen constructed
          (fun s => constructSeen attempts (closeSocket s)) with
        ⟨broken, first, again, seen⟩ | ⟨first, seen⟩
      · rw [constructSeen, seen, ← List.append_assoc]
        rcases attempt_seen first with
          ⟨_, unseen⟩ | ⟨ended, sights, ends, fails, accepted⟩
        · rw [unseen]
          exact inductionHypothesis again current
        · rw [accepted]
          cases ends with
          | returned _ | reconnected _ _ =>
              cases fails.mpr ⟨_, rfl⟩
          | @raised _ _ heard carries =>
              obtain ⟨failed, count, received, attempts, negotiated,
                standing, received_eq⟩ := inductionHypothesis again heard
              refine ⟨heard :: failed, count, received,
                List.forall_mem_cons.mpr ⟨once carries, attempts⟩,
                negotiated, standing, ?_⟩
              rw [List.append_assoc, connectionsFrom_accepted, received_eq]
              rfl
          | @retried _ _ heard more carries retry =>
              obtain ⟨failed, count, received, attempts, negotiated,
                standing, received_eq⟩ := inductionHypothesis again more
              refine ⟨heard :: more :: failed, count, received,
                List.forall_mem_cons.mpr ⟨once carries,
                  List.forall_mem_cons.mpr ⟨retry, attempts⟩⟩,
                negotiated, standing, ?_⟩
              rw [List.append_assoc, connectionsFrom_twice, received_eq]
              rfl
      · rw [constructSeen, seen, List.append_nil]
        rcases attempt_seen first with
          ⟨failed, _⟩ | ⟨ended, sights, ends, fails, accepted⟩
        · exact absurd rfl failed
        · rw [accepted]
          cases ends with
          | raised _ | retried _ _ =>
              obtain ⟨_, same⟩ := fails.mp rfl
              cases same
          | @returned _ _ heard standing =>
              refine ⟨[], 1, heard, List.forall_mem_nil _, .inl rfl,
                standing, ?_⟩
              rw [connectionsFrom_accepted]
              rfl
          | @reconnected _ _ heard more carries standing =>
              refine ⟨[heard], 2, more,
                List.forall_mem_singleton.mpr (once carries), .inr rfl,
                standing, ?_⟩
              rw [connectionsFrom_twice]
              rfl

/--
Over every run the commands that QEMU receives are those of the calls, in
order: every connection is negotiated before, and of the calls that return on
it at most the last one is lost, or else the one that fails on it is received.
-/
theorem drive_delivers
    {trace : List (Happening Value)}
    {ready last : Session Value}
    (constructed :
      construct connectAttempts ⟨none, trace⟩ = some (.ok (), ready))
    {requests : List (Request Arguments)}
    {outcome : Except (Raised Value) Unit}
    (driven : drive requests ready = some (outcome, last)) :
    Delivered requests outcome
      (connections
        (constructSeen connectAttempts ⟨none, trace⟩ ++
          driveSeen requests ready)) := by
  obtain ⟨failed, count, received, attempts, negotiated, standing, seen⟩ :=
    construct_seen constructed [] (driveSeen requests ready)
  rw [← List.append_nil (List.replicate _ _)] at standing
  obtain ⟨raising, front, later, ran, delivers⟩ := standing.drive driven
  rw [connections, seen, List.tail_cons]
  rw [← List.flatten_cons, ← List.nil_append front] at ran
  exact .intro rfl attempts negotiated ran delivers

/-- A key, as the argument of `send-key`. -/
def keyRequest (key : String) : Request String :=
  ⟨"send-key", some key⟩

/--
The second key is lost when the connection turns deaf, and the fourth one is
received before the next connection ends.
-/
def unreliable : List (Happening Json) :=
  negotiation ++
    [.received (.success []), .line, .unheard, .line, .sendFailed] ++
    negotiation ++
    [.received (.success []), .line, .received (.success []), .closed] ++
    negotiation ++
    [.received (.success []), .line]

/-- All four calls return; QEMU receives `a`, `c`, `d` and `d`. -/
theorem drive_delivers_unreliable :
    Delivered (["a", "b", "c", "d"].map keyRequest)
      (.ok () : Except (Raised Json) Unit)
      [[.capabilities, keyRequest "a"],
        [.capabilities, keyRequest "c", keyRequest "d"],
        [.capabilities, keyRequest "d"]] :=
  @drive_delivers Json String unreliable _ _ rfl
    (["a", "b", "c", "d"].map keyRequest) (.ok ()) rfl

end Runs

section Resuming

/--
A new connection on which these calls return and QEMU receives so much, and
which then goes on so.
-/
structure Serves
    (returned received : List (Request Arguments))
    (connection : Connection Value)
    (tail trace : List (Happening Value))
    (ready : Session Value) : Prop where
  negotiated :
    ∃ value,
      exchange capabilities ⟨some .fresh, trace⟩ = some (.ok value, ready)
  first :
    ∀ request more,
      returned = request :: more →
      ∃ value s, exchange request.execute ready = some (.ok value, s)
  driven :
    ∀ rest,
      drive (returned ++ rest) ready = drive rest ⟨some connection, tail⟩
  seen :
    ∀ rest,
      connectionsFrom []
          (exchangeSeen .capabilities ⟨some .fresh, trace⟩ ++
            driveSeen (returned ++ rest) ready) =
        connectionsFrom received (driveSeen rest ⟨some connection, tail⟩)

/-- A call that fails is repeated on a new connection, and returns there. -/
theorem drive_resumed
    {request : Request Arguments}
    {s ready middle : Session Value}
    {connection : Option (Connection Value)}
    {trace : List (Happening Value)}
    {value result : Option Value}
    (fails :
      exchange request.execute s =
        some (.error .connection, ⟨connection, .opened :: trace⟩))
    (negotiated :
      exchange capabilities ⟨some .fresh, trace⟩ = some (.ok value, ready))
    (returns :
      exchange request.execute ready = some (.ok result, middle))
    (rest : List (Request Arguments)) :
    drive (request :: rest) s = drive (request :: rest) ready ∧
      driveSeen (request :: rest) s =
        exchangeSeen request s ++ .accepted ::
          (exchangeSeen .capabilities ⟨some .fresh, trace⟩ ++
            driveSeen (request :: rest) ready) := by
  have opens :
      openSocket (closeSocket ⟨connection, .opened :: trace⟩) =
        some (.ok (), ⟨some .fresh, trace⟩) :=
    rfl
  have accepted :
      (openSeen (closeSocket ⟨connection, .opened :: trace⟩) :
        List (Sight Arguments)) = [.accepted] :=
    rfl
  have reconnects :
      reconnect ⟨connection, .opened :: trace⟩ = some (.ok (), ready) := by
    rw [reconnect, opens]
    simp only [andThen, negotiated]
  have called : call request.execute s = some (.ok result, middle) := by
    rw [call, fails]
    simp only [catching, reconnects, andThen, returns]
  have calledAgain :
      call request.execute ready = some (.ok result, middle) := by
    rw [call, returns]
    rfl
  constructor
  · rw [drive, drive, called, calledAgain]
  · rw [driveSeen, driveSeen, called, calledAgain, callSeen, callSeen,
      fails, returns]
    simp only [seenCatching, reconnectSeen, reconnects, opens, accepted,
      seenBehind, List.append_assoc, List.cons_append, List.nil_append]

/-- A run on new connections in which all these calls return. -/
structure Occurs
    (segments received : List (List (Request Arguments)))
    (trace : List (Happening Value))
    (ready : Session Value) : Prop where
  negotiated :
    ∃ value,
      exchange capabilities ⟨some .fresh, trace⟩ = some (.ok value, ready)
  /-- The first call needs no new connection. -/
  first :
    ∀ request more later,
      segments = (request :: more) :: later →
      ∃ value s, exchange request.execute ready = some (.ok value, s)
  driven :
    ∃ last, drive segments.flatten ready = some (.ok (), last)
  seen :
    connectionsFrom []
        (exchangeSeen .capabilities ⟨some .fresh, trace⟩ ++
          driveSeen segments.flatten ready) =
      received

theorem Serves.last
    {returned received : List (Request Arguments)}
    {connection : Connection Value}
    {trace : List (Happening Value)}
    {ready : Session Value}
    (serves : Serves returned received connection [] trace ready) :
    Occurs [returned] [received] trace ready where
  negotiated := serves.negotiated
  first := by
    rintro request more later same
    cases same
    exact serves.first request more rfl
  driven := ⟨_, serves.driven []⟩
  seen := serves.seen []

/-- The call that follows fails, and returns on the next connection. -/
theorem Serves.reconnected
    {returned received more : List (Request Arguments)}
    {request : Request Arguments}
    {later others : List (List (Request Arguments))}
    {connection : Connection Value}
    {broken : Option (Connection Value)}
    {tail trace next : List (Happening Value)}
    {ready nextReady : Session Value}
    (serves : Serves returned received connection tail trace ready)
    (fails :
      exchange request.execute ⟨some connection, tail⟩ =
        some (.error .connection, ⟨broken, .opened :: next⟩))
    (occurs : Occurs ((request :: more) :: later) others next nextReady) :
    Occurs (returned :: (request :: more) :: later)
      ((received ++ exchangeHeard request ⟨some connection, tail⟩) ::
        others)
      trace ready := by
  obtain ⟨value, negotiated⟩ := occurs.negotiated
  obtain ⟨result, middle, returns⟩ := occurs.first request more later rfl
  obtain ⟨last, driven⟩ := occurs.driven
  obtain ⟨same, sights⟩ :=
    drive_resumed fails negotiated returns (more ++ later.flatten)
  exact {
    negotiated := serves.negotiated
    first := by
      rintro earliest others later begins
      cases begins
      exact serves.first earliest others rfl
    driven := by
      refine ⟨last, ?_⟩
      rw [List.flatten_cons, serves.driven]
      exact same.trans driven
    seen := by
      rw [List.flatten_cons, serves.seen, ← occurs.seen]
      rw [show List.flatten ((request :: more) :: later) =
        request :: (more ++ later.flatten) from rfl, sights, exchangeSeen,
        connectionsFrom_heard]
      rfl
  }

/--
The first connection is negotiated at once and all calls return; this is what
QEMU receives.
-/
structure PromptRun
    (requests : List (Request Arguments))
    (received : List (List (Request Arguments)))
    (trace : List (Happening Value))
    (ready last : Session Value) : Prop where
  negotiated :
    ∃ value,
      exchange capabilities ⟨some .fresh, trace⟩ = some (.ok value, ready)
  constructed :
    construct connectAttempts ⟨none, .opened :: trace⟩ =
      some (.ok (), ready)
  driven :
    drive requests ready = some (.ok (), last)
  received_eq :
    connections
        (constructSeen connectAttempts ⟨none, .opened :: trace⟩ ++
          driveSeen requests ready) =
      received

theorem construct_prompt
    {trace : List (Happening Value)}
    {value : Option Value}
    {ready : Session Value}
    (negotiated :
      exchange capabilities ⟨some .fresh, trace⟩ =
        some (.ok value, ready)) :
    construct connectAttempts ⟨none, .opened :: trace⟩ =
        some (.ok (), ready) ∧
      (constructSeen connectAttempts ⟨none, .opened :: trace⟩ :
        List (Sight Arguments)) =
        .accepted :: exchangeSeen .capabilities ⟨some .fresh, trace⟩ := by
  have called :
      call capabilities ⟨some .fresh, trace⟩ = some (.ok value, ready) := by
    rw [call, negotiated]
    rfl
  have opens :
      openSocket ⟨none, .opened :: trace⟩ =
        some (.ok (), (⟨some .fresh, trace⟩ : Session Value)) :=
    rfl
  have sights :
      callSeen (.capabilities : Request Arguments) ⟨some .fresh, trace⟩ =
        exchangeSeen .capabilities ⟨some .fresh, trace⟩ := by
    have exchanged :
        exchange (Request.capabilities : Request Arguments).execute
            ⟨some .fresh, trace⟩ =
          some (.ok value, ready) :=
      negotiated
    rw [callSeen, exchanged]
    exact List.append_nil _
  rw [connectAttempts, construct, constructSeen, opens]
  simp only [andThen, called, catching, seenBehind, seenCatching, sights,
    openSeen, List.append_nil, List.cons_append, List.nil_append, and_self]

end Resuming

section Occurrences

variable [Inhabited Value]

/-- What QEMU answers to every command. -/
def agreed : Reply Value :=
  .success default

/-- A connection that works, with the last reply unread. -/
def attentive : Connection Value :=
  ⟨[agreed.message], .live, some agreed⟩

/-- A connection on which nothing is received any more. -/
def deafened : Connection Value :=
  ⟨[], .deaf, none⟩

/-- One command for each request is received, and one line is read. -/
def answered
    (requests : List (Request Arguments))
    (tail : List (Happening Value)) :
    List (Happening Value) :=
  requests.flatMap (fun _ => [.received agreed, .line]) ++ tail

theorem drive_answered
    (requests rest : List (Request Arguments))
    (tail : List (Happening Value)) :
    drive (requests ++ rest) ⟨some attentive, answered requests tail⟩ =
        drive rest ⟨some attentive, tail⟩ ∧
      driveSeen (requests ++ rest)
          ⟨some attentive, answered requests tail⟩ =
        requests.map .received ++
          driveSeen rest ⟨some attentive, tail⟩ := by
  induction requests with
  | nil =>
      exact ⟨rfl, rfl⟩
  | cons request others inductionHypothesis =>
      obtain ⟨driven, seen⟩ := inductionHypothesis
      exact ⟨driven, congrArg (Sight.received request :: ·) seen⟩

theorem serves_all
    (returned : List (Request Arguments))
    (tail : List (Happening Value)) :
    Serves returned (.capabilities :: returned) attentive tail
      (.received agreed :: .line :: answered returned tail)
      ⟨some attentive, answered returned tail⟩ where
  negotiated := ⟨none, rfl⟩
  first := by
    rintro request more rfl
    exact ⟨_, _, rfl⟩
  driven rest := (drive_answered returned rest tail).1
  seen rest := by
    rw [(drive_answered returned rest tail).2]
    exact connectionsFrom_heard [.capabilities] returned _

/-- The last call returns on a connection that has become deaf. -/
theorem serves_lost
    {returned received : List (Request Arguments)}
    {request : Request Arguments}
    (split : .capabilities :: returned = received ++ [request])
    (tail : List (Happening Value)) :
    ∃ trace ready, Serves returned received deafened tail trace ready := by
  cases received with
  | nil =>
      cases split
      exact ⟨.unheard :: .line :: tail, ⟨some deafened, tail⟩, {
        negotiated := ⟨none, rfl⟩
        first := fun request more same => by cases same
        driven := fun rest => rfl
        seen := fun rest => rfl
      }⟩
  | cons head more =>
      rw [List.cons_append, List.cons.injEq] at split
      obtain ⟨rfl, rfl⟩ := split
      have ends := @drive_answered Value Arguments _ more
      refine ⟨.received agreed :: .line ::
          answered more (.unheard :: .line :: tail),
        ⟨some attentive, answered more (.unheard :: .line :: tail)⟩, {
          negotiated := ⟨none, rfl⟩
          first := ?_
          driven := fun rest => ?_
          seen := fun rest => ?_
        }⟩
      · intro earliest others same
        cases more with
        | nil =>
            cases same
            exact ⟨_, _, rfl⟩
        | cons early between =>
            cases same
            exact ⟨_, _, rfl⟩
      · rw [List.append_assoc]
        exact (ends (request :: rest) _).1
      · rw [List.append_assoc, (ends ([request] ++ rest) _).2]
        exact connectionsFrom_heard [.capabilities] more _

/-- A connection can carry what it may, unless the next call is received. -/
theorem Carries.served
    {next : Option (Request Arguments)}
    {returned received : List (Request Arguments)}
    (carries : Carries next (.capabilities :: returned) received)
    (tail : List (Happening Value)) :
    (∃ connection trace ready,
        Serves returned received connection tail trace ready) ∨
      ∃ request, next = some request ∧
        received = .capabilities :: returned ++ [request] := by
  generalize same : .capabilities :: returned = whole at carries ⊢
  cases carries with
  | all _ =>
      subst same
      exact .inl ⟨_, _, _, serves_all returned tail⟩
  | lost _ _ =>
      exact .inl ⟨_, serves_lost same tail⟩
  | failed _ isNext =>
      exact .inr ⟨_, isNext, rfl⟩

/-- Each way to deliver occurs. -/
theorem Delivers.occurs
    {count : Nat}
    {segments received : List (List (Request Arguments))}
    (delivers : Delivers none count segments received)
    (once : count = 1) :
    ∃ (trace : List (Happening Value)) (ready : Session Value),
      Occurs segments received trace ready := by
  induction delivers with
  | last carries =>
      subst once
      rcases @Carries.served Value Arguments _ _ _ _ carries [] with
        ⟨connection, trace, ready, serves⟩ | ⟨_, isNext, _⟩
      · exact ⟨trace, ready, serves.last⟩
      · cases isNext
  | retried raises _ _ =>
      cases raises
  | @reconnected _ returned _ _ request _ _ carries _ inductionHypothesis =>
      obtain ⟨next, nextReady, occurs⟩ := inductionHypothesis rfl
      subst once
      rcases @Carries.served Value Arguments _ _ _ _ carries
          (.sendFailed :: .opened :: next) with
        ⟨connection, trace, ready, serves⟩ | ⟨_, isNext, rfl⟩
      · -- The command that fails is not received.
        have whole := serves.reconnected rfl occurs
        rw [exchangeHeard, List.append_nil] at whole
        exact ⟨trace, ready, whole⟩
      · -- It is received, and the connection ends before a line is read.
        cases isNext
        have serves :=
          serves_all returned (.received agreed :: .closed :: .opened :: next)
        exact ⟨_, _, serves.reconnected rfl occurs⟩

/--
What QEMU can receive in the runs that negotiate at once and in which all
calls return is exactly what the delivery allows.
-/
theorem promptRun_iff_delivers
    {requests : List (Request Arguments)}
    {received : List (List (Request Arguments))} :
    (∃ (trace : List (Happening Value)) (ready last : Session Value),
        PromptRun requests received trace ready last) ↔
      ∃ segments, List.flatten segments = requests ∧
        Delivers none 1 segments received := by
  constructor
  · rintro ⟨trace, ready, last, run⟩
    obtain ⟨value, negotiated⟩ := run.negotiated
    obtain ⟨_, stands⟩ :=
      exchanges_fresh (.capabilities : Request Arguments) trace _ _ negotiated
    have standing := stands value rfl
    rw [List.nil_append] at standing
    obtain ⟨raising, front, later, ran, delivers⟩ :=
      @Standing.drive Value Arguments 1 [] _ ready last standing _ _ run.driven
    generalize returned_eq : front ++ later.flatten = returned at ran
    cases ran
    refine ⟨front :: later, returned_eq, ?_⟩
    rw [← run.received_eq, (construct_prompt negotiated).2, exchangeSeen,
      connections, List.cons_append, connectionsFrom, List.tail_cons,
      connectionsFrom_heard]
    exact delivers
  · rintro ⟨segments, rfl, delivers⟩
    obtain ⟨trace, ready, occurs⟩ :=
      @Delivers.occurs Value Arguments _ _ _ _ delivers rfl
    obtain ⟨value, negotiated⟩ := occurs.negotiated
    obtain ⟨last, driven⟩ := occurs.driven
    obtain ⟨constructed, seen⟩ := construct_prompt negotiated
    refine ⟨trace, ready, last, ⟨value, negotiated⟩, constructed, driven,
      ?_⟩
    rw [seen, ← occurs.seen]
    rfl

end Occurrences

end UefiMount.QmpDrive
