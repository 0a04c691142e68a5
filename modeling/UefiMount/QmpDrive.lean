namespace UefiMount.QmpDrive

/-!
# The QMP client

The class `Qmp` of `tools/qmp_drive.py` against a QEMU that sends a greeting on
every new connection and then one reply to each command that it receives, in
order, with events anywhere in between.  What the other side does is a list of
happenings, one for each operation of the client on its socket; a client that
would wait for ever, or do something else than what happens, has no result.
-/

/-- What QEMU answers to a command. -/
inductive Reply (Value : Type) where
  | success (value : Value)
  | error (problem : Value)
  deriving DecidableEq

/-- The members of a line that the client looks at. -/
structure Message (Value : Type) where
  event : Bool
  error : Option Value
  result : Option Value
  deriving DecidableEq

namespace Message

/-- `{"QMP": ...}`. -/
def greeting : Message Value :=
  ⟨false, none, none⟩

/-- `{"event": ...}`. -/
def anEvent : Message Value :=
  ⟨true, none, none⟩

end Message

/-- `{"return": ...}` or `{"error": ...}`. -/
def Reply.message : Reply Value → Message Value
  | .success value =>
      ⟨false, none, some value⟩
  | .error problem =>
      ⟨false, some problem, none⟩

/-- What happens at an operation on the socket. -/
inductive Happening (Value : Type) where
  /-- `create_connection` fails. -/
  | refused
  | opened
  /-- `sendall` succeeds, and QEMU receives the command and answers it. -/
  | received (answer : Reply Value)
  /-- `sendall` succeeds, but QEMU never receives the command. -/
  | unheard
  | sendFailed
  /-- `readline` gives the next line that is no event. -/
  | line
  | event
  /-- `readline` gives a part of a line, because the connection has ended. -/
  | cut
  /-- `readline` gives nothing, because the connection has ended. -/
  | closed
  | readFailed
  deriving DecidableEq

section Sockets

/-- What can still pass through a connection. -/
inductive Health where
  | live
  /-- QEMU receives nothing any more; lines under way can still be read. -/
  | deaf
  | dead
  deriving DecidableEq

/-- A connection, as its two ends see it. -/
structure Connection (Value : Type) where
  /-- The lines that QEMU has sent and the client has not read. -/
  queue : List (Message Value)
  health : Health
  /-- What QEMU answered to the last command, unless the connection lost it. -/
  answer : Option (Reply Value)
  deriving DecidableEq

/-- What a read of the client gives. -/
inductive Read (Value : Type) where
  | message (msg : Message Value)
  /-- Text that is no JSON. -/
  | part
  /-- An empty line: the end of the stream. -/
  | nothing
  | failed

namespace Connection

/-- A new connection; the greeting is the first line. -/
def fresh : Connection Value :=
  ⟨[.greeting], .live, none⟩

/-- A connection that has ended; what has not been read is lost. -/
def lost : Connection Value :=
  ⟨[], .dead, none⟩

/-- `sendall`, and whether it succeeds. -/
def sendall
    (c : Connection Value) :
    Happening Value → Option (Bool × Connection Value)
  | .received answer =>
      if c.health = .live then
        some (true, ⟨c.queue ++ [answer.message], .live, some answer⟩)
      else
        none
  | .unheard =>
      if c.health = .dead then
        some (true, c)
      else
        some (true, ⟨c.queue, .deaf, none⟩)
  | .sendFailed =>
      some (false, lost)
  | _ =>
      none

/-- `readline`. -/
def readline
    (c : Connection Value) :
    Happening Value → Option (Read Value × Connection Value)
  | .line =>
      match c.queue with
      | msg :: queue =>
          some (.message msg, { c with queue := queue })
      | [] =>
          none
  | .event =>
      if c.health = .dead then none else some (.message .anEvent, c)
  | .cut =>
      if c.health = .dead then none else some (.part, lost)
  | .closed =>
      some (.nothing, lost)
  | .readFailed =>
      some (.failed, lost)
  | _ =>
      none

end Connection

end Sockets

section Client

/-- The exceptions of the client. -/
inductive Raised (Value : Type) where
  /-- `ConnectionError` and `OSError`. -/
  | connection
  /-- `RuntimeError(f"QMP {cmd} error: {msg['error']}")`. -/
  | runtime (cmd : String) (problem : Value)
  /-- The `ValueError` of `json.loads`. -/
  | value
  /-- The `AttributeError` of a client without a socket. -/
  | attribute
  deriving DecidableEq

/-- The client's socket, and what will happen at its next operations. -/
structure Session (Value : Type) where
  connection : Option (Connection Value)
  trace : List (Happening Value)
  deriving DecidableEq

/-- How a method ends, and what it leaves. -/
abbrev Ended (Value α : Type) : Type :=
  Option (Except (Raised Value) α × Session Value)

/-- Two statements in sequence. -/
def andThen
    (first : Ended Value α)
    (next : α → Session Value → Ended Value β) :
    Ended Value β :=
  match first with
  | some (.ok value, s) =>
      next value s
  | some (.error raised, s) =>
      some (.error raised, s)
  | none =>
      none

/-- `except (ConnectionError, OSError)`. -/
def catching
    (body : Ended Value α)
    (handler : Session Value → Ended Value α) :
    Ended Value α :=
  match body with
  | some (.error .connection, s) =>
      handler s
  | other =>
      other

/-- `_open`. -/
def openSocket (s : Session Value) : Ended Value Unit :=
  match s.trace with
  | .refused :: rest =>
      some (.error .connection, { s with trace := rest })
  | .opened :: rest =>
      some (.ok (), ⟨some .fresh, rest⟩)
  | _ =>
      none

/-- `_close`. -/
def closeSocket (s : Session Value) : Session Value :=
  { s with connection := none }

/-- The loop of `call` that reads lines up to the reply. -/
def readReply
    (cmd : String)
    (c : Connection Value) :
    List (Happening Value) → Ended Value (Option Value)
  | [] =>
      none
  | happening :: rest =>
      match c.readline happening with
      | some (.message msg, c) =>
          if msg.event then
            readReply cmd c rest
          else
            match msg.error with
            | some problem =>
                some (.error (.runtime cmd problem), ⟨some c, rest⟩)
            | none =>
                some (.ok msg.result, ⟨some c, rest⟩)
      | some (.part, c) =>
          some (.error .value, ⟨some c, rest⟩)
      | some (.nothing, c) =>
          some (.error .connection, ⟨some c, rest⟩)
      | some (.failed, c) =>
          some (.error .connection, ⟨some c, rest⟩)
      | none =>
          none

/-- The body of the `try` of `call`; also `call` without `_retry`. -/
def exchange
    (cmd : String)
    (s : Session Value) :
    Ended Value (Option Value) :=
  match s.connection, s.trace with
  | none, _ =>
      some (.error .attribute, s)
  | some _, [] =>
      none
  | some c, happening :: rest =>
      match c.sendall happening with
      | some (true, c) =>
          readReply cmd c rest
      | some (false, c) =>
          some (.error .connection, ⟨some c, rest⟩)
      | none =>
          none

/-- The command that ends the negotiation. -/
def capabilities : String := "qmp_capabilities"

/-- `_reconnect`. -/
def reconnect (s : Session Value) : Ended Value Unit :=
  andThen (openSocket (closeSocket s)) fun _ s =>
    andThen (exchange capabilities s) fun _ s =>
      some (.ok (), s)

/-- `call`. -/
def call
    (cmd : String)
    (s : Session Value) :
    Ended Value (Option Value) :=
  catching (exchange cmd s) fun s =>
    andThen (reconnect s) fun _ s =>
      exchange cmd s

/-- `__init__`, with the attempts that are left. -/
def construct : Nat → Session Value → Ended Value Unit
  | 0, s =>
      some (.error .connection, s)
  | attempts + 1, s =>
      catching
        (andThen (openSocket s) fun _ s =>
          andThen (call capabilities s) fun _ s =>
            some (.ok (), s))
        fun s => construct attempts (closeSocket s)

/-- The default of `connect_attempts`. -/
def connectAttempts : Nat := 30

end Client

section Histories

/-- A call: how it ended, and what QEMU answered to its command. -/
structure Record (Value : Type) where
  outcome : Except (Raised Value) (Option Value)
  answer : Option (Reply Value)

/-- The answer to the command that was sent last. -/
def Session.answer (s : Session Value) : Option (Reply Value) :=
  s.connection.bind Connection.answer

/-- Calls one after the other, whatever becomes of each. -/
def calls :
    List String → Session Value →
      Option (List (Record Value) × Session Value)
  | [], s =>
      some ([], s)
  | cmd :: rest, s =>
      match call cmd s with
      | none =>
          none
      | some (outcome, s) =>
          (calls rest s).map fun (records, last) =>
            (⟨outcome, s.answer⟩ :: records, last)

/-- What is returned or raised is what QEMU answered. -/
structure Record.Matches (record : Record Value) : Prop where
  returned :
    ∀ value, record.outcome = .ok value →
      ∃ result, value = some result ∧
        record.answer = some (.success result)
  raised :
    (∃ cmd problem, record.outcome = .error (.runtime cmd problem)) ↔
      ∃ problem, record.answer = some (.error problem)

end Histories

end UefiMount.QmpDrive
