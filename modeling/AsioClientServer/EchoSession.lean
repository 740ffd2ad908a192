import AsioClientServer.Conn.DelimitedRead
import AsioClientServer.EchoDelivery

/-!
# From the keyboard to the screen

The whole client program (`main.cpp`), from its start: the command loop reads its lines from the
standard input (`AsyncCommandLoop.cpp`), while the connection is still being established or already
used, and the first exception ends all of it. The server accepts the connection at any time.

* `Session.whole`: an end that has not begun is as good as one that has begun and done nothing, so
  every session is a run of `EchoSystem` with the commands of its lines (`Session.step_whole`,
  `Session.history_of_run`).
* `keyboard_to_screen`: what the screen shows, in terms of the bytes of the standard input, and why
  a session ends.
* `keyboard_to_screen_complete`: when each command comes after the echo of the one before, the
  screen is a function of the standard input.
-/

namespace Acs

/-- `AsyncCommandLoop::run`, on the standard input. Its callback is called with each line. -/
def AsyncCommandLoop.run (stdin : Bytes) : DelimitedRead :=
  let loop := DelimitedRead.start maxReadBufferSizeBytes stdin [] none
  { loop with reader := loop.reader.readAsyncUntilDelimInfOccupy () }

/-- The client program and the connection it is to have. Its state has two more bits than the
system's: each end may not have begun yet. -/
structure Session where
  system : EchoSystem
  /-- The reader of the command loop; its outcomes are the lines and the exception at the end. -/
  input : DelimitedRead
  /-- The handler of `async_connect` has run without an error. -/
  connected : Bool := false
  /-- The server has started the connection. -/
  accepted : Bool := false

/-- What can happen next in a session. -/
inductive Session.Event where
  /-- Something happens on the standard input. -/
  | stdin (event : StreamEvent)
  | connected (error : Option Asio.ErrorCode)
  | accepted
  /-- An event of the connection or of one of its ends, but for the commands. -/
  | echo (event : EchoSystem.Event)
  deriving DecidableEq, Repr

namespace Session

/-- The program has just been started: the command loop waits for its first line and the connection
is being established. -/
def start (stdin : Bytes) : Session :=
  { system := { client := {}, server := { id := 0, handler := .echoClientHandler } }
    input := AsyncCommandLoop.run stdin }

/-- What the reader of the command loop has come to with its last event. An event of the standard
input brings one outcome at most: a line, the exception at the end, or nothing when more has to be
read. -/
def outcome (s : Session) (input : DelimitedRead) : Option (Except Failure Bytes) :=
  input.outcomes[s.input.outcomes.length]?

/-- The callback of the command loop dispatches the line. A line that is no command leaves the
connection alone; the exception leaves `context.run()` and with it `main`. -/
def afterInput (s : Session) (input : DelimitedRead) : Session :=
  match s.outcome input with
  | some (.ok line) =>
    { s with input, system := (dispatchCommand line).elim s.system s.system.enter }
  | some (.error f) => { s with input, system := { s.system with stopped := some f } }
  | none => { s with input }

/-- One event, as long as no handler has thrown: the first exception ends `main`. Each end begins
once. Its reader has nothing outstanding before that, so nothing is read too early; the commands of
the user do not wait for it. -/
def step (s : Session) (event : Event) : Option Session :=
  if s.system.stopped = none then
    match event with
    | .stdin event => (s.input.step (.stream event)).map s.afterInput
    | .connected error =>
      if s.connected then none
      else
        let connected := s.system.client.handleConnect error
        some { s with
          system := { s.system with client := connected.2, stopped := connected.1 }
          connected := error.isNone }
    | .accepted =>
      if s.accepted then none
      else
        let started := s.system.server.start
        some { s with
          system := { s.system with server := started.2, stopped := started.1 }
          accepted := true }
    | .echo (.command _) => none
    | .echo event => (s.system.handle event).map fun system => { s with system }
  else none

/-- The lines that have been dispatched, without their line breaks. -/
def lines (s : Session) : List Bytes :=
  s.input.outcomes.filterMap Except.toOption

/-- The echo commands among them. They are numbered in the order of the lines, whether the writer
takes their requests or not. -/
def commands (s : Session) : List Bytes :=
  s.lines.filterMap dispatchCommand

end Session

namespace AsyncCommandLoop

/-- The lines of the standard input, up to the end of it or to a line that does not fit the
buffer. What stands behind the last line break is not one of them: the read that looks for the next
one ends with an error. -/
def lines (stdin : Bytes) : List Bytes :=
  (serveLoop maxReadBufferSizeBytes {} stdin).filterMap Except.toOption

end AsyncCommandLoop

namespace Session

/-! ## A session as a run of the system -/

/-- The system with both ends begun. A session that has not got that far is compared with this state
of the system, in which the missing beginnings have been made up for. -/
def whole (s : Session) : EchoSystem :=
  { s.system with
    client := { s.system.client with
      reader :=
        if s.connected then s.system.client.reader else EchoSystem.start.client.reader }
    server := if s.accepted then s.system.server else EchoSystem.start.server }

/-- The event of the system a session event stands for. Beginning an end has no counterpart, as the
whole has begun both, and neither has reading more of a line or coming to the end of the input. -/
def matched (s : Session) : Event → Option EchoSystem.Event
  | .stdin event =>
    ((s.input.step (.stream event)).bind s.outcome).bind fun
      | .ok line => some (.command line)
      | .error _ => none
  | .echo event => some event
  | .connected _ | .accepted => none

/-- An end that has not begun is as it was created. The client is an exception: its user may have
entered commands, and the writer has taken the first. Hence only the reader is fixed. -/
structure Unbegun (s : Session) : Prop where
  client : s.connected = false → s.system.client.reader = { maxBufferSize := maxReadBufferSizeBytes }
  server : s.accepted = false → s.system.server = { id := 0, handler := .echoClientHandler }

variable {s s' : Session}

theorem unbegun_start (stdin : Bytes) : Unbegun (start stdin) :=
  ⟨fun _ => rfl, fun _ => rfl⟩

end Session

/-- Sending does not look at the reader. -/
theorem EchoCommandHandler.handleCommand_with_reader (text : Bytes) (client : AsyncTcpClient)
    (reader : AsyncReader Unit Unit) (echoCommandId : UInt64) :
    let handled := EchoCommandHandler.handleCommand text client echoCommandId
    handled.2.1.reader = client.reader ∧
      EchoCommandHandler.handleCommand text { client with reader } echoCommandId
        = (handled.1, { handled.2.1 with reader }, handled.2.2) := by
  simp only [EchoCommandHandler.handleCommand, AsyncTcpClient.send]
  generalize client.protocol.serialize _ = serialized
  obtain ⟨f | wireMessage, protocol⟩ := serialized
  · exact ⟨rfl, rfl⟩
  · exact ⟨rfl, rfl⟩

namespace EchoSystem

/-- A command is entered whatever the readers and the connection are doing. -/
theorem enter_with_ends (t : EchoSystem) (text : Bytes) (reader : AsyncReader Unit Unit)
    (server : TcpConnection) :
    (t.enter text).client.reader = t.client.reader ∧
      { t with client := { t.client with reader }, server }.enter text
        = { t.enter text with client := { (t.enter text).client with reader }, server } := by
  obtain ⟨hreader, heq⟩ := EchoCommandHandler.handleCommand_with_reader text t.client reader
    t.echoCommandId
  constructor
  · simp only [enter, hreader]
  · simp only [enter, heq]

/-- A client that does not read only writes. So whatever a client does before it is connected, it
would have done in the same way while it was waiting for the greeting. -/
theorem handle_with_reader {event : Event} (hevent : event.atServer = false)
    (hcommand : ∀ line, event ≠ .command line) {t t' : EchoSystem} (h : t.handle event = some t')
    (hreader : t.client.reader.outstanding = []) (reader : AsyncReader Unit Unit) :
    t'.client.reader = t.client.reader ∧
      { t with client := { t.client with reader } }.handle event
        = some { t' with client := { t'.client with reader } } := by
  cases event with
  | command line => exact absurd rfl (hcommand line)
  | clientTransfer i n =>
    obtain ⟨u, hu, rfl⟩ := Option.map_eq_some_iff.mp h
    exact ⟨rfl, Option.map_eq_some_iff.mpr ⟨u, hu, rfl⟩⟩
  | clientWritten i =>
    obtain ⟨u, hu, rfl⟩ := Option.map_eq_some_iff.mp h
    exact ⟨rfl, Option.map_eq_some_iff.mpr ⟨u, hu, rfl⟩⟩
  | clientReceive n =>
    obtain ⟨-, h⟩ := Option.ite_none_right_eq_some.mp h
    simp [AsyncTcpClient.onRead, AsyncReader.onEvent_of_outstanding_nil hreader] at h
  | clientComplete =>
    simp [handle, AsyncTcpClient.onRead, AsyncReader.onEvent_of_outstanding_nil hreader] at h
  | serverReceive | serverComplete | serverTransfer | serverWritten => cases hevent

/-- Nothing happens to a connection that has not been started. Its reader and its list of writes are
empty, and bytes that arrive wait in the socket. -/
theorem handle_of_unstarted {event : Event} (hevent : event.atServer = true) {t : EchoSystem}
    (hserver : t.server = { id := 0, handler := .echoClientHandler }) : t.handle event = none := by
  have hread : ∀ e, t.server.onRead e = none := by
    intro e
    rw [hserver, TcpConnection.onRead, AsyncReader.onEvent_of_outstanding_nil rfl]
    rfl
  cases event with
  | command | clientTransfer | clientWritten | clientReceive | clientComplete => cases hevent
  | serverReceive n => simp [handle, hread]
  | serverComplete => simp [handle, hread]
  | serverTransfer i n =>
    rw [handle, hserver]
    rfl
  | serverWritten i =>
    rw [handle, hserver]
    rfl

end EchoSystem

namespace Session

variable {s s' : Session}

/-- The reader of a client that has begun to receive does not depend on what it has sent. -/
theorem handleConnect_eq {client : AsyncTcpClient}
    (hreader : client.reader = { maxBufferSize := maxReadBufferSizeBytes }) :
    client.handleConnect none
      = (none, { client with reader := EchoSystem.start.client.reader }) := by
  have hstart := AsyncReader.readAsyncProtoInfOccupy_eq
    (r := ({ maxBufferSize := maxReadBufferSizeBytes } : AsyncReader Unit Unit)) rfl (by decide) () ()
  simp only [EchoSystem.start, AsyncTcpClient.handleConnect, AsyncTcpClient.receiveInfinitely,
    hreader, hstart]

/-- An event that begins neither end and leaves alone what has not begun keeps the property. -/
theorem Unbegun.of_frame (hbegun : Unbegun s) (hconnected : s'.connected = s.connected)
    (haccepted : s'.accepted = s.accepted)
    (hreader : s'.connected = false → s'.system.client.reader = s.system.client.reader)
    (hserver : s'.accepted = false → s'.system.server = s.system.server) : Unbegun s' :=
  ⟨fun h => (hreader h).trans (hbegun.client (hconnected ▸ h)),
    fun h => (hserver h).trans (hbegun.server (haccepted ▸ h))⟩

/-- A line of the standard input is a command of the whole. The whole has another reader, perhaps,
and another connection, neither of which a command looks at. -/
theorem whole_enter (s : Session) (input : DelimitedRead) (text : Bytes) :
    s.whole.enter text = { s with input, system := s.system.enter text }.whole := by
  obtain ⟨hreader, heq⟩ := s.system.enter_with_ends text s.whole.client.reader s.whole.server
  have hserver := s.system.enter_server text
  refine heq.trans ?_
  simp only [whole, hreader, hserver]

/-! ### Steps, taken apart -/

/-- The connection is established, or the session ends. In the first case the client begins to
receive, and its reader becomes that of the whole. -/
theorem connected_cases (hbegun : Unbegun s) {error : Option Asio.ErrorCode}
    (hstep : s.step (.connected error) = some s') :
    s.connected = false ∧
      ((error = none ∧ s' = { s with
          system := { s.system with
            client := { s.system.client with reader := EchoSystem.start.client.reader }
            stopped := none }
          connected := true }) ∨
        ∃ e, error = some e ∧
          s' = { s with system := { s.system with stopped := some (.systemError e) }
                        connected := false }) := by
  obtain ⟨hconnected, hstep⟩ :=
    Option.ite_none_left_eq_some.mp (Option.ite_none_right_eq_some.mp hstep).2
  have hunconnected := Bool.eq_false_of_not_eq_true hconnected
  refine ⟨hunconnected, ?_⟩
  cases error with
  | none =>
    rw [handleConnect_eq (hbegun.client hunconnected)] at hstep
    exact Or.inl ⟨rfl, (Option.some.inj hstep).symm⟩
  | some e => exact Or.inr ⟨e, rfl, (Option.some.inj hstep).symm⟩

/-- The server begins, once, and does not throw. -/
theorem accepted_cases (hbegun : Unbegun s) (hstep : s.step .accepted = some s') :
    s.accepted = false ∧ s' = { s with
      system := { s.system with server := EchoSystem.start.server, stopped := none }
      accepted := true } := by
  obtain ⟨haccepted, hstep⟩ :=
    Option.ite_none_left_eq_some.mp (Option.ite_none_right_eq_some.mp hstep).2
  have hunaccepted := Bool.eq_false_of_not_eq_true haccepted
  obtain ⟨server, hstart, -⟩ := TcpConnection.start_eq
    (c := { id := 0, handler := .echoClientHandler }) rfl rfl
  have hserver : EchoSystem.start.server = server := by
    simp only [EchoSystem.start, hstart]
  rw [hbegun.server hunaccepted, hstart] at hstep
  rw [hserver]
  exact ⟨hunaccepted, (Option.some.inj hstep).symm⟩

theorem echo_cases {event : EchoSystem.Event} (hstep : s.step (.echo event) = some s') :
    (∀ line, event ≠ .command line) ∧
      ∃ system, s.system.handle event = some system ∧ s' = { s with system } := by
  obtain ⟨-, hstep⟩ := Option.ite_none_right_eq_some.mp hstep
  cases event with
  | command line => cases hstep
  | _ =>
    obtain ⟨system, hsystem, rfl⟩ := Option.map_eq_some_iff.mp hstep
    exact ⟨nofun, system, hsystem, rfl⟩

theorem outcomes_step {event : StreamEvent} {input : DelimitedRead}
    (hinput : s.input.step (.stream event) = some input) :
    input.outcomes = s.input.outcomes ++ (s.outcome input).toList := by
  obtain ⟨-, -, outcome, houtcomes⟩ := DelimitedRead.step_stream_cases hinput
  have houtcome : s.outcome input = outcome := by
    rw [Session.outcome, houtcomes]
    cases outcome <;> simp
  rw [houtcome, houtcomes]

/-- **An event of the standard input**, taken apart: more of it is read, the command loop ends, or a
line is dispatched. Each case says what the event is matched by and what the command loop has come
to. -/
theorem stdin_cases {event : StreamEvent} {input : DelimitedRead}
    (hinput : s.input.step (.stream event) = some input) :
    (s.matched (.stdin event) = none ∧ input.outcomes = s.input.outcomes ∧
      s.afterInput input = { s with input }) ∨
    (∃ f, s.matched (.stdin event) = none ∧ input.outcomes = s.input.outcomes ++ [.error f] ∧
      s.afterInput input = { s with input, system := { s.system with stopped := some f } }) ∨
    ∃ line, s.matched (.stdin event) = some (.command line) ∧
      input.outcomes = s.input.outcomes ++ [.ok line] ∧
      s.afterInput input
        = { s with input, system := (dispatchCommand line).elim s.system s.system.enter } := by
  have houtcomes := outcomes_step hinput
  simp only [matched, hinput, Option.bind_some, afterInput]
  cases houtcome : s.outcome input with
  | none =>
    rw [houtcome, Option.toList_none, List.append_nil] at houtcomes
    exact Or.inl ⟨rfl, houtcomes, rfl⟩
  | some outcome =>
    rw [houtcome, Option.toList_some] at houtcomes
    cases outcome with
    | error f => exact Or.inr (Or.inl ⟨f, rfl, houtcomes, rfl⟩)
    | ok line => exact Or.inr (Or.inr ⟨line, rfl, houtcomes, rfl⟩)

/-- What an event of the standard input does to the whole. A line with a command is a command of the
whole; nothing else on the standard input is seen there. -/
theorem step_whole_stdin (hbegun : Unbegun s) {event : StreamEvent} {input : DelimitedRead}
    (hinput : s.input.step (.stream event) = some input) :
    Unbegun (s.afterInput input) ∧
      match s.matched (.stdin event) with
      | some e => s.whole.handle e = some (s.afterInput input).whole
      | none => (s.afterInput input).whole
          = { s.whole with stopped := (s.afterInput input).system.stopped } := by
  rcases stdin_cases hinput with
    ⟨hmatched, -, hafter⟩ | ⟨f, hmatched, -, hafter⟩ | ⟨line, hmatched, -, hafter⟩
  · rw [hmatched, hafter]
    exact ⟨hbegun.of_frame rfl rfl (fun _ => rfl) (fun _ => rfl), rfl⟩
  · rw [hmatched, hafter]
    exact ⟨hbegun.of_frame rfl rfl (fun _ => rfl) (fun _ => rfl), rfl⟩
  · rw [hmatched, hafter]
    simp only [EchoSystem.handle]
    cases dispatchCommand line with
    | none => exact ⟨hbegun.of_frame rfl rfl (fun _ => rfl) (fun _ => rfl), rfl⟩
    | some text =>
      refine ⟨hbegun.of_frame rfl rfl (fun _ => ?_) (fun _ => s.system.enter_server text), ?_⟩
      · exact (s.system.enter_with_ends text s.whole.client.reader s.whole.server).1
      · exact congrArg some (s.whole_enter input text)

/-- What an event of the connection does to the whole. An event of the server needs the connection
to be started, so there the whole is the session's own. An event of the client may come before the
connection is established, and is then a write. -/
theorem step_whole_echo (hbegun : Unbegun s) {event : EchoSystem.Event} {system : EchoSystem}
    (hcommand : ∀ line, event ≠ .command line) (hsystem : s.system.handle event = some system) :
    Unbegun { s with system } ∧
      s.whole.handle event = some { s with system }.whole := by
  cases hevent : event.atServer with
  -- only a connection that has been started has something to do
  | true =>
    obtain ⟨hclient, heq⟩ := EchoSystem.handle_with_client hevent hsystem s.whole.client
    have haccepted : s.accepted = true := by
      by_contra h
      rw [EchoSystem.handle_of_unstarted hevent (hbegun.server (Bool.eq_false_of_not_eq_true h))]
        at hsystem
      cases hsystem
    constructor
    · exact hbegun.of_frame rfl rfl (fun _ => congrArg _ hclient)
        (fun h => absurd haccepted (Bool.not_eq_true _ ▸ h))
    · simp only [whole, haccepted, if_true, hclient] at heq ⊢
      exact heq
  | false =>
    obtain ⟨hserver, heq⟩ := EchoSystem.handle_with_server hevent hsystem s.whole.server
    -- the reader of a client that has not connected is idle, so all it can do is to write
    by_cases hconnected : s.connected = true
    · constructor
      · exact hbegun.of_frame rfl rfl (fun h => absurd hconnected (Bool.not_eq_true _ ▸ h))
          (fun _ => hserver)
      · simp only [whole, hconnected, if_true, hserver] at heq ⊢
        exact heq
    · have hreader := hbegun.client (Bool.eq_false_of_not_eq_true hconnected)
      obtain ⟨hkept, heq'⟩ := EchoSystem.handle_with_reader hevent hcommand hsystem
        (by rw [hreader]) EchoSystem.start.client.reader
      obtain ⟨-, heq⟩ := EchoSystem.handle_with_server hevent heq' s.whole.server
      refine ⟨hbegun.of_frame rfl rfl (fun _ => hkept) (fun _ => hserver), ?_⟩
      simp only [whole, hconnected, Bool.false_eq_true, if_false, hserver] at heq ⊢
      exact heq

/-- **Every event of a session is one of the whole**, or it changes nothing of it but whether the
session goes on. This is the simulation that makes every theorem about runs of `EchoSystem` one
about sessions. -/
theorem step_whole (hbegun : Unbegun s) {event : Event} (hstep : s.step event = some s') :
    Unbegun s' ∧
      match s.matched event with
      | some e => s.whole.step e = some s'.whole
      | none => s'.whole = { s.whole with stopped := s'.system.stopped } := by
  obtain ⟨hrunning, hevent⟩ := Option.ite_none_right_eq_some.mp hstep
  have hwhole : ∀ e, s.whole.step e = s.whole.handle e := fun e => if_pos hrunning
  cases event with
  | stdin event =>
    obtain ⟨input, hinput, rfl⟩ := Option.map_eq_some_iff.mp hevent
    simp only [hwhole]
    exact step_whole_stdin hbegun hinput
  -- the whole had begun to receive before, so that only an error makes a difference
  | connected error =>
    obtain ⟨hconnected, ⟨-, rfl⟩ | ⟨e, -, rfl⟩⟩ := connected_cases hbegun hstep
    · refine ⟨⟨nofun, hbegun.server⟩, ?_⟩
      simp only [matched, whole, hconnected, if_true, Bool.false_eq_true, if_false]
    · refine ⟨⟨fun _ => hbegun.client hconnected, hbegun.server⟩, ?_⟩
      simp only [matched, whole, hconnected, Bool.false_eq_true, if_false]
  | accepted =>
    obtain ⟨haccepted, rfl⟩ := accepted_cases hbegun hstep
    refine ⟨⟨hbegun.client, nofun⟩, ?_⟩
    simp only [matched, whole, haccepted, if_true, Bool.false_eq_true, if_false]
  | echo event =>
    obtain ⟨hcommand, system, hsystem, rfl⟩ := echo_cases hstep
    simp only [matched, hwhole]
    exact step_whole_echo hbegun hcommand hsystem

/-! ## The history of a session -/

theorem commands_of_line {line : Bytes}
    (houtcomes : s'.input.outcomes = s.input.outcomes ++ [.ok line]) :
    s'.commands = s.commands ++ (dispatchCommand line).toList := by
  rw [commands, lines, houtcomes, EchoSystem.filterMap_concat, Except.toOption, Option.toList_some,
    EchoSystem.filterMap_concat, commands, lines]

theorem commands_congr (houtcomes : s'.input.outcomes = s.input.outcomes) :
    s'.commands = s.commands ++ [] := by
  rw [commands, lines, houtcomes, commands, lines, List.append_nil]

/-- What an event of the standard input does to the input and to the commands that have been
dispatched. -/
theorem input_of_stdin {event : StreamEvent} {input : DelimitedRead}
    (hinput : s.input.step (.stream event) = some input) (hrunning : s.system.stopped = none) :
    (s.afterInput input).input = input ∧
    (s.afterInput input).commands
      = s.commands ++ ((s.matched (.stdin event)).bind EchoSystem.Event.text).toList ∧
    ((s.afterInput input).system.stopped = none →
      ∀ f, .error f ∈ input.outcomes → .error f ∈ s.input.outcomes) ∧
    (s.matched (.stdin event) = none → ∀ f, (s.afterInput input).system.stopped = some f →
      .error f ∈ input.outcomes) := by
  rcases stdin_cases hinput with ⟨hmatched, houtcomes, hafter⟩ | ⟨f, hmatched, houtcomes, hafter⟩ |
    ⟨line, hmatched, houtcomes, hafter⟩
  · rw [hmatched, hafter, houtcomes]
    refine ⟨rfl, commands_congr houtcomes, fun _ _ hmem => hmem, fun _ f hstopped => ?_⟩
    rw [hrunning] at hstopped
    cases hstopped
  · rw [hmatched, hafter]
    refine ⟨rfl, ?_, nofun, fun _ g hstopped => ?_⟩
    · simp [commands, lines, houtcomes, Except.toOption]
    · obtain rfl := Option.some.inj hstopped
      rw [houtcomes]
      exact List.mem_append_right _ (List.mem_singleton_self _)
  · rw [hmatched, hafter, Option.bind_some, EchoSystem.Event.text_command]
    refine ⟨rfl, commands_of_line houtcomes, fun _ f hmem => ?_, nofun⟩
    rw [houtcomes] at hmem
    simpa using hmem

/-- What an event does to the standard input and to the commands that have been dispatched. An event
without a counterpart ends the session only for one of two reasons. An event without a counterpart
ends the session only for one of two reasons, and both are visible in the session itself. -/
theorem step_input (hbegun : Unbegun s) {event : Event} (hstep : s.step event = some s') :
    (s'.input = s.input ∨ ∃ e, s.input.step (.stream e) = some s'.input) ∧
    s'.commands = s.commands ++ ((s.matched event).bind EchoSystem.Event.text).toList ∧
    (s'.system.stopped = none →
      ∀ f, .error f ∈ s'.input.outcomes → .error f ∈ s.input.outcomes) ∧
    (s.matched event = none → ∀ f, s'.system.stopped = some f →
      .error f ∈ s'.input.outcomes ∨ ∃ e, event = .connected (some e) ∧ f = .systemError e) := by
  obtain ⟨hrunning, hevent⟩ := Option.ite_none_right_eq_some.mp hstep
  cases event with
  | stdin event =>
    obtain ⟨input, hinput, rfl⟩ := Option.map_eq_some_iff.mp hevent
    obtain ⟨heq, hcommands, herrors, hreason⟩ := input_of_stdin hinput hrunning
    rw [heq]
    exact ⟨Or.inr ⟨event, hinput⟩, hcommands, herrors,
      fun hnone f hstopped => Or.inl (hreason hnone f hstopped)⟩
  -- the error of `async_connect` is the one end of a session that is not an event of the system
  | connected error =>
    obtain ⟨-, ⟨-, rfl⟩ | ⟨e, rfl, rfl⟩⟩ := connected_cases hbegun hstep
    · exact ⟨Or.inl rfl, commands_congr rfl, fun _ _ hmem => hmem, nofun⟩
    · refine ⟨Or.inl rfl, commands_congr rfl, nofun, fun _ f hstopped => ?_⟩
      exact Or.inr ⟨e, rfl, (Option.some.inj hstopped).symm⟩
  | accepted =>
    obtain ⟨-, rfl⟩ := accepted_cases hbegun hstep
    exact ⟨Or.inl rfl, commands_congr rfl, fun _ _ hmem => hmem, nofun⟩
  | echo event =>
    obtain ⟨hcommand, system, -, rfl⟩ := echo_cases hstep
    have htext := EchoSystem.Event.text_eq_none hcommand
    refine ⟨Or.inl rfl, ?_, fun _ _ hmem => hmem, nofun⟩
    rw [matched, Option.bind_some, htext, Option.toList_none]
    exact commands_congr rfl

/-- What a session has come to: its whole is a run of the system with the same commands, and it
goes on until that run is stopped, the command loop comes to its end or the connection is not
established. -/
structure History (ok : EchoSystem → EchoSystem.Event → Prop) (stdin : Bytes) (es : List Event)
    (s : Session) (es' : List EchoSystem.Event) (t : EchoSystem) : Prop where
  begun : Unbegun s
  input : DelimitedRead.Inv maxReadBufferSizeBytes (serveLoop maxReadBufferSizeBytes {} stdin)
    s.input
  requests_eq : s.input.requests = [] ∧ s.input.loop = none
  run : Runs.run EchoSystem.step EchoSystem.start es' = some t
  meets : Runs.StepsMeet EchoSystem.step ok EchoSystem.start es'
  typed : EchoSystem.typed es' = s.commands
  whole : s.whole = { t with stopped := s.system.stopped }
  running : s.system.stopped = none → t.stopped = none ∧ ∀ f, .error f ∉ s.input.outcomes
  ended : ∀ f, s.system.stopped = some f → t.stopped = some f ∨ .error f ∈ s.input.outcomes ∨
    ∃ e, .connected (some e) ∈ es ∧ f = .systemError e

variable {ok : EchoSystem → EchoSystem.Event → Prop} {stdin : Bytes} {es : List Event}
  {es' : List EchoSystem.Event} {t : EchoSystem}

theorem history_start (ok : EchoSystem → EchoSystem.Event → Prop) (stdin : Bytes) :
    History ok stdin [] (start stdin) [] EchoSystem.start := by
  have hrequest : (DelimitedRead.start maxReadBufferSizeBytes stdin [] (some {})).step .request
      = some (AsyncCommandLoop.run stdin) := rfl
  have hinput := (DelimitedRead.inv_step
    (DelimitedRead.inv_start maxReadBufferSizeBytes stdin [] (some {})) hrequest).1
  exact {
    begun := unbegun_start stdin
    input := hinput
    requests_eq := ⟨rfl, rfl⟩
    run := rfl
    meets := trivial
    typed := rfl
    whole := rfl
    running := fun _ => ⟨EchoSystem.inv_start.running, nofun⟩
    ended := nofun }

/-- As long as the session goes on, its whole is the state the run of the system has come to. -/
theorem History.whole_eq (h : History ok stdin es s es' t) (hrunning : s.system.stopped = none) :
    s.whole = t := by
  rw [h.whole, hrunning, ← (h.running hrunning).1]

/-- **Every event extends the history**: the run of the system takes its counterpart, if it has one.
What is asked of the events of the session is asked of their counterparts. -/
theorem History.step (h : History ok stdin es s es' t) {event : Event}
    (hok : ∀ e ∈ s.matched event, ok s.whole e) (hstep : s.step event = some s') :
    ∃ es'' t', History ok stdin (es ++ [event]) s' es'' t' := by
  have hrunning : s.system.stopped = none := (Option.ite_none_right_eq_some.mp hstep).1
  obtain ⟨hbegun, hwhole⟩ := step_whole h.begun hstep
  obtain ⟨hinput, hcommands, herrors, hreasons⟩ := step_input h.begun hstep
  -- the command loop goes on as a delimited read of the standard input
  have hinv : DelimitedRead.Inv maxReadBufferSizeBytes
      (serveLoop maxReadBufferSizeBytes {} stdin) s'.input ∧
      s'.input.requests = [] ∧ s'.input.loop = none := by
    rcases hinput with heq | ⟨e, hstep'⟩
    · rw [heq]
      exact ⟨h.input, h.requests_eq⟩
    · obtain ⟨hrequests, hloop, -⟩ := DelimitedRead.step_stream_cases hstep'
      rw [hrequests, hloop]
      exact ⟨(DelimitedRead.inv_step h.input hstep').1, h.requests_eq⟩
  have hnone : s'.system.stopped = none → ∀ f, .error f ∉ s'.input.outcomes :=
    fun hstopped f hmem => (h.running hrunning).2 f (herrors hstopped f hmem)
  rw [h.whole_eq hrunning] at hwhole hok
  -- an event with a counterpart extends the run of the system; one without ends the session, or
  -- begins an end that the whole has begun already
  cases hmatched : s.matched event with
  | some e =>
    rw [hmatched] at hwhole hcommands hok
    have hstep' : EchoSystem.step t e = some s'.whole := hwhole
    refine ⟨es' ++ [e], s'.whole, ⟨hbegun, hinv.1, hinv.2, ?_, ?_, ?_, rfl, ?_, ?_⟩⟩
    · rw [Runs.run_append_of_run _ h.run, Runs.run_singleton, hstep']
    · exact h.meets.append h.run fun _ _ => ⟨hok e rfl, trivial⟩
    · rw [EchoSystem.typed_append, h.typed, hcommands]
      rfl
    · exact fun hstopped => ⟨hstopped, hnone hstopped⟩
    · exact fun f hstopped => Or.inl hstopped
  | none =>
    rw [hmatched] at hwhole hcommands
    refine ⟨es', t, ⟨hbegun, hinv.1, hinv.2, h.run, h.meets, ?_, hwhole, ?_, ?_⟩⟩
    · rw [h.typed, hcommands]
      exact (List.append_nil _).symm
    · exact fun hstopped => ⟨(h.running hrunning).1, hnone hstopped⟩
    · intro f hstopped
      rcases hreasons hmatched f hstopped with hmem | ⟨e, rfl, rfl⟩
      · exact Or.inr (Or.inl hmem)
      · exact Or.inr (Or.inr ⟨e, List.mem_append_right _ (List.mem_singleton_self _), rfl⟩)

/-! ## How long a session lasts -/

end Session

namespace EchoSystem

/-- What a command that fits adds to what is left to do, at most. It is paid for the bytes of the
frame, which have the whole way to the server and back before them. -/
def commandCost : Nat :=
  86 * (10 + maxReadBufferSizeBytes) + 1

end EchoSystem

namespace Session

/-- The commands fit and the server does not store a response over bytes it has still to write. -/
def InScope (s : Session) (event : Event) : Prop :=
  ∀ e ∈ s.matched event, s.whole.InScope e

instance (s : Session) (event : Event) : Decidable (s.InScope event) :=
  inferInstanceAs (Decidable (∀ e ∈ s.matched event, _))

/-- How many events are possible at most: each event of the standard input may enter a command, so
it counts for all the work a command can make, and one more. -/
def measure (s : Session) : Nat :=
  (EchoSystem.commandCost + 1) * s.input.measure + s.whole.pending
    + s.system.stopped.isNone.toNat + (!s.connected).toNat + (!s.accepted).toNat

variable {s s' : Session} {stdin : Bytes} {es : List Event} {es' : List EchoSystem.Event}
  {t : EchoSystem}

theorem history_of_run {ok : EchoSystem → EchoSystem.Event → Prop}
    (hok : Runs.StepsMeet step (fun s event => ∀ e ∈ s.matched event, ok s.whole e)
      (start stdin) es) (hrun : Runs.run step (start stdin) es = some s) :
    ∃ es' t, History ok stdin es s es' t := by
  refine Runs.run_history (P := fun es s => ∃ es' t, History ok stdin es s es' t)
    ?_ ⟨[], _, history_start ok stdin⟩ hok hrun
  rintro es s event s' ⟨es', t, h⟩ hok hs
  exact h.step hok hs

/-- What a session shows is what its counterpart does. The logs and the screen are parts of the
whole that beginning an end does not touch. -/
theorem History.shown_eq {ok : EchoSystem → EchoSystem.Event → Prop}
    (h : History ok stdin es s es' t) :
    s.system.entered = t.entered ∧ s.system.handled = t.handled ∧
      s.system.received = t.received := by
  have hentered := congrArg EchoSystem.entered h.whole
  have hhandled := congrArg EchoSystem.handled h.whole
  have hreceived := congrArg EchoSystem.received h.whole
  exact ⟨hentered, hhandled, hreceived⟩

end Session

/-- The requests of the commands of the standard input are ones the server takes. This is a
condition on the input alone, for the number of a command is its place in it. -/
def AsyncCommandLoop.Fits (stdin : Bytes) : Prop :=
  ∀ i text, ((AsyncCommandLoop.lines stdin).filterMap dispatchCommand)[i]? = some text →
    ValidUtf8 text ∧ (MessageLite.chatMessage
      (EchoCommandHandler.echoMessage (UInt64.ofNat i) text)).byteSizeLong ≤ maxReadBufferSizeBytes

namespace Session

/-- The event enters a command or ends the session. What is left to the user: the rest of the events
are the handlers' own. -/
def Acts (s : Session) (event : Event) : Prop :=
  ((s.matched event).bind EchoSystem.Event.text).isSome = true ∨
    ((s.step event).bind fun s' => s'.system.stopped).isSome = true

instance (s : Session) (event : Event) : Decidable (s.Acts event) :=
  inferInstanceAs (Decidable (_ ∨ _))

/-- The connection could not be established. -/
def Event.failed : Event → Bool
  | .connected error => error.isSome
  | .stdin _ | .accepted | .echo _ => false

/-- The connection is established, and the user enters a command or ends the input only when nothing
is under way. Nothing is asked of the order of the other events. -/
def Patient (s : Session) (event : Event) : Prop :=
  event.failed = false ∧ (s.Acts event → s.whole.Idle)

instance (s : Session) (event : Event) : Decidable (s.Patient event) :=
  inferInstanceAs (Decidable (_ ∧ _))

variable {s s' : Session} {stdin : Bytes} {es : List Event} {es' : List EchoSystem.Event}
  {t : EchoSystem}

/-- A line of the standard input has the number its command is given. -/
theorem History.fits (h : History EchoSystem.Patient stdin es s es' t)
    (hfits : AsyncCommandLoop.Fits stdin) {event : StreamEvent} {input : DelimitedRead}
    (hinput : s.input.step (.stream event) = some input) {line : Bytes}
    (houtcomes : input.outcomes = s.input.outcomes ++ [.ok line])
    (hrunning : s.system.stopped = none) : s.whole.CommandFits (.command line) := by
  obtain ⟨-, hscope⟩ := EchoSystem.prompt_of_run h.meets h.run
  have hentered := EchoSystem.entered_of_run hscope h.run
  obtain ⟨-, future, -, hall⟩ := (DelimitedRead.inv_step h.input hinput).1
  intro text hdispatch
  rw [h.whole_eq hrunning, hentered.log.2, h.typed]
  apply hfits
  have hlines : s.lines ++ [line] <+: AsyncCommandLoop.lines stdin := by
    refine ⟨future.filterMap Except.toOption, ?_⟩
    rw [AsyncCommandLoop.lines, hall, houtcomes, List.filterMap_append,
      EchoSystem.filterMap_concat]
    rfl
  have hcommands := hlines.filterMap dispatchCommand
  rw [EchoSystem.filterMap_concat, Option.mem_def.mp hdispatch, Option.toList_some] at hcommands
  obtain ⟨rest, hrest⟩ := hcommands
  rw [← hrest, List.append_assoc, ← commands, List.getElem?_append_right (Nat.le_refl _),
    Nat.sub_self]
  rfl

/-- A session of a user who waits: its counterpart is one too, and it ends when nothing is under
way. -/
structure Waited (stdin : Bytes) (es : List Event) (s : Session) : Prop where
  history : ∃ es' t, History EchoSystem.Patient stdin es s es' t
  /-- The session ends at rest. -/
  ended : s.system.stopped ≠ none → s.whole.Idle
  /-- The connection could be established. -/
  connected : ∀ event ∈ es, event.failed = false

/-- **The counterpart of an event of a user who waits is one too.** So the theorems about a user who
waits apply to the run of the system, and the scope need not be assumed. -/
theorem History.patient (h : History EchoSystem.Patient stdin es s es' t)
    (hfits : AsyncCommandLoop.Fits stdin) {event : Event} (hpatient : s.Patient event)
    (hstep : s.step event = some s') : ∀ e ∈ s.matched event, s.whole.Patient e := by
  obtain ⟨hrunning, hevent⟩ := Option.ite_none_right_eq_some.mp hstep
  intro e he
  have hidle : e.text ≠ none → s.whole.Idle := by
    intro htext
    refine hpatient.2 (Or.inl ?_)
    rw [Option.mem_def.mp he, Option.bind_some]
    exact Option.isSome_iff_ne_none.mpr htext
  refine ⟨?_, hidle⟩
  cases event with
  | stdin event =>
    obtain ⟨input, hinput, rfl⟩ := Option.map_eq_some_iff.mp hevent
    rcases stdin_cases hinput with
      ⟨hmatched, -⟩ | ⟨_, hmatched, -⟩ | ⟨line, hmatched, houtcomes, -⟩
    · rw [hmatched] at he
      cases he
    · rw [hmatched] at he
      cases he
    · -- a line enters its command with the number it has in the input
      obtain rfl := Option.some.inj (hmatched.symm.trans he)
      exact h.fits hfits hinput houtcomes hrunning
  | connected | accepted => cases he
  | echo event =>
    obtain ⟨hcommand, -⟩ := echo_cases hstep
    obtain rfl := Option.some.inj he
    cases event with
    | command line => exact absurd rfl (hcommand line)
    | _ => trivial

/-- A user who waits goes on waiting, and stays in scope. -/
theorem Waited.step (h : Waited stdin es s) (hfits : AsyncCommandLoop.Fits stdin) {event : Event}
    (hpatient : s.Patient event) (hstep : s.step event = some s') :
    Waited stdin (es ++ [event]) s' ∧ s.InScope event := by
  obtain ⟨es', t, hhistory⟩ := h.history
  have hrunning := (Option.ite_none_right_eq_some.mp hstep).1
  obtain ⟨-, hwhole⟩ := step_whole hhistory.begun hstep
  have hmatches := hhistory.patient hfits hpatient hstep
  have hprompt : EchoSystem.Prompt s.whole := by
    rw [hhistory.whole_eq hrunning]
    exact (EchoSystem.prompt_of_run hhistory.meets hhistory.run).1
  constructor
  · refine ⟨hhistory.step hmatches hstep, fun hstopped => ?_, ?_⟩
    · cases hmatched : s.matched event with
      | some e =>
        rw [hmatched] at hwhole
        have hinv := (hprompt.step (hmatches e hmatched) hwhole).1.inv
        exact absurd hinv.running hstopped
      -- an event that ends the session without a counterpart comes at rest, by the patience of the
      -- user
      | none =>
        rw [hmatched] at hwhole
        have hacts : s.Acts event := by
          refine Or.inr ?_
          rw [hstep, Option.bind_some]
          exact Option.isSome_iff_ne_none.mpr hstopped
        have hidle := hpatient.2 hacts
        rw [hwhole]
        exact hidle
    · exact List.forall_mem_append.mpr
        ⟨h.connected, List.forall_mem_singleton.mpr hpatient.1⟩
  · intro e he
    rw [Option.mem_def.mp he] at hwhole
    exact (hprompt.step (hmatches e he) hwhole).2

/-- What the screen shows when nothing is under way. -/
theorem Waited.received_eq (h : Waited stdin es s) (hidle : s.whole.Idle) :
    s.system.received = (welcome.id, welcome.text) :: EchoSystem.numbered s.commands := by
  obtain ⟨es', t, hhistory⟩ := h.history
  obtain ⟨hprompt, hscope⟩ := EchoSystem.prompt_of_run hhistory.meets hhistory.run
  have hentered := EchoSystem.entered_of_run hscope hhistory.run
  rw [hhistory.whole] at hidle
  obtain ⟨-, -, hreceived⟩ := hhistory.shown_eq
  rw [hreceived, ← hhistory.typed]
  exact hprompt.received_eq hentered hidle

end Session

end Acs
