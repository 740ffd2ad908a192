import AsioClientServer.Lib.Runs
import AsioClientServer.Server.ConnectionManager

/-!
# `acs::conn::AsyncTcpServer`

The server program: one loop runs the handlers of the acceptor and of all connections, one after
the other (`AsyncTcpServer.cpp`, `main.cpp`). An exception that leaves a handler leaves
`context.run()`, and `main` ends.

* `ServerRun`: the server with any number of connections. Its events are the completions of all
  its operations, in any order.
* `fault_isolation_iff`: the completions that leave the loop running and the other connections
  alone.
* `open_connections_exact_iff`: the runs in which the list of connections is what it should be.
-/

namespace Acs

/-! ## The server -/

/-- Whether `context.run()` is running. It ends when an exception leaves a handler, or the process
aborts. -/
inductive Loop where
  | running
  /-- An exception, or a failing assertion, has ended it. -/
  | exited (failure : Failure)
  /-- A handler has used a connection that has been destroyed: nothing is known from there on. -/
  | undefined
  deriving DecidableEq, Repr

/-- The server, with the operations it has left behind. All of its connections share one loop, so an
exception of one of them is the end of all. -/
structure ServerRun where
  manager : ConnectionManager
  /-- The connection the outstanding `async_accept` refers to. -/
  accepting : Nat
  loop : Loop := .running
  /-- The operations of destroyed connections; their handlers still run. -/
  orphans : List PendingOperation := []
  /-- The accepted connections whose stream has neither ended nor failed and that the server has not
  closed, in the order they were accepted. -/
  live : List Nat := []
  deriving DecidableEq, Repr

/-- The completions of the operations of the server, and the close that its interface offers. A
close is not made by the program as it stands, and is looked at because its interface has it. -/
inductive ServerRun.Event where
  | accepted
  | acceptFailed (e : Asio.ErrorCode)
  | connection (address : Nat) (event : TcpConnection.Event)
  /-- The program calls `closeConnection` for an accepted connection. -/
  | close (address : Nat)
  /-- The handler of the `i`-th operation of the destroyed connections runs. -/
  | aborted (i : Nat)
  deriving DecidableEq, Repr

namespace ServerRun

/-- `startAccept`: a connection is created for the next client, and waits for it. The accept is
bound to the new element, and so is its handler. -/
def startAccept (s : ServerRun) : ServerRun :=
  let created := s.manager.newConnection .echoClientHandler
  { s with manager := created.2, accepting := created.1 }

/-- The server has been constructed and waits for its first client. -/
def start : ServerRun :=
  startAccept { manager := {}, accepting := 0 }

/-- `handleAccept`, the handler of `async_accept`. Whether there was an error or not, the next
accept is started. -/
def handleAccept (s : ServerRun) (error : Option Asio.ErrorCode) : ServerRun :=
  match error with
  -- the error is not looked at, and the connection stays in the list
  | some _ => s.startAccept
  | none =>
    match s.manager.find s.accepting with
    | none => { s with loop := .undefined }
    | some c =>
      let started := c.start
      let s := { s with
        manager := s.manager.update s.accepting started.2
        live := s.live ++ [s.accepting] }
      match started.1 with
      | some f => { s with loop := .exited f }
      | none => s.startAccept

/-- A connection is closed. Its operations are left behind with handlers that refer to it. They
complete later, when the element is gone. -/
def closeConnection (s : ServerRun) (address : Nat) (c : TcpConnection) : ServerRun :=
  { s with
    manager := s.manager.closeConnection c
    orphans := s.orphans ++ s.manager.pendingOfPurged c
    live := s.live.erase address }

/-- The state after a handler of a connection: an exception leaves the loop. Nothing catches it
before `main`, so no other connection is served after that. -/
def afterEvent (s : ServerRun) (address : Nat) (event : TcpConnection.Event)
    (res : TcpConnection.Result) : ServerRun :=
  let s := { s with
    manager := s.manager.update address res.connection
    live := if event.endsStream then s.live.erase address else s.live }
  match res.failure with
  | some f => { s with loop := .exited f }
  | none => if res.closes then s.closeConnection address res.connection else s

/-- The next state, `none` where the event is not possible. -/
def step (s : ServerRun) (event : Event) : Option ServerRun :=
  if s.loop = .running then
    match event with
    | .accepted => some (s.handleAccept none)
    | .acceptFailed e => some (s.handleAccept (some e))
    | .connection address event =>
      (s.manager.find address).bind fun c =>
        (c.onEvent event).map (s.afterEvent address event)
    | .close address =>
      if address = s.accepting then none
      else (s.manager.find address).map (s.closeConnection address)
    | .aborted i => (s.orphans[i]?).map fun _ => { s with loop := .undefined }
  else none

/-! ## The invariant of all runs -/

/-- A connection in the list has not been started, or receives. Nothing else happens to a connection
with the echo handler. -/
def Regular (c : TcpConnection) : Prop :=
  c.handler = .echoClientHandler ∧
    ((c.reader = { maxBufferSize := maxReadBufferSizeBytes } ∧ c.writes = []) ∨
      ∃ frames read, c.Receiving frames read)

/-- What every reachable state has: addresses are not used twice, every connection is regular,
and the one that waits to be accepted has not been started. -/
structure Inv (s : ServerRun) : Prop where
  nodup : s.manager.addresses.Nodup
  fresh : ∀ address ∈ s.manager.addresses, address < s.manager.nextAddress
  regular : ∀ node ∈ s.manager.connections, Regular node.connection
  accepting : ∀ node ∈ s.manager.connections, node.address = s.accepting →
    node.connection.reader = { maxBufferSize := maxReadBufferSizeBytes } ∧
      node.connection.writes = []

variable {s s' : ServerRun}

@[simp] theorem startAccept_live (s : ServerRun) : s.startAccept.live = s.live := rfl

theorem startAccept_addresses (s : ServerRun) :
    s.startAccept.manager.addresses = s.manager.addresses ++ [s.startAccept.accepting] :=
  ConnectionManager.addresses_newConnection _

/-- Starting an accept makes a list of regular connections a state of the invariant. -/
theorem inv_startAccept (haddressed : s.manager.WellAddressed)
    (hregular : ∀ node ∈ s.manager.connections, Regular node.connection) : Inv s.startAccept := by
  have hnew : s.startAccept.accepting = s.manager.nextAddress := rfl
  obtain ⟨hnodup, hfresh⟩ := haddressed.newConnection .echoClientHandler
  refine ⟨hnodup, hfresh, ?_, ?_⟩
  · intro node hnode
    rcases List.mem_append.mp hnode with h | h
    · exact hregular node h
    · rw [List.mem_singleton.mp h]
      exact ⟨rfl, Or.inl ⟨rfl, rfl⟩⟩
  · intro node hnode haddress
    rcases List.mem_append.mp hnode with h | h
    · -- the address of the new connection is not taken
      have hlt := haddressed.fresh node.address (List.mem_map_of_mem h)
      omega
    · rw [List.mem_singleton.mp h]
      exact ⟨rfl, rfl⟩

theorem Inv.addressed (h : Inv s) : s.manager.WellAddressed :=
  ⟨h.nodup, h.fresh⟩

theorem inv_start : Inv start :=
  inv_startAccept ⟨by simp [ConnectionManager.addresses], by simp [ConnectionManager.addresses]⟩
    (by simp)

/-- A change of an accepted connection keeps the invariant, when it leaves it regular. The
connection that waits must stay as it is: nothing happens to it before it is accepted. -/
theorem Inv.update (h : Inv s) {address : Nat} {c : TcpConnection} (hc : Regular c)
    (haddress : address ≠ s.accepting) (live : List Nat) :
    Inv { s with manager := s.manager.update address c, live } := by
  obtain ⟨hnodup, hfresh⟩ := h.addressed.update address c
  refine ⟨hnodup, hfresh, ?_, ?_⟩
  · intro node hnode
    rcases ConnectionManager.mem_update hnode with ⟨-, hconn⟩ | ⟨-, hmem⟩
    · rw [hconn]
      exact hc
    · exact h.regular node hmem
  · intro node hnode hacc
    rcases ConnectionManager.mem_update hnode with ⟨haddr, -⟩ | ⟨-, hmem⟩
    · exact absurd (haddr.symm.trans hacc) haddress
    · exact h.accepting node hmem hacc

theorem running_of_step {event : Event} (hstep : s.step event = some s') : s.loop = .running := by
  unfold step at hstep
  split at hstep
  · next hloop => exact hloop
  · cases hstep

/-- What an event does, with the conditions under which it is possible. -/
inductive Stepped (s : ServerRun) : Event → ServerRun → Prop
  | accepted : Stepped s .accepted (s.handleAccept none)
  | acceptFailed {e : Asio.ErrorCode} : Stepped s (.acceptFailed e) s.startAccept
  | connection {address : Nat} {event : TcpConnection.Event} {c : TcpConnection}
      {res : TcpConnection.Result} (hfind : s.manager.find address = some c)
      (hres : c.onEvent event = some res) :
      Stepped s (.connection address event) (s.afterEvent address event res)
  | close {address : Nat} {c : TcpConnection} (hacc : address ≠ s.accepting)
      (hfind : s.manager.find address = some c) :
      Stepped s (.close address) (s.closeConnection address c)
  | aborted {i : Nat} {op : PendingOperation} (hop : s.orphans[i]? = some op) :
      Stepped s (.aborted i) { s with loop := .undefined }

/-- **A step, taken apart.** The invariants are derived from this, and never from the step
function. -/
theorem step_cases {event : Event} (hstep : s.step event = some s') : Stepped s event s' := by
  unfold step at hstep
  rw [if_pos (running_of_step hstep)] at hstep
  cases event with
  | accepted =>
    obtain rfl := Option.some.inj hstep
    exact .accepted
  | acceptFailed e =>
    obtain rfl := Option.some.inj hstep
    exact .acceptFailed
  | connection address event =>
    obtain ⟨c, hfind, hstep⟩ := Option.bind_eq_some_iff.mp hstep
    obtain ⟨res, hres, rfl⟩ := Option.map_eq_some_iff.mp hstep
    exact .connection hfind hres
  | close address =>
    dsimp only at hstep
    split at hstep
    · cases hstep
    · next hacc =>
      obtain ⟨c, hfind, rfl⟩ := Option.map_eq_some_iff.mp hstep
      exact .close hacc hfind
  | aborted i =>
    obtain ⟨op, hop, rfl⟩ := Option.map_eq_some_iff.mp hstep
    exact .aborted hop

/-! ## Events of one connection -/

/-- Nothing happens to a connection that has not been started. -/
theorem onEvent_of_unstarted {c : TcpConnection}
    (hreader : c.reader = { maxBufferSize := maxReadBufferSizeBytes }) (hwrites : c.writes = [])
    (event : TcpConnection.Event) : c.onEvent event = none := by
  have hout : c.reader.outstanding = [] := by rw [hreader]
  cases event with
  | read event =>
    simp only [TcpConnection.onEvent, TcpConnection.onRead,
      AsyncReader.onEvent_of_outstanding_nil hout, Option.map_none]
  | transfer i n =>
    simp [TcpConnection.onEvent, TcpConnection.onTransfer, Asio.transfer, hwrites]
  | written i =>
    simp [TcpConnection.onEvent, TcpConnection.onWritten, Asio.finish, hwrites]
  | writeError i e =>
    simp [TcpConnection.onEvent, TcpConnection.onWriteError, Asio.abort, hwrites]

/-- The completions after which the handler returns: writes, also those that fail; a prefix that
parses and whose size the reader accepts; and an echo request. -/
def Harmless (c : TcpConnection) : TcpConnection.Event → Prop
  | .read .completed =>
    match c.reader.outstanding with
    | ⟨_, .handleReadProtoFramePrefixFinished _⟩ :: _ =>
      ∃ framePrefix, FramePrefix.parseFromArray c.reader.readBuffer = some framePrefix ∧
        framePrefix.size.toNat ≤ maxReadBufferSizeBytes
    | ⟨_, .handleReadProtoMessageFinished _⟩ :: _ =>
      TcpConnection.IsEchoRequest ⟨c.protocol.deserFramePrefixCache, c.reader.readBuffer⟩
    | _ => True
  | .read (.failed _) => False
  | .read (.received _) | .transfer _ _ | .written _ | .writeError _ _ => True

/-- The events of the reader: its handler returns exactly after a harmless one, and the connection
still receives. -/
theorem onRead_of_receiving {c : TcpConnection} {frames : List Frame} {read : Bytes}
    {event : ReadEvent} {out : Option Failure × TcpConnection} (h : c.Receiving frames read)
    (hout : c.onRead event = some out) : out.1 = none ↔ Harmless c (.read event) := by
  cases event with
  | received piece =>
    obtain ⟨reader, rfl, -, -⟩ := h.received hout
    exact iff_of_true rfl trivial
  | failed e =>
    obtain ⟨hfailure, -⟩ := h.failed hout
    simp only [hfailure, Harmless]
    simp
  | completed =>
    cases h.completed hout with
    | scheduled hreads hparse hmax hout' hphase =>
      subst hout'
      refine iff_of_true rfl ?_
      simp only [Harmless, hreads]
      exact ⟨_, hparse, hmax⟩
    | answered hreads hrequest hparse hout' hphase =>
      subst hout'
      refine iff_of_true rfl ?_
      simp only [Harmless, hreads]
      exact hrequest
    | refused hreads hfailure hout' =>
      have hnot : ¬ Harmless c (.read .completed) := by
        simp only [Harmless, hreads]
        rw [← TcpConnection.frameFailure_eq_none_iff, hfailure]
        simp
      simp only [hout']
      exact iff_of_false (by simp) hnot
    | stopped hreads hbad hout' =>
      have hnot : ¬ Harmless c (.read .completed) := by
        simp only [Harmless, hreads]
        rintro ⟨framePrefix, hparse, hmax⟩
        have := hbad framePrefix hparse
        omega
      simp only [hout']
      exact iff_of_false (by simp) hnot

/-- **The handler of a connection returns exactly after a harmless event**, and then the connection
still receives; the echo handler never closes it. -/
theorem onEvent_of_receiving {c : TcpConnection} {frames : List Frame} {read : Bytes}
    {event : TcpConnection.Event} {res : TcpConnection.Result}
    (hhandler : c.handler = .echoClientHandler) (h : c.Receiving frames read)
    (hres : c.onEvent event = some res) :
    res.closes = false ∧ (res.failure = none ↔ Harmless c event) ∧
      (res.failure = none → Regular res.connection) := by
  refine ⟨?_, ?_, fun hnone =>
    ⟨(TcpConnection.onEvent_identity hres).2.trans hhandler, Or.inr (h.onEvent hres hnone)⟩⟩
  · rcases TcpConnection.onEvent_closes hres with ⟨-, hopen⟩ | ⟨-, i, -, rfl⟩
    · exact hopen
    · simp only [hhandler, ClientHandler.handleSendComplete]
  · cases event with
    | read event =>
      obtain ⟨out, hout, rfl⟩ := Option.map_eq_some_iff.mp hres
      exact onRead_of_receiving h hout
    | transfer i n =>
      obtain ⟨t, -, rfl⟩ := Option.map_eq_some_iff.mp hres
      exact iff_of_true rfl trivial
    | written i =>
      obtain ⟨w, -, rfl⟩ := Option.map_eq_some_iff.mp hres
      exact iff_of_true rfl trivial
    | writeError i e =>
      obtain ⟨w, -, rfl⟩ := Option.map_eq_some_iff.mp hres
      exact iff_of_true rfl trivial

/-- A connection to which something happens is not the one that waits to be accepted, and it
receives. -/
theorem Inv.receiving_of_onEvent (h : Inv s) {address : Nat} {c : TcpConnection}
    {event : TcpConnection.Event} {res : TcpConnection.Result}
    (hfind : s.manager.find address = some c) (hres : c.onEvent event = some res) :
    address ≠ s.accepting ∧ c.handler = .echoClientHandler ∧
      ∃ frames read, c.Receiving frames read := by
  have hmem := ConnectionManager.mem_of_find hfind
  obtain ⟨hhandler, hregular⟩ := h.regular _ hmem
  refine ⟨?_, hhandler, ?_⟩
  · intro hacc
    obtain ⟨hreader, hwrites⟩ := h.accepting _ hmem hacc
    rw [onEvent_of_unstarted hreader hwrites] at hres
    cases hres
  · rcases hregular with ⟨hreader, hwrites⟩ | hreceiving
    · rw [onEvent_of_unstarted hreader hwrites] at hres
      cases hres
    · exact hreceiving

/-- **An event of a connection**: the exception it ends with leaves the loop, or the connection
alone has changed. -/
theorem afterEvent_cases (h : Inv s) {address : Nat} {event : TcpConnection.Event}
    (hstep : s.step (.connection address event) = some s') :
    ∃ c res, s.manager.find address = some c ∧ c.onEvent event = some res ∧
      address ≠ s.accepting ∧
      ((¬ Harmless c event ∧ ∃ f, s'.loop = .exited f) ∨
        (Harmless c event ∧ res.failure = none ∧ Regular res.connection ∧
          s' = { s with
            manager := s.manager.update address res.connection
            live := if event.endsStream then s.live.erase address else s.live })) := by
  cases step_cases hstep with
  | @connection _ _ c res hfind hres =>
    obtain ⟨hacc, hhandler, frames, read, hreceiving⟩ := h.receiving_of_onEvent hfind hres
    obtain ⟨hcloses, hiff, hregular⟩ := onEvent_of_receiving hhandler hreceiving hres
    refine ⟨c, res, hfind, hres, hacc, ?_⟩
    cases hfailure : res.failure with
    | some f =>
      refine Or.inl ⟨fun hh => ?_, f, ?_⟩
      · rw [hiff.mpr hh] at hfailure
        cases hfailure
      · simp only [afterEvent, hfailure]
    | none =>
      refine Or.inr ⟨hiff.mp hfailure, rfl, hregular hfailure, ?_⟩
      simp only [afterEvent, hfailure, hcloses, Bool.false_eq_true, if_false]

/-- **An accept** starts the connection that waited and lets a new one wait. The connection that
waited is in the list, for nothing has closed it. -/
theorem handleAccept_eq (h : Inv s) {c : TcpConnection}
    (hfind : s.manager.find s.accepting = some c) :
    ∃ c', Regular c' ∧ c'.Receiving [] [] ∧ s.handleAccept none
      = startAccept { s with
          manager := s.manager.update s.accepting c'
          live := s.live ++ [s.accepting] } := by
  have hmem := ConnectionManager.mem_of_find hfind
  obtain ⟨hreader, -⟩ := h.accepting _ hmem rfl
  obtain ⟨hhandler, -⟩ := h.regular _ hmem
  obtain ⟨c', hstart, hreceiving, hc'⟩ := TcpConnection.start_eq hhandler hreader
  refine ⟨c', ⟨?_, Or.inr ⟨_, _, hreceiving⟩⟩, hreceiving, ?_⟩
  · rw [hc']
    simpa [TcpConnection.sendMove] using hhandler
  · simp only [handleAccept, hfind, hstart]

/-- **Every event keeps the invariant**, as long as the loop is running. -/
theorem inv_step {event : Event} (h : s.loop = .running → Inv s)
    (hstep : s.step event = some s') : s'.loop = .running → Inv s' := by
  intro hrunning
  have h := h (running_of_step hstep)
  cases step_cases hstep with
  | accepted =>
    cases hfind : s.manager.find s.accepting with
    | none =>
      simp only [handleAccept, hfind] at hrunning
      cases hrunning
    | some c =>
      obtain ⟨c', hregular, -, heq⟩ := handleAccept_eq h hfind
      rw [heq]
      refine inv_startAccept (h.addressed.update _ _) ?_
      intro node hnode
      rcases ConnectionManager.mem_update hnode with ⟨-, hconn⟩ | ⟨-, hmem⟩
      · rw [hconn]
        exact hregular
      · exact h.regular node hmem
  | acceptFailed => exact inv_startAccept h.addressed h.regular
  | connection =>
    obtain ⟨c, res, -, -, hacc, ⟨-, f, hexit⟩ | ⟨-, -, hregular, heq⟩⟩ := afterEvent_cases h hstep
    · rw [hexit] at hrunning
      cases hrunning
    · rw [heq]
      exact h.update hregular hacc _
  | @close _ c =>
    obtain ⟨hnodup, hfresh⟩ := h.addressed.closeConnection c
    exact ⟨hnodup, hfresh, fun node hnode => h.regular node (List.mem_of_mem_filter hnode),
      fun node hnode => h.accepting node (List.mem_of_mem_filter hnode)⟩
  | aborted => cases hrunning

theorem inv_of_run {es : List Event} (hrun : Runs.run step start es = some s) :
    s.loop = .running → Inv s :=
  Runs.run_invariant (fun _ _ _ h hs => inv_step h hs) (fun _ => inv_start) hrun

/-! ## Fault isolation -/

/-- The loop goes on running, and every other connection is as before: in the list, with its
buffer, its outstanding reads and its outstanding writes. -/
def Isolated (s s' : ServerRun) (address : Nat) : Prop :=
  s'.loop = .running ∧
    s'.manager.connections.filter (·.address ≠ address)
      = s.manager.connections.filter (·.address ≠ address)

end ServerRun

/-- **Which completions are isolated.** In every reachable state, whatever happened before on any
number of connections: after an event of a connection the loop is running and the other connections
are as before, if and only if the event is harmless. -/
theorem fault_isolation_iff {es : List ServerRun.Event} {s s' : ServerRun} {address : Nat}
    {c : TcpConnection} {event : TcpConnection.Event}
    (hrun : Runs.run ServerRun.step ServerRun.start es = some s)
    (hfind : s.manager.find address = some c)
    (hstep : s.step (.connection address event) = some s') :
    ServerRun.Isolated s s' address ↔ ServerRun.Harmless c event := by
  have hloop := ServerRun.running_of_step hstep
  obtain ⟨c₀, res, hfind₀, -, -, ⟨hnot, f, hexit⟩ | ⟨hharmless, -, -, rfl⟩⟩ :=
    ServerRun.afterEvent_cases (ServerRun.inv_of_run hrun hloop) hstep
  · obtain rfl : c₀ = c := Option.some.inj (hfind₀.symm.trans hfind)
    refine iff_of_false ?_ hnot
    rintro ⟨hrunning, -⟩
    rw [hexit] at hrunning
    cases hrunning
  · obtain rfl : c₀ = c := Option.some.inj (hfind₀.symm.trans hfind)
    exact iff_of_true ⟨hloop, ConnectionManager.filter_update⟩ hharmless

/-- One of two clients is greeted and its connection is then reset: the write that fails leaves the
other client alone. -/
theorem fault_isolation_write_error :
    ∃ s s' c, Runs.run ServerRun.step ServerRun.start [.accepted, .accepted] = some s ∧
      s.manager.find 0 = some c ∧
      s.step (.connection 0 (.writeError 0 (.other 104))) = some s' ∧
      ServerRun.Isolated s s' 0 := by
  have hresult : ((Runs.run ServerRun.step ServerRun.start [.accepted, .accepted]).bind fun s =>
      (s.manager.find 0).bind fun _ =>
        s.step (.connection 0 (.writeError 0 (.other 104)))).isSome = true := by
    decide +kernel
  obtain ⟨s', h⟩ := Option.isSome_iff_exists.mp hresult
  obtain ⟨s, hrun, h⟩ := Option.bind_eq_some_iff.mp h
  obtain ⟨c, hfind, hstep⟩ := Option.bind_eq_some_iff.mp h
  exact ⟨s, s', c, hrun, hfind, hstep, (fault_isolation_iff hrun hfind hstep).mpr trivial⟩

/-- One of two clients disconnects: the loop ends, and the other client with it, which had done
nothing. -/
theorem client_disconnect_ends_server :
    ∃ s s', Runs.run ServerRun.step ServerRun.start [.accepted, .accepted] = some s ∧
      s.step (.connection 0 (.read (.failed .eof))) = some s' ∧
      s.live = [0, 1] ∧ s'.loop = .exited (.systemError .eof) ∧ ¬ ServerRun.Isolated s s' 0 := by
  have hresult : (Runs.run ServerRun.step ServerRun.start [.accepted, .accepted]).bind (fun s =>
      (s.step (.connection 0 (.read (.failed .eof)))).map fun s' => (s.live, s'.loop))
      = some ([0, 1], .exited (.systemError .eof)) := by
    decide +kernel
  obtain ⟨s, hrun, h⟩ := Option.bind_eq_some_iff.mp hresult
  obtain ⟨s', hstep, hs⟩ := Option.map_eq_some_iff.mp h
  obtain ⟨hlive, hloop⟩ := Prod.mk.inj hs
  refine ⟨s, s', hrun, hstep, hlive, hloop, fun hisolated => ?_⟩
  rw [hisolated.1] at hloop
  cases hloop

/-! ## The list of open connections -/

namespace ServerRun

/-- While the loop waits for the next event, the list has one entry for each live connection and
the one that waits to be accepted, and no other. -/
def Exact (s : ServerRun) : Prop :=
  s.loop = .running → s.manager.addresses = s.live ++ [s.accepting] ∧ s.manager.addresses.Nodup

/-- The events after which the list is right: no accept fails, no write fails, and a connection
that is closed shares its id with no other entry. -/
def KeepsListExact (s : ServerRun) : Event → Prop
  | .acceptFailed _ => False
  | .connection _ (.writeError _ _) => False
  | .close address => ∀ c, s.manager.find address = some c →
      ∀ node ∈ s.manager.connections, node.connection.id = c.id → node.address = address
  | .accepted | .connection _ _ | .aborted _ => True

variable {s s' : ServerRun}

/-- A connection that is taken out of the live ones stays in the list. Nothing but a close removes
an element. -/
theorem not_exact_of_erase (hexact : s.manager.addresses = s.live ++ [s.accepting])
    {address : Nat} {c c' : TcpConnection} (hfind : s.manager.find address = some c)
    (hacc : address ≠ s.accepting) (hloop : s.loop = .running) :
    ¬ Exact { s with
      manager := s.manager.update address c', live := s.live.erase address } := by
  intro hexact'
  obtain ⟨heq, -⟩ := hexact' hloop
  have hmem : address ∈ s.manager.addresses :=
    List.mem_map_of_mem (ConnectionManager.mem_of_find hfind)
  have hlive : address ∈ s.live := by
    rw [hexact] at hmem
    rcases List.mem_append.mp hmem with h | h
    · exact h
    · exact absurd (List.mem_singleton.mp h) hacc
  have hlen := congrArg List.length (hexact.symm.trans
    ((ConnectionManager.addresses_update (c := c')).symm.trans heq))
  simp only [List.length_append, List.length_erase_of_mem hlive] at hlen
  have hpos := List.length_pos_of_mem hlive
  simp only [List.length_cons, List.length_nil] at hlen
  omega

/-- A close keeps the list right exactly when the connection shares its id with no other entry.
`purgeConnection` compares ids, and takes out every element that has this one. -/
theorem exact_close_iff (h : Inv s) (hexact : s.manager.addresses = s.live ++ [s.accepting])
    {address : Nat} {c : TcpConnection} (hfind : s.manager.find address = some c)
    (hacc : address ≠ s.accepting) (hloop : s.loop = .running) :
    Exact (s.closeConnection address c) ↔
      ∀ node ∈ s.manager.connections, node.connection.id = c.id → node.address = address := by
  have hmem := ConnectionManager.mem_of_find hfind
  have hlive : address ∈ s.live := by
    have haddress : address ∈ s.manager.addresses := List.mem_map_of_mem hmem
    rw [hexact] at haddress
    rcases List.mem_append.mp haddress with h | h
    · exact h
    · exact absurd (List.mem_singleton.mp h) hacc
  constructor
  · -- another entry with this id is removed as well, and is still live
    intro hexact' node hnode hid
    by_contra hne
    obtain ⟨heq, -⟩ := hexact' hloop
    have haddress : node.address ∈ s.manager.addresses := List.mem_map_of_mem hnode
    have hkept : node.address ∈ (s.manager.closeConnection c).addresses := by
      have heq' : (s.manager.closeConnection c).addresses = s.live.erase address ++ [s.accepting] :=
        heq
      rw [heq', List.mem_append, List.mem_erase_of_ne hne, ← List.mem_append, ← hexact]
      exact haddress
    obtain ⟨node', hnode', heq'⟩ := List.mem_map.mp hkept
    obtain ⟨hmem', hid'⟩ := List.mem_filter.mp hnode'
    obtain rfl : node' = node := List.inj_on_of_nodup_map h.nodup hmem' hnode heq'
    simp [hid] at hid'
  · -- only the entry itself has the id, so the close takes out what it is meant to
    intro hid _
    have heq : (s.closeConnection address c).manager.addresses = s.manager.addresses.erase address :=
      ConnectionManager.addresses_closeConnection h.nodup hmem hid
    refine ⟨?_, ?_⟩
    · rw [heq, hexact, List.erase_append_left _ hlive]
      rfl
    · rw [heq]
      exact h.nodup.erase _

/-- An event of a connection. Only a write that fails leaves the loop running and takes its
connection out of the live ones. -/
theorem exact_connection_iff (h : Inv s) (hexact : s.manager.addresses = s.live ++ [s.accepting])
    {address : Nat} {event : TcpConnection.Event} (hloop : s.loop = .running)
    (hstep : s.step (.connection address event) = some s') :
    Exact s' ↔ KeepsListExact s (.connection address event) := by
  obtain ⟨c, res, hfind, -, hacc, ⟨hnot, f, hexit⟩ | ⟨hharmless, -, -, rfl⟩⟩ :=
    afterEvent_cases h hstep
  · -- the loop has ended: nothing waits
    have hexact' : Exact s' := fun hrunning => by
      rw [hexit] at hrunning
      cases hrunning
    refine iff_of_true hexact' ?_
    cases event with
    | writeError i e => exact absurd trivial hnot
    | read _ | transfer _ _ | written _ => trivial
  · -- after a failed write the connection is not live any more, and nothing takes it off the list
    have hsame : Exact { s with manager := s.manager.update address res.connection } := fun _ =>
      ⟨by simpa using hexact, by simpa using h.nodup⟩
    cases event with
    | writeError i e => exact iff_of_false (not_exact_of_erase hexact hfind hacc hloop) id
    | transfer i n => exact iff_of_true hsame trivial
    | written i => exact iff_of_true hsame trivial
    | read event =>
      cases event with
      | failed e => exact absurd hharmless id
      | received piece => exact iff_of_true hsame trivial
      | completed => exact iff_of_true hsame trivial

/-- **An event keeps the list exact exactly when it meets the condition.** -/
theorem exact_step_iff {event : Event} (hinv : s.loop = .running → Inv s) (hexact : Exact s)
    (hstep : s.step event = some s') : Exact s' ↔ KeepsListExact s event := by
  have hloop := running_of_step hstep
  have hinv' := inv_step hinv hstep
  have hinv := hinv hloop
  obtain ⟨hexact, -⟩ := hexact hloop
  have hof : ∀ {t : ServerRun}, t.loop ≠ .running → Exact t := fun hne hrunning =>
    absurd hrunning hne
  cases step_cases hstep with
  | accepted =>
    -- the entry that waited becomes live, and a new one waits
    refine iff_of_true ?_ trivial
    cases hfind : s.manager.find s.accepting with
    | none =>
      simp only [handleAccept, hfind]
      exact hof (by simp)
    | some c =>
      obtain ⟨c', -, -, heq⟩ := handleAccept_eq hinv hfind
      intro hrunning
      refine ⟨?_, (hinv' hrunning).nodup⟩
      rw [heq, startAccept_addresses, ConnectionManager.addresses_update, hexact]
      rfl
  | acceptFailed =>
    -- the entry that waited stays, and is not live
    refine iff_of_false (fun hexact' => ?_) id
    obtain ⟨heq, -⟩ := hexact' hloop
    rw [startAccept_addresses, startAccept_live, hexact] at heq
    have := congrArg List.length heq
    simp at this
  | connection => exact exact_connection_iff hinv hexact hloop hstep
  | close hacc hfind =>
    rw [exact_close_iff hinv hexact hfind hacc hloop]
    simp only [KeepsListExact, hfind, Option.some.injEq, forall_eq']
  | aborted => exact iff_of_true (hof (by simp)) trivial

end ServerRun

/-- **When the list of open connections is exact.** In every run of accepts, disconnects, errors and
closes: the list holds, all along, the live connections and the one that waits to be accepted, if
and only if no accept fails, no write fails, and no connection is closed whose id another entry
has. -/
theorem open_connections_exact_iff (es : List ServerRun.Event) :
    Runs.Along ServerRun.step ServerRun.Exact ServerRun.start es ↔
      Runs.StepsMeet ServerRun.step ServerRun.KeepsListExact ServerRun.start es :=
  Runs.along_iff_of_invariant (fun _ _ _ h hs => ServerRun.inv_step h hs)
    (fun _ _ _ h hexact hs => ServerRun.exact_step_iff h hexact hs) (fun _ => ServerRun.inv_start)
    fun _ => by decide

/-- An accept that fails leaves its entry in the list, and so does a write that fails. The handler
of the accept starts the next one and leaves the element where it is. -/
theorem open_connections_leak :
    (∃ s, Runs.run ServerRun.step ServerRun.start [.acceptFailed (.other 24)] = some s ∧
      s.loop = .running ∧ s.manager.addresses = [0, 1] ∧ s.live = [] ∧ s.accepting = 1) ∧
    (∃ s, Runs.run ServerRun.step ServerRun.start
        [.accepted, .connection 0 (.writeError 0 (.other 104))] = some s ∧
      s.loop = .running ∧ s.manager.addresses = [0, 1] ∧ s.live = [] ∧ s.accepting = 1) ∧
    ¬ ∀ es, Runs.Along ServerRun.step ServerRun.Exact ServerRun.start es := by
  have hfailed : (Runs.run ServerRun.step ServerRun.start [.acceptFailed (.other 24)]).map
      (fun s => (s.loop, s.manager.addresses, s.live, s.accepting))
      = some (.running, [0, 1], [], 1) := by
    decide +kernel
  have hwrite : (Runs.run ServerRun.step ServerRun.start
      [.accepted, .connection 0 (.writeError 0 (.other 104))]).map
      (fun s => (s.loop, s.manager.addresses, s.live, s.accepting))
      = some (.running, [0, 1], [], 1) := by
    decide +kernel
  obtain ⟨s, hrun, hs⟩ := Option.map_eq_some_iff.mp hfailed
  obtain ⟨s', hrun', hs'⟩ := Option.map_eq_some_iff.mp hwrite
  simp only [Prod.mk.injEq] at hs hs'
  refine ⟨⟨s, hrun, hs⟩, ⟨s', hrun', hs'⟩, fun hall => ?_⟩
  obtain ⟨hexact, -⟩ := (hall _).last hrun hs.1
  rw [hs.2.1, hs.2.2.1, hs.2.2.2] at hexact
  cases hexact

end Acs
