import AsioClientServer.Server.AsyncTcpServer

/-!
# Prefix and payload

`Protocol::deserialize` reads a prefix that an earlier handler has left in the protocol object. In
between, the loop of the reader has scheduled the read of the next prefix, responses have been
serialized through the same object, and handlers of other connections have run.

* `PairedRun`: the server with a history of each connection: the bytes it has received, and the
  calls of `deserialize`, which are those `_handleRead` makes (`onRead_deserializeCalls`).
* `Paired`: the calls are the complete frames the bytes begin with.
* `serverRun_paired`: every connection of every run is paired.
-/

namespace Acs

/-! ## The calls of `deserialize` -/

/-- The bytes that arrive with an event. -/
def ReadEvent.bytes : ReadEvent → Bytes
  | .received piece => piece
  | .completed | .failed _ => []

/-- The call of `deserialize` that the handler of a read makes: the prefix that is cached when
`_handleRead` is called, and the payload it is called with. -/
def TcpConnection.deserializeCalls (c : TcpConnection) (event : ReadEvent) : List Frame :=
  match c.reader.onEvent c.protocol event with
  | none => []
  | some res =>
    match res.exit with
    | .calls _ data _ => [⟨res.protocol.deserFramePrefixCache, data⟩]
    | .returned | .threw _ => []

/-- The server, with the history of every connection it has had. The history is kept by address, and
no address is used twice. -/
structure PairedRun where
  server : ServerRun
  /-- The bytes that have arrived. -/
  received : Nat → Bytes := fun _ => []
  /-- The calls of `deserialize`. -/
  deserialized : Nat → List Frame := fun _ => []

/-- The calls of `deserialize` are the complete frames at the front of the bytes: of every call, the
cached prefix is what the ten bytes before its payload say. -/
def Paired (received : Bytes) (deserialized : List Frame) : Prop :=
  ∃ done rest, FramesOf maxReadBufferSizeBytes done deserialized ∧ received = done ++ rest

section ReadEvents

variable {c : TcpConnection} {frames : List Frame} {read : Bytes} {event : ReadEvent}
  {out : Option Failure × TcpConnection}

/-- The call is read off the way the handler ends. -/
theorem TcpConnection.deserializeCalls_of_onEvent {res : HandlerResult Unit Unit}
    (h : c.reader.onEvent c.protocol event = some res) :
    c.deserializeCalls event = match res.exit with
      | .calls _ data _ => [⟨res.protocol.deserFramePrefixCache, data⟩]
      | .returned | .threw _ => [] := by
  unfold deserializeCalls
  rw [h]

/-- `_handleRead` begins with a call of `deserialize` on the protocol object of the connection: if it
throws, so does `_handleRead`, and otherwise its message is what is given to the handler. -/
theorem TcpConnection.handleRead_deserialize (c : TcpConnection) (data : Bytes) :
    (∃ f, c.protocol.deserialize data = .error f ∧ c.handleRead data = (some f, c)) ∨
    ∃ message, c.protocol.deserialize data = .ok message ∧
      c.respond data = EchoHandler.handleServer message c.protocol := by
  simp only [handleRead, respond]
  cases c.protocol.deserialize data with
  | error f => exact Or.inl ⟨f, rfl, rfl⟩
  | ok message => exact Or.inr ⟨message, rfl, rfl⟩

/-- **What is recorded is the call that is made.** A handler for which no call is recorded does not
get to `_handleRead`. One with a call is `_handleRead` on the recorded payload, in a connection whose
protocol object holds the recorded prefix, so this is the pair that the `deserialize` in it sees
(`handleRead_deserialize`). -/
theorem TcpConnection.onRead_deserializeCalls (hr : c.onRead event = some out) :
    (c.deserializeCalls event = [] ∧ ∃ reader protocol, out.2 = { c with reader, protocol }) ∨
    ∃ received reader protocol, c.deserializeCalls event = [received] ∧
      protocol.deserFramePrefixCache = received.framePrefix ∧
      out.1 = ({ c with reader, protocol }.handleRead received.payload).1 ∧
      ∃ reader', out.2
        = { ({ c with reader, protocol }.handleRead received.payload).2 with reader := reader' } := by
  obtain ⟨res, hres, rfl⟩ := Option.map_eq_some_iff.mp hr
  have hcalls := deserializeCalls_of_onEvent hres
  cases hexit : res.exit with
  | returned =>
    rw [hexit] at hcalls
    exact Or.inl ⟨hcalls, res.reader, res.protocol, by rw [afterHandler, hexit]⟩
  | threw f =>
    rw [hexit] at hcalls
    exact Or.inl ⟨hcalls, res.reader, res.protocol, by rw [afterHandler, hexit]⟩
  | calls callback data once =>
    rw [hexit] at hcalls
    refine Or.inr ⟨⟨res.protocol.deserFramePrefixCache, data⟩, res.reader, res.protocol, hcalls, rfl,
      ?_⟩
    simp only [afterHandler, hexit]
    generalize { c with reader := res.reader, protocol := res.protocol }.handleRead data = called
    obtain ⟨failure | f, c'⟩ := called
    · exact ⟨rfl, res.afterCallback, rfl⟩
    · exact ⟨rfl, c'.reader, rfl⟩

/-- **One event of a reader.** A payload is handed to `deserialize` while the cache holds the prefix
that was read before it. -/
theorem TcpConnection.Receiving.paired (h : c.Receiving frames read)
    (hr : c.onRead event = some out) :
    Paired (read ++ event.bytes) (frames ++ c.deserializeCalls event) ∧
      (out.1 = none →
        out.2.Receiving (frames ++ c.deserializeCalls event) (read ++ event.bytes)) := by
  obtain ⟨res, hres, hout⟩ := Option.map_eq_some_iff.mp hr
  have hcalls := deserializeCalls_of_onEvent hres
  cases event with
  -- only a completed read of a payload calls `deserialize`; otherwise the history is as before
  | received piece =>
    obtain ⟨hexit, -, -⟩ := FramedPhase.received h hres
    simp only [hexit] at hcalls
    obtain ⟨reader, heq, hreceiving, -⟩ := h.received hr
    rw [hcalls, List.append_nil]
    exact ⟨FramedPhase.framesOf hreceiving, fun _ => hreceiving⟩
  | failed e =>
    obtain ⟨hexit, -⟩ := FramedPhase.failed h hres
    simp only [hexit] at hcalls
    obtain ⟨hfailure, -⟩ := h.failed hr
    rw [hcalls, ReadEvent.bytes, List.append_nil, List.append_nil]
    exact ⟨FramedPhase.framesOf h, fun hnone => by rw [hfailure] at hnone; cases hnone⟩
  | completed =>
    rw [ReadEvent.bytes, List.append_nil]
    -- an exception of the reader leaves before the callback is called
    have hthrew : ∀ f, res.exit = .threw f → Paired read (frames ++ c.deserializeCalls .completed) ∧
        (out.1 = none → out.2.Receiving (frames ++ c.deserializeCalls .completed) read) := by
      intro f hexit
      simp only [hexit] at hcalls
      rw [hcalls, List.append_nil]
      refine ⟨FramedPhase.framesOf h, fun hnone => ?_⟩
      rw [← hout] at hnone
      simp [afterHandler, hexit] at hnone
    cases FramedPhase.completed (by decide) h hres with
    | scheduled hreads hparse hmax hexit hphase =>
      simp only [hexit] at hcalls
      rw [hcalls, List.append_nil]
      refine ⟨FramedPhase.framesOf h, fun _ => ?_⟩
      rw [← hout]
      simp only [afterHandler, hexit]
      exact hphase
    -- the prefix in the cache was read from the ten bytes before this payload
    | delivered hreads hexit hprotocol hlen hphase =>
      simp only [hexit, hprotocol] at hcalls
      rw [hcalls]
      refine ⟨FramedPhase.framesOf hphase, fun hnone => ?_⟩
      cases h.completed hr with
      | answered _ _ _ _ hreceiving => exact hreceiving
      | scheduled hreads' => rw [hreads] at hreads'; cases hreads'
      | stopped hreads' => rw [hreads] at hreads'; cases hreads'
      | refused _ _ hfailure => rw [hfailure] at hnone; cases hnone
    | badPrefix _ hexit => exact hthrew _ hexit
    | tooLong _ hexit => exact hthrew _ hexit

end ReadEvents

/-! ## The system -/

namespace PairedRun

/-- No connection has a history. -/
def start : PairedRun :=
  { server := ServerRun.start }

/-- The history after an event of the server: of a read, the bytes and the call of its
connection. -/
def record (s : PairedRun) (event : ServerRun.Event) (server : ServerRun) : PairedRun :=
  match event with
  | .connection address (.read event) =>
    { server
      received := Function.update s.received address (s.received address ++ event.bytes)
      deserialized := Function.update s.deserialized address (s.deserialized address ++
        match s.server.manager.find address with
        | none => []
        | some c => c.deserializeCalls event) }
  | _ => { s with server }

/-- A step of the server, with the history. -/
def step (s : PairedRun) (event : ServerRun.Event) : Option PairedRun :=
  (s.server.step event).map (s.record event)

/-! ## The invariant -/

/-- Where a connection of the list stands: it waits to be accepted and has received nothing, or it
receives, and its history says what. -/
def Phase (s : PairedRun) (node : ConnectionNode) : Prop :=
  (node.connection.reader = { maxBufferSize := maxReadBufferSizeBytes } ∧
      s.received node.address = [] ∧ s.deserialized node.address = []) ∨
    node.connection.Receiving (s.deserialized node.address) (s.received node.address)

/-- While the server runs, the history fits the state of every connection; an address that has not
been given away has none. -/
structure Running (s : PairedRun) : Prop where
  server : s.server.Inv
  phase : ∀ node ∈ s.server.manager.connections, s.Phase node
  fresh : ∀ address, s.server.manager.nextAddress ≤ address →
    s.received address = [] ∧ s.deserialized address = []

/-- What every reachable state has. The first part is about all connections there have ever been,
the second about those that go on. -/
structure Inv (s : PairedRun) : Prop where
  paired : ∀ address, Paired (s.received address) (s.deserialized address)
  running : s.server.loop = .running → Running s

theorem paired_nil : Paired [] [] :=
  ⟨[], [], .nil, rfl⟩

theorem inv_start : Inv start := by
  refine ⟨fun _ => paired_nil, fun _ => ⟨ServerRun.inv_start, ?_, fun _ _ => ⟨rfl, rfl⟩⟩⟩
  intro node hnode
  obtain rfl := List.mem_singleton.mp hnode
  exact Or.inl ⟨rfl, rfl, rfl⟩

variable {s s' : PairedRun} {server : ServerRun}

/-- A connection stands where it stood when its reader and its protocol object are as before. -/
theorem Phase.congr {node node' : ConnectionNode} (h : s.Phase node)
    (haddress : node'.address = node.address)
    (hreader : node'.connection.reader = node.connection.reader)
    (hprotocol : node'.connection.protocol = node.connection.protocol) : s.Phase node' := by
  unfold Phase TcpConnection.Receiving at h ⊢
  rw [haddress, hreader, hprotocol]
  exact h

/-- A new connection waits to be accepted; its address is a fresh one. -/
theorem running_startAccept (hserver : server.startAccept.Inv)
    (hphase : ∀ node ∈ server.manager.connections, s.Phase node)
    (hfresh : ∀ address, server.manager.nextAddress ≤ address →
      s.received address = [] ∧ s.deserialized address = []) :
    Running { s with server := server.startAccept } := by
  refine ⟨hserver, ?_, fun address haddress => hfresh address (Nat.le_of_succ_le haddress)⟩
  intro node hnode
  rcases List.mem_append.mp hnode with hmem | hnew
  · exact hphase node hmem
  · obtain rfl := List.mem_singleton.mp hnew
    obtain ⟨hreceived, hdeserialized⟩ := hfresh _ (Nat.le_refl _)
    exact Or.inl ⟨rfl, hreceived, hdeserialized⟩

/-- The connection that is accepted has no history yet. Nothing happens to it before, so nothing is
recorded. -/
theorem Running.accepting (h : Running s) {c : TcpConnection}
    (hfind : s.server.manager.find s.server.accepting = some c) :
    s.received s.server.accepting = [] ∧ s.deserialized s.server.accepting = [] := by
  have hmem := ConnectionManager.mem_of_find hfind
  obtain ⟨hreader, -⟩ := h.server.accepting _ hmem rfl
  rcases h.phase _ hmem with ⟨-, hreceived, hdeserialized⟩ | hreceiving
  · exact ⟨hreceived, hdeserialized⟩
  · -- a connection that receives has a read outstanding
    obtain ⟨op, handler, hout⟩ := FramedPhase.outstanding hreceiving
    rw [hreader] at hout
    cases hout

/-- An accept starts a connection without a history, and another one waits. -/
theorem Running.accepted (h : Running s) (hserver : (s.server.handleAccept none).Inv)
    (hrunning : (s.server.handleAccept none).loop = .running) :
    Running { s with server := s.server.handleAccept none } := by
  cases hfind : s.server.manager.find s.server.accepting with
  | none =>
    simp only [ServerRun.handleAccept, hfind] at hrunning
    cases hrunning
  | some c =>
    obtain ⟨c', -, hreceiving, heq⟩ := ServerRun.handleAccept_eq h.server hfind
    obtain ⟨hreceived, hdeserialized⟩ := h.accepting hfind
    rw [heq] at hserver ⊢
    refine running_startAccept hserver ?_ h.fresh
    intro node hnode
    rcases ConnectionManager.mem_update hnode with ⟨haddress, hconn⟩ | ⟨-, hmem⟩
    · refine Or.inr ?_
      rw [haddress, hconn, hreceived, hdeserialized]
      exact hreceiving
    · exact h.phase node hmem

/-- One connection has changed, and with it nothing but its own history. -/
theorem Running.update (h : Running s) {address : Nat} {c : TcpConnection} (hserver : s'.server.Inv)
    (hmanager : s'.server.manager = s.server.manager.update address c)
    (hmem : address ∈ s.server.manager.addresses)
    (hother : ∀ a, a ≠ address →
      s'.received a = s.received a ∧ s'.deserialized a = s.deserialized a)
    (hphase : s'.Phase ⟨address, c⟩) : Running s' := by
  refine ⟨hserver, ?_, ?_⟩
  · intro node hnode
    rw [hmanager] at hnode
    rcases ConnectionManager.mem_update hnode with ⟨haddress, hconn⟩ | ⟨haddress, hmem⟩
    · refine hphase.congr haddress ?_ ?_ <;> rw [hconn]
    · obtain ⟨hreceived, hdeserialized⟩ := hother _ haddress
      have := h.phase node hmem
      unfold Phase at this ⊢
      rw [hreceived, hdeserialized]
      exact this
  · intro a ha
    have hlt := h.server.fresh _ hmem
    rw [hmanager, ConnectionManager.nextAddress_update] at ha
    obtain ⟨hreceived, hdeserialized⟩ := hother a (by omega)
    rw [hreceived, hdeserialized]
    exact h.fresh a ha

/-- What the reader of a connection that something happens to has read is its history. It stands in
the phase that its history says. -/
theorem Running.receiving (h : Running s) {address : Nat} {c : TcpConnection}
    {event : TcpConnection.Event} {res : TcpConnection.Result}
    (hfind : s.server.manager.find address = some c) (hres : c.onEvent event = some res) :
    c.Receiving (s.deserialized address) (s.received address) := by
  obtain ⟨-, -, frames, read, hreceiving⟩ := h.server.receiving_of_onEvent hfind hres
  rcases h.phase _ (ConnectionManager.mem_of_find hfind) with ⟨hreader, -⟩ | hreceiving'
  · obtain ⟨op, handler, hout⟩ := FramedPhase.outstanding hreceiving
    rw [hreader] at hout
    cases hout
  · exact hreceiving'

/-- **An event of a reader** goes into the history of its connection. -/
theorem inv_read (h : Inv s) {address : Nat} {event : ReadEvent} (hloop : s.server.loop = .running)
    (hstep : s.server.step (.connection address (.read event)) = some server) :
    Inv (s.record (.connection address (.read event)) server) := by
  have hrunning := h.running hloop
  obtain ⟨c, res, hfind, hres, -, hcases⟩ :=
    ServerRun.afterEvent_cases hrunning.server hstep
  have hreceiving := hrunning.receiving hfind hres
  obtain ⟨out, hout, rfl⟩ := Option.map_eq_some_iff.mp hres
  obtain ⟨hpaired, hnext⟩ := hreceiving.paired hout
  have hserver := ServerRun.inv_step (fun _ => hrunning.server) hstep
  simp only [record, hfind]
  -- the history grows at the address of the event; the others are those of connections that have
  -- not moved
  constructor
  · intro a
    by_cases ha : a = address
    · subst ha
      simp only [Function.update_self]
      exact hpaired
    · simp only [Function.update_of_ne ha]
      exact h.paired a
  · intro hrunning'
    -- a handler that throws ends the loop, and nothing is claimed of a loop that has ended
    rcases hcases with ⟨-, f, hexit⟩ | ⟨-, hnone, -, rfl⟩
    · simp only [hexit] at hrunning'
      cases hrunning'
    · refine hrunning.update (hserver hrunning') rfl
        (List.mem_map_of_mem (ConnectionManager.mem_of_find hfind)) ?_ (Or.inr ?_)
      · intro a ha
        simp only [Function.update_of_ne ha, and_self]
      · simp only [Function.update_self]
        exact hnext hnone

/-- **An event of a write** leaves the reader, the protocol object and the history alone. -/
theorem inv_write (h : Inv s) {address : Nat} {event : TcpConnection.Event}
    (hevent : ∀ e, event ≠ .read e) (hloop : s.server.loop = .running)
    (hstep : s.server.step (.connection address event) = some server) :
    Inv { s with server } := by
  have hrunning := h.running hloop
  obtain ⟨c, res, hfind, hres, -, hcases⟩ :=
    ServerRun.afterEvent_cases hrunning.server hstep
  have hreceiving := hrunning.receiving hfind hres
  have hserver := ServerRun.inv_step (fun _ => hrunning.server) hstep
  refine ⟨h.paired, fun hrunning' => ?_⟩
  rcases hcases with ⟨-, f, hexit⟩ | ⟨-, -, -, rfl⟩
  · simp only [hexit] at hrunning'
    cases hrunning'
  · obtain ⟨hreader, hprotocol⟩ := TcpConnection.onEvent_write_frame hevent hres
    refine hrunning.update (hserver hrunning') rfl
      (List.mem_map_of_mem (ConnectionManager.mem_of_find hfind)) (fun _ _ => ⟨rfl, rfl⟩)
      (Or.inr ?_)
    unfold TcpConnection.Receiving at hreceiving ⊢
    rw [hreader, hprotocol]
    exact hreceiving

/-- **Every event keeps prefix and payload paired**, whatever connection it is about. The accepts
add connections without a history, and a close takes a connection away from what is asked of the
running ones. -/
theorem inv_step {event : ServerRun.Event} (h : Inv s) (hs' : s.step event = some s') :
    Inv s' := by
  obtain ⟨server, hstep, rfl⟩ := Option.map_eq_some_iff.mp hs'
  have hloop := ServerRun.running_of_step hstep
  have hrunning := h.running hloop
  have hserver := ServerRun.inv_step (fun _ => hrunning.server) hstep
  cases ServerRun.step_cases hstep with
  | @connection address event =>
    cases event with
    | read event => exact inv_read h hloop hstep
    | transfer i n => exact inv_write h (by simp) hloop hstep
    | written i => exact inv_write h (by simp) hloop hstep
    | writeError i e => exact inv_write h (by simp) hloop hstep
  -- these three call no handler of a reader, so no history grows
  | accepted =>
    refine ⟨h.paired, fun hrunning' => ?_⟩
    exact hrunning.accepted (hserver hrunning') hrunning'
  | acceptFailed =>
    refine ⟨h.paired, fun hrunning' => ?_⟩
    exact running_startAccept (hserver hrunning') hrunning.phase hrunning.fresh
  | close =>
    refine ⟨h.paired, fun hrunning' => ?_⟩
    exact ⟨hserver hrunning', fun node hnode => hrunning.phase node (List.mem_of_mem_filter hnode),
      hrunning.fresh⟩
  | aborted => exact ⟨h.paired, fun hrunning' => by cases hrunning'⟩

end PairedRun

/-- **Prefix and payload stay paired.** In every run of the server, with any number of connections
and any interleaving of accepts, reads, writes, responses and closes: the calls of `deserialize` a
connection has made are, one by one, the frames its byte stream begins with. Each call found in the
cache the prefix whose bytes come right before the payload it was given. -/
theorem serverRun_paired {es : List ServerRun.Event} {s : PairedRun}
    (hrun : Runs.run PairedRun.step PairedRun.start es = some s) (address : Nat) :
    Paired (s.received address) (s.deserialized address) :=
  (Runs.run_invariant (fun _ _ _ h hs => PairedRun.inv_step h hs) PairedRun.inv_start hrun).paired
    address

/-- Two connections receive a prefix each, and then the payload of the first one and of the second
one; the first response is written in between. -/
theorem serverRun_paired_two :
    let events : List ServerRun.Event := [.accepted, .accepted,
      .connection 0 (.read (.received [13, 4, 0, 0, 0, 29, 1, 0, 0, 0])),
      .connection 0 (.read .completed),
      .connection 1 (.read (.received [13, 7, 0, 0, 0, 29, 1, 0, 0, 0])),
      .connection 1 (.read .completed), .connection 0 (.transfer 0 60),
      .connection 0 (.read (.received [8, 1, 120, 4])), .connection 0 (.read .completed),
      .connection 1 (.read (.received [8, 2, 18, 1, 104, 120, 4])),
      .connection 1 (.read .completed), .connection 0 (.read (.received [13, 5, 0, 0, 0]))]
    ∃ s, Runs.run PairedRun.step PairedRun.start events = some s ∧
      (∀ address, Paired (s.received address) (s.deserialized address)) ∧
      s.deserialized 0 = [⟨{ size := 4, type := 1 }, [8, 1, 120, 4]⟩] ∧
      s.deserialized 1 = [⟨{ size := 7, type := 1 }, [8, 2, 18, 1, 104, 120, 4]⟩] ∧
      s.received 0 = [13, 4, 0, 0, 0, 29, 1, 0, 0, 0, 8, 1, 120, 4, 13, 5, 0, 0, 0] := by
  intro events
  have hresult : (Runs.run PairedRun.step PairedRun.start events).map
      (fun s => (s.deserialized 0, s.deserialized 1, s.received 0))
      = some ([⟨{ size := 4, type := 1 }, [8, 1, 120, 4]⟩],
        [⟨{ size := 7, type := 1 }, [8, 2, 18, 1, 104, 120, 4]⟩],
        [13, 4, 0, 0, 0, 29, 1, 0, 0, 0, 8, 1, 120, 4, 13, 5, 0, 0, 0]) := by
    decide +kernel
  obtain ⟨s, hrun, hs⟩ := Option.map_eq_some_iff.mp hresult
  simp only [Prod.mk.injEq] at hs
  exact ⟨s, hrun, serverRun_paired hrun, hs⟩

end Acs
