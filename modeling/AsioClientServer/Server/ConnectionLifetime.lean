import AsioClientServer.Server.AsyncTcpServer

/-!
# The handlers of destroyed connections

`closeConnection` destroys a connection at once, also from inside one of its own handlers. The
handlers of its reads and writes hold a reference to it. Asio completes these operations later,
with `operation_aborted`, and runs their handlers.

* `LifetimeRun`: a server whose connections have handlers of both classes, with the operations that
  have outlived their connections.
* `completions_reach_elements_iff`: the runs in which no handler runs for a destroyed connection.
* `not_closesIdle_of_started`: closing a started connection always leaves an operation behind.
* `agrees_of_run`: the runs of the server program are among these runs.
-/

namespace Acs

/-! ## The system -/

/-- A server whose program may create, start, use and close connections as it likes. The program at
hand closes none; the interface it is written against lets it. -/
structure LifetimeRun where
  manager : ConnectionManager
  /-- The connection the outstanding `async_accept` refers to. -/
  accepting : Nat
  loop : Loop := .running
  /-- The operations of destroyed connections, each with the reference its handler holds. -/
  orphans : List (Nat × PendingOperation) := []
  deriving DecidableEq, Repr

/-- What the program does with its connections, and the completions of their operations. A
completion may come after the close of its connection, as the documentation of `asio` has it:
closing a socket completes its operations with an error, later. -/
inductive LifetimeRun.Event where
  | accepted
  | acceptFailed (e : Asio.ErrorCode)
  /-- The program calls `newConnection` with a client handler of its choice. -/
  | newConnection (handler : ClientHandler)
  | start (address : Nat)
  | send (address : Nat) (message : Bytes)
  | connection (address : Nat) (event : TcpConnection.Event)
  /-- The program calls `closeConnection`. -/
  | close (address : Nat)
  /-- The handler of the `i`-th operation of the destroyed connections runs. -/
  | aborted (i : Nat)
  deriving DecidableEq, Repr

/-- The operations that outlive the connections `purgeConnection` destroys. Each keeps the address
its handler was bound to. -/
def ConnectionManager.orphansOf (m : ConnectionManager) (c : TcpConnection) :
    List (Nat × PendingOperation) :=
  (m.connections.filter fun node => node.connection.id = c.id).flatMap fun node =>
    node.connection.pending.map (Prod.mk node.address)

namespace LifetimeRun

/-- The part of the state that the server program has too. -/
def server (s : LifetimeRun) : ServerRun :=
  { manager := s.manager, accepting := s.accepting, loop := s.loop }

/-- The server has been constructed, and nothing else has been done. -/
def initial : LifetimeRun :=
  { manager := ServerRun.start.manager, accepting := ServerRun.start.accepting }

/-- `handleAccept`, as the server has it. -/
def handleAccept (s : LifetimeRun) (error : Option Asio.ErrorCode) : LifetimeRun :=
  let t := s.server.handleAccept error
  { s with manager := t.manager, accepting := t.accepting, loop := t.loop }

/-- The program starts a connection of its own. It need not have been accepted, as with a connection
the program makes itself. -/
def startConnection (s : LifetimeRun) (address : Nat) (c : TcpConnection) : LifetimeRun :=
  let started := c.start
  { s with
    manager := s.manager.update address started.2
    loop := match started.1 with
      | some f => .exited f
      | none => s.loop }

/-- A connection is closed. Each of its operations keeps the reference its handler holds. The
element is removed at once, while its operations complete later, in the loop. -/
def closeConnection (s : LifetimeRun) (c : TcpConnection) : LifetimeRun :=
  { s with
    manager := s.manager.closeConnection c
    orphans := s.orphans ++ s.manager.orphansOf c }

/-- The state after a handler of a connection. A handler that closes its connection destroys it
while it runs. -/
def afterEvent (s : LifetimeRun) (address : Nat) (res : TcpConnection.Result) : LifetimeRun :=
  let s := { s with manager := s.manager.update address res.connection }
  match res.failure with
  | some f => { s with loop := .exited f }
  | none => if res.closes then s.closeConnection res.connection else s

/-- The next state, `none` where the event is not possible. An operation that outlived its
connection can complete; what its handler does then is not defined. -/
def step (s : LifetimeRun) (event : Event) : Option LifetimeRun :=
  if s.loop = .running then
    match event with
    | .accepted => some (s.handleAccept none)
    | .acceptFailed e => some (s.handleAccept (some e))
    | .newConnection handler => some { s with manager := (s.manager.newConnection handler).2 }
    | .start address => (s.manager.find address).map (s.startConnection address)
    | .send address message =>
      (s.manager.find address).map fun c =>
        { s with manager := s.manager.update address (c.send message) }
    | .connection address event =>
      (s.manager.find address).bind fun c => (c.onEvent event).map (s.afterEvent address)
    | .close address => (s.manager.find address).map s.closeConnection
    | .aborted i => (s.orphans[i]?).map fun _ => { s with loop := .undefined }
  else none

/-- The connection on whose behalf a completion handler of a read or a write runs, if one does. It
is the one the handler was bound to when the operation was started. -/
def completionFor (s : LifetimeRun) : Event → Option Nat
  | .connection address (.read .completed) => some address
  | .connection address (.read (.failed _)) => some address
  | .connection address (.written _) => some address
  | .connection address (.writeError _ _) => some address
  | .aborted i => (s.orphans[i]?).map (·.1)
  | _ => none

/-- Whichever completion handler runs next, its connection is in the list. This is what the handlers
rely on when they use the `this` they have captured. -/
def CompletionsReachElements (s : LifetimeRun) : Prop :=
  ∀ event s' address, s.step event = some s' → s.completionFor event = some address →
    address ∈ s.manager.addresses

/-- The events that destroy no connection with an outstanding operation. A handler that closes its
connection runs for the only operation of it. -/
def ClosesIdle (s : LifetimeRun) : Event → Prop
  | .close address => ∀ c, s.manager.find address = some c →
      ∀ node ∈ s.manager.connections, node.connection.id = c.id → node.connection.pending = []
  | .connection address event => event.completesWrite = true →
      ∀ c, s.manager.find address = some c → c.handler.handleSendComplete = true →
        c.pending.length = 1 ∧
          ∀ node ∈ s.manager.connections, node.address ≠ address →
            node.connection.id = c.id → node.connection.pending = []
  | _ => True

/-! ## Addresses of destroyed connections -/

/-- No address in the list is the address of a destroyed connection, and none will be: a new
connection does not come to stand where a handler still refers to. -/
structure Accounted (m : ConnectionManager) (orphans : List (Nat × PendingOperation)) : Prop where
  addressed : m.WellAddressed
  destroyed : ∀ op ∈ orphans, op.1 ∉ m.addresses ∧ op.1 < m.nextAddress

variable {m : ConnectionManager} {orphans : List (Nat × PendingOperation)}

/-- The address of a new connection is not one that a handler still refers to. -/
theorem Accounted.newConnection (h : Accounted m orphans) (handler : ClientHandler) :
    Accounted (m.newConnection handler).2 orphans := by
  refine ⟨h.addressed.newConnection handler, fun op hop => ?_⟩
  obtain ⟨hnot, hlt⟩ := h.destroyed op hop
  show op.1 ∉ (m.newConnection handler).2.addresses ∧ op.1 < m.nextAddress + 1
  rw [ConnectionManager.addresses_newConnection, List.mem_append, List.mem_singleton]
  refine ⟨?_, by omega⟩
  rintro (hmem | heq)
  · exact hnot hmem
  · omega

/-- A change of a connection changes no address. -/
theorem Accounted.update (h : Accounted m orphans) (address : Nat) (c : TcpConnection) :
    Accounted (m.update address c) orphans :=
  ⟨h.addressed.update address c, by simpa using h.destroyed⟩

/-- The operations that outlive their connection join those that did before. Their addresses are no
longer in the list, as the element has been removed. -/
theorem Accounted.closeConnection (h : Accounted m orphans) (c : TcpConnection) :
    Accounted (m.closeConnection c) (orphans ++ m.orphansOf c) := by
  have hsub : (m.closeConnection c).addresses ⊆ m.addresses :=
    (List.filter_sublist.map _).subset
  refine ⟨h.addressed.closeConnection c, fun op hop => ?_⟩
  rcases List.mem_append.mp hop with hop | hop
  · obtain ⟨hnot, hlt⟩ := h.destroyed op hop
    exact ⟨fun hmem => hnot (hsub hmem), hlt⟩
  · obtain ⟨node, hpurged, hop⟩ := List.mem_flatMap.mp hop
    obtain ⟨hnode, hid⟩ := List.mem_filter.mp hpurged
    obtain ⟨pending, -, rfl⟩ := List.mem_map.mp hop
    refine ⟨fun hmem => ?_, h.addressed.fresh _ (List.mem_map_of_mem hnode)⟩
    -- an element that is left and has this address is the one that was removed
    obtain ⟨kept, hkept, haddress⟩ := List.mem_map.mp hmem
    obtain ⟨hmem', hid'⟩ := List.mem_filter.mp hkept
    obtain rfl : kept = node :=
      List.inj_on_of_nodup_map h.addressed.nodup hmem' hnode haddress
    simp only [decide_eq_true_eq] at hid hid'
    exact hid' hid

/-- An accept changes one connection and creates another one. -/
theorem Accounted.handleAccept {s : ServerRun} (h : Accounted s.manager orphans)
    (error : Option Asio.ErrorCode) : Accounted (s.handleAccept error).manager orphans := by
  cases error with
  | some e => exact h.newConnection _
  | none =>
    simp only [ServerRun.handleAccept]
    split
    · exact h
    · split
      · exact h.update _ _
      · exact (h.update _ _).newConnection _

variable {s s' : LifetimeRun}

theorem running_of_step {event : Event} (hstep : s.step event = some s') : s.loop = .running := by
  unfold step at hstep
  split at hstep
  · next hloop => exact hloop
  · cases hstep

/-- What an event does, with the conditions under which it is possible. -/
inductive Stepped (s : LifetimeRun) : Event → LifetimeRun → Prop
  | accepted : Stepped s .accepted (s.handleAccept none)
  | acceptFailed {e : Asio.ErrorCode} : Stepped s (.acceptFailed e) (s.handleAccept (some e))
  | newConnection {handler : ClientHandler} : Stepped s (.newConnection handler)
      { s with manager := (s.manager.newConnection handler).2 }
  | start {address : Nat} {c : TcpConnection} (hfind : s.manager.find address = some c) :
      Stepped s (.start address) (s.startConnection address c)
  | send {address : Nat} {message : Bytes} {c : TcpConnection}
      (hfind : s.manager.find address = some c) :
      Stepped s (.send address message)
        { s with manager := s.manager.update address (c.send message) }
  | connection {address : Nat} {event : TcpConnection.Event} {c : TcpConnection}
      {res : TcpConnection.Result} (hfind : s.manager.find address = some c)
      (hres : c.onEvent event = some res) :
      Stepped s (.connection address event) (s.afterEvent address res)
  | close {address : Nat} {c : TcpConnection} (hfind : s.manager.find address = some c) :
      Stepped s (.close address) (s.closeConnection c)
  | aborted {i : Nat} {op : Nat × PendingOperation} (hop : s.orphans[i]? = some op) :
      Stepped s (.aborted i) { s with loop := .undefined }

/-- **A step, taken apart.** The invariants are derived from this, and never from the step
function. -/
theorem step_cases {event : Event} (hstep : s.step event = some s') : Stepped s event s' := by
  unfold step at hstep
  rw [if_pos (running_of_step hstep)] at hstep
  cases event with
  | accepted =>
    obtain rfl := Option.some.inj hstep
    exact .accepted
  | acceptFailed e =>
    obtain rfl := Option.some.inj hstep
    exact .acceptFailed
  | newConnection handler =>
    obtain rfl := Option.some.inj hstep
    exact .newConnection
  | start address =>
    obtain ⟨c, hfind, rfl⟩ := Option.map_eq_some_iff.mp hstep
    exact .start hfind
  | send address message =>
    obtain ⟨c, hfind, rfl⟩ := Option.map_eq_some_iff.mp hstep
    exact .send hfind
  | connection address event =>
    obtain ⟨c, hfind, hstep⟩ := Option.bind_eq_some_iff.mp hstep
    obtain ⟨res, hres, rfl⟩ := Option.map_eq_some_iff.mp hstep
    exact .connection hfind hres
  | close address =>
    obtain ⟨c, hfind, rfl⟩ := Option.map_eq_some_iff.mp hstep
    exact .close hfind
  | aborted i =>
    obtain ⟨op, hop, rfl⟩ := Option.map_eq_some_iff.mp hstep
    exact .aborted hop

/-- **Every event keeps the account.** Only a close moves addresses, from the list to those of the
operations left behind. -/
theorem accounted_step {event : Event} (h : Accounted s.manager s.orphans)
    (hstep : s.step event = some s') : Accounted s'.manager s'.orphans := by
  cases step_cases hstep with
  | accepted => exact Accounted.handleAccept (s := s.server) h none
  | @acceptFailed e => exact Accounted.handleAccept (s := s.server) h (some e)
  | newConnection => exact h.newConnection _
  | start => exact h.update _ _
  | send => exact h.update _ _
  | connection =>
    unfold afterEvent
    dsimp only
    split
    · exact h.update _ _
    · split
      · exact (h.update _ _).closeConnection _
      · exact h.update _ _
  | @close _ c => exact h.closeConnection c
  | aborted => exact h

theorem accounted_initial : Accounted initial.manager initial.orphans :=
  ⟨⟨by decide, by decide⟩, by decide⟩

/-- **A handler runs for an element exactly when no operation has outlived its connection.** So the
property of all completions comes down to one about the state. -/
theorem completionsReachElements_iff (h : Accounted s.manager s.orphans) :
    s.CompletionsReachElements ↔ (s.loop = .running → s.orphans = []) := by
  constructor
  · intro hreach hloop
    cases horphans : s.orphans with
    | nil => rfl
    | cons op rest =>
      -- an orphan can complete, and its connection is not in the list any more
      have hstep : s.step (.aborted 0) = some { s with loop := .undefined } := by
        simp only [step, hloop, if_true, horphans, List.getElem?_cons_zero, Option.map_some]
      have hfor : s.completionFor (.aborted 0) = some op.1 := by
        simp only [completionFor, horphans, List.getElem?_cons_zero, Option.map_some]
      have hop : op ∈ s.orphans := horphans ▸ List.mem_cons_self
      exact absurd (hreach _ _ _ hstep hfor) (h.destroyed op hop).1
  · -- without orphans, an operation that completes belongs to a connection that was found in the
    -- list
    intro hnone event s' address hstep hfor
    have hloop := running_of_step hstep
    cases step_cases hstep with
    | @connection address' event c res hfind =>
      have hmem : address' ∈ s.manager.addresses :=
        List.mem_map_of_mem (ConnectionManager.mem_of_find hfind)
      have haddress : address' = address := by
        unfold completionFor at hfor
        split at hfor <;> simp_all
      exact haddress ▸ hmem
    | aborted hop =>
      rw [hnone hloop] at hop
      cases hop
    | accepted | acceptFailed | newConnection | start _ | send _ | close _ => cases hfor

/-! ## Closing a connection -/

/-- A close leaves nothing behind exactly when none of the connections it destroys has an
operation. -/
theorem orphansOf_eq_nil_iff {c : TcpConnection} : m.orphansOf c = [] ↔
    ∀ node ∈ m.connections, node.connection.id = c.id → node.connection.pending = [] := by
  simp only [ConnectionManager.orphansOf, List.flatMap_eq_nil_iff, List.mem_filter,
    List.map_eq_nil_iff, decide_eq_true_eq, and_imp]

/-- The handler of a write that closes its connection leaves no operation behind when the write was
the only one. -/
theorem orphansOf_update_iff {address : Nat} {c : TcpConnection} {i : Nat}
    (hfind : m.find address = some c) (hi : i < c.writes.length) :
    (m.update address
        { c with writes := c.writes.eraseIdx i, writeInProgress := false }).orphansOf
        { c with writes := c.writes.eraseIdx i, writeInProgress := false } = [] ↔
      c.pending.length = 1 ∧
        ∀ node ∈ m.connections, node.address ≠ address →
          node.connection.id = c.id → node.connection.pending = [] := by
  have hlength : c.pending.length = c.reader.outstanding.length + c.writes.length := by
    simp only [TcpConnection.pending, List.length_append, List.length_map]
  -- one operation has just completed, so none is left exactly when there was only this one
  have hpending : ({ c with writes := c.writes.eraseIdx i, writeInProgress := false } :
      TcpConnection).pending = [] ↔ c.pending.length = 1 := by
    rw [← List.length_eq_zero_iff, hlength]
    simp only [TcpConnection.pending, List.length_append, List.length_map,
      List.length_eraseIdx_of_lt hi]
    omega
  rw [orphansOf_eq_nil_iff, ← hpending]
  constructor
  · intro hall
    refine ⟨hall ⟨address, _⟩ (ConnectionManager.mem_update_self hfind _) rfl, ?_⟩
    intro node hnode hne hid
    exact hall node (ConnectionManager.mem_update_of_ne hnode hne _) hid
  · rintro ⟨hself, hothers⟩ node hnode hid
    rcases ConnectionManager.mem_update hnode with ⟨-, hconn⟩ | ⟨hne, hmem⟩
    · rw [hconn]
      exact hself
    · exact hothers node hmem hne hid

/-- **An event leaves no operation behind exactly when it meets the condition.** With
`completionsReachElements_iff` this decides, for every run, whether a handler can run for a
connection that has been destroyed. -/
theorem orphans_step_iff {event : Event} (hnone : s.orphans = []) (hstep : s.step event = some s') :
    (s'.loop = .running → s'.orphans = []) ↔ ClosesIdle s event := by
  have hloop := running_of_step hstep
  -- an operation is orphaned by a close only: one that is asked for, or one after a message has
  -- been sent
  cases step_cases hstep with
  | accepted | acceptFailed | newConnection | start _ | send _ =>
    exact iff_of_true (fun _ => hnone) trivial
  | @connection address event c res hfind hres =>
    simp only [ClosesIdle, hfind, Option.some.injEq, forall_eq', afterEvent]
    rcases TcpConnection.onEvent_closes hres with ⟨hread, hopen⟩ | ⟨hwrite, i, hi, rfl⟩
    · -- no handler of this event closes a connection
      rw [hread, hopen]
      refine iff_of_true ?_ (fun h => nomatch h)
      split
      · exact fun hrunning => nomatch hrunning
      · exact fun _ => hnone
    · -- the write has completed, and the client handler decides whether that closes the connection
      simp only [hwrite, true_imp_iff]
      cases hcloses : c.handler.handleSendComplete with
      | false => exact iff_of_true (fun _ => hnone) (fun h => nomatch h)
      | true =>
        simp only [if_true, true_imp_iff, closeConnection, hloop, hnone, List.nil_append]
        exact orphansOf_update_iff hfind hi
  | @close address c hfind =>
    simp only [ClosesIdle, hfind, Option.some.injEq, forall_eq', closeConnection, hloop,
      true_imp_iff, hnone, List.nil_append]
    exact orphansOf_eq_nil_iff
  | aborted hop =>
    rw [hnone] at hop
    cases hop

end LifetimeRun

/-- **When no handler runs for a destroyed connection.** In every run of accepts, starts, sends,
read and write completions and closes, with client handlers of both classes: all along, whichever
completion handler runs next, its connection is in the list, if and only if no connection is closed
that has an outstanding operation. -/
theorem completions_reach_elements_iff (es : List LifetimeRun.Event) :
    Runs.Along LifetimeRun.step LifetimeRun.CompletionsReachElements LifetimeRun.initial es ↔
      Runs.StepsMeet LifetimeRun.step LifetimeRun.ClosesIdle LifetimeRun.initial es := by
  refine Runs.along_iff_of_invariant (fun _ _ _ h hs => LifetimeRun.accounted_step h hs) ?_
    LifetimeRun.accounted_initial
    ((LifetimeRun.completionsReachElements_iff LifetimeRun.accounted_initial).mpr fun _ => rfl)
  intro s event s' haccounted hreach hstep
  have hnone := (LifetimeRun.completionsReachElements_iff haccounted).mp hreach
    (LifetimeRun.running_of_step hstep)
  rw [LifetimeRun.completionsReachElements_iff (LifetimeRun.accounted_step haccounted hstep)]
  exact LifetimeRun.orphans_step_iff hnone hstep

/-- A client is accepted and its connection is closed while it waits for the first prefix and is
being greeted; and a connection with the test handler closes itself when its message has been
written. In both cases the read that was outstanding completes for a connection that is gone. -/
theorem completion_for_destroyed :
    (∃ s s', Runs.run LifetimeRun.step LifetimeRun.initial [.accepted, .close 0] = some s ∧
      s.step (.aborted 0) = some s' ∧ s.completionFor (.aborted 0) = some 0 ∧
      0 ∉ s.manager.addresses) ∧
    (∃ s s', Runs.run LifetimeRun.step LifetimeRun.initial
        [.newConnection .testClientHandler, .start 1, .connection 1 (.transfer 0 32),
          .connection 1 (.written 0)] = some s ∧
      s.step (.aborted 0) = some s' ∧ s.completionFor (.aborted 0) = some 1 ∧
      1 ∉ s.manager.addresses) ∧
    ¬ ∀ es, Runs.Along LifetimeRun.step LifetimeRun.CompletionsReachElements
      LifetimeRun.initial es := by
  -- a close from outside, with the greeting's write and the read of the prefix outstanding
  have hclosed : (Runs.run LifetimeRun.step LifetimeRun.initial [.accepted, .close 0]).bind
      (fun s => (s.step (.aborted 0)).map fun _ =>
        (s.completionFor (.aborted 0), s.manager.addresses)) = some (some 0, [1]) := by
    decide +kernel
  -- a connection that closes itself after its one message, with the read outstanding
  have hwritten : (Runs.run LifetimeRun.step LifetimeRun.initial
      [.newConnection .testClientHandler, .start 1, .connection 1 (.transfer 0 32),
        .connection 1 (.written 0)]).bind
      (fun s => (s.step (.aborted 0)).map fun _ =>
        (s.completionFor (.aborted 0), s.manager.addresses)) = some (some 1, [0]) := by
    decide +kernel
  obtain ⟨s, hrun, h⟩ := Option.bind_eq_some_iff.mp hclosed
  obtain ⟨s', hstep, hs⟩ := Option.map_eq_some_iff.mp h
  obtain ⟨hfor, haddresses⟩ := Prod.mk.inj hs
  have hgone : 0 ∉ s.manager.addresses := by
    rw [haddresses]
    decide
  obtain ⟨t, hrunT, hT⟩ := Option.bind_eq_some_iff.mp hwritten
  obtain ⟨t', hstepT, ht⟩ := Option.map_eq_some_iff.mp hT
  obtain ⟨hforT, haddressesT⟩ := Prod.mk.inj ht
  refine ⟨⟨s, s', hrun, hstep, hfor, hgone⟩, ⟨t, t', hrunT, hstepT, hforT, ?_⟩, ?_⟩
  · rw [haddressesT]
    decide
  · intro hall
    exact hgone ((hall _).last hrun _ _ _ hstep hfor)

/-! ## Started connections -/

namespace LifetimeRun

/-- The connection has not been started, or receives. This holds with any client handler. The
invariant of all reachable states from which follows that a started connection always has a read
outstanding. -/
def Reads (c : TcpConnection) : Prop :=
  c.reader = { maxBufferSize := maxReadBufferSizeBytes } ∨ ∃ frames read, c.Receiving frames read

/-- An event of a connection keeps this, unless its handler throws. -/
theorem Reads.onEvent {c : TcpConnection} {event : TcpConnection.Event}
    {res : TcpConnection.Result} (h : Reads c) (hres : c.onEvent event = some res)
    (hnone : res.failure = none) : Reads res.connection := by
  rcases h with hreader | ⟨frames, read, hreceiving⟩
  · -- a reader that has not been asked for anything has no events
    have hread : ∀ e, event ≠ .read e := by
      rintro e rfl
      have hout : c.reader.outstanding = [] := by rw [hreader]
      simp only [TcpConnection.onEvent, TcpConnection.onRead,
        AsyncReader.onEvent_of_outstanding_nil hout, Option.map_none] at hres
      cases hres
    exact Or.inl ((TcpConnection.onEvent_write_frame hread hres).1.trans hreader)
  · exact Or.inr (hreceiving.onEvent hres hnone)

/-- All connections in the list are so, while the loop is running. When the loop has ended nothing
is said, for then no close comes any more. -/
def AllRead (s : LifetimeRun) : Prop :=
  s.loop = .running → ∀ node ∈ s.manager.connections, Reads node.connection

variable {m : ConnectionManager} {s s' : LifetimeRun}

/-- A new connection has not been started. -/
theorem reads_newConnection (h : ∀ node ∈ m.connections, Reads node.connection)
    (handler : ClientHandler) :
    ∀ node ∈ (m.newConnection handler).2.connections, Reads node.connection := by
  intro node hnode
  rcases List.mem_append.mp hnode with hmem | hnew
  · exact h node hmem
  · obtain rfl := List.mem_singleton.mp hnew
    exact Or.inl rfl

/-- One connection has changed, and is still so. -/
theorem reads_update (h : ∀ node ∈ m.connections, Reads node.connection) (address : Nat)
    {c : TcpConnection} (hc : Reads c) :
    ∀ node ∈ (m.update address c).connections, Reads node.connection := by
  intro node hnode
  rcases ConnectionManager.mem_update hnode with ⟨-, hconn⟩ | ⟨-, hmem⟩
  · rw [hconn]
    exact hc
  · exact h node hmem

/-- An accept starts a connection and creates another one. -/
theorem reads_handleAccept {s : ServerRun} {error : Option Asio.ErrorCode}
    (h : ∀ node ∈ s.manager.connections, Reads node.connection)
    (hrunning : (s.handleAccept error).loop = .running) :
    ∀ node ∈ (s.handleAccept error).manager.connections, Reads node.connection := by
  cases error with
  | some e => exact reads_newConnection h _
  | none =>
    simp only [ServerRun.handleAccept] at hrunning ⊢
    cases hfind : s.manager.find s.accepting with
    | none =>
      simp only [hfind] at hrunning
      cases hrunning
    | some c =>
      simp only [hfind] at hrunning ⊢
      cases hstart : c.start.1 with
      | some f =>
        simp only [hstart] at hrunning
        cases hrunning
      | none =>
        have hc := h _ (ConnectionManager.mem_of_find hfind)
        exact reads_newConnection
          (reads_update h _ (Or.inr (TcpConnection.receiving_start hc hstart))) _

/-- **Every event keeps this**: creations, starts, sends, completions and closes. A close removes
elements and changes none of those that stay. -/
theorem allRead_step {event : Event} (h : AllRead s) (hstep : s.step event = some s') :
    AllRead s' := by
  have h := h (running_of_step hstep)
  intro hrunning
  cases step_cases hstep with
  | accepted => exact reads_handleAccept (s := s.server) h hrunning
  | acceptFailed => exact reads_handleAccept (s := s.server) h hrunning
  | newConnection => exact reads_newConnection h _
  | @start address c hfind =>
    have hc := h _ (ConnectionManager.mem_of_find hfind)
    cases hstart : c.start.1 with
    | some f =>
      simp only [startConnection, hstart] at hrunning
      cases hrunning
    | none => exact reads_update h _ (Or.inr (TcpConnection.receiving_start hc hstart))
  -- to send, a connection need not have been started
  | @send address message c hfind =>
    apply reads_update h
    rcases h _ (ConnectionManager.mem_of_find hfind) with hreader | ⟨frames, read, hreceiving⟩
    · exact Or.inl ((TcpConnection.send_reader c message).trans hreader)
    · exact Or.inr ⟨frames, read, hreceiving.send message⟩
  -- a handler that throws ends the loop; one that returns may have closed the connection
  | @connection address event c res hfind hres =>
    cases hfailure : res.failure with
    | some f =>
      simp only [afterEvent, hfailure] at hrunning
      cases hrunning
    | none =>
      have hc := (h _ (ConnectionManager.mem_of_find hfind)).onEvent hres hfailure
      simp only [afterEvent, hfailure]
      split
      · exact fun node hnode => reads_update h _ hc node (List.mem_of_mem_filter hnode)
      · exact reads_update h _ hc
  | close => exact fun node hnode => h node (List.mem_of_mem_filter hnode)
  | aborted => cases hrunning

theorem allRead_initial : AllRead initial := by
  intro _ node hnode
  obtain rfl := List.mem_singleton.mp hnode
  exact Or.inl rfl

/-- **No close of a started connection meets the condition.** In every reachable state with the
loop running, a connection whose reader is in use has a read outstanding. -/
theorem not_closesIdle_of_started {es : List Event} (hrun : Runs.run step initial es = some s)
    (hloop : s.loop = .running) {address : Nat} {c : TcpConnection}
    (hfind : s.manager.find address = some c) (hstarted : c.reader.readInProgress = true) :
    ¬ ClosesIdle s (.close address) := by
  have hread : AllRead s :=
    Runs.run_invariant (fun _ _ _ h hs => allRead_step h hs) allRead_initial hrun
  have hmem := ConnectionManager.mem_of_find hfind
  intro hidle
  have hpending : c.pending = [] := hidle c hfind _ hmem rfl
  have hreads : Reads c := hread hloop _ hmem
  rcases hreads with hreader | ⟨frames, read, hreceiving⟩
  · rw [hreader] at hstarted
    cases hstarted
  · obtain ⟨op, handler, hout⟩ := FramedPhase.outstanding hreceiving
    simp only [TcpConnection.pending, hout] at hpending
    cases hpending

end LifetimeRun

/-! ## The server program -/

namespace LifetimeRun

/-- The events of the server program, which creates connections only to accept them. -/
def Event.ofServer : ServerRun.Event → Event
  | .accepted => .accepted
  | .acceptFailed e => .acceptFailed e
  | .connection address event => .connection address event
  | .close address => .close address
  | .aborted i => .aborted i

/-- The two systems are in the same state. Of the operations that were left behind, the larger one
knows whose they were. -/
structure Agrees (s : ServerRun) (t : LifetimeRun) : Prop where
  manager : t.manager = s.manager
  accepting : t.accepting = s.accepting
  loop : t.loop = s.loop
  orphans : t.orphans.map (·.2) = s.orphans

/-- What a close leaves behind is the same in both systems, but for the references. -/
theorem pendingOfPurged_eq (m : ConnectionManager) (c : TcpConnection) :
    (m.orphansOf c).map (·.2) = m.pendingOfPurged c := by
  simp only [ConnectionManager.orphansOf, ConnectionManager.pendingOfPurged, List.map_flatMap,
    List.map_map, Function.comp_def, List.map_id']

variable {s s' : ServerRun} {t : LifetimeRun}

/-- An accept keeps the two in the same state. -/
theorem Agrees.handleAccept (h : Agrees s t) (error : Option Asio.ErrorCode) :
    Agrees (s.handleAccept error) (t.handleAccept error) := by
  obtain ⟨manager, accepting, loop, orphans⟩ := t
  obtain ⟨rfl, rfl, rfl, horphans⟩ := h
  cases error with
  | some e => exact ⟨rfl, rfl, rfl, horphans⟩
  | none =>
    simp only [LifetimeRun.handleAccept, server, ServerRun.handleAccept]
    split
    · exact ⟨rfl, rfl, rfl, horphans⟩
    · split <;> exact ⟨rfl, rfl, rfl, horphans⟩

/-- A close keeps the two in the same state. -/
theorem Agrees.closeConnection (h : Agrees s t) (address : Nat) (c : TcpConnection) :
    Agrees (s.closeConnection address c) (t.closeConnection c) := by
  obtain ⟨manager, accepting, loop, orphans⟩ := t
  obtain ⟨rfl, rfl, rfl, horphans⟩ := h
  refine ⟨rfl, rfl, rfl, ?_⟩
  show (orphans ++ _).map (·.2) = s.orphans ++ _
  rw [List.map_append, horphans, pendingOfPurged_eq]

/-- A handler of a connection keeps the two in the same state. With the echo handler it closes
nothing. -/
theorem Agrees.afterEvent (h : Agrees s t) (address : Nat) (event : TcpConnection.Event)
    (res : TcpConnection.Result) :
    Agrees (s.afterEvent address event res) (t.afterEvent address res) := by
  have hupdate : ∀ live, Agrees
      { s with manager := s.manager.update address res.connection, live }
      { t with manager := t.manager.update address res.connection } := fun live =>
    ⟨by rw [h.manager], h.accepting, h.loop, h.orphans⟩
  cases hfailure : res.failure with
  | some f =>
    simp only [ServerRun.afterEvent, LifetimeRun.afterEvent, hfailure]
    exact ⟨(hupdate []).manager, h.accepting, rfl, h.orphans⟩
  | none =>
    simp only [ServerRun.afterEvent, LifetimeRun.afterEvent, hfailure]
    cases res.closes with
    | true => exact (hupdate _).closeConnection _ _
    | false => exact hupdate _

/-- **Every step of the server program is a step of the larger system.** The events are the same;
only the bookkeeping of what was left behind differs. -/
theorem agrees_step {event : ServerRun.Event} (h : Agrees s t) (hstep : s.step event = some s') :
    ∃ t', t.step (.ofServer event) = some t' ∧ Agrees s' t' := by
  have hloop : t.loop = .running := h.loop.trans (ServerRun.running_of_step hstep)
  unfold step
  rw [if_pos hloop]
  cases ServerRun.step_cases hstep with
  | accepted => exact ⟨_, rfl, h.handleAccept none⟩
  | @acceptFailed e => exact ⟨_, rfl, h.handleAccept (some e)⟩
  | @connection address event c res hfind hres =>
    refine ⟨_, ?_, h.afterEvent address event res⟩
    simp only [Event.ofServer, h.manager, hfind, Option.bind_some, hres, Option.map_some]
  | @close address c _ hfind =>
    refine ⟨_, ?_, h.closeConnection address c⟩
    simp only [Event.ofServer, h.manager, hfind, Option.map_some]
  | aborted hop =>
    rw [← h.orphans, List.getElem?_map] at hop
    obtain ⟨orphan, horphan, -⟩ := Option.map_eq_some_iff.mp hop
    refine ⟨{ t with loop := .undefined }, ?_, h.manager, h.accepting, rfl, h.orphans⟩
    simp only [Event.ofServer, horphan, Option.map_some]

/-- **Every run of the server program is a run of the larger system.** So what is shown of the
larger system is true of the program as it stands. -/
theorem agrees_of_run {es : List ServerRun.Event}
    (hrun : Runs.run ServerRun.step ServerRun.start es = some s) :
    ∃ t, Runs.run step initial (es.map Event.ofServer) = some t ∧ Agrees s t :=
  Runs.run_simulated Event.ofServer (fun _ _ _ _ h hs => agrees_step h hs) ⟨rfl, rfl, rfl, rfl⟩ hrun

end LifetimeRun

end Acs
