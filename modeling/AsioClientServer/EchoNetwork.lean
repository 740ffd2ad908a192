import AsioClientServer.EchoDelivery
import AsioClientServer.Server.WithoutClose

/-!
# One server and many clients

The server with any number of connections. Some belong to processes that run the client of this
repository, and are followed from end to end; of the others nothing is assumed, and their peers may
send and refuse whatever they like. All connections share one loop, one list and one counter.

* `echo_network_projects`: seen from one client, every run is a run of `EchoSystem`, the system of
  that client and its connection alone. What the other peers do is not seen there.
* `echo_network_order`: every client gets its echoes in order, and its own ones only. Its events
  never end the server.
-/

namespace Acs

/-- A process that runs the client, with the bytes on their way between it and its connection on
the server. -/
structure ClientProcess where
  client : AsyncTcpClient
  echoCommandId : UInt64 := 0
  toServer : Bytes := []
  toClient : Bytes := []
  received : List (UInt32 × Bytes) := []
  entered : SendLog := []
  /-- The requests its connection has got, and whether the server has sent the response. -/
  handled : SendLog := []
  /-- The exception or the assertion that has ended the process. -/
  stopped : Option Failure := none
  deriving DecidableEq, Repr

namespace ClientProcess

/-- The client has just been connected. -/
def start : ClientProcess :=
  let connected := ({} : AsyncTcpClient).handleConnect none
  { client := connected.2, stopped := connected.1 }

/-- The client and a connection, as a system of their own. The id the server has given the
connection is set to 0, as nothing in the system looks at it. -/
def system (c : ClientProcess) (connection : TcpConnection) : EchoSystem :=
  { client := c.client
    echoCommandId := c.echoCommandId
    server := connection
    toServer := c.toServer
    toClient := c.toClient
    received := c.received
    entered := c.entered
    handled := c.handled
    stopped := c.stopped }

/-- The client's part of such a system. -/
def of (s : EchoSystem) : ClientProcess :=
  { client := s.client
    echoCommandId := s.echoCommandId
    toServer := s.toServer
    toClient := s.toClient
    received := s.received
    entered := s.entered
    handled := s.handled
    stopped := s.stopped }

end ClientProcess

/-- The server, and the client processes by the address of their connection. An address is that of
the element in the server's list; it stays the connection's own when the list grows. -/
structure EchoNetwork where
  server : ServerRun
  clients : Nat → Option ClientProcess

/-- What can happen next anywhere. An event of a client is one of `EchoSystem`, so that a step of
the network can be compared with a step of the system of that client. -/
inductive EchoNetwork.Event where
  /-- A client process is accepted. -/
  | connect
  /-- An event of a client process or of its connection on the server. -/
  | client (address : Nat) (event : EchoSystem.Event)
  /-- The socket of a client process fails while its reader waits. -/
  | clientFails (address : Nat) (e : Asio.ErrorCode)
  /-- The socket of its connection fails while the reader waits. -/
  | serverFails (address : Nat) (e : Asio.ErrorCode)
  /-- Whatever else happens on the server: accepts, and events of the connections of other peers. -/
  | others (event : ServerRun.Event)
  deriving DecidableEq, Repr

namespace EchoNetwork

def start : EchoNetwork :=
  { server := ServerRun.start, clients := fun _ => none }

/-- The server and one of the clients go on. The other clients are where they were. -/
def after (s : EchoNetwork) (server : ServerRun) (address : Nat) (c : ClientProcess) :
    EchoNetwork :=
  { server, clients := Function.update s.clients address (some c) }

/-- An event of a client, or of its connection. The latter is an event of the server. The bytes that
it takes or puts out are those of the client's channels. -/
def clientStep (s : EchoNetwork) (address : Nat) (c : ClientProcess) (connection : TcpConnection)
    (event : EchoSystem.Event) : Option EchoNetwork :=
  match event with
  | .serverReceive n =>
    if n ≤ c.toServer.length then
      (s.server.step (.connection address (.read (.received (c.toServer.take n))))).map
        fun server => s.after server address { c with toServer := c.toServer.drop n }
    else none
  | .serverComplete =>
    (s.server.step (.connection address (.read .completed))).map fun server =>
      s.after server address { c with
        handled := c.handled ++ (c.system connection).requestAtHand.toList.map fun command =>
          (command, decide (connection.writes = [])) }
  | .serverTransfer i n =>
    (connection.onTransfer i n).bind fun t =>
      (s.server.step (.connection address (.transfer i n))).map fun server =>
        s.after server address { c with toClient := c.toClient ++ t.1 }
  | .serverWritten i =>
    (s.server.step (.connection address (.written i))).map fun server => s.after server address c
  -- the others are events of the client process
  | event =>
    if c.stopped = none then
      ((c.system connection).handle event).map fun t => s.after s.server address (.of t)
    else none

/-- The events on the server that are not those of a client process: everything that can happen to
it but for the events of connections that a client process is at the other end of, which are events
of that client here. Nothing closes a connection, as nothing in the server calls
`closeConnection`. -/
def OfOthers (s : EchoNetwork) : ServerRun.Event → Prop
  | .accepted | .acceptFailed _ => True
  | .connection address _ => s.clients address = none
  | .close _ | .aborted _ => False

instance (s : EchoNetwork) : DecidablePred s.OfOthers
  | .accepted | .acceptFailed _ => isTrue trivial
  | .connection address _ => inferInstanceAs (Decidable (s.clients address = none))
  | .close _ | .aborted _ => isFalse id

/-- One event. An event of a connection is a step of the server as it stands in `ServerRun`; the
client at its other end gets or gives up the bytes. -/
def step (s : EchoNetwork) : Event → Option EchoNetwork
  | .connect =>
    (s.server.step .accepted).map fun server => s.after server s.server.accepting .start
  | .client address event =>
    (s.clients address).bind fun c =>
      (s.server.manager.find address).bind fun connection => s.clientStep address c connection event
  | .clientFails address e =>
    (s.clients address).bind fun c =>
      (s.server.manager.find address).bind fun connection =>
        if c.stopped = none then
          (c.client.onRead (.failed e)).map fun out =>
            s.after s.server address (.of ((c.system connection).afterClientRead out))
        else none
  | .serverFails address e =>
    (s.clients address).bind fun c =>
      (s.server.step (.connection address (.read (.failed e)))).map fun server =>
        s.after server address c
  | .others event =>
    if s.OfOthers event then (s.server.step event).map fun server => { s with server } else none

/-- The events of the clients are in the scope of `EchoSystem`. Of the other peers nothing is asked:
they may send and refuse what they like. -/
def InScope (s : EchoNetwork) : Event → Prop
  | .client address event =>
    match s.clients address, s.server.manager.find address with
    | some c, some connection => (c.system connection).InScope event
    | _, _ => True
  | _ => True

instance (s : EchoNetwork) : DecidablePred s.InScope
  | .client address event =>
    match hclient : s.clients address, hfind : s.server.manager.find address with
    | some c, some connection =>
      decidable_of_iff ((c.system connection).InScope event) (by simp only [InScope, hclient, hfind])
    | none, _ => isTrue (by simp only [InScope, hclient])
    | some _, none => isTrue (by simp only [InScope, hclient, hfind])
  | .connect | .clientFails _ _ | .serverFails _ _ | .others _ => isTrue trivial

/-- What happens to one client and its connection. The failure of a socket is not among it, for
`EchoSystem` has no such event. -/
def seenBy (address : Nat) (es : List Event) : List EchoSystem.Event :=
  es.filterMap fun
    | .client other event => if other = address then some event else none
    | _ => none

end EchoNetwork

/-! ## One client and its connection -/

namespace ClientProcess

/-- The client process is the client of the system, as far as it can be seen from outside. The
server's end is missing, which the process does not see. -/
structure Agrees (c : ClientProcess) (t : EchoSystem) : Prop where
  echoCommandId_eq : c.echoCommandId = t.echoCommandId
  toServer_eq : c.toServer = t.toServer
  toClient_eq : c.toClient = t.toClient
  received_eq : c.received = t.received
  entered_eq : c.entered = t.entered
  handled_eq : c.handled = t.handled

variable {c : ClientProcess} {t t' : EchoSystem} {connection : TcpConnection}

theorem Agrees.of (t : EchoSystem) : (ClientProcess.of t).Agrees t :=
  ⟨rfl, rfl, rfl, rfl, rfl, rfl⟩

/-- A client process that goes on, and its connection, are the system. -/
theorem Agrees.system_eq (h : c.Agrees t) (hclient : c.client = t.client)
    (hrunning : t.stopped = none) (hc : c.stopped = none) :
    c.system connection = { t with server := connection } := by
  obtain ⟨h1, h2, h3, h4, h5, h6⟩ := h
  simp only [system, h1, h2, h3, h4, h5, h6, hclient, hrunning, hc]

/-- **An event of the client process is one of the system.** The connection that stands at the other
end makes no difference to it (`handle_with_server`). -/
theorem Agrees.client_step {event : EchoSystem.Event} (h : c.Agrees t)
    (hclient : c.client = t.client) (hrunning : t.stopped = none) (hc : c.stopped = none)
    (hevent : event.atServer = false) {u : EchoSystem}
    (hu : (c.system connection).handle event = some u) :
    ∃ t', t.step event = some t' ∧ t'.server = t.server ∧ t'.client = u.client ∧
      t'.stopped = u.stopped ∧ (ClientProcess.of u).Agrees t' := by
  rw [h.system_eq hclient hrunning hc] at hu
  obtain ⟨-, hstep⟩ := EchoSystem.handle_with_server hevent hu t.server
  refine ⟨{ u with server := t.server }, ?_, rfl, rfl, rfl, ⟨rfl, rfl, rfl, rfl, rfl, rfl⟩⟩
  rw [EchoSystem.step, if_pos hrunning]
  exact hstep

end ClientProcess

namespace EchoNetwork

variable {s s' : EchoNetwork} {address : Nat} {c : ClientProcess} {connection : TcpConnection}
  {t : EchoSystem} {event : EchoSystem.Event}

/-- An event of the client's own is taken by the system and leaves the server as it was. -/
theorem clientStep_of_client (hevent : event.atServer = false)
    (hstep : s.clientStep address c connection event = some s') :
    c.stopped = none ∧ ∃ u, (c.system connection).handle event = some u ∧
      s' = s.after s.server address (.of u) := by
  cases event with
  | serverReceive | serverComplete | serverTransfer | serverWritten => cases hevent
  | command | clientTransfer | clientWritten | clientReceive | clientComplete =>
    obtain ⟨hc, hstep⟩ := Option.ite_none_right_eq_some.mp hstep
    obtain ⟨u, hu, rfl⟩ := Option.map_eq_some_iff.mp hstep
    exact ⟨hc, u, hu, rfl⟩

/-- An event of the server at an address is one of the connection that is found there, and the same
event is possible for the connection as the system has it, with the id 0. -/
theorem onEvent_of_step {ev : TcpConnection.Event} {server : ServerRun}
    (hfind : s.server.manager.find address = some connection)
    (hs : s.server.step (.connection address ev) = some server) :
    ∃ res, connection.onEvent ev = some res ∧
      { connection with id := 0 }.onEvent ev
        = some { res with connection := { res.connection with id := 0 } } := by
  cases ServerRun.step_cases hs with
  | @connection _ _ c₀ res hfind₀ hres =>
    obtain rfl := Option.some.inj (hfind.symm.trans hfind₀)
    refine ⟨res, hres, ?_⟩
    rw [TcpConnection.onEvent_with_id, hres, Option.map_some]

/-- **An event of the connection is one of the server and one of the system**, and the id the server
has given the connection makes no difference. -/
theorem clientStep_of_server (h : c.Agrees t) (hrunning : t.stopped = none)
    (hserver : t.server = { connection with id := 0 })
    (hfind : s.server.manager.find address = some connection) (hevent : event.atServer = true)
    (hstep : s.clientStep address c connection event = some s') :
    ∃ ev res server c' t', s.server.step (.connection address ev) = some server ∧
      connection.onEvent ev = some res ∧ s' = s.after server address c' ∧
      c'.client = c.client ∧ c'.stopped = c.stopped ∧ t.step event = some t' ∧
      t'.client = t.client ∧ t'.server = { res.connection with id := 0 } ∧
      (t'.stopped = none → res.failure = none) ∧ c'.Agrees t' := by
  obtain ⟨h1, h2, h3, h4, h5, h6⟩ := h
  cases event with
  | command | clientTransfer | clientWritten | clientReceive | clientComplete => cases hevent
  | serverReceive n =>
    obtain ⟨hn, hstep⟩ := Option.ite_none_right_eq_some.mp hstep
    obtain ⟨server, hs, rfl⟩ := Option.map_eq_some_iff.mp hstep
    obtain ⟨res, hconnection, hsystem⟩ := onEvent_of_step hfind hs
    rw [← hserver] at hsystem
    obtain ⟨out, hout, heq⟩ := Option.map_eq_some_iff.mp hsystem
    obtain ⟨hout₂, hout₁, -⟩ := TcpConnection.Result.mk.inj heq
    refine ⟨_, res, server, _, { t with
      server := out.2, toServer := t.toServer.drop n, stopped := out.1 },
      hs, hconnection, rfl, rfl, rfl, ?_, rfl, hout₂, fun hnone => hout₁.symm.trans hnone, ?_⟩
    · rw [h2] at hn hout
      simp only [EchoSystem.step, if_pos hrunning, EchoSystem.handle, if_pos hn, hout,
        Option.map_some]
    · exact ⟨h1, congrArg (List.drop n) h2, h3, h4, h5, h6⟩
  | serverComplete =>
    obtain ⟨server, hs, rfl⟩ := Option.map_eq_some_iff.mp hstep
    obtain ⟨res, hconnection, hsystem⟩ := onEvent_of_step hfind hs
    rw [← hserver] at hsystem
    obtain ⟨out, hout, heq⟩ := Option.map_eq_some_iff.mp hsystem
    obtain ⟨hout₂, hout₁, -⟩ := TcpConnection.Result.mk.inj heq
    have hrequest : (c.system connection).requestAtHand = t.requestAtHand := by
      simp only [EchoSystem.requestAtHand, ClientProcess.system, hserver]
    have hwrites : connection.writes = t.server.writes := by
      rw [hserver]
    rw [hrequest, hwrites, h6]
    refine ⟨_, res, server, _, { t with
      server := out.2
      handled := t.handled ++
        t.requestAtHand.toList.map fun command => (command, decide (t.server.writes = []))
      stopped := out.1 },
      hs, hconnection, rfl, rfl, rfl, ?_, rfl, hout₂, fun hnone => hout₁.symm.trans hnone, ?_⟩
    · simp only [EchoSystem.step, if_pos hrunning, EchoSystem.handle, hout, Option.map_some]
    · exact ⟨h1, h2, h3, h4, h5, rfl⟩
  | serverTransfer i n =>
    obtain ⟨⟨piece, c'⟩, ht, hstep⟩ := Option.bind_eq_some_iff.mp hstep
    obtain ⟨server, hs, rfl⟩ := Option.map_eq_some_iff.mp hstep
    obtain ⟨res, hconnection, hsystem⟩ := onEvent_of_step hfind hs
    rw [← hserver] at hsystem
    obtain ⟨out, hout, heq⟩ := Option.map_eq_some_iff.mp hsystem
    obtain ⟨hout₂, hout₁, -⟩ := TcpConnection.Result.mk.inj heq
    -- the piece comes from the same buffer
    have hpiece : out.1 = piece := by
      obtain ⟨u, hu, rfl⟩ := Option.map_eq_some_iff.mp hout
      obtain ⟨v, hv, heq⟩ := Option.map_eq_some_iff.mp ht
      rw [hserver] at hu
      rw [Option.some.inj (hu.symm.trans hv)]
      exact congrArg Prod.fst heq
    refine ⟨_, res, server, _, { t with server := out.2, toClient := t.toClient ++ out.1 },
      hs, hconnection, rfl, rfl, rfl, ?_, rfl, hout₂, fun _ => hout₁.symm, ?_⟩
    · simp only [EchoSystem.step, if_pos hrunning, EchoSystem.handle, hout, Option.map_some]
    · exact ⟨h1, h2, by rw [hpiece, h3], h4, h5, h6⟩
  | serverWritten i =>
    obtain ⟨server, hs, rfl⟩ := Option.map_eq_some_iff.mp hstep
    obtain ⟨res, hconnection, hsystem⟩ := onEvent_of_step hfind hs
    rw [← hserver] at hsystem
    obtain ⟨out, hout, heq⟩ := Option.map_eq_some_iff.mp hsystem
    obtain ⟨hout₂, hout₁, -⟩ := TcpConnection.Result.mk.inj heq
    refine ⟨_, res, server, _, { t with server := out.2 },
      hs, hconnection, rfl, rfl, rfl, ?_, rfl, hout₂, fun _ => hout₁.symm, ?_⟩
    · simp only [EchoSystem.step, if_pos hrunning, EchoSystem.handle, hout, Option.map_some]
    · exact ⟨h1, h2, h3, h4, h5, h6⟩

/-! ## The invariant of all runs -/

/-- What the network shows of the system of one client. The client process and the connection are
the two ends of the system, as long as the process and the loop of the server go on. When the loop
has ended, the connection is not seen any more and the client process still agrees with the
system. -/
structure Seen (server : ServerRun) (address : Nat) (c : ClientProcess) (t : EchoSystem) : Prop where
  /-- The system is in a state the theorems about one client apply to. -/
  inv : t.Inv
  agrees : c.Agrees t
  /-- As long as the process goes on, its client is the one of the system. -/
  client : c.stopped = none → c.client = t.client
  /-- It ends for an error of its socket only. -/
  stopped : c.stopped = none ∨ ∃ e, c.stopped = some (.systemError e)
  /-- As long as the loop goes on, the server has the connection in its list. The system does not
  know the id it has there. -/
  connection : server.loop = .running → ∃ connection,
    server.manager.find address = some connection ∧ t.server = { connection with id := 0 }

/-- What the events so far say about the network: for every client process, the events at its
address are a run of the system from its start, and the network shows the system that run comes
to. -/
structure Inv (es : List Event) (s : EchoNetwork) : Prop where
  /-- The server on its own has a history too, so that what is known of `ServerRun` applies. -/
  server : ∃ es', ServerRun.History es' s.server
  /-- No process has an address the server is still going to give away. -/
  known : ∀ address c, s.clients address = some c → address < s.server.accepting
  /-- Nothing has happened at an address without a process. -/
  unseen : ∀ address, s.clients address = none → seenBy address es = []
  /-- What has happened at the address of a process is a run of the system in scope. -/
  seen : ∀ address c, s.clients address = some c → ∃ t,
    Runs.run EchoSystem.step EchoSystem.start (seenBy address es) = some t ∧
      Runs.StepsMeet EchoSystem.step EchoSystem.InScope EchoSystem.start (seenBy address es) ∧
      Seen s.server address c t

theorem inv_start : Inv [] start :=
  ⟨⟨[], ServerRun.history_start⟩, nofun, fun _ _ => rfl, nofun⟩

/-- A server whose loop and connection are as before shows the same. -/
theorem Seen.of_server {server server' : ServerRun} (h : Seen server address c t)
    (hloop : server'.loop = .running → server.loop = .running)
    (hfind : server'.manager.find address = server.manager.find address) :
    Seen server' address c t := by
  refine ⟨h.inv, h.agrees, h.client, h.stopped, fun hrunning => ?_⟩
  rw [hfind]
  exact h.connection (hloop hrunning)

/-- An event of the server that does not concern a client. -/
theorem Seen.of_step {es' : List ServerRun.Event} {event : ServerRun.Event} {server server' : ServerRun}
    (h : Seen server address c t) (hhistory : ServerRun.History es' server)
    (hevent : event.WithoutClose) (hstep : server.step event = some server')
    (hknown : address < server.accepting) (hother : ∀ ev, event ≠ .connection address ev) :
    Seen server' address c t :=
  h.of_server (fun _ => ServerRun.running_of_step hstep)
    (hhistory.find_of_step hevent hstep hknown hother)

theorem seenBy_append (address : Nat) (es : List Event) (event : Event) :
    seenBy address (es ++ [event]) = seenBy address es ++ seenBy address [event] :=
  List.filterMap_append ..

theorem seenBy_other {other : Nat} (hne : other ≠ address) (event : EchoSystem.Event) :
    seenBy address [.client other event] = [] := by
  simp only [seenBy, List.filterMap_cons, if_neg hne, List.filterMap_nil]

theorem seenBy_self (address : Nat) (event : EchoSystem.Event) :
    seenBy address [.client address event] = [event] := by
  simp only [seenBy, List.filterMap_cons, if_true, List.filterMap_nil]

/-- One client has gone on, or is new; the others are seen as before. The lemma is about a client
whose run of the system is extended by the event, or by nothing. -/
theorem Inv.after {es : List Event} {event : Event} {server : ServerRun} (h : Inv es s)
    (hserver : ∃ es', ServerRun.History es' server) (hle : s.server.accepting ≤ server.accepting)
    (hknown : address < server.accepting)
    (hothers : ∀ other c t, other ≠ address → s.clients other = some c →
      Seen s.server other c t → Seen server other c t)
    (hunseen : ∀ other, other ≠ address → seenBy other [event] = [])
    (hself : ∃ t, Runs.run EchoSystem.step EchoSystem.start (seenBy address (es ++ [event])) = some t ∧
      Runs.StepsMeet EchoSystem.step EchoSystem.InScope EchoSystem.start
        (seenBy address (es ++ [event])) ∧
      Seen server address c t) : Inv (es ++ [event]) (s.after server address c) := by
  have hkept : ∀ other, other ≠ address → (s.after server address c).clients other = s.clients other :=
    fun other hne => Function.update_of_ne hne _ _
  have hnew : (s.after server address c).clients address = some c := Function.update_self ..
  have hsame : ∀ other, other ≠ address → seenBy other (es ++ [event]) = seenBy other es := by
    intro other hne
    rw [seenBy_append, hunseen other hne, List.append_nil]
  -- the client the event is about has its run extended, and the other runs stay as they are
  refine ⟨hserver, ?_, ?_, ?_⟩
  · intro other c' hclient
    by_cases hne : other = address
    · rw [hne]
      exact hknown
    · exact Nat.lt_of_lt_of_le (h.known other c' ((hkept other hne).symm.trans hclient)) hle
  · intro other hnone
    by_cases hne : other = address
    · rw [hne, hnew] at hnone
      cases hnone
    · rw [hsame other hne]
      exact h.unseen other ((hkept other hne).symm.trans hnone)
  · intro other c' hclient
    by_cases hne : other = address
    · rw [hne, hnew] at hclient
      rw [hne, ← Option.some.inj hclient]
      exact hself
    · rw [hkept other hne] at hclient
      obtain ⟨t, hrun, hscope, hseen⟩ := h.seen other c' hclient
      rw [hsame other hne]
      exact ⟨t, hrun, hscope, hothers other c' t hne hclient hseen⟩

/-- The events of the client processes, a socket that fails at their end included. These are the
events that never end the loop of the server. -/
def Event.own : Event → Bool
  | .connect | .client _ _ | .clientFails _ _ => true
  | .serverFails _ _ | .others _ => false

/-- A client that is accepted begins its run of the system with no event. Its address is new, so no
other client is concerned. -/
theorem Inv.connect {es : List Event} (h : Inv es s) (hstep : s.step .connect = some s') :
    Inv (es ++ [.connect]) s' ∧ (s.server.loop = .running → s'.server.loop = .running) := by
  obtain ⟨server, hs, rfl⟩ := Option.map_eq_some_iff.mp hstep
  obtain ⟨es', hhistory⟩ := h.server
  have hinv := hhistory.inv (ServerRun.running_of_step hs)
  obtain ⟨n, hn⟩ : ∃ n, n = (ServerRun.accepts es').length := ⟨_, rfl⟩
  have hgrown := hn ▸ hhistory.grown
  have haccepting := hgrown.accepting_eq
  have hwithout : ServerRun.Event.accepted.WithoutClose := trivial
  have hnew := hhistory.step hwithout hs
  -- the address is the one the server was going to give away, so nobody has it yet
  have hunknown : s.clients s.server.accepting = none := by
    cases hclient : s.clients s.server.accepting with
    | none => rfl
    | some c => exact absurd (h.known _ c hclient) (Nat.lt_irrefl _)
  have hserver : server = s.server.handleAccept none := by
    cases ServerRun.step_cases hs with
    | accepted => rfl
  obtain ⟨connection, hstart, -, heq, hlisted⟩ := hgrown.accepted hinv
  -- the list has the started connection, and behind it the one that waits for the next accept
  have hfind : server.manager.find n = some connection := by
    rw [hserver, heq, ← ConnectionManager.find_update hgrown.waits connection]
    refine ConnectionManager.find_newConnection_of_ne ?_ _
    rw [hlisted.nextAddress_eq]
    omega
  have hlt : s.server.accepting < server.accepting := by
    rw [hnew.grown.accepting_eq, haccepting, hn, ServerRun.accepts_append, List.length_append]
    exact Nat.lt_succ_self _
  -- nothing has been seen of the new client, whose system is at its start
  have hseen : seenBy s.server.accepting (es ++ [.connect]) = [] := by
    rw [seenBy_append, h.unseen _ hunknown]
    rfl
  constructor
  · refine h.after ⟨_, hnew⟩ hlt.le hlt (fun other c t hne hclient hother => ?_)
      (fun _ _ => rfl) ?_
    · exact hother.of_step hhistory hwithout hs (h.known other c hclient) (by simp)
    · rw [hseen]
      refine ⟨EchoSystem.start, rfl, trivial, ?_⟩
      refine ⟨EchoSystem.inv_start, ⟨rfl, rfl, rfl, rfl, rfl, rfl⟩, fun _ => rfl, Or.inl rfl, ?_⟩
      refine fun _ => ⟨connection, by rw [haccepting, hfind], ?_⟩
      have hid := TcpConnection.start_with_id (ServerRun.waiting n) 0
      rw [hstart] at hid
      exact congrArg Prod.snd hid
  · intro hrunning
    show server.loop = .running
    rw [hserver, heq]
    exact hrunning

/-- An event of a connection needs the loop of the server. -/
theorem clientStep_running (hevent : event.atServer = true)
    (hstep : s.clientStep address c connection event = some s') : s.server.loop = .running := by
  cases event with
  | command | clientTransfer | clientWritten | clientReceive | clientComplete => cases hevent
  | serverReceive n =>
    obtain ⟨-, hstep⟩ := Option.ite_none_right_eq_some.mp hstep
    obtain ⟨server, hs, -⟩ := Option.map_eq_some_iff.mp hstep
    exact ServerRun.running_of_step hs
  | serverTransfer i n =>
    obtain ⟨t, -, hstep⟩ := Option.bind_eq_some_iff.mp hstep
    obtain ⟨server, hs, -⟩ := Option.map_eq_some_iff.mp hstep
    exact ServerRun.running_of_step hs
  | serverComplete | serverWritten =>
    obtain ⟨server, hs, -⟩ := Option.map_eq_some_iff.mp hstep
    exact ServerRun.running_of_step hs

/-- The run of the system goes on with the event. -/
theorem run_seenBy_snoc {es : List Event} {t t' : EchoSystem}
    (hrun : Runs.run EchoSystem.step EchoSystem.start (seenBy address es) = some t)
    (hmeet : Runs.StepsMeet EchoSystem.step EchoSystem.InScope EchoSystem.start (seenBy address es))
    (hstep : t.step event = some t') (hscope : t.InScope event) :
    Runs.run EchoSystem.step EchoSystem.start (seenBy address (es ++ [.client address event]))
        = some t' ∧
      Runs.StepsMeet EchoSystem.step EchoSystem.InScope EchoSystem.start
        (seenBy address (es ++ [.client address event])) := by
  rw [seenBy_append, seenBy_self]
  constructor
  · rw [Runs.run_append_of_run _ hrun, Runs.run_singleton, hstep]
  · exact hmeet.append hrun fun _ _ => ⟨hscope, trivial⟩

/-- **An event of the client process**: the system takes the same step, and the server does not
notice. -/
theorem Inv.client_side {es : List Event} (h : Inv es s) (hclient : s.clients address = some c)
    (hscope : (c.system connection).InScope event) (hevent : event.atServer = false)
    (hstep : s.clientStep address c connection event = some s') :
    Inv (es ++ [.client address event]) s' ∧ s'.server = s.server := by
  obtain ⟨t, hrun, hmeet, hseen⟩ := h.seen address c hclient
  have hrunning := hseen.inv.running
  obtain ⟨hc, u, hu, rfl⟩ := clientStep_of_client hevent hstep
  have hclient' := hseen.client hc
  obtain ⟨t', hstep', hserver', hclient'', hstopped', hagrees'⟩ :=
    hseen.agrees.client_step hclient' hrunning hc hevent hu
  -- the scope is that of the network's state, which agrees with the system on all it looks at
  have hscope' : t.InScope event := by
    rw [hseen.agrees.system_eq hclient' hrunning hc] at hscope
    refine ⟨?_, fun heq => ?_⟩
    · cases event with
      | command line => exact hscope.1
      | _ => trivial
    · rw [heq] at hevent
      cases hevent
  have hinv' := EchoSystem.inv_step hseen.inv hscope' hstep'
  obtain ⟨hrun', hmeet'⟩ := run_seenBy_snoc hrun hmeet hstep' hscope'
  refine ⟨?_, rfl⟩
  refine h.after h.server (Nat.le_refl _) (h.known address c hclient)
    (fun _ _ _ _ _ hother => hother) (fun other hne => seenBy_other (Ne.symm hne) event)
    ⟨t', hrun', hmeet', hinv', hagrees', fun _ => hclient''.symm,
      Or.inl (hstopped'.symm.trans hinv'.running), ?_⟩
  rw [hserver']
  exact hseen.connection

/-- The scope of the network, which looks at the connection in the list of the server, is that of the
system for an event of the connection. -/
theorem inScope_of_server (hserver : t.server = { connection with id := 0 })
    (hevent : event.atServer = true) (hscope : (c.system connection).InScope event) :
    t.InScope event := by
  refine ⟨?_, fun heq hrequest => ?_⟩
  · cases event with
    | command => cases hevent
    | _ => trivial
  · have hsame : (c.system connection).requestAtHand = t.requestAtHand := by
      simp only [EchoSystem.requestAtHand, ClientProcess.system, hserver]
    have hdone := hscope.2 heq (hsame ▸ hrequest)
    rw [hserver]
    exact hdone

/-- A handler of a connection that does not throw changes the list at its address only, and the loop
goes on. -/
theorem step_of_returned {ev : TcpConnection.Event} {res : TcpConnection.Result}
    {server : ServerRun} (hinv : s.server.Inv)
    (hfind : s.server.manager.find address = some connection)
    (hres : connection.onEvent ev = some res) (hnone : res.failure = none)
    (hs : s.server.step (.connection address ev) = some server) :
    server.loop = s.server.loop ∧
      server.manager = s.server.manager.update address res.connection := by
  obtain ⟨-, hhandler, frames, read, hreceiving⟩ := hinv.receiving_of_onEvent hfind hres
  obtain ⟨-, hiff, -⟩ := ServerRun.onEvent_of_receiving hhandler hreceiving hres
  have hharmless := hiff.mp hnone
  obtain ⟨c₀, res₀, hfind₀, hres₀, -, ⟨hnot, -⟩ | ⟨-, -, -, heq⟩⟩ :=
    ServerRun.afterEvent_cases hinv hs
  · rw [Option.some.inj (hfind₀.symm.trans hfind)] at hnot
    exact absurd hharmless hnot
  · obtain rfl := Option.some.inj (hfind₀.symm.trans hfind)
    obtain rfl := Option.some.inj (hres₀.symm.trans hres)
    rw [heq]
    exact ⟨rfl, rfl⟩

/-- **An event of the connection**: the server takes a step and the system takes the same. In scope
the handler does not throw, so the loop goes on and the other clients are seen as before. -/
theorem Inv.server_side {es : List Event} (h : Inv es s) (hclient : s.clients address = some c)
    (hfind : s.server.manager.find address = some connection)
    (hscope : (c.system connection).InScope event) (hevent : event.atServer = true)
    (hstep : s.clientStep address c connection event = some s') :
    Inv (es ++ [.client address event]) s' ∧ s'.server.loop = .running := by
  obtain ⟨es', hhistory⟩ := h.server
  obtain ⟨t, hrun, hmeet, hseen⟩ := h.seen address c hclient
  have hknown := h.known address c hclient
  have hloop := clientStep_running hevent hstep
  have hinv := hhistory.inv hloop
  obtain ⟨connection', hfind', hserver⟩ := hseen.connection hloop
  obtain rfl := Option.some.inj (hfind'.symm.trans hfind)
  obtain ⟨ev, res, server, c', t', hs, hres, rfl, hclient', hstopped', hstep', htclient, htserver,
    hfailure, hagrees'⟩ :=
    clientStep_of_server hseen.agrees hseen.inv.running hserver hfind hevent hstep
  have hscope' := inScope_of_server hserver hevent hscope
  have hinv' := EchoSystem.inv_step hseen.inv hscope' hstep'
  obtain ⟨hrun', hmeet'⟩ := run_seenBy_snoc hrun hmeet hstep' hscope'
  obtain ⟨hsame, hmanager⟩ :=
    step_of_returned hinv hfind hres (hfailure hinv'.running) hs
  have hwithout : (ServerRun.Event.connection address ev).WithoutClose := trivial
  have hle := hhistory.accepting_le hwithout hs
  refine ⟨?_, hsame.trans hloop⟩
  refine h.after ⟨_, hhistory.step hwithout hs⟩ hle (Nat.lt_of_lt_of_le hknown hle) ?_
    (fun other hne => seenBy_other (Ne.symm hne) event)
    ⟨t', hrun', hmeet', hinv', hagrees', ?_, ?_, ?_⟩
  · intro other cOther tOther hne hclientOther hother
    refine hother.of_step hhistory hwithout hs (h.known other cOther hclientOther) ?_
    intro evOther hevOther
    cases hevOther
    exact hne rfl
  · rw [hstopped', hclient', htclient]
    exact hseen.client
  · rw [hstopped']
    exact hseen.stopped
  · intro _
    refine ⟨res.connection, ?_, htserver⟩
    rw [hmanager]
    exact ConnectionManager.find_update hfind _

/-- **An event of a client or of its connection**: the system of the two takes the same step, the
others do not notice, and the loop of the server goes on. -/
theorem Inv.client {es : List Event} (h : Inv es s) (hscope : s.InScope (.client address event))
    (hstep : s.step (.client address event) = some s') :
    Inv (es ++ [.client address event]) s' ∧
      (s.server.loop = .running → s'.server.loop = .running) := by
  obtain ⟨c, hclient, hstep⟩ := Option.bind_eq_some_iff.mp hstep
  obtain ⟨connection, hfind, hstep⟩ := Option.bind_eq_some_iff.mp hstep
  have hscope : (c.system connection).InScope event := by
    simpa only [InScope, hclient, hfind] using hscope
  cases hevent : event.atServer with
  | false =>
    obtain ⟨hinv, hserver⟩ := h.client_side hclient hscope hevent hstep
    exact ⟨hinv, fun hloop => hserver ▸ hloop⟩
  | true =>
    obtain ⟨hinv, hloop⟩ := h.server_side hclient hfind hscope hevent hstep
    exact ⟨hinv, fun _ => hloop⟩

/-- A socket that fails ends the client process; what it has displayed stays. For its connection on
the server nothing has happened yet. -/
theorem Inv.clientFails {es : List Event} {e : Asio.ErrorCode} (h : Inv es s)
    (hstep : s.step (.clientFails address e) = some s') :
    Inv (es ++ [.clientFails address e]) s' ∧ s'.server = s.server := by
  obtain ⟨c, hclient, hstep⟩ := Option.bind_eq_some_iff.mp hstep
  obtain ⟨connection, hfind, hstep⟩ := Option.bind_eq_some_iff.mp hstep
  obtain ⟨hc, hstep⟩ := Option.ite_none_right_eq_some.mp hstep
  obtain ⟨out, hout, rfl⟩ := Option.map_eq_some_iff.mp hstep
  obtain ⟨t, hrun, hmeet, hseen⟩ := h.seen address c hclient
  -- the reader is in its loop, where an error is thrown
  have hfails : out.1 = .error (.systemError e) := by
    obtain ⟨contents, ⟨-, -, -, hphase, -⟩, -⟩ := hseen.inv.downstream
    rw [hseen.client hc] at hout
    obtain ⟨res, hres, rfl⟩ := Option.map_eq_some_iff.mp hout
    obtain ⟨hexit, -⟩ := hphase.failed hres
    simp only [AsyncTcpClient.afterHandler, hexit]
  have heq : ClientProcess.of ((c.system connection).afterClientRead out)
      = { c with client := out.2, stopped := some (.systemError e) } := by
    simp only [EchoSystem.afterClientRead, hfails]
    rfl
  -- no system takes part: the failure of a socket is not an event of it
  have hnothing : ∀ other, seenBy other (es ++ [.clientFails address e]) = seenBy other es :=
    fun other => (seenBy_append other es _).trans (List.append_nil _)
  obtain ⟨h1, h2, h3, h4, h5, h6⟩ := hseen.agrees
  refine ⟨?_, rfl⟩
  rw [heq]
  refine h.after h.server (Nat.le_refl _) (h.known address c hclient)
    (fun _ _ _ _ _ hother => hother) (fun _ _ => rfl) ⟨t, ?_, ?_, hseen.inv,
      ⟨h1, h2, h3, h4, h5, h6⟩, ?_, Or.inr ⟨e, rfl⟩, hseen.connection⟩
  · rw [hnothing]
    exact hrun
  · rw [hnothing]
    exact hmeet
  · intro hnone
    cases hnone

/-- A socket that fails at the server ends its loop. The clients do not notice: their processes go
on with what is on the way to them. -/
theorem Inv.serverFails {es : List Event} {e : Asio.ErrorCode} (h : Inv es s)
    (hstep : s.step (.serverFails address e) = some s') :
    Inv (es ++ [.serverFails address e]) s' := by
  obtain ⟨c, hclient, hstep⟩ := Option.bind_eq_some_iff.mp hstep
  obtain ⟨server, hs, rfl⟩ := Option.map_eq_some_iff.mp hstep
  obtain ⟨es', hhistory⟩ := h.server
  obtain ⟨t, hrun, hmeet, hseen⟩ := h.seen address c hclient
  have hwithout : (ServerRun.Event.connection address (.read (.failed e))).WithoutClose := trivial
  have hle := hhistory.accepting_le hwithout hs
  -- the reader of the connection throws, and nothing catches that before `main`
  have hexit : server.loop ≠ .running := by
    obtain ⟨_, _, -, -, -, ⟨-, f, hexit⟩ | ⟨hharmless, -⟩⟩ :=
      ServerRun.afterEvent_cases (hhistory.inv (ServerRun.running_of_step hs)) hs
    · rw [hexit]
      simp
    · exact absurd hharmless id
  have hnothing : ∀ other, seenBy other (es ++ [.serverFails address e]) = seenBy other es :=
    fun other => (seenBy_append other es _).trans (List.append_nil _)
  refine h.after ⟨_, hhistory.step hwithout hs⟩ hle
    (Nat.lt_of_lt_of_le (h.known address c hclient) hle) ?_ (fun _ _ => rfl)
    ⟨t, ?_, ?_, hseen.inv, hseen.agrees, hseen.client, hseen.stopped, fun hloop => absurd hloop hexit⟩
  · intro other cOther tOther hne hclientOther hother
    refine hother.of_step hhistory hwithout hs (h.known other cOther hclientOther) ?_
    intro ev hev
    cases hev
    exact hne rfl
  · rw [hnothing]
    exact hrun
  · rw [hnothing]
    exact hmeet

/-- **What other peers do is not seen by the clients.** They may change the list of the server and
even end its loop, and a client that is accepted keeps its connection as it was. -/
theorem Inv.others {es : List Event} {event : ServerRun.Event} (h : Inv es s)
    (hstep : s.step (.others event) = some s') : Inv (es ++ [.others event]) s' := by
  obtain ⟨hothers, hstep⟩ := Option.ite_none_right_eq_some.mp hstep
  obtain ⟨server, hs, rfl⟩ := Option.map_eq_some_iff.mp hstep
  obtain ⟨es', hhistory⟩ := h.server
  -- `OfOthers` leaves out the closes and the events of clients
  have hwithout : event.WithoutClose := by
    cases event with
    | accepted | acceptFailed | connection => trivial
    | close | aborted => exact hothers
  have hle := hhistory.accepting_le hwithout hs
  have hnothing : ∀ address, seenBy address (es ++ [.others event]) = seenBy address es :=
    fun address => (seenBy_append address es _).trans (List.append_nil _)
  refine ⟨⟨_, hhistory.step hwithout hs⟩, ?_, ?_, ?_⟩
  · exact fun address c hclient => Nat.lt_of_lt_of_le (h.known address c hclient) hle
  · intro address hnone
    rw [hnothing]
    exact h.unseen address hnone
  · intro address c hclient
    rw [hnothing]
    obtain ⟨t, hrun, hmeet, hseen⟩ := h.seen address c hclient
    refine ⟨t, hrun, hmeet, hseen.of_step hhistory hwithout hs (h.known address c hclient) ?_⟩
    -- an event of the client's own connection would not be one of others
    intro ev hev
    rw [hev] at hothers
    exact absurd (hclient.symm.trans hothers) (Option.some_ne_none _)

/-- **Every event in scope keeps the invariant**, and the events of client processes keep the loop
of the server going. -/
theorem Inv.step {es : List Event} {event : Event} (h : Inv es s) (hscope : s.InScope event)
    (hstep : s.step event = some s') : Inv (es ++ [event]) s' ∧
      (event.own = true → s.server.loop = .running → s'.server.loop = .running) := by
  cases event with
  | connect =>
    obtain ⟨hinv, hloop⟩ := h.connect hstep
    exact ⟨hinv, fun _ => hloop⟩
  | client address event =>
    obtain ⟨hinv, hloop⟩ := h.client hscope hstep
    exact ⟨hinv, fun _ => hloop⟩
  | clientFails address e =>
    obtain ⟨hinv, hserver⟩ := h.clientFails hstep
    exact ⟨hinv, fun _ hloop => by rw [hserver, hloop]⟩
  | serverFails address e => exact ⟨h.serverFails hstep, nofun⟩
  | others event => exact ⟨h.others hstep, nofun⟩

/-- As long as nobody but clients has been there, the loop of the server is running: nothing of what
they do ends it. -/
def RunsForClients (es : List Event) (s : EchoNetwork) : Prop :=
  (∀ event ∈ es, event.own = true) → s.server.loop = .running

theorem inv_of_run {es : List Event} (hscope : Runs.StepsMeet step InScope start es)
    (hrun : Runs.run step start es = some s) : Inv es s ∧ RunsForClients es s := by
  have hstep : ∀ es s event s', Inv es s ∧ RunsForClients es s → s.InScope event →
      s.step event = some s' → Inv (es ++ [event]) s' ∧ RunsForClients (es ++ [event]) s' := by
    intro es s event s' ⟨hinv, hruns⟩ hok hs
    obtain ⟨hinv', hgoes⟩ := hinv.step hok hs
    refine ⟨hinv', fun hown => ?_⟩
    obtain ⟨hbefore, hlast⟩ := List.forall_mem_append.mp hown
    exact hgoes (hlast event (List.mem_singleton_self _)) (hruns hbefore)
  exact Runs.run_history (P := fun es s => Inv es s ∧ RunsForClients es s) hstep
    ⟨inv_start, fun _ => rfl⟩ hscope hrun

end EchoNetwork

/-- **Seen from one client, the network is the client and its connection.** In every run with any
number of clients and of other peers, whatever those do: what one client has entered, sent and
displayed, what its connection has handled and what is on its way between them is what the system of
the two alone shows after the same events, without the events of all the others. -/
theorem echo_network_projects {es : List EchoNetwork.Event} {s : EchoNetwork}
    (hscope : Runs.StepsMeet EchoNetwork.step EchoNetwork.InScope EchoNetwork.start es)
    (hrun : Runs.run EchoNetwork.step EchoNetwork.start es = some s) {address : Nat}
    {c : ClientProcess} (hclient : s.clients address = some c) :
    ∃ t, Runs.run EchoSystem.step EchoSystem.start (EchoNetwork.seenBy address es) = some t ∧
      Runs.StepsMeet EchoSystem.step EchoSystem.InScope EchoSystem.start
        (EchoNetwork.seenBy address es) ∧
      c.Agrees t ∧ (c.stopped = none → c.client = t.client) ∧
      (s.server.loop = .running → ∃ connection,
        s.server.manager.find address = some connection ∧
          t.server = { connection with id := 0 }) := by
  obtain ⟨t, hrun', hmeet, hseen⟩ := (EchoNetwork.inv_of_run hscope hrun).1.seen address c hclient
  exact ⟨t, hrun', hmeet, hseen.agrees, hseen.client, hseen.connection⟩

/-- Two clients and a peer that leaves, which ends the server. The echo of the first client was on
its way by then. -/
theorem echo_network_projects_run :
    let events : List EchoNetwork.Event := [.connect, .connect, .others .accepted,
      .client 0 (.serverTransfer 0 60), .client 0 (.serverWritten 0),
      .client 1 (.serverTransfer 0 60), .client 1 (.serverWritten 0),
      .client 0 (.command (echoCmdPrefix ++ [97])), .client 1 (.command (echoCmdPrefix ++ [98])),
      .client 0 (.clientTransfer 0 15), .client 1 (.clientTransfer 0 15),
      .client 0 (.serverReceive 10), .client 0 .serverComplete, .client 1 (.serverReceive 10),
      .client 1 .serverComplete, .client 1 (.serverReceive 5), .client 1 .serverComplete,
      .client 0 (.serverReceive 5), .client 0 .serverComplete, .client 1 (.serverTransfer 0 15),
      .client 0 (.serverTransfer 0 15), .others (.connection 2 (.read (.failed .eof))),
      .client 0 (.clientReceive 10), .client 0 .clientComplete, .client 0 (.clientReceive 50),
      .client 0 .clientComplete, .client 0 (.clientReceive 10), .client 0 .clientComplete,
      .client 0 (.clientReceive 5), .client 0 .clientComplete]
    ∃ s c t, Runs.run EchoNetwork.step EchoNetwork.start events = some s ∧
      s.server.loop = .exited (.systemError .eof) ∧ s.clients 0 = some c ∧
      Runs.run EchoSystem.step EchoSystem.start (EchoNetwork.seenBy 0 events) = some t ∧
      t.received = [(welcome.id, welcome.text), (0, [97])] := by
  intro events
  have hscope : Runs.StepsMeet EchoNetwork.step EchoNetwork.InScope EchoNetwork.start events := by
    decide +kernel
  have hresult : (Runs.run EchoNetwork.step EchoNetwork.start events).bind
      (fun s => (s.clients 0).map fun c => (s.server.loop, c.received))
      = some (.exited (.systemError .eof), [(welcome.id, welcome.text), (0, [97])]) := by
    decide +kernel
  obtain ⟨s, hrun, hresult⟩ := Option.bind_eq_some_iff.mp hresult
  obtain ⟨c, hclient, hs⟩ := Option.map_eq_some_iff.mp hresult
  obtain ⟨hloop, hreceived⟩ := Prod.mk.inj hs
  obtain ⟨t, hrun', -, hagrees, -⟩ := echo_network_projects hscope hrun hclient
  exact ⟨s, c, t, hrun, hloop, hclient, hrun', hagrees.received_eq.symm.trans hreceived⟩

/-- **Every client gets its own echoes, in order, and no client ends the server.** In every run with
any number of clients and of other peers: a client process ends with an error of its socket only, it
has displayed the first part of the greeting and of the requests of its own that the server has
answered, and these are the first part of the commands it has sent. As long as there is nobody but
clients, and their sockets do not fail at the server, the loop of the server is running. -/
theorem echo_network_order {es : List EchoNetwork.Event} {s : EchoNetwork}
    (hscope : Runs.StepsMeet EchoNetwork.step EchoNetwork.InScope EchoNetwork.start es)
    (hrun : Runs.run EchoNetwork.step EchoNetwork.start es = some s) :
    (∀ address c, s.clients address = some c →
      (c.stopped = none ∨ ∃ e, c.stopped = some (.systemError e)) ∧
        c.received <+: (welcome.id, welcome.text) :: c.handled.sent ∧
        c.handled.map Prod.fst <+: c.entered.sent) ∧
      ((∀ event ∈ es, event.own = true) → s.server.loop = .running) := by
  constructor
  · intro address c hclient
    obtain ⟨t, -, -, hseen⟩ := (EchoNetwork.inv_of_run hscope hrun).1.seen address c hclient
    obtain ⟨-, -, -, hreceived, hentered, hhandled⟩ := hseen.agrees
    rw [hreceived, hentered, hhandled]
    exact ⟨hseen.stopped, hseen.inv.received_prefix, hseen.inv.handled_prefix⟩
  · exact (EchoNetwork.inv_of_run hscope hrun).2

/-- Two clients enter commands at the same time; the second is answered first, and the socket of the
first fails after its greeting. -/
theorem echo_network_order_run :
    let events : List EchoNetwork.Event := [.connect, .connect,
      .client 0 (.serverTransfer 0 60), .client 0 (.serverWritten 0),
      .client 1 (.serverTransfer 0 60), .client 1 (.serverWritten 0),
      .client 0 (.command (echoCmdPrefix ++ [97])), .client 1 (.command (echoCmdPrefix ++ [98])),
      .client 0 (.clientTransfer 0 15), .client 1 (.clientTransfer 0 15),
      .client 1 (.serverReceive 10), .client 1 .serverComplete, .client 1 (.serverReceive 5),
      .client 1 .serverComplete, .client 1 (.serverTransfer 0 15), .client 0 (.clientReceive 10),
      .client 0 .clientComplete, .client 0 (.clientReceive 50), .client 0 .clientComplete,
      .clientFails 0 (.other 104)]
    ∃ s c, Runs.run EchoNetwork.step EchoNetwork.start events = some s ∧
      s.server.loop = .running ∧ s.clients 0 = some c ∧
      c.stopped = some (.systemError (.other 104)) ∧ c.received.length = 1 ∧
      c.received <+: (welcome.id, welcome.text) :: c.handled.sent := by
  intro events
  have hscope : Runs.StepsMeet EchoNetwork.step EchoNetwork.InScope EchoNetwork.start events := by
    decide +kernel
  have hresult : (Runs.run EchoNetwork.step EchoNetwork.start events).bind
      (fun s => (s.clients 0).map fun c => (c.stopped, c.received.length))
      = some (some (.systemError (.other 104)), 1) := by
    decide +kernel
  obtain ⟨s, hrun, hresult⟩ := Option.bind_eq_some_iff.mp hresult
  obtain ⟨c, hclient, hs⟩ := Option.map_eq_some_iff.mp hresult
  obtain ⟨hstopped, hlength⟩ := Prod.mk.inj hs
  obtain ⟨hclients, hloop⟩ := echo_network_order hscope hrun
  obtain ⟨-, hreceived, -⟩ := hclients 0 c hclient
  exact ⟨s, c, hrun, hloop (by decide), hclient, hstopped, hlength, hreceived⟩

end Acs
