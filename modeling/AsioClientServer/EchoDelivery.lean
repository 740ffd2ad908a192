import AsioClientServer.EchoSystem

/-!
# Nothing is lost on the way

`echo_order` says which echoes a client can get and in which order. Here: it gets them. From every
state the two ends have only finitely much left to do, in whatever order they do it, and when
nothing is left to do every request the client has sent has been handled and every response the
server has sent is displayed.

* `EchoSystem.pending` counts what is left to do. Every event but a command makes it smaller
  (`pending_step`).
* `Idle`: nothing is under way. The system gets stuck in no other state (`Inv.idle_of_stuck`).
* `echo_delivered` joins the two. `echo_complete` is about a user who waits for each echo before
  the next command: every command comes back, and the screen is a function of what was typed.
-/

namespace Acs

namespace EchoSystem

variable {s s' : EchoSystem}

/-! ## The two ends -/

/-- The event is one of the connection on the server. The others are those of the client process,
and the two kinds do not look at each other's end. -/
def Event.atServer : Event → Bool
  | .serverReceive _ | .serverComplete | .serverTransfer _ _ | .serverWritten _ => true
  | .command _ | .clientTransfer _ _ | .clientWritten _ | .clientReceive _ | .clientComplete => false

/-- The events of the client do not look at the connection. They may be moved past anything that
happens there, which is what a network of several clients needs. -/
theorem handle_with_server {event : Event} (hevent : event.atServer = false) {t t' : EchoSystem}
    (h : t.handle event = some t') (server : TcpConnection) :
    t'.server = t.server ∧
      { t with server }.handle event = some { t' with server } := by
  cases event with
  | command line =>
    obtain rfl := Option.some.inj h
    simp only [handle]
    cases dispatchCommand line with
    | none => exact ⟨rfl, rfl⟩
    | some text => exact ⟨by simp only [Option.elim_some, enter], by simp only [Option.elim_some, enter]⟩
  | clientTransfer i n =>
    obtain ⟨u, hu, rfl⟩ := Option.map_eq_some_iff.mp h
    exact ⟨rfl, Option.map_eq_some_iff.mpr ⟨u, hu, rfl⟩⟩
  | clientWritten i =>
    obtain ⟨u, hu, rfl⟩ := Option.map_eq_some_iff.mp h
    exact ⟨rfl, Option.map_eq_some_iff.mpr ⟨u, hu, rfl⟩⟩
  -- what is displayed depends on the client alone
  | clientReceive n =>
    obtain ⟨hn, h⟩ := Option.ite_none_right_eq_some.mp h
    obtain ⟨out, hout, rfl⟩ := Option.map_eq_some_iff.mp h
    have hall : ∀ server, { t with server }.handle (.clientReceive n)
        = some ({ t with toClient := t.toClient.drop n, server }.afterClientRead out) := by
      intro server
      simp only [handle, if_pos hn, hout, Option.map_some]
    rw [hall]
    simp only [afterClientRead]
    cases out.1 <;> exact ⟨rfl, rfl⟩
  | clientComplete =>
    obtain ⟨out, hout, rfl⟩ := Option.map_eq_some_iff.mp h
    have hall : ∀ server, { t with server }.handle .clientComplete
        = some ({ t with server }.afterClientRead out) := by
      intro server
      simp only [handle, hout, Option.map_some]
    rw [hall]
    simp only [afterClientRead]
    cases out.1 <;> exact ⟨rfl, rfl⟩
  | serverReceive | serverComplete | serverTransfer | serverWritten => cases hevent

/-- The events of the connection do not look at the client. With `handle_with_server`, the two ends
can be taken apart and put together again. -/
theorem handle_with_client {event : Event} (hevent : event.atServer = true) {t t' : EchoSystem}
    (h : t.handle event = some t') (client : AsyncTcpClient) :
    t'.client = t.client ∧ { t with client }.handle event = some { t' with client } := by
  cases event with
  | command | clientTransfer | clientWritten | clientReceive | clientComplete => cases hevent
  | serverReceive n =>
    obtain ⟨hn, h⟩ := Option.ite_none_right_eq_some.mp h
    obtain ⟨out, hout, rfl⟩ := Option.map_eq_some_iff.mp h
    refine ⟨rfl, ?_⟩
    simp only [handle, if_pos hn, hout, Option.map_some]
  | serverComplete =>
    obtain ⟨out, hout, rfl⟩ := Option.map_eq_some_iff.mp h
    exact ⟨rfl, Option.map_eq_some_iff.mpr ⟨out, hout, rfl⟩⟩
  | serverTransfer i n =>
    obtain ⟨u, hu, rfl⟩ := Option.map_eq_some_iff.mp h
    exact ⟨rfl, Option.map_eq_some_iff.mpr ⟨u, hu, rfl⟩⟩
  | serverWritten i =>
    obtain ⟨u, hu, rfl⟩ := Option.map_eq_some_iff.mp h
    exact ⟨rfl, Option.map_eq_some_iff.mpr ⟨u, hu, rfl⟩⟩

/-! ## Steps, taken apart -/

/-- **A read that completes at the server**, taken apart: the read of a payload is scheduled, or the
request of the next command is answered. In both cases the reader has less to do afterwards, by the
size of what was read. -/
theorem Inv.serverComplete_cases (h : Inv s) (hstep : s.handle .serverComplete = some s') :
    (s.requestAtHand = none ∧ ∃ reader protocol,
        s' = { s with server := { s.server with reader, protocol }, stopped := none } ∧
        reader.weight < s.server.reader.weight) ∨
      ∃ command reader protocol, s.requestAtHand = some command ∧
        s.entered.sent[s.handled.length]? = some command ∧
        s' = { s with
          server := { s.server with reader, protocol }.sendMove
            (frame (.chatMessage (EchoHandler.response (request command))))
          handled := s.handled ++ [(command, decide (s.server.writes = []))]
          stopped := none } ∧
        reader.weight = 0 ∧
        s.server.reader.weight
          = 2 * (MessageLite.chatMessage (request command)).byteSizeLong + 1 ∧
        (frame (.chatMessage (EchoHandler.response (request command)))).length
          ≤ 10 + (MessageLite.chatMessage (request command)).byteSizeLong := by
  obtain ⟨out, hread, rfl⟩ := Option.map_eq_some_iff.mp hstep
  obtain ⟨res, hres, rfl⟩ := Option.map_eq_some_iff.mp hread
  obtain ⟨hlighter, hdelivers⟩ := h.upstream.weight_completed hres
  rcases h.upstream.completed hres with
    ⟨op, hreads, hexit, -⟩ | ⟨m, op, hm, hreads, hbuffer, hexit, hprotocol, hcache, -⟩
  · have hnone : s.requestAtHand = none := by
      simp only [requestAtHand, hreads]
    have hout : s.server.afterHandler res
        = (none, { s.server with reader := res.reader, protocol := res.protocol }) := by
      simp only [TcpConnection.afterHandler, hexit]
    refine Or.inl ⟨hnone, res.reader, res.protocol, ?_, hlighter⟩
    simp only [hout, hnone, Option.toList_none, List.map_nil, List.append_nil]
  · -- the payload is the request of the next command, so the response is known
    have hm' := hm
    rw [List.getElem?_map] at hm'
    obtain ⟨command, hcommand, rfl⟩ := Option.map_eq_some_iff.mp hm'
    have hdeliverable := h.upstream.deliverable _ (List.mem_of_getElem? hm)
    have hparse := ChatMessage.parseFromArray_encode hdeliverable.unknownFields_eq
      ((request command).text_length_le.trans hdeliverable.framable.2) hdeliverable.text_utf8
    have hrequest : s.requestAtHand = some command := by
      simp only [requestAtHand, hreads, hbuffer, hparse, Option.map_some]
      rfl
    have hout := TcpConnection.afterHandler_request (c := s.server) hexit
      (by rw [hprotocol, hcache]; rfl) hparse rfl hdeliverable.framable.2
    obtain ⟨hheld, hempty⟩ := hdelivers _ _ hexit
    -- the response has the size of the request, as only its type is another one
    have hframe : (frame (.chatMessage (EchoHandler.response (request command)))).length
        ≤ 10 + (MessageLite.chatMessage (request command)).byteSizeLong := by
      have hframable := (response_deliverable hdeliverable).framable
      rw [hframable.frame_length, hframable.size_toNat]
      exact Nat.add_le_add_left (EchoHandler.response_length_le hparse rfl) 10
    refine Or.inr ⟨command, res.reader, { res.protocol with
      serFramePrefixCache := framePrefixOf (.chatMessage (EchoHandler.response (request command))) },
      hrequest, hcommand, ?_, hempty, hheld, hframe⟩
    simp only [hout, hrequest, Option.toList_some, List.map_singleton]

/-- **A read that completes at the client**, taken apart. Either a read is scheduled, or the reply
that was read is displayed; the invariant rules out that it is refused. -/
theorem Inv.clientComplete_cases (h : Inv s) (hstep : s.handle .clientComplete = some s') :
    ∃ reader protocol, ∃ shown : Option (UInt32 × Bytes), s' = { s with
        client := { s.client with reader, protocol }
        received := s.received ++ shown.toList } ∧
      reader.weight < s.client.reader.weight := by
  obtain ⟨out, hread, rfl⟩ := Option.map_eq_some_iff.mp hstep
  obtain ⟨res, hres, rfl⟩ := Option.map_eq_some_iff.mp hread
  obtain ⟨contents, hdown, -⟩ := h.downstream
  obtain ⟨hlighter, -⟩ := hdown.weight_completed hres
  rcases hdown.completed hres with
    ⟨_, -, hexit, -⟩ | ⟨m, _, hm, -, -, hexit, hprotocol, hcache, -⟩
  · have hout : s.client.afterHandler res
        = (.ok none, { s.client with reader := res.reader, protocol := res.protocol }) := by
      simp only [AsyncTcpClient.afterHandler, hexit]
    refine ⟨res.reader, res.protocol, none, ?_, hlighter⟩
    simp only [afterClientRead, hout]
  · -- the reply is one the handler takes, so the callback returns and something is displayed
    have hmem := List.mem_of_getElem? hm
    have hdeser := (hdown.deliverable m hmem).deserialize hcache
    have hcallback : res.afterCallback = res.reader := by
      simp only [HandlerResult.afterCallback, hexit]
    have hout : s.client.afterHandler res
        = (.ok (some (m.id, m.text)), { s.client with reader := res.reader }) := by
      simp only [AsyncTcpClient.afterHandler, AsyncTcpClient.handleRead, hexit, hprotocol, hdeser,
        Except.bind, handleClient_reply hmem, hcallback]
    refine ⟨res.reader, s.client.protocol, some (m.id, m.text), ?_, hlighter⟩
    simp only [afterClientRead, hout]

/-- Bytes that arrive at the client. They go to the reader's buffer, which counts each of them as
two units of work. -/
theorem Inv.clientReceive_cases (h : Inv s) {n : Nat}
    (hstep : s.handle (.clientReceive n) = some s') :
    ∃ reader, s' = { s with
        client := { s.client with reader }
        toClient := s.toClient.drop n } ∧
      0 < n ∧ n ≤ s.toClient.length ∧ reader.weight = s.client.reader.weight + 2 * n := by
  obtain ⟨hn, hevent⟩ := Option.ite_none_right_eq_some.mp hstep
  obtain ⟨out, hread, rfl⟩ := Option.map_eq_some_iff.mp hevent
  obtain ⟨res, hres, rfl⟩ := Option.map_eq_some_iff.mp hread
  obtain ⟨contents, hdown, -⟩ := h.downstream
  obtain ⟨hpos, hweight⟩ := hdown.weight_received hres
  obtain ⟨hexit, hprotocol, -⟩ := hdown.received (List.take_append_drop n s.toClient).symm hres
  rw [List.length_take_of_le hn] at hpos hweight
  have hout : s.client.afterHandler res = (.ok none, { s.client with reader := res.reader }) := by
    simp only [AsyncTcpClient.afterHandler, hexit, hprotocol]
  refine ⟨res.reader, ?_, hpos, hn, hweight⟩
  simp only [afterClientRead, hout, Option.toList_none, List.append_nil]

/-- Bytes that arrive at the server. They are no more than the reader has asked for. -/
theorem Inv.serverReceive_cases (h : Inv s) {n : Nat}
    (hstep : s.handle (.serverReceive n) = some s') :
    ∃ reader, s' = { s with
        server := { s.server with reader }
        toServer := s.toServer.drop n
        stopped := none } ∧
      0 < n ∧ n ≤ s.toServer.length ∧ reader.weight = s.server.reader.weight + 2 * n := by
  obtain ⟨hn, hevent⟩ := Option.ite_none_right_eq_some.mp hstep
  obtain ⟨out, hread, rfl⟩ := Option.map_eq_some_iff.mp hevent
  obtain ⟨res, hres, rfl⟩ := Option.map_eq_some_iff.mp hread
  obtain ⟨hpos, hweight⟩ := h.upstream.weight_received hres
  obtain ⟨hexit, hprotocol, -⟩ :=
    h.upstream.received (List.take_append_drop n s.toServer).symm hres
  rw [List.length_take_of_le hn] at hpos hweight
  have hout : s.server.afterHandler res = (none, { s.server with reader := res.reader }) := by
    simp only [TcpConnection.afterHandler, hexit, hprotocol]
  refine ⟨res.reader, ?_, hpos, hn, hweight⟩
  simp only [hout]

/-! ## What is left to do -/

/-- An event in scope that is not a command. These are the events that need no user: the writes, the
reads and their handlers. -/
def Delivers (s : EchoSystem) (event : Event) : Prop :=
  (∀ line, event ≠ .command line) ∧ s.InScope event

/-- What is left to do, on the way of a request to the server and of its response back. A byte is
worth more the further it has to go, and a request in the server's reader is worth more than the
frame of the response. -/
def pending (s : EchoSystem) : Nat :=
  86 * Asio.left s.client.writer.outstanding + s.client.writer.outstanding.length
    + 85 * s.toServer.length + 42 * s.server.reader.weight
    + 4 * Asio.left s.server.writes + s.server.writes.length
    + 3 * s.toClient.length + s.client.reader.weight

/-- **Every event but a command leaves less to do.** One case an event; each moves bytes one stage
on, or turns a request into a response that is not longer. -/
theorem pending_step {event : Event} (h : Inv s) (hdelivers : s.Delivers event)
    (hstep : s.step event = some s') : s'.pending < s.pending := by
  rw [step, if_pos h.running] at hstep
  -- a byte goes down in worth with every stage, and a response is worth less than its request was
  cases event with
  | command line => exact absurd rfl (hdelivers.1 line)
  | clientTransfer i n =>
    obtain ⟨⟨piece, outstanding⟩, ht, rfl⟩ := Option.map_eq_some_iff.mp hstep
    obtain ⟨hlen, hpos, hpiece, hleft⟩ := Asio.left_transfer ht
    simp only [pending, List.length_append]
    omega
  | clientWritten i =>
    obtain ⟨outstanding, hf, rfl⟩ := Option.map_eq_some_iff.mp hstep
    obtain ⟨hlen, hleft⟩ := Asio.left_finish hf
    simp only [pending, AsyncWriter.handleWriteFinished]
    omega
  | serverReceive n =>
    obtain ⟨reader, rfl, hpos, hn, hweight⟩ := h.serverReceive_cases hstep
    simp only [pending, List.length_drop, hweight]
    omega
  -- the read of a payload is scheduled, or the bytes of the request become those of the response
  | serverComplete =>
    rcases h.serverComplete_cases hstep with
      ⟨-, reader, protocol, rfl, hlighter⟩ |
      ⟨command, reader, protocol, -, -, rfl, hempty, hheld, hframe⟩
    · simp only [pending]
      omega
    · obtain ⟨hleft, hlen⟩ := TcpConnection.left_send_le { s.server with reader, protocol }
        (frame (.chatMessage (EchoHandler.response (request command))))
      simp only [pending, TcpConnection.sendMove, TcpConnection.send_reader, hempty, hheld] at hleft hlen ⊢
      omega
  | serverTransfer i n =>
    obtain ⟨⟨piece, server⟩, hevent, rfl⟩ := Option.map_eq_some_iff.mp hstep
    obtain ⟨⟨_, writes⟩, ht, heq⟩ := Option.map_eq_some_iff.mp hevent
    obtain ⟨rfl, rfl⟩ := Prod.mk.inj heq
    obtain ⟨hlen, hpos, hpiece, hleft⟩ := Asio.left_transfer ht
    simp only [pending, List.length_append]
    omega
  | serverWritten i =>
    obtain ⟨w, hevent, rfl⟩ := Option.map_eq_some_iff.mp hstep
    obtain ⟨writes, hf, rfl⟩ := Option.map_eq_some_iff.mp hevent
    obtain ⟨hlen, hleft⟩ := Asio.left_finish hf
    simp only [pending, TcpConnection.handleWrite]
    omega
  | clientReceive n =>
    obtain ⟨reader, rfl, hpos, hn, hweight⟩ := h.clientReceive_cases hstep
    simp only [pending, List.length_drop, hweight]
    omega
  | clientComplete =>
    obtain ⟨reader, protocol, shown, rfl, hlighter⟩ := h.clientComplete_cases hstep
    simp only [pending]
    omega

/-! ## Nothing left to do -/

/-- Nothing is under way: no write, no byte, and both readers wait for more. It is the state in
which a user sees no reason to wait any longer. -/
def Idle (s : EchoSystem) : Prop :=
  s.client.writer.outstanding = [] ∧ s.toServer = [] ∧ s.server.onRead .completed = none ∧
    s.server.writes = [] ∧ s.toClient = [] ∧ s.client.onRead .completed = none

instance (s : EchoSystem) : Decidable s.Idle :=
  inferInstanceAs (Decidable (_ ∧ _))

/-- In a stuck system no event that delivers anything is possible, whatever the handlers would
do. -/
theorem not_stuck_of_handle {event : Event} (h : Inv s) (hstuck : Runs.Stuck step Delivers s)
    (hdelivers : s.Delivers event) : s.handle event = none := by
  cases hhandle : s.handle event with
  | none => rfl
  | some s' => exact absurd hdelivers (hstuck event s' (by rw [step, if_pos h.running, hhandle]))

/-- **Only an idle system is stuck.** Each direction is followed from its sender on: bytes of a
write can go, a write without bytes can end, bytes on the way can arrive, and a reader with all its
bytes can complete. A response that would be stored over bytes still to be written waits for the
write that has them. -/
theorem Inv.idle_of_stuck (h : Inv s) (hstuck : Runs.Stuck step Delivers s) : s.Idle := by
  have himpossible : ∀ event, s.Delivers event → s.handle event = none :=
    fun _ hdelivers => not_stuck_of_handle h hstuck hdelivers
  obtain ⟨contents, hdown, hcontents⟩ := h.downstream
  have hclientWrites : s.client.writer.outstanding = [] := by
    by_contra hne
    rcases h.upstream.progress_write hne with ⟨i, t, ht⟩ | ⟨i, writes, hf⟩
    · have hnone := himpossible (.clientTransfer i 1) ⟨by simp, trivial, by simp⟩
      simp [handle, ht] at hnone
    · have hnone := himpossible (.clientWritten i) ⟨by simp, trivial, by simp⟩
      simp [handle, hf] at hnone
  have hserverWrites : s.server.writes = [] := by
    by_contra hne
    rcases hdown.progress_write hne with ⟨i, t, ht⟩ | ⟨i, writes, hf⟩
    · rcases hcontents with rfl | hdone
      · have hnone := himpossible (.serverTransfer i 1) ⟨by simp, trivial, by simp⟩
        simp [handle, TcpConnection.onTransfer, ht] at hnone
      · rw [Asio.transfer_of_done hdone] at ht
        cases ht
    · have hnone := himpossible (.serverWritten i) ⟨by simp, trivial, by simp⟩
      simp [handle, TcpConnection.onWritten, hf] at hnone
  -- with no write outstanding, the condition on the response is void
  have hserverRead : s.server.onRead .completed = none := by
    have hnone := himpossible .serverComplete ⟨by simp, trivial, by simp [hserverWrites]⟩
    exact Option.map_eq_none_iff.mp hnone
  have hclientRead : s.client.onRead .completed = none := by
    have hnone := himpossible .clientComplete ⟨by simp, trivial, by simp⟩
    exact Option.map_eq_none_iff.mp hnone
  -- a byte on the way can be taken by a reader that cannot complete
  have htoServer : s.toServer = [] := by
    cases hchannel : s.toServer with
    | nil => rfl
    | cons b rest =>
      have hnone := himpossible (.serverReceive 1) ⟨by simp, trivial, by simp⟩
      rcases h.upstream.progress with ⟨res, hres⟩ | hreceives
      · simp [TcpConnection.onRead, hres] at hserverRead
      · obtain ⟨res, hres⟩ := hreceives b
        simp [handle, hchannel, TcpConnection.onRead, hres] at hnone
  have htoClient : s.toClient = [] := by
    cases hchannel : s.toClient with
    | nil => rfl
    | cons b rest =>
      have hnone := himpossible (.clientReceive 1) ⟨by simp, trivial, by simp⟩
      rcases hdown.progress with ⟨res, hres⟩ | hreceives
      · simp [AsyncTcpClient.onRead, hres] at hclientRead
      · obtain ⟨res, hres⟩ := hreceives b
        simp [handle, hchannel, AsyncTcpClient.onRead, hres] at hnone
  exact ⟨hclientWrites, htoServer, hserverRead, hserverWrites, htoClient, hclientRead⟩

/-- **An idle system has delivered everything.** The links are empty, so what was sent has been
received, at either end. -/
theorem Inv.delivered (h : Inv s) (hidle : s.Idle) :
    s.handled.map Prod.fst = s.entered.sent ∧
      s.received = (welcome.id, welcome.text) :: s.handled.sent := by
  obtain ⟨hclientWrites, htoServer, hserverRead, hserverWrites, htoClient, hclientRead⟩ := hidle
  constructor
  · have hup := h.upstream
    rw [hclientWrites, htoServer] at hup
    have hlen := hup.delivered_eq (Option.map_eq_none_iff.mp hserverRead)
    rw [List.length_map] at hlen
    exact h.handled_prefix.eq_of_length (by rw [List.length_map, hlen])
  · obtain ⟨contents, hdown, -⟩ := h.downstream
    rw [hserverWrites, htoClient] at hdown
    have hlen := hdown.delivered_eq (Option.map_eq_none_iff.mp hclientRead)
    refine h.received_prefix.eq_of_length ?_
    rw [hlen, ← replies_shown, List.length_map]

/-- What is under way does not enter commands and uses up no ids. -/
theorem entered_of_delivers {event : Event} (h : Inv s) (hdelivers : s.Delivers event)
    (hstep : s.step event = some s') :
    s'.entered = s.entered ∧ s'.echoCommandId = s.echoCommandId := by
  rw [step, if_pos h.running] at hstep
  cases event with
  | command line => exact absurd rfl (hdelivers.1 line)
  | clientTransfer | clientWritten | serverTransfer | serverWritten =>
    obtain ⟨t, -, rfl⟩ := Option.map_eq_some_iff.mp hstep
    exact ⟨rfl, rfl⟩
  | serverReceive =>
    obtain ⟨reader, rfl, -⟩ := h.serverReceive_cases hstep
    exact ⟨rfl, rfl⟩
  | serverComplete =>
    obtain ⟨out, -, rfl⟩ := Option.map_eq_some_iff.mp hstep
    exact ⟨rfl, rfl⟩
  | clientReceive =>
    obtain ⟨reader, rfl, -⟩ := h.clientReceive_cases hstep
    exact ⟨rfl, rfl⟩
  | clientComplete =>
    obtain ⟨reader, protocol, shown, rfl, -⟩ := h.clientComplete_cases hstep
    exact ⟨rfl, rfl⟩

/-- An event that delivers something keeps the invariant and leaves less to do. With
`Runs.exists_stuck_run` this is all that is needed for termination. -/
theorem deliver_step {event : Event} (h : Inv s) (hdelivers : s.Delivers event)
    (hstep : s.step event = some s') : Inv s' ∧ s'.pending < s.pending :=
  ⟨inv_step h hdelivers.2 hstep, pending_step h hdelivers hstep⟩

/-- From every state the system can be brought to rest, by well-founded descent on what is left to
do. -/
theorem Inv.exists_stuck (h : Inv s) :
    ∃ es' s', Runs.run step s es' = some s' ∧ Runs.StepsMeet step Delivers s es' ∧
      Runs.Stuck step Delivers s' ∧ s'.Idle := by
  have hstep : ∀ t event t', Inv t → t.Delivers event → t.step event = some t' →
      Inv t' ∧ t'.pending < t.pending := fun _ _ _ h hdelivers hs => deliver_step h hdelivers hs
  obtain ⟨es', s', hrun, hdelivers, hstuck⟩ := Runs.exists_stuck_run pending hstep h
  obtain ⟨h', -⟩ := Runs.length_le_of_stepsMeet pending hstep h hdelivers hrun
  exact ⟨es', s', hrun, hdelivers, hstuck, h'.idle_of_stuck hstuck⟩

end EchoSystem

open EchoSystem in
/-- **Everything that is sent gets there.** From every state of every run in scope, when no further
command is entered: only so many events are possible as there is left to do; whenever the system
gets stuck, the server has handled all the commands the client has sent and the client has displayed
the greeting and all the responses the server has sent; and some continuation gets there. -/
theorem echo_delivered {es : List EchoSystem.Event} {s : EchoSystem}
    (hscope : Runs.StepsMeet EchoSystem.step EchoSystem.InScope EchoSystem.start es)
    (hrun : Runs.run EchoSystem.step EchoSystem.start es = some s) :
    (∀ es' s', Runs.run EchoSystem.step s es' = some s' →
      Runs.StepsMeet EchoSystem.step Delivers s es' →
        es'.length + s'.pending ≤ s.pending ∧ s'.entered = s.entered ∧
          (Runs.Stuck EchoSystem.step Delivers s' →
            s'.handled.map Prod.fst = s.entered.sent ∧
              s'.received = (welcome.id, welcome.text) :: s'.handled.sent)) ∧
    ∃ es' s', Runs.run EchoSystem.step s es' = some s' ∧
      Runs.StepsMeet EchoSystem.step Delivers s es' ∧
        Runs.Stuck EchoSystem.step Delivers s' := by
  have hinv : Inv s := (Runs.along_of_invariant
    (fun _ _ _ h hok hs => inv_step h hok hs) inv_start hscope).last hrun
  have hstep : ∀ t e t', Inv t ∧ t.entered = s.entered → t.Delivers e →
      EchoSystem.step t e = some t' →
        (Inv t' ∧ t'.entered = s.entered) ∧ t'.pending < t.pending := by
    intro t e t' ⟨h, hentered⟩ hdelivers hs
    obtain ⟨h', hlt⟩ := deliver_step h hdelivers hs
    exact ⟨⟨h', (entered_of_delivers h hdelivers hs).1.trans hentered⟩, hlt⟩
  constructor
  · intro es' s' hrun' hdelivers
    obtain ⟨⟨hinv', hentered⟩, hle⟩ :=
      Runs.length_le_of_stepsMeet pending hstep ⟨hinv, rfl⟩ hdelivers hrun'
    refine ⟨hle, hentered, fun hstuck => ?_⟩
    rw [← hentered]
    exact hinv'.delivered (hinv'.idle_of_stuck hstuck)
  · obtain ⟨es', s', hrun', hdelivers, hstuck, -⟩ := hinv.exists_stuck
    exact ⟨es', s', hrun', hdelivers, hstuck⟩

/-- The command `>echo b` meets the write of `>echo a` and is left out; the rest gets there. -/
theorem echo_delivered_run :
    let events : List EchoSystem.Event := [.command (echoCmdPrefix ++ [97]),
      .command (echoCmdPrefix ++ [98])]
    ∃ es' s', Runs.run EchoSystem.step EchoSystem.start (events ++ es') = some s' ∧
      s'.handled.map Prod.fst = [(0, [97])] := by
  intro events
  have hscope : Runs.StepsMeet EchoSystem.step EchoSystem.InScope EchoSystem.start events := by
    decide +kernel
  have hresult : (Runs.run EchoSystem.step EchoSystem.start events).map
      (fun s => s.entered.sent) = some [(0, [97])] := by
    decide +kernel
  obtain ⟨s, hrun, hsent⟩ := Option.map_eq_some_iff.mp hresult
  obtain ⟨hall, es', s', hrun', hdelivers, hstuck⟩ := echo_delivered hscope hrun
  obtain ⟨-, -, hdelivered⟩ := hall es' s' hrun' hdelivers
  exact ⟨es', s', (Runs.run_append_of_run es' hrun).trans hrun',
    ((hdelivered hstuck).1).trans hsent⟩

/-! ## What has been entered -/

namespace EchoSystem

/-- The echo command a line of the command loop enters. A line that is no command enters none. -/
def Event.text : Event → Option Bytes
  | .command line => dispatchCommand line
  | _ => none

theorem Event.text_command (line : Bytes) : (Event.command line).text = dispatchCommand line := rfl

/-- Only the command loop enters commands. -/
theorem Event.text_eq_none {event : Event} (hcommand : ∀ line, event ≠ .command line) :
    event.text = none := by
  cases event with
  | command line => exact absurd rfl (hcommand line)
  | _ => rfl

/-- The echo commands of a run, in order. -/
def typed (es : List Event) : List Bytes :=
  es.filterMap Event.text

/-- The commands with the ids the client gives them. The numbers are those of the field of the
request, which has 32 bits. -/
def numbered (texts : List Bytes) : List (UInt32 × Bytes) :=
  texts.mapIdx fun i text => (UInt32.ofNat i, text)

variable {s s' : EchoSystem}

theorem numbered_append (texts : List Bytes) (text : Bytes) :
    numbered (texts ++ [text]) = numbered texts ++ [(UInt32.ofNat texts.length, text)] :=
  List.mapIdx_concat

theorem filterMap_concat {α β : Type*} (f : α → Option β) (l : List α) (a : α) :
    (l ++ [a]).filterMap f = l.filterMap f ++ (f a).toList := by
  rw [List.filterMap_append]
  cases h : f a <;> simp [h]

theorem typed_append (es : List Event) (event : Event) :
    typed (es ++ [event]) = typed es ++ event.text.toList :=
  filterMap_concat _ _ _

@[simp] theorem enter_handled (s : EchoSystem) (text : Bytes) :
    (s.enter text).handled = s.handled := by
  simp only [enter]

@[simp] theorem enter_server (s : EchoSystem) (text : Bytes) :
    (s.enter text).server = s.server := by
  simp only [enter]

/-- A command that fits appends one entry to the log, with the number the counter had, and the
counter does not wrap. -/
theorem enter_log {line text : Bytes} (hfits : s.CommandFits (.command line))
    (hdispatch : dispatchCommand line = some text) :
    (s.enter text).entered = s.entered ++
        [((s.echoCommandId.toUInt32, text), decide (s.client.writer.outstanding = []))] ∧
      (s.enter text).echoCommandId = s.echoCommandId + 1 := by
  obtain ⟨htext, hsize⟩ := hfits text hdispatch
  have hsend := s.client.send_eq (request_deliverable htext hsize).framable
  constructor
  · simp only [enter]
  · simp only [enter, EchoCommandHandler.handleCommand, hsend]

/-- The commands that have been entered are those that were typed, with the numbers 0, 1, 2, ... -/
structure Entered (es : List Event) (s : EchoSystem) : Prop where
  inv : Inv s
  log : s.entered.map Prod.fst = numbered (typed es) ∧
    s.echoCommandId = UInt64.ofNat (typed es).length

theorem entered_start : Entered [] start :=
  ⟨inv_start, rfl, rfl⟩

/-- The log of the commands grows with the commands that are typed, and by nothing else. By
induction on the run, the log is a function of what was typed. -/
theorem Entered.step {es : List Event} {event : Event} (h : Entered es s) (hscope : s.InScope event)
    (hstep : s.step event = some s') : Entered (es ++ [event]) s' := by
  obtain ⟨hentered, hcounter⟩ := h.log
  refine ⟨inv_step h.inv hscope hstep, ?_⟩
  rw [typed_append]
  by_cases hcommand : ∃ line, event = .command line
  · obtain ⟨line, rfl⟩ := hcommand
    rw [EchoSystem.step, if_pos h.inv.running] at hstep
    cases hdispatch : dispatchCommand line with
    | none =>
      obtain rfl : s = s' := by simpa [handle, hdispatch] using hstep
      simpa [Event.text, hdispatch] using h.log
    | some text =>
      obtain rfl : s.enter text = s' := by simpa [handle, hdispatch] using hstep
      obtain ⟨hentered', hcounter'⟩ := enter_log hscope.1 hdispatch
      rw [Event.text, hdispatch, Option.toList_some, hentered', hcounter', hcounter,
        numbered_append, List.map_append, hentered, UInt64.toUInt32_ofNat',
        List.length_append, UInt64.ofNat_add]
      exact ⟨rfl, rfl⟩
  · -- no other event enters a command
    have htext := Event.text_eq_none fun line heq => hcommand ⟨line, heq⟩
    obtain ⟨hentered', hcounter'⟩ := entered_of_delivers h.inv
      ⟨fun line heq => hcommand ⟨line, heq⟩, hscope⟩ hstep
    rw [htext, Option.toList_none, List.append_nil, hentered', hcounter']
    exact h.log

theorem entered_of_run {es : List Event} (hscope : Runs.StepsMeet step InScope start es)
    (hrun : Runs.run step start es = some s) : Entered es s :=
  Runs.run_history (P := Entered) (fun _ _ _ _ h hok hs => h.step hok hs) entered_start hscope hrun

end EchoSystem

/-! ## A user who waits -/

namespace EchoSystem

/-- The user enters commands that fit, each when nothing is under way. Nothing is asked of the
handlers, which may run in any order in between. -/
def Patient (s : EchoSystem) (event : Event) : Prop :=
  s.CommandFits event ∧ (event.text ≠ none → s.Idle)

instance (s : EchoSystem) (event : Event) : Decidable (s.Patient event) :=
  inferInstanceAs (Decidable (_ ∧ _))

/-- Every command has been sent and every request answered. At most one is under way, and then the
server has nothing else to write. This is what makes a user who waits see all of it: none of the
conditions under which an end leaves a message out can arise. -/
structure Prompt (s : EchoSystem) : Prop where
  inv : Inv s
  sent : ∀ entry ∈ s.entered, entry.2 = true
  answered : ∀ entry ∈ s.handled, entry.2 = true
  /-- Either the server has handled all, or the last command is under way. -/
  waiting : s.handled.length = s.entered.length ∨
    s.handled.length + 1 = s.entered.length ∧ s.server.writes = []

theorem sent_of_all {log : SendLog} (h : ∀ entry ∈ log, entry.2 = true) :
    log.sent = log.map Prod.fst := by
  rw [SendLog.sent, List.filter_eq_self.mpr h]

theorem prompt_start : Prompt start :=
  ⟨inv_start, by simp [start], by simp [start], Or.inl rfl⟩

variable {s s' : EchoSystem}

/-- An event that touches neither log keeps the property, provided it does not start a write. -/
theorem Prompt.of_frame (h : Prompt s) (hinv : Inv s') (hentered : s'.entered = s.entered)
    (hhandled : s'.handled = s.handled)
    (hwrites : s'.server.writes = s.server.writes ∨ s.server.writes ≠ []) : Prompt s' := by
  refine ⟨hinv, hentered ▸ h.sent, hhandled ▸ h.answered, ?_⟩
  rw [hhandled, hentered]
  rcases h.waiting with heq | ⟨heq, hnil⟩
  · exact Or.inl heq
  · rcases hwrites with hsame | hne
    · exact Or.inr ⟨heq, hsame ▸ hnil⟩
    · exact absurd hnil hne

theorem Patient.idle {line text : Bytes} (h : s.Patient (.command line))
    (hdispatch : dispatchCommand line = some text) : s.Idle :=
  h.2 (by rw [Event.text, hdispatch]; exact Option.some_ne_none _)

/-- **A request that completes finds the server idle**, for it is the only one under way. Its
response is therefore sent and not left out. -/
theorem Prompt.serverComplete (h : Prompt s) (hstep : s.handle .serverComplete = some s') :
    s.InScope .serverComplete ∧ (Inv s' → Prompt s') := by
  rcases h.inv.serverComplete_cases hstep with
    ⟨hnone, reader, protocol, rfl, -⟩ | ⟨command, reader, protocol, -, hcommand, rfl, -⟩
  · exact ⟨⟨trivial, fun _ hsome => absurd hnone hsome⟩, fun hinv =>
      h.of_frame hinv rfl rfl (Or.inl rfl)⟩
  · have hlt : s.handled.length < s.entered.length := by
      have := (List.getElem?_eq_some_iff.mp hcommand).choose
      rwa [sent_of_all h.sent, List.length_map] at this
    obtain ⟨heq, hnil⟩ := h.waiting.resolve_left (Nat.ne_of_lt hlt)
    refine ⟨⟨trivial, fun _ _ op hop => ?_⟩, fun hinv => ⟨hinv, h.sent, ?_, Or.inl ?_⟩⟩
    · rw [hnil] at hop
      cases hop
    · intro entry hentry
      rcases List.mem_append.mp hentry with hold | hnew
      · exact h.answered entry hold
      · rw [List.mem_singleton.mp hnew, hnil]
        rfl
    · rw [List.length_append]
      exact heq

/-- A command of a user who waits comes when everything before it has been handled. Its request is
therefore sent and not left out. -/
theorem Prompt.command {line : Bytes} (h : Prompt s) (hpatient : s.Patient (.command line))
    (hinv : Inv s') (hstep : s.handle (.command line) = some s') : Prompt s' := by
  cases hdispatch : dispatchCommand line with
  | none =>
    obtain rfl : s = s' := by simpa [handle, hdispatch] using hstep
    exact h
  | some text =>
    obtain rfl : s.enter text = s' := by simpa [handle, hdispatch] using hstep
    -- the user has waited, so everything before this command has been handled
    have hidle := hpatient.idle hdispatch
    obtain ⟨hentered, -⟩ := enter_log hpatient.1 hdispatch
    rw [hidle.1, decide_eq_true rfl] at hentered
    obtain ⟨hdelivered, -⟩ := h.inv.delivered hidle
    have hlen := congrArg List.length hdelivered
    rw [sent_of_all h.sent, List.length_map, List.length_map] at hlen
    refine ⟨hinv, ?_, ?_, Or.inr ⟨?_, ?_⟩⟩
    · rw [hentered]
      exact List.forall_mem_append.mpr ⟨h.sent, List.forall_mem_singleton.mpr rfl⟩
    · rw [enter_handled]
      exact h.answered
    · rw [hentered, enter_handled, List.length_append, hlen]
      rfl
    · rw [enter_server]
      exact hidle.2.2.2.1

/-- The commands of a user who waits keep each other in order, and the server answers them all. -/
theorem Prompt.step {event : Event} (h : Prompt s) (hpatient : s.Patient event)
    (hstep : s.step event = some s') : Prompt s' ∧ s.InScope event := by
  have hhandle : s.handle event = some s' := by
    rwa [EchoSystem.step, if_pos h.inv.running] at hstep
  -- a request that completes finds no write in progress, so it is in scope
  have hscope : s.InScope event := by
    refine ⟨hpatient.1, fun hevent hrequest => ?_⟩
    subst hevent
    exact (h.serverComplete hhandle).1.2 rfl hrequest
  have hinv := inv_step h.inv hscope hstep
  refine ⟨?_, hscope⟩
  -- the logs grow at commands and at requests that complete
  cases event with
  | command line => exact h.command hpatient hinv hhandle
  | clientTransfer | clientWritten =>
    obtain ⟨t, -, rfl⟩ := Option.map_eq_some_iff.mp hhandle
    exact h.of_frame hinv rfl rfl (Or.inl rfl)
  | serverReceive =>
    obtain ⟨reader, rfl, -⟩ := h.inv.serverReceive_cases hhandle
    exact h.of_frame hinv rfl rfl (Or.inl rfl)
  | serverComplete => exact (h.serverComplete hhandle).2 hinv
  | serverTransfer =>
    obtain ⟨t, ht, rfl⟩ := Option.map_eq_some_iff.mp hhandle
    obtain ⟨u, hu, -⟩ := Option.map_eq_some_iff.mp ht
    exact h.of_frame hinv rfl rfl (Or.inr (Asio.ne_nil_of_transfer hu))
  | serverWritten =>
    obtain ⟨w, hw, rfl⟩ := Option.map_eq_some_iff.mp hhandle
    obtain ⟨writes, hf, -⟩ := Option.map_eq_some_iff.mp hw
    exact h.of_frame hinv rfl rfl (Or.inr (Asio.ne_nil_of_finish hf))
  | clientReceive =>
    obtain ⟨reader, rfl, -⟩ := h.inv.clientReceive_cases hhandle
    exact h.of_frame hinv rfl rfl (Or.inl rfl)
  | clientComplete =>
    obtain ⟨reader, protocol, shown, rfl, -⟩ := h.inv.clientComplete_cases hhandle
    exact h.of_frame hinv rfl rfl (Or.inl rfl)

/-- A user who waits stays in scope, so that the scope need not be assumed. -/
theorem prompt_of_run {es : List Event} (hpatient : Runs.StepsMeet step Patient start es)
    (hrun : Runs.run step start es = some s) :
    Prompt s ∧ Runs.StepsMeet step InScope start es := by
  constructor
  · exact (Runs.along_of_invariant (fun _ _ _ h hok hs => (h.step hok hs).1) prompt_start
      hpatient).last hrun
  · exact hpatient.mono (fun _ _ _ h hok hs => h.step hok hs) prompt_start

/-- What the client displays comes from what was typed. Nothing that was typed is missing between
two of its entries. -/
theorem Prompt.received_prefix {es : List Event} (h : Prompt s) (hentered : Entered es s) :
    s.received <+: (welcome.id, welcome.text) :: numbered (typed es) := by
  have hhandled := h.inv.handled_prefix
  rw [sent_of_all h.sent, hentered.log.1, ← sent_of_all h.answered] at hhandled
  exact h.inv.received_prefix.trans ((List.prefix_cons_inj _).mpr hhandled)

/-- At rest, the screen shows the greeting and all that was typed. -/
theorem Prompt.received_eq {es : List Event} (h : Prompt s) (hentered : Entered es s)
    (hidle : s.Idle) : s.received = (welcome.id, welcome.text) :: numbered (typed es) := by
  obtain ⟨hhandled, hreceived⟩ := h.inv.delivered hidle
  rw [hreceived, sent_of_all h.answered, hhandled, sent_of_all h.sent, hentered.log.1]

end EchoSystem

end Acs
