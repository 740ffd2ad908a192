import AsioClientServer.Client.AsyncTcpClient
import AsioClientServer.Conn.Link
import AsioClientServer.Server.TcpConnection
import Mathlib.Data.List.Infix

/-!
# Echo from end to end

One client and its connection on the server, with the bytes on their way between them. A request
takes five stages, each with its own handlers, and they run in any order: the command loop, the
write of the client, the read of the server, its write of the response, the read of the client.
Each side refuses to write while a write of its own is in progress: the client's writer leaves the
command out, the server's connection leaves the response out, after it has stored it in the buffer
it is writing from.

* `EchoSystem.Inv`: each direction is a `Link`. One carries the requests the client's writer has
  taken, the other the greeting and the responses to the requests that found the server idle.
* `echo_order`: as long as the server does not store a response over bytes it has still to write,
  the client receives the greeting and the commands neither side has left out, in order.
* `echo_order_fails`: a command that was left out is not made up for.
-/

namespace Acs

/-- What an end was asked to send, in order, and whether it did: it had no write outstanding. -/
abbrev SendLog := List ((UInt32 × Bytes) × Bool)

/-- The messages of the log that were handed to the socket. What is left out between two of them
leaves no trace at the other end. -/
def SendLog.sent (log : SendLog) : List (UInt32 × Bytes) :=
  (log.filter Prod.snd).map Prod.fst

/-- The two ends and the two directions, once the connection is established: the server has
started the connection and the client has begun to receive. -/
structure EchoSystem where
  client : AsyncTcpClient
  /-- The counter of `EchoCommandHandler::handleCommand`. -/
  echoCommandId : UInt64 := 0
  server : TcpConnection
  toServer : Bytes := []
  toClient : Bytes := []
  /-- What the client has displayed, in order. -/
  received : List (UInt32 × Bytes) := []
  /-- The echo commands that have been entered, and whether the client has sent them. -/
  entered : SendLog := []
  /-- The requests the server has got, and whether it has sent the response. -/
  handled : SendLog := []
  /-- The exception or the assertion that has ended a handler of either end. -/
  stopped : Option Failure := none
  deriving DecidableEq, Repr

/-- What can happen next at either end. The client's events are those of its command loop and of its
connection, the server's those of the one connection it has with this client. A write may take any
part of its bytes at a time and a read may get any part of what has arrived, so that the runs of
this system cover every interleaving of the handlers of the two processes. -/
inductive EchoSystem.Event where
  /-- The command loop reads a line. -/
  | command (line : Bytes)
  | clientTransfer (i n : Nat)
  | clientWritten (i : Nat)
  | serverReceive (n : Nat)
  | serverComplete
  | serverTransfer (i n : Nat)
  | serverWritten (i : Nat)
  | clientReceive (n : Nat)
  | clientComplete
  deriving DecidableEq, Repr

namespace EchoSystem

/-- The state in which both ends have just begun: the server has sent its greeting and waits for the
prefix of a request, the client waits for the prefix of the greeting. -/
def start : EchoSystem :=
  let connected := ({} : AsyncTcpClient).handleConnect none
  let started := ({ id := 0, handler := .echoClientHandler } : TcpConnection).start
  { client := connected.2, server := started.2, stopped := connected.1.or started.1 }

/-- A command is dispatched. The writer takes its request or refuses it, and the counter goes up in
both cases; the log says which it was. -/
def enter (s : EchoSystem) (text : Bytes) : EchoSystem :=
  let handled := EchoCommandHandler.handleCommand text s.client s.echoCommandId
  { s with
    client := handled.2.1
    echoCommandId := handled.2.2
    entered := s.entered ++
      [((s.echoCommandId.toUInt32, text), decide (s.client.writer.outstanding = []))]
    stopped := handled.1 }

/-- The request the server's reader hands to its callback when it completes. It is read off the
buffer, which holds the payload when the read of it completes. -/
def requestAtHand (s : EchoSystem) : Option (UInt32 × Bytes) :=
  match s.server.reader.outstanding with
  | ⟨_, .handleReadProtoMessageFinished _⟩ :: _ =>
    (ChatMessage.parseFromArray s.server.reader.readBuffer).map fun m => (m.id, m.text)
  | _ => none

/-- What the callback of the client's reader leaves behind: a line on the screen, or the exception
that ends the program. -/
def afterClientRead (s : EchoSystem)
    (out : Except Failure (Option (UInt32 × Bytes)) × AsyncTcpClient) : EchoSystem :=
  match out.1 with
  | .error f => { s with client := out.2, stopped := some f }
  | .ok shown => { s with client := out.2, received := s.received ++ shown.toList }

/-- One event, or `none` when it is not possible: a write that is not outstanding cannot go on, and
a read cannot get bytes that are not on their way. The handlers are those of the models of the two
ends. The echo handler of the server's connection never closes it, so no event does. -/
def handle (s : EchoSystem) : Event → Option EchoSystem
  | .command line => some ((dispatchCommand line).elim s s.enter)
  | .clientTransfer i n =>
    (Asio.transfer s.client.writer.writeBuffer s.client.writer.outstanding i n).map fun t =>
      { s with
        client := { s.client with writer := { s.client.writer with outstanding := t.2 } }
        toServer := s.toServer ++ t.1 }
  | .clientWritten i =>
    (Asio.finish s.client.writer.outstanding i).map fun outstanding =>
      let written := { s.client.writer with outstanding }.handleWriteFinished none
      { s with client := { s.client with writer := written.2 }, stopped := written.1 }
  | .serverReceive n =>
    if n ≤ s.toServer.length then
      (s.server.onRead (.received (s.toServer.take n))).map fun out =>
        { s with server := out.2, toServer := s.toServer.drop n, stopped := out.1 }
    else none
  | .serverComplete =>
    (s.server.onRead .completed).map fun out =>
      { s with
        server := out.2
        handled := s.handled ++
          s.requestAtHand.toList.map fun command => (command, decide (s.server.writes = []))
        stopped := out.1 }
  | .serverTransfer i n =>
    (s.server.onTransfer i n).map fun t => { s with server := t.2, toClient := s.toClient ++ t.1 }
  | .serverWritten i => (s.server.onWritten i).map fun w => { s with server := w.2 }
  | .clientReceive n =>
    if n ≤ s.toClient.length then
      (s.client.onRead (.received (s.toClient.take n))).map fun out =>
        { s with toClient := s.toClient.drop n }.afterClientRead out
    else none
  | .clientComplete => (s.client.onRead .completed).map s.afterClientRead

/-- A handler that throws ends its process, and with it what is looked at here. -/
def step (s : EchoSystem) (event : Event) : Option EchoSystem :=
  if s.stopped = none then s.handle event else none

/-! ## The runs that are looked at -/

/-- The text of a command is UTF-8 and its request is one the server's reader takes. The other
commands are not looked at here: their requests make the server throw. -/
def CommandFits (s : EchoSystem) : Event → Prop
  | .command line => ∀ text ∈ dispatchCommand line, ValidUtf8 text ∧
      (MessageLite.chatMessage
        (EchoCommandHandler.echoMessage s.echoCommandId text)).byteSizeLong
        ≤ maxReadBufferSizeBytes
  | _ => True

instance (s : EchoSystem) : (event : Event) → Decidable (s.CommandFits event)
  | .command line => inferInstanceAs (Decidable (∀ text ∈ dispatchCommand line, _))
  | .clientTransfer _ _ | .clientWritten _ | .serverReceive _ | .serverComplete
  | .serverTransfer _ _ | .serverWritten _ | .clientReceive _ | .clientComplete => isTrue trivial

/-- The commands fit, and a response that the server makes while a write of its own is in progress
is not stored over bytes that are still to be written. What happens to those bytes otherwise is the
subject of `Server.SendRun`. -/
def InScope (s : EchoSystem) (event : Event) : Prop :=
  s.CommandFits event ∧
    (event = .serverComplete → s.requestAtHand ≠ none → ∀ op ∈ s.server.writes, op.Done)

instance (s : EchoSystem) (event : Event) : Decidable (s.InScope event) :=
  inferInstanceAs (Decidable (_ ∧ _))

end EchoSystem

/-! ## What is sent -/

namespace SendLog

variable (log : SendLog) (command : UInt32 × Bytes)

@[simp] theorem sent_append_sent : sent (log ++ [(command, true)]) = log.sent ++ [command] := by
  simp [sent]

@[simp] theorem sent_append_refused : sent (log ++ [(command, false)]) = log.sent := by
  simp [sent]

theorem sent_prefix (flag : Bool) : log.sent <+: sent (log ++ [(command, flag)]) := by
  cases flag with
  | true =>
    rw [sent_append_sent]
    exact List.prefix_append _ _
  | false =>
    rw [sent_append_refused]

end SendLog

namespace EchoSystem

/-- The request the client sends for a command: its id, its text and the type of an echo request. -/
def request (command : UInt32 × Bytes) : ChatMessage :=
  chatMessage command.1 command.2 ChatMessage.MessageType.echoRequest.number

/-- What the server sends: the greeting, and the responses to what it has handled. A response that
was left out has no place in it. -/
def replies (handled : SendLog) : List ChatMessage :=
  welcome :: handled.sent.map fun command => EchoHandler.response (request command)

theorem replies_append_sent (handled : SendLog) (command : UInt32 × Bytes) :
    replies (handled ++ [(command, true)])
      = replies handled ++ [EchoHandler.response (request command)] := by
  rw [replies, SendLog.sent_append_sent, List.map_append, List.map_singleton, replies,
    List.cons_append]

theorem replies_append_refused (handled : SendLog) (command : UInt32 × Bytes) :
    replies (handled ++ [(command, false)]) = replies handled := by
  rw [replies, SendLog.sent_append_refused, replies]

/-- A command that fits makes a request that survives the way to the server, in all three respects:
it is encoded, it is framed, and the server's reader takes a payload of its size. -/
theorem request_deliverable {echoCommandId : UInt64} {text : Bytes} (htext : ValidUtf8 text)
    (hsize : (MessageLite.chatMessage
      (EchoCommandHandler.echoMessage echoCommandId text)).byteSizeLong
        ≤ maxReadBufferSizeBytes) :
    (EchoCommandHandler.echoMessage echoCommandId text).Deliverable := by
  refine ⟨rfl, htext, ?_, hsize⟩
  rw [echoMessage_size]
  omega

/-- The response to a deliverable request is deliverable: it differs in its type only, and a type
takes one byte in either. -/
theorem response_deliverable {command : UInt32 × Bytes} (h : (request command).Deliverable) :
    (EchoHandler.response (request command)).Deliverable := by
  have hparse := ChatMessage.parseFromArray_encode h.unknownFields_eq
    ((request command).text_length_le.trans h.framable.2) h.text_utf8
  have hle := EchoHandler.response_length_le hparse rfl
  have htwo := EchoHandler.two_le_response_length (request command)
  exact ⟨rfl, h.text_utf8, Nat.lt_of_lt_of_le (by decide) htwo, hle.trans h.size_le⟩

/-- The greeting is a fixed message, and small enough. -/
theorem welcome_deliverable : welcome.Deliverable :=
  ⟨rfl, validUtf8_utf8 _, by decide +kernel, by decide +kernel⟩

/-- What the client displays of the replies: the greeting and the commands. -/
theorem replies_shown (handled : SendLog) :
    ((replies handled).map fun m => (m.id, m.text))
      = (welcome.id, welcome.text) :: handled.sent := by
  simp only [replies, List.map_cons, List.map_map]
  congr 1
  exact List.map_id _

/-- The client's handler takes every reply and displays its id and its text. -/
theorem handleClient_reply {handled : SendLog} {m : ChatMessage} (h : m ∈ replies handled) :
    EchoHandler.handleClient (.chatMessage m) = .ok (m.id, m.text) := by
  have htype : m.type = ChatMessage.MessageType.echoResponse.number := by
    rcases List.mem_cons.mp h with rfl | h
    · rfl
    · obtain ⟨command, -, rfl⟩ := List.mem_map.mp h
      rfl
  rw [EchoHandler.handleClient, if_pos htype]

theorem prefix_concat {α : Type*} {l k : List α} {a : α} (h : l <+: k) (ha : k[l.length]? = some a) :
    l ++ [a] <+: k := by
  obtain ⟨hlt, rfl⟩ := List.getElem?_eq_some_iff.mp ha
  exact List.concat_get_prefix h hlt

/-! ## The invariant -/

/-- Each direction is a link: the client's requests go one way, the greeting and the responses the
other way. The server has got what the one has delivered, the client has displayed what the other
has. What the server's buffer holds matters only while it has bytes to write. -/
structure Inv (s : EchoSystem) : Prop where
  /-- No handler has thrown. -/
  running : s.stopped = none
  client_locked_iff : s.client.writer.writeInProgress = true ↔ s.client.writer.outstanding ≠ []
  server_locked_iff : s.server.writeInProgress = true ↔ s.server.writes ≠ []
  /-- What the writer has taken and the server has not handled is in the client's buffer, on the
  way, or in the server's reader. -/
  upstream : Link (s.entered.sent.map request) s.client.writer.writeBuffer
    s.client.writer.outstanding s.toServer s.server.reader s.server.protocol s.handled.length
  /-- The same for the replies. A response that was left out has replaced the contents of the
  buffer, and then nothing of the old contents was left to write. -/
  downstream : ∃ contents, Link (replies s.handled) contents s.server.writes s.toClient
    s.client.reader s.client.protocol s.received.length ∧
      (contents = s.server.sendMsg ∨ ∀ op ∈ s.server.writes, op.Done)
  /-- The server handles what was sent, in the order in which it was. -/
  handled_prefix : s.handled.map Prod.fst <+: s.entered.sent
  /-- The client displays what the server has sent. -/
  received_prefix : s.received <+: (welcome.id, welcome.text) :: s.handled.sent

/-- Both links begin empty but for the greeting, which is outstanding at the server. -/
theorem inv_start : Inv start := by
  obtain ⟨server, hstart, hreceiving, hserver⟩ := TcpConnection.start_eq
    (c := { id := 0, handler := .echoClientHandler }) rfl rfl
  obtain ⟨reader, hread, hphase, -⟩ := readAsyncProtoInfOccupy_phase
    (r := ({ maxBufferSize := maxReadBufferSizeBytes } : AsyncReader Unit Unit)) rfl rfl rfl
    (by decide) () () {}
  have heq : start = { client := { reader }, server } := by
    simp only [start, AsyncTcpClient.handleConnect, AsyncTcpClient.receiveInfinitely, hread, hstart]
    rfl
  have hsend := TcpConnection.send_of_idle (c := { id := 0, handler := .echoClientHandler }) rfl
    (frame (.chatMessage welcome))
  rw [TcpConnection.sendMove, hsend] at hserver
  have hmsg := congrArg TcpConnection.sendMsg hserver
  have hlock := congrArg TcpConnection.writeInProgress hserver
  have hwrites := congrArg TcpConnection.writes hserver
  simp only [List.nil_append] at hmsg hlock hwrites
  -- the greeting is the message of the write that `handleStart` has started
  have hdown : Link (replies []) (frame (.chatMessage welcome)) server.writes [] reader {} 0 := by
    have hnone : Link [] [] [] [] reader {} 0 := ⟨by simp, .idle rfl rfl, rfl, hphase, rfl⟩
    rw [hwrites]
    exact hnone.start welcome_deliverable
  rw [heq]
  exact {
    running := rfl
    client_locked_iff := by simp
    server_locked_iff := by simp [hlock, hwrites]
    upstream := ⟨by simp [SendLog.sent], .idle rfl rfl, rfl, hreceiving, rfl⟩
    downstream := ⟨_, hdown, Or.inl hmsg.symm⟩
    handled_prefix := List.nil_prefix
    received_prefix := List.nil_prefix }

variable {s s' : EchoSystem}

/-! ### The client's side -/

/-- A command is sent or left out, and the client's reader does not notice. -/
theorem Inv.enter (h : Inv s) {text : Bytes}
    (hdeliverable : (EchoCommandHandler.echoMessage s.echoCommandId text).Deliverable) :
    Inv (s.enter text) := by
  have hsend := s.client.send_eq hdeliverable.framable
  obtain ⟨contents, hdown, hcontents⟩ := h.downstream
  cases hlock : s.client.writer.writeInProgress with
  | true =>
    -- the writer is as before; only the counter and the cached prefix have changed
    have hout := h.client_locked_iff.mp hlock
    simp only [EchoSystem.enter, EchoCommandHandler.handleCommand, hsend, AsyncWriter.writeMove,
      AsyncWriter.write_of_locked hlock, hout, decide_false]
    exact {
      running := rfl
      client_locked_iff := h.client_locked_iff
      server_locked_iff := h.server_locked_iff
      upstream := by
        rw [SendLog.sent_append_refused]
        exact h.upstream
      downstream := ⟨contents, hdown.protocol_congr rfl, hcontents⟩
      handled_prefix := h.handled_prefix.trans (SendLog.sent_prefix _ _ _)
      received_prefix := h.received_prefix }
  | false =>
    -- the request is the next message on its way to the server
    have hout := Asio.nil_of_unlocked h.client_locked_iff hlock
    have hup := h.upstream
    rw [hout] at hup
    simp only [EchoSystem.enter, EchoCommandHandler.handleCommand, hsend, AsyncWriter.writeMove,
      AsyncWriter.write_of_unlocked hlock, hout, decide_true, List.nil_append]
    exact {
      running := rfl
      client_locked_iff := by simp
      server_locked_iff := h.server_locked_iff
      upstream := by
        rw [SendLog.sent_append_sent, List.map_append, List.map_singleton]
        exact hup.start hdeliverable
      downstream := ⟨contents, hdown.protocol_congr rfl, hcontents⟩
      handled_prefix := h.handled_prefix.trans (SendLog.sent_prefix _ _ _)
      received_prefix := h.received_prefix }

/-- A line of the command loop is a command that is entered, or the loop makes nothing of it. -/
theorem Inv.command {line : Bytes} (h : Inv s) (hfits : s.CommandFits (.command line))
    (hstep : s.handle (.command line) = some s') : Inv s' := by
  obtain rfl := Option.some.inj hstep
  cases hdispatch : dispatchCommand line with
  | none => exact h
  | some text =>
    obtain ⟨htext, hsize⟩ := hfits text hdispatch
    exact h.enter (request_deliverable htext hsize)

/-- The bytes a write takes leave the client's buffer and join those on the way: the link forgets
none. -/
theorem Inv.clientTransfer {i n : Nat} (h : Inv s)
    (hstep : s.handle (.clientTransfer i n) = some s') : Inv s' := by
  obtain ⟨⟨piece, outstanding⟩, ht, rfl⟩ := Option.map_eq_some_iff.mp hstep
  obtain ⟨hup, hne⟩ := h.upstream.transfer ht
  have hlock := h.client_locked_iff.mpr (Asio.ne_nil_of_transfer ht)
  exact { h with
    client_locked_iff := iff_of_true hlock hne
    upstream := hup }

theorem Inv.clientWritten {i : Nat} (h : Inv s)
    (hstep : s.handle (.clientWritten i) = some s') : Inv s' := by
  obtain ⟨outstanding, hf, rfl⟩ := Option.map_eq_some_iff.mp hstep
  obtain ⟨rfl, hup⟩ := h.upstream.finish hf
  exact { h with
    running := rfl
    client_locked_iff := iff_of_false Bool.false_ne_true (absurd rfl)
    upstream := hup }

/-- Bytes that arrive at the client go from the link to the reader's buffer, and no callback
runs. -/
theorem Inv.clientReceive {n : Nat} (h : Inv s)
    (hstep : s.handle (.clientReceive n) = some s') : Inv s' := by
  obtain ⟨hn, hevent⟩ := Option.ite_none_right_eq_some.mp hstep
  obtain ⟨out, hread, rfl⟩ := Option.map_eq_some_iff.mp hevent
  obtain ⟨res, hres, rfl⟩ := Option.map_eq_some_iff.mp hread
  obtain ⟨contents, hdown, hcontents⟩ := h.downstream
  obtain ⟨hexit, hprotocol, hdown'⟩ :=
    hdown.received (List.take_append_drop n s.toClient).symm hres
  have hout : s.client.afterHandler res = (.ok none, { s.client with reader := res.reader }) := by
    simp only [AsyncTcpClient.afterHandler, hexit, hprotocol]
  simp only [afterClientRead, hout, Option.toList_none, List.append_nil]
  exact { h with downstream := ⟨contents, hdown', hcontents⟩ }

/-- **A read that completes at the client** displays the next reply. It is the one that the link
says comes next, so the screen stays a first part of the replies. -/
theorem Inv.clientComplete (h : Inv s) (hstep : s.handle .clientComplete = some s') : Inv s' := by
  obtain ⟨out, hread, rfl⟩ := Option.map_eq_some_iff.mp hstep
  obtain ⟨res, hres, rfl⟩ := Option.map_eq_some_iff.mp hread
  obtain ⟨contents, hdown, hcontents⟩ := h.downstream
  rcases hdown.completed hres with
    ⟨-, -, hexit, hdown'⟩ | ⟨m, -, hm, -, -, hexit, hprotocol, hcache, hdown'⟩
  · -- the prefix was read: the payload is awaited
    have hout : s.client.afterHandler res
        = (.ok none, { s.client with reader := res.reader, protocol := res.protocol }) := by
      simp only [AsyncTcpClient.afterHandler, hexit]
    simp only [afterClientRead, hout, Option.toList_none, List.append_nil]
    exact { h with downstream := ⟨contents, hdown', hcontents⟩ }
  · -- the callback displays the reply
    have hmem := List.mem_of_getElem? hm
    have hdeser := (hdown.deliverable m hmem).deserialize hcache
    have hcallback : res.afterCallback = res.reader := by
      simp only [HandlerResult.afterCallback, hexit]
    have hout : s.client.afterHandler res
        = (.ok (some (m.id, m.text)), { s.client with reader := res.reader }) := by
      simp only [AsyncTcpClient.afterHandler, AsyncTcpClient.handleRead, hexit, hprotocol, hdeser,
        Except.bind, handleClient_reply hmem, hcallback]
    have hshown := congrArg (Option.map fun m => (m.id, m.text)) hm
    rw [← List.getElem?_map, replies_shown] at hshown
    simp only [afterClientRead, hout, Option.toList_some]
    exact { h with
      downstream := by
        rw [List.length_append]
        exact ⟨contents, hdown', hcontents⟩
      received_prefix := prefix_concat h.received_prefix hshown }

/-! ### The server's side -/

/-- Bytes that arrive at the server go from the link to the reader's buffer. -/
theorem Inv.serverReceive {n : Nat} (h : Inv s)
    (hstep : s.handle (.serverReceive n) = some s') : Inv s' := by
  obtain ⟨hn, hevent⟩ := Option.ite_none_right_eq_some.mp hstep
  obtain ⟨out, hread, rfl⟩ := Option.map_eq_some_iff.mp hevent
  obtain ⟨res, hres, rfl⟩ := Option.map_eq_some_iff.mp hread
  obtain ⟨hexit, hprotocol, hup⟩ :=
    h.upstream.received (List.take_append_drop n s.toServer).symm hres
  have hout : s.server.afterHandler res = (none, { s.server with reader := res.reader }) := by
    simp only [TcpConnection.afterHandler, hexit, hprotocol]
  simp only [hout]
  exact { h with running := rfl, upstream := hup }

/-- **A request is answered.** The response is sent when no write is outstanding; otherwise it is
left out, and the write that is outstanding has nothing left to write. -/
theorem Inv.answer (h : Inv s) {reader : AsyncReader Unit Unit} {protocol : Protocol}
    {command : UInt32 × Bytes} (hcommand : s.entered.sent[s.handled.length]? = some command)
    (hdeliverable : (request command).Deliverable)
    (hup : Link (s.entered.sent.map request) s.client.writer.writeBuffer
      s.client.writer.outstanding s.toServer reader protocol (s.handled.length + 1))
    (hscope : ∀ op ∈ s.server.writes, op.Done) :
    Inv { s with
      server := { s.server with reader, protocol }.sendMove
        (frame (.chatMessage (EchoHandler.response (request command))))
      handled := s.handled ++ [(command, decide (s.server.writes = []))]
      stopped := none } := by
  have hhandled : (s.handled.map Prod.fst) ++ [command] <+: s.entered.sent :=
    prefix_concat h.handled_prefix (by rw [List.length_map]; exact hcommand)
  obtain ⟨contents, hdown, -⟩ := h.downstream
  by_cases hidle : s.server.writes = []
  · -- the response is the next message on its way to the client
    have hlock := Asio.unlocked_of_nil h.server_locked_iff hidle
    rw [hidle] at hdown
    have hdown' := hdown.start (response_deliverable hdeliverable)
    rw [TcpConnection.sendMove,
      TcpConnection.send_of_idle (c := { s.server with reader, protocol }) hlock,
      decide_eq_true hidle, hidle, List.nil_append]
    exact { h with
      running := rfl
      server_locked_iff := iff_of_true rfl (List.cons_ne_nil _ _)
      upstream := by
        rw [List.length_append]
        exact hup
      downstream := by
        rw [replies_append_sent]
        exact ⟨_, hdown', Or.inl rfl⟩
      handled_prefix := by
        rw [List.map_append]
        exact hhandled
      received_prefix := h.received_prefix.trans
        ((List.prefix_cons_inj _).mpr (SendLog.sent_prefix _ _ _)) }
  · -- the response is stored over a message that has been written completely
    have hlock : s.server.writeInProgress = true := h.server_locked_iff.mpr hidle
    rw [TcpConnection.sendMove,
      TcpConnection.send_of_writing (c := { s.server with reader, protocol }) hlock,
      decide_eq_false hidle]
    exact { h with
      running := rfl
      upstream := by
        rw [List.length_append]
        exact hup
      downstream := by
        rw [replies_append_refused]
        exact ⟨contents, hdown, Or.inr hscope⟩
      handled_prefix := by
        rw [List.map_append]
        exact hhandled
      received_prefix := by
        rw [SendLog.sent_append_refused]
        exact h.received_prefix }

/-- **A read that completes at the server** schedules the next one, or answers a request. The
request is the next one the client has sent, by the link in the other direction. -/
theorem Inv.serverComplete (h : Inv s)
    (hscope : s.requestAtHand ≠ none → ∀ op ∈ s.server.writes, op.Done)
    (hstep : s.handle .serverComplete = some s') : Inv s' := by
  obtain ⟨out, hread, rfl⟩ := Option.map_eq_some_iff.mp hstep
  obtain ⟨res, hres, rfl⟩ := Option.map_eq_some_iff.mp hread
  rcases h.upstream.completed hres with
    ⟨op, hreads, hexit, hup⟩ | ⟨m, op, hm, hreads, hbuffer, hexit, hprotocol, hcache, hup⟩
  · -- the prefix was read: the payload is awaited, and nothing has been handled
    have hnone : s.requestAtHand = none := by
      simp only [requestAtHand, hreads]
    have hout : s.server.afterHandler res
        = (none, { s.server with reader := res.reader, protocol := res.protocol }) := by
      simp only [TcpConnection.afterHandler, hexit]
    simp only [hout, hnone, Option.toList_none, List.map_nil, List.append_nil]
    exact { h with running := rfl, upstream := hup }
  · -- the message is the request of the next command that was sent
    have hm' := hm
    rw [List.getElem?_map] at hm'
    obtain ⟨command, hcommand, rfl⟩ := Option.map_eq_some_iff.mp hm'
    have hdeliverable := h.upstream.deliverable _ (List.mem_of_getElem? hm)
    have hparse := ChatMessage.parseFromArray_encode hdeliverable.unknownFields_eq
      ((request command).text_length_le.trans hdeliverable.framable.2) hdeliverable.text_utf8
    have hrequest : s.requestAtHand = some command := by
      simp only [requestAtHand, hreads, hbuffer, hparse, Option.map_some]
      rfl
    have hout := TcpConnection.afterHandler_request (c := s.server) hexit
      (by rw [hprotocol, hcache]; rfl) hparse rfl hdeliverable.framable.2
    rw [hprotocol] at hout
    simp only [hout, hrequest, Option.toList_some, List.map_singleton]
    exact h.answer hcommand hdeliverable (hup.protocol_congr rfl) (hscope (by simp [hrequest]))

/-- The write of the server goes on. It takes its bytes from the buffer as it is now, and a write
that has something left finds its own message there. -/
theorem Inv.serverTransfer {i n : Nat} (h : Inv s)
    (hstep : s.handle (.serverTransfer i n) = some s') : Inv s' := by
  obtain ⟨⟨piece, server⟩, hevent, rfl⟩ := Option.map_eq_some_iff.mp hstep
  obtain ⟨⟨_, writes⟩, ht, heq⟩ := Option.map_eq_some_iff.mp hevent
  obtain ⟨rfl, rfl⟩ := Prod.mk.inj heq
  -- a write that has something left to write has its own message in the buffer
  obtain ⟨contents, hdown, rfl | hdone⟩ := h.downstream
  · obtain ⟨hdown', hne⟩ := hdown.transfer ht
    have hlock := h.server_locked_iff.mpr (Asio.ne_nil_of_transfer ht)
    exact { h with
      server_locked_iff := iff_of_true hlock hne
      downstream := ⟨_, hdown', Or.inl rfl⟩ }
  · rw [Asio.transfer_of_done hdone] at ht
    cases ht

theorem Inv.serverWritten {i : Nat} (h : Inv s)
    (hstep : s.handle (.serverWritten i) = some s') : Inv s' := by
  obtain ⟨w, hevent, rfl⟩ := Option.map_eq_some_iff.mp hstep
  obtain ⟨writes, hf, rfl⟩ := Option.map_eq_some_iff.mp hevent
  obtain ⟨contents, hdown, -⟩ := h.downstream
  obtain ⟨rfl, hdown'⟩ := hdown.finish hf
  exact { h with
    server_locked_iff := iff_of_false Bool.false_ne_true (absurd rfl)
    downstream := ⟨contents, hdown', Or.inr (by simp [TcpConnection.handleWrite])⟩ }

/-- **Every event in scope keeps the invariant.** One lemma an event; each of them speaks of one
link and carries the other along. -/
theorem inv_step {event : Event} (h : Inv s) (hscope : s.InScope event)
    (hstep : s.step event = some s') : Inv s' := by
  rw [step, if_pos h.running] at hstep
  cases event with
  | command line => exact h.command hscope.1 hstep
  | clientTransfer i n => exact h.clientTransfer hstep
  | clientWritten i => exact h.clientWritten hstep
  | serverReceive n => exact h.serverReceive hstep
  | serverComplete => exact h.serverComplete (hscope.2 rfl) hstep
  | serverTransfer i n => exact h.serverTransfer hstep
  | serverWritten i => exact h.serverWritten hstep
  | clientReceive n => exact h.clientReceive hstep
  | clientComplete => exact h.clientComplete hstep

end EchoSystem

/-- **End-to-end echo order.** In every run in scope, at every moment: no handler has ended with an
exception, the client has displayed the first part of the greeting followed by the requests the
server has answered, and the server has handled the first part of the commands the client has
sent. Only a command or a response that met a write in progress is left out. -/
theorem echo_order {es : List EchoSystem.Event}
    (hscope : Runs.StepsMeet EchoSystem.step EchoSystem.InScope EchoSystem.start es) :
    Runs.Along EchoSystem.step (fun s => s.stopped = none ∧
      s.received <+: (welcome.id, welcome.text) :: s.handled.sent ∧
      s.handled.map Prod.fst <+: s.entered.sent) EchoSystem.start es := by
  have hinv := Runs.along_of_invariant (fun _ _ _ h hok hs => EchoSystem.inv_step h hok hs)
    EchoSystem.inv_start hscope
  exact hinv.mono fun s h => ⟨h.running, h.received_prefix, h.handled_prefix⟩

/-- The lines `>echo a`, `>echo b`, which comes while the first is written, and `>echo c`. The
response to the first meets the write of the greeting, which has transferred everything. -/
theorem echo_order_run :
    let events : List EchoSystem.Event := [.command (echoCmdPrefix ++ [97]),
      .command (echoCmdPrefix ++ [98]), .clientTransfer 0 15, .clientWritten 0, .serverReceive 10,
      .serverComplete, .serverReceive 5, .serverTransfer 0 60, .serverComplete, .serverWritten 0,
      .command (echoCmdPrefix ++ [99]), .clientTransfer 0 17, .clientWritten 0, .serverReceive 10,
      .serverComplete, .serverReceive 7, .serverComplete, .serverTransfer 0 17, .clientReceive 10,
      .clientComplete, .clientReceive 50, .clientComplete, .clientReceive 10, .clientComplete,
      .clientReceive 7, .clientComplete]
    ∃ s, Runs.run EchoSystem.step EchoSystem.start events = some s ∧
      s.handled = [((0, [97]), false), ((2, [99]), true)] ∧
      s.received.length = 2 ∧ s.received <+: (welcome.id, welcome.text) :: s.handled.sent := by
  intro events
  have hscope : Runs.StepsMeet EchoSystem.step EchoSystem.InScope EchoSystem.start events := by
    decide +kernel
  have hresult : (Runs.run EchoSystem.step EchoSystem.start events).map
      (fun s => (s.handled, s.received.length))
      = some ([((0, [97]), false), ((2, [99]), true)], 2) := by
    decide +kernel
  obtain ⟨s, hrun, hs⟩ := Option.map_eq_some_iff.mp hresult
  obtain ⟨hhandled, hreceived⟩ := Prod.mk.inj hs
  exact ⟨s, hrun, hhandled, hreceived, ((echo_order hscope).last hrun).2.1⟩

/-- The second of three commands comes while the first is written: it is left out, and the response
to the third follows the response to the first. -/
theorem echo_order_fails :
    let events : List EchoSystem.Event := [.serverTransfer 0 60, .serverWritten 0,
      .command (echoCmdPrefix ++ [97]), .command (echoCmdPrefix ++ [98]), .clientTransfer 0 15,
      .clientWritten 0, .command (echoCmdPrefix ++ [99]), .clientTransfer 0 17, .serverReceive 10,
      .serverComplete, .serverReceive 5, .serverComplete, .serverTransfer 0 15, .serverWritten 0,
      .serverReceive 10, .serverComplete, .serverReceive 7, .serverComplete, .serverTransfer 0 17,
      .clientReceive 10, .clientComplete, .clientReceive 50, .clientComplete, .clientReceive 10,
      .clientComplete, .clientReceive 5, .clientComplete, .clientReceive 10, .clientComplete,
      .clientReceive 7, .clientComplete]
    Runs.StepsMeet EchoSystem.step EchoSystem.InScope EchoSystem.start events ∧
    ∃ s, Runs.run EchoSystem.step EchoSystem.start events = some s ∧
      s.entered.map Prod.fst = [(0, [97]), (1, [98]), (2, [99])] ∧
      s.received = [(welcome.id, welcome.text), (0, [97]), (2, [99])] ∧
      ¬ s.received <+: (welcome.id, welcome.text) :: s.entered.map Prod.fst := by
  intro events
  refine ⟨by decide +kernel, ?_⟩
  have hresult : (Runs.run EchoSystem.step EchoSystem.start events).map
      (fun s => (s.entered.map Prod.fst, s.received))
      = some ([(0, [97]), (1, [98]), (2, [99])],
        [(welcome.id, welcome.text), (0, [97]), (2, [99])]) := by
    decide +kernel
  obtain ⟨s, hrun, hs⟩ := Option.map_eq_some_iff.mp hresult
  obtain ⟨hentered, hreceived⟩ := Prod.mk.inj hs
  refine ⟨s, hrun, hentered, hreceived, ?_⟩
  rw [hentered, hreceived, List.prefix_cons_inj, List.cons_prefix_cons, List.cons_prefix_cons]
  decide

end Acs
