import AsioClientServer.Conn.Framing
import AsioClientServer.Message.EchoHandler

/-!
# `acs::conn::TcpConnection`

The server's side of one connection (`TcpConnection.cpp`) with the two client handlers that drive
it (`EchoClientHandler.cpp`, `TestClientHandler.cpp`). The members of a connection call each other
and nothing else, but for two things they leave to their caller: the observer, which is told that
the connection is closed, and the loop, which an exception leaves through.

* `onRead`: an event of the connection's reader, with `_handleRead` as the callback.
* `onTransfer`, `onWritten`, `onWriteError`: the events of its writes.
* `handleRead_failure`: whether `_handleRead` throws depends on the frame alone.
-/

namespace Acs

open Wire

/-- The classes derived from `logic::ClientHandler`. A connection has one of them from its
construction on; the server program uses the first one only. -/
inductive ClientHandler where
  | echoClientHandler
  | testClientHandler
  deriving DecidableEq, Repr

/-- `class TcpConnection`. Its reader has one callback, `_handleRead`, and one protocol object, the
connection's own. What it writes goes out of `sendMsg` directly, without an `AsyncWriter`. -/
structure TcpConnection where
  /-- `_id`: connections are compared by it. -/
  id : UInt64
  handler : ClientHandler
  reader : AsyncReader Unit Unit := { maxBufferSize := maxReadBufferSizeBytes }
  protocol : Protocol := {}
  /-- `_sendMsg`: the message that was passed to `send` last, whether its write has been started or
  not. -/
  sendMsg : Bytes := []
  /-- `_writeInProgress`: a write of the message has been started. -/
  writeInProgress : Bool := false
  /-- The composed writes that have been started and have not completed. -/
  writes : List Asio.WriteOp := []
  deriving DecidableEq, Repr

namespace TcpConnection

/-! ## Sending -/

/-- `_doSend`: a write of the stored message is started, unless one is in progress. The refusal is
logged. -/
def doSend (c : TcpConnection) : TcpConnection :=
  if c.writeInProgress then c
  else { c with writeInProgress := true, writes := c.writes ++ [⟨c.sendMsg.length, 0⟩] }

/-- `send`, both overloads: the message is stored first, and only then is it looked whether it can
be written. -/
def send (c : TcpConnection) (message : Bytes) : TcpConnection :=
  { c with sendMsg := message }.doSend

/-- `send(const std::string&)` -/
def sendCopy (c : TcpConnection) (message : Bytes) : TcpConnection :=
  c.send message

/-- `send(std::string&&)` -/
def sendMove (c : TcpConnection) (message : Bytes) : TcpConnection :=
  c.send message

end TcpConnection

/-! ## The client handlers -/

/-- The message `EchoClientHandler::handleStart` greets a client with: a response to no request, so
that a client displays it. -/
def welcome : ChatMessage :=
  chatMessage 1 (utf8 "Welcome to ACS chat!\nJust type your message.")
    ChatMessage.MessageType.echoResponse.number

/-- `EchoClientHandler::handleStart`. It frames its message without the help of `Protocol`. The
prefix is serialized first and the message appended, as `Protocol::serialize` does it. -/
def EchoClientHandler.handleStart (c : TcpConnection) : Option Failure × TcpConnection :=
  let message := MessageLite.chatMessage welcome
  let framePrefix : FramePrefix :=
    { size := UInt32.ofNat message.byteSizeLong, type := FramePrefix.MessageType.echo.number }
  let prefixSize := (MessageLite.framePrefix framePrefix).byteSizeLong
  match (MessageLite.framePrefix framePrefix).serializeToString with
  | none => (none, c)
  | some output =>
    match message.appendToString output with
    | none => (none, c)
    | some output =>
      if output.length = prefixSize + framePrefix.size.toNat then (none, c.sendMove output)
      else (some (.assertionFailed "output.size() == PREFIX_SIZE + framePrefix.size()"), c)

/-- `TestClientHandler::handleStart`. There is no frame prefix, so a client of this program cannot
read it. -/
def TestClientHandler.handleStart (c : TcpConnection) : TcpConnection :=
  let message := chatMessage 6 (utf8 "Test text\nNext test line.\n")
    ChatMessage.MessageType.test.number
  match (MessageLite.chatMessage message).serializeToString with
  | none => c
  | some output => c.sendMove output

/-- `handleStart` of the handler's class. -/
def ClientHandler.handleStart (h : ClientHandler) (c : TcpConnection) :
    Option Failure × TcpConnection :=
  match h with
  | .echoClientHandler => EchoClientHandler.handleStart c
  | .testClientHandler => (none, TestClientHandler.handleStart c)

/-- Whether `handleSendComplete` of the connection's handler closes the connection: the test handler
sends one message and is done. -/
def ClientHandler.handleSendComplete : ClientHandler → Bool
  | .echoClientHandler => false
  | .testClientHandler => true

namespace TcpConnection

/-! ## Receiving -/

/-- `_handleRead` up to the call of `send`: the payload is deserialized and given to
`EchoHandler::handleServer`. The string is the argument of `send`, and the protocol object is the
connection's own, with what the serialization has left in it. -/
def respond (c : TcpConnection) (inputMessageData : Bytes) : Except Failure Bytes × Protocol :=
  match c.protocol.deserialize inputMessageData with
  | .error f => (.error f, c.protocol)
  | .ok message => EchoHandler.handleServer message c.protocol

/-- `_handleRead`: the response is sent, or the exception leaves the handler. Nothing catches it
before the loop. -/
def handleRead (c : TcpConnection) (inputMessageData : Bytes) : Option Failure × TcpConnection :=
  match c.respond inputMessageData with
  | (.error f, protocol) => (some f, { c with protocol })
  | (.ok wireMessage, protocol) => (none, { c with protocol }.sendMove wireMessage)

/-- `_startReceive`: the framed loop is started. -/
def startReceive (c : TcpConnection) : Option Failure × TcpConnection :=
  let started := c.reader.readAsyncProtoInfOccupy () () c.protocol
  (started.1, { c with reader := started.2 })

/-- `start`: the greeting is sent, and then the first prefix is read. -/
def start (c : TcpConnection) : Option Failure × TcpConnection :=
  match c.handler.handleStart c with
  | (some f, c) => (some f, c)
  | (none, c) => c.startReceive

/-- A handler of the reader with its callback: the exception, if there is one, and the
connection. -/
def afterHandler (c : TcpConnection) (res : HandlerResult Unit Unit) :
    Option Failure × TcpConnection :=
  let c := { c with reader := res.reader, protocol := res.protocol }
  match res.exit with
  | .returned => (none, c)
  | .threw f => (some f, c)
  | .calls _ data _ =>
    match c.handleRead data with
    | (some f, c) => (some f, c)
    | (none, c) => (none, { c with reader := res.afterCallback })

/-- An event of the connection's reader. -/
def onRead (c : TcpConnection) (event : ReadEvent) : Option (Option Failure × TcpConnection) :=
  (c.reader.onEvent c.protocol event).map c.afterHandler

/-! ## Events of the writes -/

/-- `_handleWrite`. The result says whether the handler closes the connection. The lock is free
afterwards in either case, and an error is only logged. -/
def handleWrite (c : TcpConnection) (_error : Option Asio.ErrorCode) : Bool × TcpConnection :=
  -- the error is only logged
  (c.handler.handleSendComplete, { c with writeInProgress := false })

/-- A write puts bytes of the stored message on the socket. It takes them from where the message is
stored now, which need not be the message the write was started for. -/
def onTransfer (c : TcpConnection) (i n : Nat) : Option (Bytes × TcpConnection) :=
  (Asio.transfer c.sendMsg c.writes i n).map fun t => (t.1, { c with writes := t.2 })

/-- A write has transferred everything, and its handler runs. -/
def onWritten (c : TcpConnection) (i : Nat) : Option (Bool × TcpConnection) :=
  (Asio.finish c.writes i).map fun writes => { c with writes }.handleWrite none

/-- The socket has failed under a write, and its handler runs with the error. -/
def onWriteError (c : TcpConnection) (i : Nat) (e : Asio.ErrorCode) :
    Option (Bool × TcpConnection) :=
  (Asio.abort c.writes i).map fun writes => { c with writes }.handleWrite (some e)

/-- What can happen to a connection that has been accepted. -/
inductive Event where
  | read (event : ReadEvent)
  | transfer (i n : Nat)
  | written (i : Nat)
  | writeError (i : Nat) (e : Asio.ErrorCode)
  deriving DecidableEq, Repr

/-- A connection after an event, and what it leaves to its caller: nothing, an exception, or a
close. -/
structure Result where
  connection : TcpConnection
  /-- The exception or the assertion the handler has ended with. -/
  failure : Option Failure := none
  /-- The connection has told its observer that it is closed. -/
  closes : Bool := false
  deriving DecidableEq, Repr

/-- One event of the connection, `none` when it is not possible. -/
def onEvent (c : TcpConnection) : Event → Option Result
  | .read event => (c.onRead event).map fun out => { connection := out.2, failure := out.1 }
  | .transfer i n => (c.onTransfer i n).map fun t => { connection := t.2 }
  | .written i => (c.onWritten i).map fun w => { connection := w.2, closes := w.1 }
  | .writeError i e => (c.onWriteError i e).map fun w => { connection := w.2, closes := w.1 }

/-- The socket has failed, so its connection is not an open one any more. -/
def Event.endsStream : Event → Bool
  | .read (.failed _) => true
  | .writeError _ _ => true
  | _ => false

/-- A write completes, with an error or without. -/
def Event.completesWrite : Event → Bool
  | .written _ => true
  | .writeError _ _ => true
  | _ => false

/-! ## Small facts -/

/-- **A message that is refused replaces the one that is being written.** The write goes on, with
what the buffer holds now. -/
theorem send_of_writing {c : TcpConnection} (h : c.writeInProgress = true) (message : Bytes) :
    c.send message = { c with sendMsg := message } := by
  simp only [send, doSend, h, if_true]

/-- A message that finds no write in progress is written. The whole of it is what the write is to
transfer. -/
theorem send_of_idle {c : TcpConnection} (h : c.writeInProgress = false) (message : Bytes) :
    c.send message = { c with
      sendMsg := message
      writeInProgress := true
      writes := c.writes ++ [⟨message.length, 0⟩] } := by
  simp only [send, doSend, h, Bool.false_eq_true, if_false]

@[simp] theorem send_reader (c : TcpConnection) (message : Bytes) :
    (c.send message).reader = c.reader := by
  simp only [send, doSend]
  split <;> rfl

/-- Nor does a connection tell, after `send`, whether its reader was put in before or after. -/
theorem send_with_reader (c : TcpConnection) (message : Bytes) :
    { c.send message with reader := c.reader } = c.send message := by
  simp only [send, doSend]
  split <;> rfl

/-- Sending does not touch the protocol object: what is sent has been serialized before. -/
@[simp] theorem send_protocol (c : TcpConnection) (message : Bytes) :
    (c.send message).protocol = c.protocol := by
  simp only [send, doSend]
  split <;> rfl

@[simp] theorem send_handler (c : TcpConnection) (message : Bytes) :
    (c.send message).handler = c.handler := by
  simp only [send, doSend]
  split <;> rfl

@[simp] theorem send_id (c : TcpConnection) (message : Bytes) : (c.send message).id = c.id := by
  simp only [send, doSend]
  split <;> rfl

/-- A call of `send` starts one write at most, and adds no more than its message to what is left to
write. -/
theorem left_send_le (c : TcpConnection) (message : Bytes) :
    Asio.left (c.send message).writes ≤ Asio.left c.writes + message.length ∧
      (c.send message).writes.length ≤ c.writes.length + 1 := by
  cases hlock : c.writeInProgress with
  | true =>
    rw [send_of_writing hlock]
    exact ⟨Nat.le_add_right _ _, Nat.le_succ _⟩
  | false =>
    rw [send_of_idle hlock]
    simp [Asio.left]

/-- An event of a write changes nothing but what is known of the writes. -/
theorem onEvent_write {c : TcpConnection} {event : Event} {res : Result}
    (hevent : ∀ e, event ≠ .read e) (hres : c.onEvent event = some res) :
    ∃ writes writeInProgress, res.connection = { c with writes, writeInProgress } := by
  cases event with
  | read e => exact absurd rfl (hevent e)
  | transfer i n =>
    obtain ⟨t, ht, rfl⟩ := Option.map_eq_some_iff.mp hres
    obtain ⟨u, -, rfl⟩ := Option.map_eq_some_iff.mp ht
    exact ⟨u.2, c.writeInProgress, rfl⟩
  | written i =>
    obtain ⟨w, hw, rfl⟩ := Option.map_eq_some_iff.mp hres
    obtain ⟨writes, -, rfl⟩ := Option.map_eq_some_iff.mp hw
    exact ⟨writes, false, rfl⟩
  | writeError i e =>
    obtain ⟨w, hw, rfl⟩ := Option.map_eq_some_iff.mp hres
    obtain ⟨writes, -, rfl⟩ := Option.map_eq_some_iff.mp hw
    exact ⟨writes, false, rfl⟩

/-- The writes leave the reader and the protocol object alone. -/
theorem onEvent_write_frame {c : TcpConnection} {event : Event} {res : Result}
    (hevent : ∀ e, event ≠ .read e) (hres : c.onEvent event = some res) :
    res.connection.reader = c.reader ∧ res.connection.protocol = c.protocol := by
  obtain ⟨writes, writeInProgress, heq⟩ := onEvent_write hevent hres
  rw [heq]
  exact ⟨rfl, rfl⟩

/-- **A handler closes its connection when a write completes**, and only then. Only the handler that
is made to send one message does so; the echo handler never does. -/
theorem onEvent_closes {c : TcpConnection} {event : Event} {res : Result}
    (hres : c.onEvent event = some res) :
    (event.completesWrite = false ∧ res.closes = false) ∨
      (event.completesWrite = true ∧ ∃ i, i < c.writes.length ∧ res = {
        connection := { c with writes := c.writes.eraseIdx i, writeInProgress := false }
        closes := c.handler.handleSendComplete }) := by
  cases event with
  | read e =>
    obtain ⟨out, -, rfl⟩ := Option.map_eq_some_iff.mp hres
    exact Or.inl ⟨rfl, rfl⟩
  | transfer i n =>
    obtain ⟨t, -, rfl⟩ := Option.map_eq_some_iff.mp hres
    exact Or.inl ⟨rfl, rfl⟩
  | written i =>
    obtain ⟨w, hw, rfl⟩ := Option.map_eq_some_iff.mp hres
    obtain ⟨writes, hf, rfl⟩ := Option.map_eq_some_iff.mp hw
    obtain ⟨op, hop, hf⟩ := Option.bind_eq_some_iff.mp hf
    split at hf
    · obtain rfl := Option.some.inj hf
      exact Or.inr ⟨rfl, i, (List.getElem?_eq_some_iff.mp hop).choose, rfl⟩
    · cases hf
  | writeError i e =>
    obtain ⟨w, hw, rfl⟩ := Option.map_eq_some_iff.mp hres
    obtain ⟨writes, ha, rfl⟩ := Option.map_eq_some_iff.mp hw
    obtain ⟨op, hop, rfl⟩ := Option.map_eq_some_iff.mp ha
    exact Or.inr ⟨rfl, i, (List.getElem?_eq_some_iff.mp hop).choose, rfl⟩

/-- `_handleRead` changes neither the id nor the client handler. -/
theorem handleRead_identity (c : TcpConnection) (data : Bytes) :
    (c.handleRead data).2.id = c.id ∧ (c.handleRead data).2.handler = c.handler := by
  unfold handleRead
  split
  · exact ⟨rfl, rfl⟩
  · exact ⟨send_id _ _, send_handler _ _⟩

/-- A handler of the reader changes neither the id nor the client handler. -/
theorem afterHandler_identity (c : TcpConnection) (res : HandlerResult Unit Unit) :
    (c.afterHandler res).2.id = c.id ∧ (c.afterHandler res).2.handler = c.handler := by
  simp only [afterHandler]
  split
  · exact ⟨rfl, rfl⟩
  · exact ⟨rfl, rfl⟩
  · next data _ _ =>
    have hread := handleRead_identity { c with reader := res.reader, protocol := res.protocol } data
    split
    · next heq => rw [heq] at hread; exact hread
    · next heq => rw [heq] at hread; exact hread

/-- No event changes the id or the client handler. -/
theorem onEvent_identity {c : TcpConnection} {event : Event} {res : Result}
    (hres : c.onEvent event = some res) :
    res.connection.id = c.id ∧ res.connection.handler = c.handler := by
  cases event with
  | read e =>
    obtain ⟨out, hout, rfl⟩ := Option.map_eq_some_iff.mp hres
    obtain ⟨r, -, rfl⟩ := Option.map_eq_some_iff.mp hout
    exact afterHandler_identity c r
  | transfer | written | writeError =>
    obtain ⟨writes, writeInProgress, heq⟩ := onEvent_write (by simp) hres
    rw [heq]
    exact ⟨rfl, rfl⟩

/-! ## What a frame does to a connection -/

/-- A frame the server answers: its prefix says `ECHO`, its payload parses, and it is a request.
These are the three things that are asserted or checked on the way. -/
def IsEchoRequest (frame : Frame) : Prop :=
  frame.framePrefix.type = FramePrefix.MessageType.echo.number ∧
    ∃ m, ChatMessage.parseFromArray frame.payload = some m ∧
      m.type = ChatMessage.MessageType.echoRequest.number

/-- What `_handleRead` throws for a frame, in the order in which it looks at it. The order decides
which of two defects is reported. -/
def frameFailure (frame : Frame) : Option Failure :=
  if frame.framePrefix.type = FramePrefix.MessageType.echo.number then
    match ChatMessage.parseFromArray frame.payload with
    | none => some (.runtimeError "Wrong chat message format. Parse failed")
    | some m =>
      if m.type = ChatMessage.MessageType.echoRequest.number then none
      else some (.assertionFailed "echoMessage->type() == proto::ChatMessage::ECHO_REQUEST")
  else some (.assertionFailed "_deserFramePrefixCache.type() == proto::FramePrefix::ECHO")

/-- The frames that nothing is thrown for are the requests. -/
theorem frameFailure_eq_none_iff {frame : Frame} :
    frameFailure frame = none ↔ IsEchoRequest frame := by
  unfold frameFailure IsEchoRequest
  split
  · next htype =>
    cases hparse : ChatMessage.parseFromArray frame.payload with
    | none => simp
    | some m =>
      by_cases hm : m.type = ChatMessage.MessageType.echoRequest.number <;> simp [hm, htype]
  · next htype => simp [htype]

/-- **An echo request is answered.** The response is sent, through the same protocol object. The
prefix in the cache and the payload are all it depends on. -/
theorem handleRead_request {c : TcpConnection} {payload : Bytes} {m : ChatMessage}
    (hecho : c.protocol.deserFramePrefixCache.type = FramePrefix.MessageType.echo.number)
    (hparse : ChatMessage.parseFromArray payload = some m)
    (htype : m.type = ChatMessage.MessageType.echoRequest.number)
    (hlen : payload.length ≤ maxLength) :
    c.handleRead payload = (none,
      { c with protocol := { c.protocol with
          serFramePrefixCache := framePrefixOf (.chatMessage (EchoHandler.response m)) } }.sendMove
        (frame (.chatMessage (EchoHandler.response m)))) := by
  simp only [handleRead, respond, Protocol.deserialize, if_pos hecho, hparse,
    EchoHandler.handleServer_request c.protocol hparse htype hlen]

/-- The handler of a payload that is a request: the response has been sent, and the reader is where
the handler has left it. -/
theorem afterHandler_request {c : TcpConnection} {res : HandlerResult Unit Unit} {payload : Bytes}
    {m : ChatMessage} (hexit : res.exit = .calls () payload false)
    (hecho : res.protocol.deserFramePrefixCache.type = FramePrefix.MessageType.echo.number)
    (hparse : ChatMessage.parseFromArray payload = some m)
    (htype : m.type = ChatMessage.MessageType.echoRequest.number)
    (hlen : payload.length ≤ maxLength) :
    c.afterHandler res = (none,
      { c with reader := res.reader, protocol := { res.protocol with
        serFramePrefixCache := framePrefixOf (.chatMessage (EchoHandler.response m)) } }.sendMove
        (frame (.chatMessage (EchoHandler.response m)))) := by
  have hread := handleRead_request (c := { c with reader := res.reader, protocol := res.protocol })
    hecho hparse htype hlen
  have hafter : res.afterCallback = res.reader := by
    simp only [HandlerResult.afterCallback, hexit]
  simp only [afterHandler, hexit, hread, hafter, sendMove]
  exact congrArg (Prod.mk none) (send_with_reader _ _)

/-- **Whether `_handleRead` throws depends on the frame alone**, and the connection stays as it is
when it does. -/
theorem handleRead_failure {c : TcpConnection} {payload : Bytes} {f : Failure}
    (h : frameFailure ⟨c.protocol.deserFramePrefixCache, payload⟩ = some f) :
    c.handleRead payload = (some f, c) := by
  unfold frameFailure at h
  split at h
  · next hecho =>
    split at h
    · next hparse =>
      obtain rfl := Option.some.inj h
      simp only [handleRead, respond, Protocol.deserialize, if_pos hecho, hparse]
    · next m hparse =>
      split at h
      · cases h
      · next hm =>
        obtain rfl := Option.some.inj h
        simp only [handleRead, respond, Protocol.deserialize, if_pos hecho, hparse,
          EchoHandler.handleServer, if_neg hm]
  · next hecho =>
    obtain rfl := Option.some.inj h
    simp only [handleRead, respond, Protocol.deserialize, if_neg hecho]

/-! ## The receive loop of a connection -/

/-- The connection's reader is in the framed loop, after `frames` and `read` bytes. What it writes
is no part of this. -/
def Receiving (c : TcpConnection) (frames : List Frame) (read : Bytes) : Prop :=
  FramedPhase maxReadBufferSizeBytes () () c.reader c.protocol frames read

/-- A call of `send` leaves the loop where it is. -/
theorem Receiving.send {c : TcpConnection} {frames : List Frame} {read : Bytes}
    (h : c.Receiving frames read) (message : Bytes) : (c.send message).Receiving frames read := by
  rw [Receiving, send_reader, send_protocol]
  exact h

/-- How the completion of a read can end, with what is left of the loop. The two cases that throw
say what the stream has, whatever is still to come. -/
inductive ReadCompletion (c : TcpConnection) (frames : List Frame) (read : Bytes)
    (out : Option Failure × TcpConnection) : Prop
  /-- The read of the payload is scheduled. -/
  | scheduled {op : Asio.ReadOp} {framePrefix : FramePrefix} {reader : AsyncReader Unit Unit}
      {protocol : Protocol}
      (hreads : c.reader.outstanding = [⟨op, .handleReadProtoFramePrefixFinished true⟩])
      (hparse : FramePrefix.parseFromArray c.reader.readBuffer = some framePrefix)
      (hmax : framePrefix.size.toNat ≤ maxReadBufferSizeBytes)
      (hout : out = (none, { c with reader, protocol }))
      (hphase : out.2.Receiving frames read) (hweight : reader.weight < c.reader.weight)
  /-- The request is answered. -/
  | answered {op : Asio.ReadOp} {m : ChatMessage} {reader : AsyncReader Unit Unit}
      {protocol : Protocol}
      (hreads : c.reader.outstanding = [⟨op, .handleReadProtoMessageFinished true⟩])
      (hrequest : IsEchoRequest ⟨c.protocol.deserFramePrefixCache, c.reader.readBuffer⟩)
      (hparse : ChatMessage.parseFromArray c.reader.readBuffer = some m)
      (hout : out = (none, { c with reader, protocol }.sendMove
        (frame (.chatMessage (EchoHandler.response m)))))
      (hphase : out.2.Receiving
        (frames ++ [⟨c.protocol.deserFramePrefixCache, c.reader.readBuffer⟩]) read)
      (hweight : reader.weight < c.reader.weight)
  /-- The callback throws. -/
  | refused {op : Asio.ReadOp} {f : Failure}
      (hreads : c.reader.outstanding = [⟨op, .handleReadProtoMessageFinished true⟩])
      (hfailure : frameFailure ⟨c.protocol.deserFramePrefixCache, c.reader.readBuffer⟩ = some f)
      (hout : out.1 = some f)
      (hpart : ∀ incoming,
        frames ++ [⟨c.protocol.deserFramePrefixCache, c.reader.readBuffer⟩]
          <+: (parseFrames maxReadBufferSizeBytes (read ++ incoming)).1)
  /-- The reader throws. -/
  | stopped {op : Asio.ReadOp} {f : Failure}
      (hreads : c.reader.outstanding = [⟨op, .handleReadProtoFramePrefixFinished true⟩])
      (hbad : ∀ framePrefix, FramePrefix.parseFromArray c.reader.readBuffer = some framePrefix →
        maxReadBufferSizeBytes < framePrefix.size.toNat)
      (hout : out.1 = some f)
      (hreason : ∀ incoming, parseFrames maxReadBufferSizeBytes (read ++ incoming) = (frames, f))

variable {c : TcpConnection} {frames : List Frame} {read : Bytes}
  {out : Option Failure × TcpConnection}

/-- Bytes that arrive are kept in the reader, and nothing is sent. -/
theorem Receiving.received {piece : Bytes} (h : c.Receiving frames read)
    (hr : c.onRead (.received piece) = some out) :
    ∃ reader, out = (none, { c with reader }) ∧ out.2.Receiving frames (read ++ piece) ∧
      reader.weight = c.reader.weight + 2 * piece.length := by
  obtain ⟨res, hres, rfl⟩ := Option.map_eq_some_iff.mp hr
  obtain ⟨hexit, hprotocol, hphase, hweight⟩ := FramedPhase.received h hres
  simp only [afterHandler, hexit, hprotocol]
  exact ⟨res.reader, rfl, hphase, hweight⟩

/-- A stream that fails ends the loop with its error, where the parser ends. Bytes of a frame that
is cut off are given up, by the reader and by the parser. -/
theorem Receiving.failed {e : Asio.ErrorCode} (h : c.Receiving frames read)
    (hr : c.onRead (.failed e) = some out) :
    out.1 = some (.systemError e) ∧
      parseFrames maxReadBufferSizeBytes read = (frames, .systemError .eof) := by
  obtain ⟨res, hres, rfl⟩ := Option.map_eq_some_iff.mp hr
  obtain ⟨hexit, hparse⟩ := FramedPhase.failed h hres
  refine ⟨?_, hparse⟩
  simp only [afterHandler, hexit]

/-- **A read that completes schedules the next one, answers a request, or ends in an exception.**
Four cases, each with what it means for the parser of the stream and how much lighter the reader has
become. -/
theorem Receiving.completed (h : c.Receiving frames read) (hr : c.onRead .completed = some out) :
    ReadCompletion c frames read out := by
  obtain ⟨res, hres, rfl⟩ := Option.map_eq_some_iff.mp hr
  -- the reader says how the read ended; a payload is then judged by the handler
  cases FramedPhase.completed (by decide) h hres with
  | scheduled hreads hparse hmax hexit hphase hweight =>
    have hout : c.afterHandler res
        = (none, { c with reader := res.reader, protocol := res.protocol }) := by
      simp only [afterHandler, hexit]
    refine .scheduled hreads hparse hmax hout ?_ hweight
    rw [hout]
    exact hphase
  | delivered hreads hexit hprotocol hlen hphase hweight =>
    have hcache : res.protocol.deserFramePrefixCache = c.protocol.deserFramePrefixCache := by
      rw [hprotocol]
    -- the handler fails for this frame or answers it, and it sees the prefix the reader has cached
    cases hfailure : frameFailure ⟨c.protocol.deserFramePrefixCache, c.reader.readBuffer⟩ with
    | none =>
      have hrequest := frameFailure_eq_none_iff.mp hfailure
      obtain ⟨hecho, m, hparse, htype⟩ := hrequest
      have hout := afterHandler_request (c := c) hexit (by rw [hcache]; exact hecho) hparse htype
        (hlen.trans (by decide))
      refine .answered hreads ⟨hecho, m, hparse, htype⟩ hparse hout ?_ hweight
      rw [hout]
      refine Receiving.send ?_ _
      exact hphase.protocol_congr hcache
    | some f =>
      have hread := handleRead_failure (f := f)
        (c := { c with reader := res.reader, protocol := res.protocol })
        (by rw [hcache]; exact hfailure)
      refine .refused hreads hfailure ?_ fun incoming => FramedPhase.prefix_parseFrames hphase rfl
      simp only [afterHandler, hexit, hread]
  -- here the reader itself throws, and the parser stops at the same prefix
  | badPrefix hreads hexit hframes hread hpre hparse =>
    refine .stopped (f := .runtimeError "Wrong frame prefix format. Parse failed") hreads
      (by simp [hparse]) ?_ ?_
    · simp only [afterHandler, hexit]
    · intro incoming
      rw [hread, List.append_assoc, parseFrames_append hframes, parseFrames_badPrefix hpre hparse,
        List.append_nil]
  | tooLong hreads hexit hframes hread hpre hparse hmax =>
    refine .stopped (f := .lengthError "Message size exceeds max read buffer size") hreads
      (by simpa [hparse] using hmax) ?_ ?_
    · simp only [afterHandler, hexit]
    · intro incoming
      rw [hread, List.append_assoc, parseFrames_append hframes,
        parseFrames_tooLong hpre hparse hmax, List.append_nil]

/-- **A connection that receives can go on**: its handler runs, or it takes a byte and any error. A
connection is therefore never stuck but for its client. -/
theorem Receiving.progress (h : c.Receiving frames read) :
    (∃ out, c.onRead .completed = some out) ∨
      (∀ b, ∃ out, c.onRead (.received [b]) = some out) ∧
        ∀ e, ∃ out, c.onRead (.failed e) = some out := by
  rcases FramedPhase.progress h with ⟨res, hres⟩ | ⟨hreceive, hfail⟩
  · exact Or.inl ⟨_, Option.map_eq_some_iff.mpr ⟨res, hres, rfl⟩⟩
  · refine Or.inr ⟨fun b => ?_, fun e => ?_⟩
    · obtain ⟨res, hres⟩ := hreceive b
      exact ⟨_, Option.map_eq_some_iff.mpr ⟨res, hres, rfl⟩⟩
    · obtain ⟨res, hres⟩ := hfail e
      exact ⟨_, Option.map_eq_some_iff.mpr ⟨res, hres, rfl⟩⟩

/-- **A connection goes on receiving** until a handler throws. -/
theorem Receiving.onEvent {event : Event} {res : Result} (h : c.Receiving frames read)
    (hres : c.onEvent event = some res) (hnone : res.failure = none) :
    ∃ frames' read', res.connection.Receiving frames' read' := by
  -- the events of the writes leave the loop of the reader alone
  by_cases hread : ∃ e, event = .read e
  · obtain ⟨e, rfl⟩ := hread
    obtain ⟨out, hout, rfl⟩ := Option.map_eq_some_iff.mp hres
    cases e with
    | received piece =>
      obtain ⟨reader, rfl, hphase, -⟩ := h.received hout
      exact ⟨_, _, hphase⟩
    | failed e =>
      obtain ⟨hfailure, -⟩ := h.failed hout
      rw [hfailure] at hnone
      cases hnone
    | completed =>
      cases h.completed hout with
      | scheduled _ _ _ _ hphase => exact ⟨_, _, hphase⟩
      | answered _ _ _ _ hphase => exact ⟨_, _, hphase⟩
      | refused _ _ hfailure => rw [hfailure] at hnone; cases hnone
      | stopped _ _ hfailure => rw [hfailure] at hnone; cases hnone
  · obtain ⟨hreader, hprotocol⟩ := onEvent_write_frame (fun e he => hread ⟨e, he⟩) hres
    refine ⟨frames, read, ?_⟩
    unfold Receiving
    rw [hreader, hprotocol]
    exact h

/-! ## The start of a connection -/

/-- All a client handler does to its connection is to send a message. -/
theorem handleStart_cases (handler : ClientHandler) (c : TcpConnection) :
    (handler.handleStart c).2 = c ∨ ∃ message, (handler.handleStart c).2 = c.send message := by
  cases handler with
  | echoClientHandler =>
    simp only [ClientHandler.handleStart, EchoClientHandler.handleStart]
    split
    · exact Or.inl rfl
    · split
      · exact Or.inl rfl
      · split
        · exact Or.inr ⟨_, rfl⟩
        · exact Or.inl rfl
  | testClientHandler =>
    simp only [ClientHandler.handleStart, TestClientHandler.handleStart]
    split
    · exact Or.inl rfl
    · exact Or.inr ⟨_, rfl⟩

/-- A greeting touches neither the reader nor the protocol object. -/
theorem handleStart_frame (handler : ClientHandler) (c : TcpConnection) :
    (handler.handleStart c).2.reader = c.reader ∧
      (handler.handleStart c).2.protocol = c.protocol := by
  rcases handleStart_cases handler c with heq | ⟨message, heq⟩
  · rw [heq]
    exact ⟨rfl, rfl⟩
  · rw [heq]
    exact ⟨send_reader _ _, send_protocol _ _⟩

@[simp] theorem start_id (c : TcpConnection) : c.start.2.id = c.id := by
  have hstart : (c.handler.handleStart c).2.id = c.id := by
    rcases handleStart_cases c.handler c with heq | ⟨message, heq⟩
    · rw [heq]
    · rw [heq, send_id]
  unfold start
  split
  · next heq => rw [heq] at hstart; exact hstart
  · next heq => rw [heq] at hstart; exact hstart

/-- **A connection that has been started receives**, whatever its handler, and starting it again
does not change that. -/
theorem receiving_start
    (h : c.reader = { maxBufferSize := maxReadBufferSizeBytes } ∨
      ∃ frames read, c.Receiving frames read) (hnone : c.start.1 = none) :
    ∃ frames read, c.start.2.Receiving frames read := by
  obtain ⟨hreader, hprotocol⟩ := handleStart_frame c.handler c
  rw [start] at hnone ⊢
  generalize c.handler.handleStart c = greeted at hnone hreader hprotocol ⊢
  obtain ⟨failure, c'⟩ := greeted
  cases failure with
  | some f => cases hnone
  | none =>
    simp only [startReceive] at hreader hprotocol hnone ⊢
    rcases h with hunstarted | ⟨frames, read, hreceiving⟩
    · obtain ⟨reader, hstart, hphase, -⟩ := readAsyncProtoInfOccupy_phase
        (r := ({ maxBufferSize := maxReadBufferSizeBytes } : AsyncReader Unit Unit)) rfl rfl rfl
        (by decide) () () c'.protocol
      rw [hreader, hunstarted, hstart]
      exact ⟨_, _, hphase⟩
    · -- the lock is taken: the second request is refused
      have hlock : c'.reader.readInProgress = true := by
        rw [hreader]
        exact (FramedPhase.inLoop hreceiving).locked
      have hrefused : c'.reader.readAsyncProtoInfOccupy () () c'.protocol = (none, c'.reader) := by
        simp only [AsyncReader.readAsyncProtoInfOccupy, AsyncReader.tryLockReading, hlock, if_true]
      rw [hrefused]
      refine ⟨frames, read, ?_⟩
      unfold Receiving at hreceiving ⊢
      rw [hreader, hprotocol]
      exact hreceiving

/-! ## The id -/

theorem send_with_id (c : TcpConnection) (id : UInt64) (message : Bytes) :
    { c with id }.send message = { c.send message with id } := by
  simp only [send, doSend]
  split <;> rfl

/-- `_handleRead` does not look at the id. -/
theorem handleRead_with_id (c : TcpConnection) (id : UInt64) (data : Bytes) :
    { c with id }.handleRead data
      = ((c.handleRead data).1, { (c.handleRead data).2 with id }) := by
  have hrespond : { c with id }.respond data = c.respond data := rfl
  simp only [handleRead, hrespond]
  generalize c.respond data = responded
  obtain ⟨f | wireMessage, protocol⟩ := responded
  · rfl
  · exact congrArg (Prod.mk none) (send_with_id { c with protocol } id wireMessage)

/-- A handler of the reader does not look at the id. -/
theorem afterHandler_with_id (c : TcpConnection) (id : UInt64) (res : HandlerResult Unit Unit) :
    { c with id }.afterHandler res
      = ((c.afterHandler res).1, { (c.afterHandler res).2 with id }) := by
  simp only [afterHandler]
  cases res.exit with
  | returned => rfl
  | threw f => rfl
  | calls callback data once =>
    have hread := handleRead_with_id { c with reader := res.reader, protocol := res.protocol } id data
    simp only at hread ⊢
    rw [hread]
    generalize handleRead _ data = out
    obtain ⟨_ | f, c'⟩ := out
    · rfl
    · rfl

/-- **The id of a connection takes no part in what happens to it.** Runs of connections with
different ids can be compared step by step. -/
theorem onEvent_with_id (c : TcpConnection) (id : UInt64) (event : Event) :
    { c with id }.onEvent event
      = (c.onEvent event).map fun res => { res with connection := { res.connection with id } } := by
  cases event with
  | read event =>
    simp only [onEvent, onRead, Option.map_map]
    congr 1
    funext res
    simp only [Function.comp_apply, afterHandler_with_id]
  | transfer i n => simp only [onEvent, onTransfer, Option.map_map]; rfl
  | written i => simp only [onEvent, onWritten, Option.map_map]; rfl
  | writeError i e => simp only [onEvent, onWriteError, Option.map_map]; rfl

/-- A client handler does not look at the id. -/
theorem handleStart_with_id (handler : ClientHandler) (c : TcpConnection) (id : UInt64) :
    handler.handleStart { c with id }
      = ((handler.handleStart c).1, { (handler.handleStart c).2 with id }) := by
  cases handler with
  | echoClientHandler =>
    simp only [ClientHandler.handleStart, EchoClientHandler.handleStart]
    split
    · rfl
    · split
      · rfl
      · split
        · exact congrArg (Prod.mk none) (send_with_id c id _)
        · rfl
  | testClientHandler =>
    simp only [ClientHandler.handleStart, TestClientHandler.handleStart]
    split
    · rfl
    · exact congrArg (Prod.mk none) (send_with_id c id _)

/-- Starting does not look at the id, so two connections that differ in it start alike. -/
theorem start_with_id (c : TcpConnection) (id : UInt64) :
    { c with id }.start = (c.start.1, { c.start.2 with id }) := by
  simp only [start, handleStart_with_id]
  generalize c.handler.handleStart c = greeted
  obtain ⟨_ | f, c'⟩ := greeted
  · rfl
  · rfl

/-! ## The greeting -/

theorem welcome_framable : (MessageLite.chatMessage welcome).Framable := by
  constructor <;> decide +kernel

/-- The greeting is framed as `Protocol::serialize` would frame it. -/
theorem handleStart_eq (c : TcpConnection) :
    EchoClientHandler.handleStart c = (none, c.sendMove (frame (.chatMessage welcome))) := by
  have hser := welcome_framable.serialize_prefix
  have hmsg := welcome_framable.append_message
  have hlen : (frame (.chatMessage welcome)).length
      = (MessageLite.framePrefix (framePrefixOf (.chatMessage welcome))).byteSizeLong +
        (framePrefixOf (.chatMessage welcome)).size.toNat := by
    rw [welcome_framable.frame_length, MessageLite.byteSizeLong, welcome_framable.prefix_length]
  rw [EchoClientHandler.handleStart]
  simp only [framePrefixOf] at hser hmsg hlen ⊢
  rw [hser]
  simp only [hmsg]
  rw [if_pos hlen]

/-- **A connection starts by sending the greeting and reading a prefix.** The greeting is serialized
by the handler, so the caches of the protocol object are as they were. -/
theorem start_eq {c : TcpConnection} (hhandler : c.handler = .echoClientHandler)
    (hreader : c.reader = { maxBufferSize := maxReadBufferSizeBytes }) :
    ∃ c', c.start = (none, c') ∧ c'.Receiving [] [] ∧
      c' = { c.sendMove (frame (.chatMessage welcome)) with reader := c'.reader } := by
  have hr : (c.sendMove (frame (.chatMessage welcome))).reader
      = { maxBufferSize := maxReadBufferSizeBytes } := by
    rw [sendMove, send_reader, hreader]
  have hp : (c.sendMove (frame (.chatMessage welcome))).protocol = c.protocol := send_protocol _ _
  obtain ⟨reader, hstart, hphase, -⟩ := readAsyncProtoInfOccupy_phase
    (r := ({ maxBufferSize := maxReadBufferSizeBytes } : AsyncReader Unit Unit)) rfl rfl rfl
    (by decide) () () c.protocol
  refine ⟨{ c.sendMove (frame (.chatMessage welcome)) with reader }, ?_, ?_, rfl⟩
  · simp only [start, hhandler, ClientHandler.handleStart, handleStart_eq, startReceive, hr, hp,
      hstart]
  · simp only [Receiving, hp]
    exact hphase

/-! ## The response on the wire -/

/-- What `deserialize` has checked when it returns a chat message. It is the type in the cached
prefix, and not the payload, that says what the payload is parsed as. -/
theorem deserialize_eq_ok {p : Protocol} {payload : Bytes} {m : ChatMessage}
    (h : p.deserialize payload = .ok (.chatMessage m)) :
    p.deserFramePrefixCache.type = FramePrefix.MessageType.echo.number ∧
      ChatMessage.parseFromArray payload = some m := by
  have hecho : p.deserFramePrefixCache.type = FramePrefix.MessageType.echo.number := by
    by_contra hne
    rw [Protocol.deserialize, if_neg hne] at h
    cases h
  rw [Protocol.deserialize, if_pos hecho] at h
  refine ⟨hecho, ?_⟩
  split at h
  · cases h
  · next m' hm =>
    cases h
    exact hm

/-- **The response to a request, whatever is done with unknown fields.** The handler may get the
request with its unknown fields or without them, and so may the client that gets the response: one
frame is sent, no longer than the request was, and the client finds the id and the text. -/
theorem echo_response_retained {p : Protocol} {payload : Bytes} {m received : ChatMessage}
    (hlen : payload.length ≤ maxReadBufferSizeBytes)
    (hdeserialize : p.deserialize payload = .ok (.chatMessage m))
    (htype : m.type = ChatMessage.MessageType.echoRequest.number)
    (hretained : m.Retained received) :
    ∃ wire protocol size,
      EchoHandler.handleServer (.chatMessage received) p = (.ok wire, protocol) ∧
      wire.length = 10 + size ∧ 2 ≤ size ∧ size ≤ payload.length ∧
      ∀ client : Protocol, ∃ client' response,
        client.getMessageSize (wire.take 10) = (.ok size, client') ∧
        (∀ r : AsyncReader Unit Unit, r.maxBufferSize = maxReadBufferSizeBytes →
          r.protocol = some () → (r.doReadProtoMessage size true).1 = none) ∧
        client'.deserialize (wire.drop 10) = .ok (.chatMessage response) ∧
        ∀ displayed, response.Retained displayed →
          displayed.id = m.id ∧ displayed.text = m.text ∧
            displayed.type = ChatMessage.MessageType.echoResponse.number := by
  obtain ⟨-, hparse⟩ := deserialize_eq_ok hdeserialize
  have hmax : payload.length ≤ maxLength := hlen.trans (by decide)
  have hframable := EchoHandler.response_framable_of_retained hretained hparse htype hmax
  have hle := EchoHandler.response_length_le_of_retained hretained hparse htype
  refine ⟨_, _, (MessageLite.chatMessage (EchoHandler.response received)).byteSizeLong,
    EchoHandler.handleServer_request_of_retained p hretained hparse htype hmax, ?_,
    EchoHandler.two_le_response_length received, hle, ?_⟩
  · rw [hframable.frame_length, hframable.size_toNat]
  · intro client
    refine ⟨_, EchoHandler.response received, client.getMessageSize_frame hframable, ?_, ?_, ?_⟩
    · intro r hbuffer hprotocol
      simp only [AsyncReader.doReadProtoMessage, hprotocol, hbuffer]
      rw [if_neg (by omega)]
    · have hdrop : (frame (.chatMessage (EchoHandler.response received))).drop 10
          = (MessageLite.chatMessage (EchoHandler.response received)).encode :=
        List.drop_left' hframable.prefix_length
      simp only [hdrop, Protocol.deserialize, framePrefixOf, if_true,
        EchoHandler.parse_response_of_retained hretained hparse htype hmax]
    · intro displayed hdisplayed
      obtain ⟨hid, htext, htype'⟩ := hdisplayed.fields_eq
      obtain ⟨hid', htext', -⟩ := hretained.fields_eq
      exact ⟨hid.trans hid', htext.trans htext', htype'⟩

/-- **An echo response is faithful and does not outgrow its request.** For every payload the reader
can hold and `deserialize` takes for a request, in whatever form it is encoded: the handler sends
one frame, a prefix of ten bytes and a message of at least two bytes and no more than the payload
has. Every client reads that size, accepts it, and finds the id and the text of the request. -/
theorem echo_response_faithful {c : TcpConnection} {payload : Bytes} {m : ChatMessage}
    (hlen : payload.length ≤ maxReadBufferSizeBytes)
    (hdeserialize : c.protocol.deserialize payload = .ok (.chatMessage m))
    (htype : m.type = ChatMessage.MessageType.echoRequest.number) :
    ∃ wire protocol size,
      EchoHandler.handleServer (.chatMessage m) c.protocol = (.ok wire, protocol) ∧
      c.handleRead payload = (none, { c with protocol }.sendMove wire) ∧
      wire.length = 10 + size ∧ 2 ≤ size ∧ size ≤ payload.length ∧
      ∀ client : Protocol, ∃ client' response,
        client.getMessageSize (wire.take 10) = (.ok size, client') ∧
        (∀ r : AsyncReader Unit Unit, r.maxBufferSize = maxReadBufferSizeBytes →
          r.protocol = some () → (r.doReadProtoMessage size true).1 = none) ∧
        client'.deserialize (wire.drop 10) = .ok (.chatMessage response) ∧
        response.id = m.id ∧ response.text = m.text ∧
          response.type = ChatMessage.MessageType.echoResponse.number := by
  obtain ⟨wire, protocol, size, hserver, hwire, htwo, hle, hclient⟩ :=
    echo_response_retained hlen hdeserialize htype .kept
  have hread : c.handleRead payload = (none, { c with protocol }.sendMove wire) := by
    simp only [handleRead, respond, hdeserialize, hserver]
  refine ⟨wire, protocol, size, hserver, hread, hwire, htwo, hle, fun client => ?_⟩
  obtain ⟨client', response, hsize, haccepts, hresponse, hfields⟩ := hclient client
  exact ⟨client', response, hsize, haccepts, hresponse, hfields response .kept⟩

/-- A request with its type first and over-long, its id twice, and a field the message type does not
have. -/
theorem echo_response_faithful_reordered :
    let payload : Bytes := [120, 132, 0, 8, 7, 40, 1, 8, 133, 0, 18, 1, 97]
    let c : TcpConnection := {
      id := 0
      handler := .echoClientHandler
      protocol := { deserFramePrefixCache := { size := 13, type := 1 } } }
    ∃ wire protocol size, c.handleRead payload = (none, { c with protocol }.sendMove wire) ∧
      2 ≤ size ∧ size ≤ 13 ∧ ∃ client' response,
        ({} : Protocol).getMessageSize (wire.take 10) = (.ok size, client') ∧
        client'.deserialize (wire.drop 10) = .ok (.chatMessage response) ∧
        response.id = 5 ∧ response.text = [97] := by
  intro payload c
  have hparse : c.protocol.deserialize payload = .ok (.chatMessage
      { id := 5, text := [97], type := 4, unknownFields := [⟨5, .varint 1⟩] }) := by
    decide +kernel
  obtain ⟨wire, protocol, size, -, hread, -, htwo, hle, hclient⟩ :=
    echo_response_faithful (c := c) (by decide) hparse rfl
  obtain ⟨client', response, hsize, -, hdeserialize, hid, htext, -⟩ := hclient {}
  exact ⟨wire, protocol, size, hread, htwo, hle, client', response, hsize, hdeserialize, hid,
    htext⟩

end TcpConnection

end Acs
