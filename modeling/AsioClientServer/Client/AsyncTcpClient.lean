import AsioClientServer.Client.CommandDispatcher
import AsioClientServer.Conn.AsyncReader
import AsioClientServer.Conn.AsyncWriter
import AsioClientServer.Message.EchoHandler

/-!
# `acs::conn::AsyncTcpClient`

The client's end of the connection and the handler of the echo command (`AsyncTcpClient.cpp`,
`EchoCommandHandler.cpp`).

`client_request_accepted_iff` compares the two ends: which commands the client turns into a frame
the server takes.
-/

namespace Acs

open Wire

/-- `class AsyncTcpClient`, with the `Protocol` object it points to. Its reader has one callback,
`_handleRead`; its reader and its writer use the socket independently of each other. -/
structure AsyncTcpClient where
  protocol : Protocol := {}
  writer : AsyncWriter := {}
  reader : AsyncReader Unit Unit := { maxBufferSize := maxReadBufferSizeBytes }
  deriving DecidableEq, Repr

namespace AsyncTcpClient

/-- `send`: the message is framed and given to the writer, which may refuse it without a word. An
exception of the serialization leaves it before the writer is asked. -/
def send (c : AsyncTcpClient) (message : MessageLite) : Option Failure × AsyncTcpClient :=
  match c.protocol.serialize message with
  | (.error f, protocol) => (some f, { c with protocol })
  | (.ok wireMessage, protocol) =>
    (none, { c with protocol, writer := c.writer.writeMove wireMessage })

/-- `receiveInfinitely`: the framed loop is started. -/
def receiveInfinitely (c : AsyncTcpClient) : Option Failure × AsyncTcpClient :=
  let started := c.reader.readAsyncProtoInfOccupy () () c.protocol
  (started.1, { c with reader := started.2 })

/-- `_handleConnect`, the handler of `async_connect`. The constructor has returned long before. -/
def handleConnect (c : AsyncTcpClient) (error : Option Asio.ErrorCode) :
    Option Failure × AsyncTcpClient :=
  match error with
  | some e => (some (.systemError e), c)
  | none => c.receiveInfinitely

/-- `_handleRead`: the payload is deserialized with the cached prefix and given to
`EchoHandler::handleClient`. What the message handler displays is returned. -/
def handleRead (c : AsyncTcpClient) (inputMessageData : Bytes) :
    Except Failure (UInt32 × Bytes) :=
  (c.protocol.deserialize inputMessageData).bind EchoHandler.handleClient

/-- A handler of the reader with its callback: what is displayed, if anything is, or what has been
thrown. -/
def afterHandler (c : AsyncTcpClient) (res : HandlerResult Unit Unit) :
    Except Failure (Option (UInt32 × Bytes)) × AsyncTcpClient :=
  let c := { c with reader := res.reader, protocol := res.protocol }
  match res.exit with
  | .returned => (.ok none, c)
  | .threw f => (.error f, c)
  | .calls _ data _ =>
    match c.handleRead data with
    | .error f => (.error f, c)
    | .ok shown => (.ok (some shown), { c with reader := res.afterCallback })

/-- An event of the client's reader. -/
def onRead (c : AsyncTcpClient) (event : ReadEvent) :
    Option (Except Failure (Option (UInt32 × Bytes)) × AsyncTcpClient) :=
  (c.reader.onEvent c.protocol event).map c.afterHandler

end AsyncTcpClient

namespace EchoCommandHandler

/-- The request for a command: the counter is narrowed to the type of the field. Two commands whose
numbers agree in their low 32 bits get the same id. -/
def echoMessage (echoCommandId : UInt64) (commandString : Bytes) : ChatMessage :=
  chatMessage echoCommandId.toUInt32 commandString ChatMessage.MessageType.echoRequest.number

/-- `handleCommand`: the request is sent and the counter advanced, also when the writer has refused
the request. -/
def handleCommand (commandString : Bytes) (client : AsyncTcpClient) (echoCommandId : UInt64) :
    Option Failure × AsyncTcpClient × UInt64 :=
  match client.send (.chatMessage (echoMessage echoCommandId commandString)) with
  -- the counter is not advanced when `send` throws
  | (some f, client) => (some f, client, echoCommandId)
  | (none, client) => (none, client, echoCommandId + 1)

end EchoCommandHandler

/-! ## What the server accepts -/

/-- A server takes the frame and finds the id and the text in it: the prefix parses, its size is
that of the rest, the reader does not throw for it, and the payload is deserialized. -/
def AcceptedByServer (output : Bytes) (id : UInt32) (text : Bytes) : Prop :=
  ∃ size p, ({} : Protocol).getMessageSize (output.take 10) = (.ok size, p) ∧
    output.length = 10 + size ∧
    (({ maxBufferSize := maxReadBufferSizeBytes, protocol := some () } :
      AsyncReader Unit Unit).doReadProtoMessage size true).1 = none ∧
    ∃ m, p.deserialize (output.drop 10) = .ok (.chatMessage m) ∧ m.id = id ∧ m.text = text

/-- Which frames a server takes: what the parser checks is UTF-8, and what the reader checks is the
size. -/
theorem acceptedByServer_frame_iff {m : ChatMessage} (h : (MessageLite.chatMessage m).Framable)
    (hu : m.unknownFields = []) :
    AcceptedByServer (frame (.chatMessage m)) m.id m.text ↔
      ValidUtf8 m.text ∧
        (MessageLite.chatMessage m).byteSizeLong ≤ maxReadBufferSizeBytes := by
  have hlen : m.text.length ≤ maxLength := m.text_length_le.trans h.2
  have hdrop : (frame (.chatMessage m)).drop 10 = (MessageLite.chatMessage m).encode :=
    List.drop_left' h.prefix_length
  have hsize := ({} : Protocol).getMessageSize_frame h
  have hframe : (frame (.chatMessage m)).length
      = 10 + (MessageLite.chatMessage m).byteSizeLong := by
    rw [h.frame_length, h.size_toNat]
  constructor
  · rintro ⟨size, p, hget, -, hread, m', hdeser, -, -⟩
    rw [hsize] at hget
    obtain ⟨h1, rfl⟩ := Prod.mk.inj hget
    obtain rfl := Except.ok.inj h1
    constructor
    · -- the parser checks that a text is UTF-8, so `deserialize` would have thrown
      by_contra htext
      have hnone := ChatMessage.parseFromArray_encode_of_not_utf8 hu hlen htext
      simp only [hdrop, Protocol.deserialize, framePrefixOf, if_true, hnone] at hdeser
      cases hdeser
    · -- the reader would have refused the size before the payload arrived
      by_contra hmax
      simp only [AsyncReader.doReadProtoMessage, Nat.lt_of_not_le hmax, if_true] at hread
      cases hread
  · rintro ⟨htext, hmax⟩
    refine ⟨_, _, hsize, hframe, ?_, m, ?_, rfl, rfl⟩
    · simp only [AsyncReader.doReadProtoMessage, Nat.not_lt.mpr hmax, if_false]
    · rw [hdrop]
      exact Protocol.deserialize_encode hu hlen htext rfl

/-! ## What the client sends -/

/-- The bytes an id takes up in a message, its tag included. -/
def idBytes (id : UInt32) : Nat :=
  if id = 0 then 0 else 1 + (encodeVarint id.toNat).length

/-- An id has 32 bits and a tag, so it takes six bytes at most. -/
theorem idBytes_le (id : UInt32) : idBytes id ≤ 6 := by
  have hlt := id.toNat_lt
  have hle := encodeVarint_length_le (k := 5) (n := id.toNat) (by decide) (by omega) (by decide)
  unfold idBytes
  split <;> omega

section Request

variable {text : Bytes} (echoCommandId : UInt64)

/-- The size of a request: its id, its text and its type. -/
theorem echoMessage_size (text : Bytes) :
    (MessageLite.chatMessage (EchoCommandHandler.echoMessage echoCommandId text)).byteSizeLong
      = idBytes echoCommandId.toUInt32 +
        (if text = [] then 0 else 1 + (encodeVarint text.length).length + text.length) + 2 := by
  have htype : (encodeVarint (int32ToVarint 4).toNat).length = 1 := rfl
  rw [ChatMessage.byteSizeLong_eq]
  simp only [EchoCommandHandler.echoMessage, chatMessage, ChatMessage.MessageType.number, idBytes,
    encodeTokens_nil, List.length_nil, htype]
  rw [if_neg (c := (4 : Int32) = 0) (by decide)]
  rfl

/-- **The largest request.** Beside the text and the id, it takes five bytes: the tag and the length
of the text, and the type. -/
theorem echoMessage_size_le_iff (hlen : text.length < 2 ^ 14) :
    (MessageLite.chatMessage (EchoCommandHandler.echoMessage echoCommandId text)).byteSizeLong
        ≤ maxReadBufferSizeBytes ↔
      text.length + idBytes echoCommandId.toUInt32 ≤ 1019 := by
  have hid := idBytes_le echoCommandId.toUInt32
  rw [echoMessage_size, maxReadBufferSizeBytes]
  by_cases hshort : text.length < 128
  · have hone : (encodeVarint text.length).length = 1 := by
      rw [encodeVarint_of_lt hshort]
      rfl
    rw [hone]
    split <;> omega
  · have htwo : (encodeVarint text.length).length = 2 :=
      encodeVarint_length_succ (k := 1) (by decide) (by omega) (by omega)
    have hne : text ≠ [] := by
      rintro rfl
      simp at hshort
    rw [if_neg hne, htwo]
    omega

/-- A request whose text a line could hold can be framed. -/
theorem echoMessage_framable (hlen : text.length < 2 ^ 14) :
    (MessageLite.chatMessage (EchoCommandHandler.echoMessage echoCommandId text)).Framable := by
  have hid := idBytes_le echoCommandId.toUInt32
  have htext := encodeVarint_length_le (k := 2) (n := text.length) (by decide) (by omega) (by decide)
  rw [MessageLite.Framable, echoMessage_size, maxLength]
  split <;> omega

end Request

/-- What `send` does with a message that can be framed: nothing is thrown, and the writer gets the
frame. -/
theorem AsyncTcpClient.send_eq (client : AsyncTcpClient) {message : MessageLite}
    (h : message.Framable) :
    client.send message = (none,
      { client with
        protocol := { client.protocol with serFramePrefixCache := framePrefixOf message }
        writer := client.writer.writeMove (frame message) }) := by
  simp only [send, client.protocol.serialize_eq h]

/-- **What the client emits for a command**, when its writer is idle: the frame of the request. The
counter goes up, and the protocol object keeps the prefix in its cache for serializing. -/
theorem handleCommand_eq {client : AsyncTcpClient} {text : Bytes}
    (hidle : client.writer.writeInProgress = false) (hlen : text.length < 2 ^ 14)
    (echoCommandId : UInt64) :
    EchoCommandHandler.handleCommand text client echoCommandId
      = (none,
          { client with
            protocol := { client.protocol with
              serFramePrefixCache :=
                framePrefixOf (.chatMessage (EchoCommandHandler.echoMessage echoCommandId text)) }
            writer := {
              writeBuffer :=
                frame (.chatMessage (EchoCommandHandler.echoMessage echoCommandId text))
              writeInProgress := true
              outstanding := client.writer.outstanding ++ [⟨(frame (.chatMessage
                (EchoCommandHandler.echoMessage echoCommandId text))).length, 0⟩] } },
          echoCommandId + 1) := by
  simp only [EchoCommandHandler.handleCommand,
    client.send_eq (echoMessage_framable echoCommandId hlen), AsyncWriter.writeMove,
    AsyncWriter.write_of_unlocked hidle]

/-- **The commands a server takes.** For every line of the command loop that is an echo command and
every value of the counter: the client emits a frame that a server accepts, with the id and the
text in it, if and only if the text is UTF-8 and short enough for its id. -/
theorem client_request_accepted_iff {line text : Bytes}
    (hline : line.length < maxReadBufferSizeBytes) (hdispatch : dispatchCommand line = some text)
    {client : AsyncTcpClient} (hidle : client.writer.writeInProgress = false)
    (echoCommandId : UInt64) :
    (∃ client' next, EchoCommandHandler.handleCommand text client echoCommandId
          = (none, client', next) ∧
        AcceptedByServer client'.writer.writeBuffer echoCommandId.toUInt32 text) ↔
      ValidUtf8 text ∧ text.length + idBytes echoCommandId.toUInt32 ≤ 1019 := by
  have hlen : text.length < 2 ^ 14 := by
    have := dispatchCommand_length hdispatch
    rw [maxReadBufferSizeBytes] at hline
    omega
  have hiff := acceptedByServer_frame_iff (echoMessage_framable echoCommandId hlen) rfl
  rw [handleCommand_eq hidle hlen, ← echoMessage_size_le_iff echoCommandId hlen]
  constructor
  · rintro ⟨client', next, heq, haccepted⟩
    simp only [Prod.mk.injEq, true_and] at heq
    obtain ⟨rfl, rfl⟩ := heq
    exact hiff.mp haccepted
  · exact fun h => ⟨_, _, rfl, hiff.mpr h⟩

/-- The line `>echo hi`. -/
theorem client_request_accepted_hi :
    ∃ client' next, EchoCommandHandler.handleCommand [104, 105] {} 7 = (none, client', next) ∧
      AcceptedByServer client'.writer.writeBuffer 7 [104, 105] :=
  (client_request_accepted_iff
    (by decide : ([62, 101, 99, 104, 111, 32, 104, 105] : Bytes).length < maxReadBufferSizeBytes)
    (by decide) rfl 7).mpr ⟨by decide +kernel, by decide +kernel⟩

/-- The longest line of the command loop, with the id of the second command: the size of the
request is one more than the server's reader takes. And a line whose text is not UTF-8. -/
theorem client_request_refused :
    (let text : Bytes := List.replicate 1018 97;
      dispatchCommand (echoCmdPrefix ++ text) = some text ∧ (echoCmdPrefix ++ text).length = 1023 ∧
      ∃ client' next, EchoCommandHandler.handleCommand text {} 1 = (none, client', next) ∧
        (∃ p, ({} : Protocol).getMessageSize (client'.writer.writeBuffer.take 10)
          = (.ok 1025, p)) ∧
        ¬ AcceptedByServer client'.writer.writeBuffer 1 text) ∧
    (let text : Bytes := [255];
      dispatchCommand (echoCmdPrefix ++ text) = some text ∧
      ∃ client' next, EchoCommandHandler.handleCommand text {} 0 = (none, client', next) ∧
        ¬ AcceptedByServer client'.writer.writeBuffer 0 text) := by
  constructor
  · -- the command fits the line, but its request is one byte too long for the server
    intro text
    have hlen : text.length < 2 ^ 14 := by decide +kernel
    have hframable := echoMessage_framable 1 hlen
    refine ⟨by decide +kernel, by decide +kernel, _, _, handleCommand_eq rfl hlen 1, ?_, ?_⟩
    · have hsize : (MessageLite.chatMessage
          (EchoCommandHandler.echoMessage 1 text)).byteSizeLong = 1025 := by
        rw [echoMessage_size]
        decide +kernel
      exact ⟨_, hsize ▸ Protocol.getMessageSize_frame {} hframable⟩
    · intro haccepted
      have hle := ((acceptedByServer_frame_iff hframable rfl).mp haccepted).2
      rw [echoMessage_size_le_iff 1 hlen] at hle
      revert hle
      decide +kernel
  · -- the text is not UTF-8: it is encoded, and refused when it is parsed
    intro text
    have hlen : text.length < 2 ^ 14 := by decide
    refine ⟨by decide +kernel, _, _, handleCommand_eq rfl hlen 0, fun haccepted => ?_⟩
    have htext := ((acceptedByServer_frame_iff (echoMessage_framable 0 hlen) rfl).mp haccepted).1
    revert htext
    decide +kernel

end Acs
