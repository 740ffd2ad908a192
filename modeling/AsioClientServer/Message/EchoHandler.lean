import AsioClientServer.Proto.Protocol

/-!
# `acs::message::EchoHandler`

What the two sides do with an echo message: the server answers a request with the same message
turned into a response, the client displays a response (`EchoHandler.hpp`).

* `response_length_le`: the response is never longer than the request it answers, in whatever
  form the request was encoded.
* `handleServer_request`: a request of a size the reader accepts is always answered.
* `parse_response`: the response is read back with its unknown fields.

The lemmas `_of_retained` say the same of a library that drops the unknown fields of a message it
parses, so that the handler gets the request without them.
-/

namespace Acs

open Wire

namespace EchoHandler

/-- `handleClient`. What is displayed is returned: the id of the response, with which a user finds
the command, and its text. -/
def handleClient (message : MessageLite) : Except Failure (UInt32 × Bytes) :=
  match message with
  | .framePrefix _ => .error (.domainError "Provided message is not of type proto::ChatMessage")
  | .chatMessage echoMessage =>
    if echoMessage.type = ChatMessage.MessageType.echoResponse.number then
      .ok (echoMessage.id, echoMessage.text)
    else
      .error (.assertionFailed "echoMessage->type() == proto::ChatMessage::ECHO_RESPONSE")

/-- The message `handleServer` answers with: the request itself, with another type. It keeps the id,
the text and whatever unknown fields the request has. -/
def response (echoMessage : ChatMessage) : ChatMessage :=
  { echoMessage with type := ChatMessage.MessageType.echoResponse.number }

/-- `handleServer`, up to the call of `sender.send` with the string that is returned. The
`Protocol` object is the one of the sender. -/
def handleServer (message : MessageLite) (p : Protocol) : Except Failure Bytes × Protocol :=
  match message with
  | .framePrefix _ =>
    (.error (.domainError "Provided message is not of type proto::ChatMessage"), p)
  | .chatMessage echoMessage =>
    if echoMessage.type = ChatMessage.MessageType.echoRequest.number then
      p.serialize (.chatMessage (response echoMessage))
    else
      (.error (.assertionFailed "echoMessage->type() == proto::ChatMessage::ECHO_REQUEST"), p)

/-! ## The size of a response -/

/-- The size of a message, with two bytes for a type that is set. The values of the two echo types
have one byte each, so a response weighs as much as its request. -/
def weight (m : ChatMessage) : Nat :=
  m.weight fun type => if type = 0 then 0 else 2

/-- For a response, the weight is the size it is written with. -/
theorem byteSizeLong_response (m : ChatMessage) :
    (MessageLite.chatMessage (response m)).byteSizeLong = weight (response m) := by
  have htype : (response m).type = 5 := rfl
  have htoken : (encodeTokens [⟨15, .varint (int32ToVarint 5)⟩]).length = 2 := rfl
  simp only [MessageLite.byteSizeLong, MessageLite.encode, MessageLite.tokens, ChatMessage.tokens,
    encodeTokens_append, List.length_append, weight, ChatMessage.weight, htype]
  rw [if_neg (c := (5 : Int32) = 0) (by decide), if_neg (c := (5 : Int32) = 0) (by decide),
    htoken]

/-- A parsed message weighs no more than its bytes: the token that has set the type has two bytes at
least. -/
theorem weight_le_of_parse {data : Bytes} {m : ChatMessage}
    (hparse : ChatMessage.parseFromArray data = some m) : weight m ≤ data.length := by
  refine ChatMessage.weight_le_of_parse (fun v => ?_) rfl hparse
  -- a tag and a varint have a byte each at least
  have htwo : 2 ≤ (encodeToken ⟨15, .varint v⟩).length := by
    have h1 := encodeVarint_length_pos (8 * 15 + 0)
    have h2 := encodeVarint_length_pos v.toNat
    simp only [encodeToken, encodeValue, List.length_append, Value.wireType]
    omega
  split <;> omega

/-- **A response is not longer than the request it answers**, in whatever form that was encoded and
whether the library keeps its unknown fields or drops them. -/
theorem response_length_le_of_retained {data : Bytes} {m received : ChatMessage}
    (hretained : m.Retained received) (hparse : ChatMessage.parseFromArray data = some m)
    (htype : m.type = ChatMessage.MessageType.echoRequest.number) :
    (MessageLite.chatMessage (response received)).byteSizeLong ≤ data.length := by
  have hle : weight received ≤ data.length :=
    hretained.weight_le.trans (weight_le_of_parse hparse)
  have hreceived := hretained.fields_eq.2.2.trans htype
  have hresponse : weight (response received) = weight received := by
    simp only [weight, ChatMessage.weight, response, hreceived]
    rfl
  rw [byteSizeLong_response, hresponse]
  exact hle

/-- A response is not longer than its request, with the unknown fields it came with. -/
theorem response_length_le {data : Bytes} {m : ChatMessage}
    (hparse : ChatMessage.parseFromArray data = some m)
    (htype : m.type = ChatMessage.MessageType.echoRequest.number) :
    (MessageLite.chatMessage (response m)).byteSizeLong ≤ data.length :=
  response_length_le_of_retained .kept hparse htype

/-- A response has its type at least. -/
theorem two_le_response_length (m : ChatMessage) :
    2 ≤ (MessageLite.chatMessage (response m)).byteSizeLong := by
  have htype : (response m).type = 5 := rfl
  rw [byteSizeLong_response, weight, ChatMessage.weight, htype, if_neg (c := (5 : Int32) = 0) (by decide)]
  omega

/-- A response to a request of a size that can be serialized can be framed: it is neither empty nor
too long. -/
theorem response_framable_of_retained {data : Bytes} {m received : ChatMessage}
    (hretained : m.Retained received) (hparse : ChatMessage.parseFromArray data = some m)
    (htype : m.type = ChatMessage.MessageType.echoRequest.number)
    (hlen : data.length ≤ maxLength) : (MessageLite.chatMessage (response received)).Framable :=
  ⟨Nat.lt_of_lt_of_le (by decide) (two_le_response_length received),
    (response_length_le_of_retained hretained hparse htype).trans hlen⟩

/-- A response can be framed whenever its request could be serialized, with the unknown fields it
came with. -/
theorem response_framable {data : Bytes} {m : ChatMessage}
    (hparse : ChatMessage.parseFromArray data = some m)
    (htype : m.type = ChatMessage.MessageType.echoRequest.number)
    (hlen : data.length ≤ maxLength) : (MessageLite.chatMessage (response m)).Framable :=
  response_framable_of_retained .kept hparse htype hlen

/-- **A request is answered with the frame of its response.** -/
theorem handleServer_request_of_retained {data : Bytes} {m received : ChatMessage} (p : Protocol)
    (hretained : m.Retained received) (hparse : ChatMessage.parseFromArray data = some m)
    (htype : m.type = ChatMessage.MessageType.echoRequest.number)
    (hlen : data.length ≤ maxLength) :
    handleServer (.chatMessage received) p
      = (.ok (frame (.chatMessage (response received))),
          { p with serFramePrefixCache := framePrefixOf (.chatMessage (response received)) }) := by
  rw [handleServer, if_pos (hretained.fields_eq.2.2.trans htype),
    p.serialize_eq (response_framable_of_retained hretained hparse htype hlen)]

/-- **A request is answered**, with the unknown fields it came with. `serialize` does not throw, so
neither does the handler. -/
theorem handleServer_request {data : Bytes} {m : ChatMessage} (p : Protocol)
    (hparse : ChatMessage.parseFromArray data = some m)
    (htype : m.type = ChatMessage.MessageType.echoRequest.number)
    (hlen : data.length ≤ maxLength) :
    handleServer (.chatMessage m) p
      = (.ok (frame (.chatMessage (response m))),
          { p with serFramePrefixCache := framePrefixOf (.chatMessage (response m)) }) :=
  handleServer_request_of_retained p .kept hparse htype hlen

/-! ## What the client gets back -/

/-- **A response comes back from its frame**, with the id and the text of the request, however that
was encoded. -/
theorem parse_response_of_retained {data : Bytes} {m received : ChatMessage}
    (hretained : m.Retained received) (hparse : ChatMessage.parseFromArray data = some m)
    (htype : m.type = ChatMessage.MessageType.echoRequest.number)
    (hlen : data.length ≤ maxLength) :
    ChatMessage.parseFromArray (MessageLite.chatMessage (response received)).encode
      = some (response received) := by
  have hkept : ChatMessage.Kept (response received).unknownFields :=
    hretained.kept_unknownFields (ChatMessage.kept_of_parse hparse)
  have htext : ValidUtf8 (response received).text :=
    (congrArg ValidUtf8 hretained.fields_eq.2.1).mpr (ChatMessage.validUtf8_of_parse hparse)
  have hlength := (response_length_le_of_retained hretained hparse htype).trans hlen
  exact ChatMessage.parseFromArray_encode_kept hkept
    ((response received).text_length_le.trans hlength) htext

/-- **A response comes back as it was sent**, its unknown fields included. -/
theorem parse_response {data : Bytes} {m : ChatMessage}
    (hparse : ChatMessage.parseFromArray data = some m)
    (htype : m.type = ChatMessage.MessageType.echoRequest.number)
    (hlen : data.length ≤ maxLength) :
    ChatMessage.parseFromArray (MessageLite.chatMessage (response m)).encode
      = some (response m) :=
  parse_response_of_retained .kept hparse htype hlen

end EchoHandler

end Acs
