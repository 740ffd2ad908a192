import AsioClientServer.Lib.Asio
import AsioClientServer.Proto.Messages

/-!
# `acs::proto::Protocol`

Serialization and deserialization of messages together with the frame prefix that stands before
each of them (`Protocol.hpp`, `Protocol.cpp`). The object keeps two frame prefixes between calls:
the one it serialized last, and the one it parsed last, whose type `deserialize` relies on.

`serialize_eq` says what a frame is: the prefix of the message and the message.
-/

namespace Acs

open Wire

/-- What ends a function before it returns: an exception, or an assertion that does not hold. The
texts are those of the sources. -/
inductive Failure where
  | systemError (code : Asio.ErrorCode)
  | runtimeError (what : String)
  | lengthError (what : String)
  | logicError (what : String)
  | domainError (what : String)
  | badFunctionCall
  | assertionFailed (condition : String)
  deriving DecidableEq, Repr

/-- Whether it ends the process where it stands, as an assertion does. An exception leaves the
function, and its callers one after the other. -/
def Failure.aborts : Failure → Bool
  | .assertionFailed _ => true
  | _ => false

/-- `_calculatePrefixSize` on a fresh `_serFramePrefixCache`: the size of a prefix whose fields
are all set, and the cache as it is left, cleared. -/
def calculatePrefixSize : Nat × FramePrefix :=
  let serFramePrefixCache : FramePrefix := { size := 1, type := 1 }
  ((MessageLite.framePrefix serFramePrefixCache).byteSizeLong, {})

/-- The value the member has from its initializer. -/
def initialPrefixSize : Nat :=
  calculatePrefixSize.1

/-- `class Protocol`. The prefix size is a `const` member; the two prefixes are caches that the
calls of a connection share, whatever message they are about. -/
structure Protocol where
  /-- `_deserFramePrefixCache`: the prefix that was read last. -/
  deserFramePrefixCache : FramePrefix := {}
  /-- `_serFramePrefixCache`: the prefix that was written last. -/
  serFramePrefixCache : FramePrefix := calculatePrefixSize.2
  /-- `_PREFIX_SIZE` -/
  prefixSize : Nat := initialPrefixSize
  prefixSize_eq : prefixSize = initialPrefixSize := by rfl
  deriving DecidableEq, Repr

/-- `getFramePrefixSize`: how many bytes a reader has to ask for before it calls
`getMessageSize`. -/
def Protocol.getFramePrefixSize (p : Protocol) : Nat :=
  p.prefixSize

/-- `serialize`: the prefix and the message, one after the other in a fresh string. The cached
prefix has changed also when an exception or the assertion ends it. -/
def Protocol.serialize (p : Protocol) (message : MessageLite) :
    Except Failure Bytes × Protocol :=
  -- the type in the prefix is `ECHO` for every message
  let cache : FramePrefix :=
    { size := UInt32.ofNat message.byteSizeLong, type := FramePrefix.MessageType.echo.number }
  let p := { p with serFramePrefixCache := cache }
  match (MessageLite.framePrefix cache).serializeToString with
  | none => (.error (.runtimeError "Failed to serialize frame prefix"), p)
  | some output =>
    match message.appendToString output with
    | none => (.error (.runtimeError "Failed to serialize chat message"), p)
    | some output =>
      if output.length = p.prefixSize + cache.size.toNat then (.ok output, p)
      else
        (.error (.assertionFailed "output.size() == _PREFIX_SIZE + _serFramePrefixCache.size()"), p)

/-- `deserialize`: the message behind the prefix that was read last. Only the type of that prefix is
looked at; that the data is of its size is left to the caller. -/
def Protocol.deserialize (p : Protocol) (data : Bytes) : Except Failure MessageLite :=
  -- the prefix `getMessageSize` has parsed last, whichever message it was for
  if p.deserFramePrefixCache.type = FramePrefix.MessageType.echo.number then
    match ChatMessage.parseFromArray data with
    | none => .error (.runtimeError "Wrong chat message format. Parse failed")
    | some message => .ok (.chatMessage message)
  else .error (.assertionFailed "_deserFramePrefixCache.type() == proto::FramePrefix::ECHO")

/-- `getMessageSize`: the prefix is parsed into the cache, where `deserialize` finds it. -/
def Protocol.getMessageSize (p : Protocol) (prefixData : Bytes) : Except Failure Nat × Protocol :=
  match FramePrefix.parseFromArray prefixData with
  | none =>
    -- the content of a message whose parse has failed is unspecified: it is cleared here
    (.error (.runtimeError "Wrong frame prefix format. Parse failed"),
      { p with deserFramePrefixCache := {} })
  | some cache => (.ok cache.size.toNat, { p with deserFramePrefixCache := cache })

/-! ## The prefix size -/

/-- A prefix has ten bytes: two tags and two numbers of four bytes. -/
@[simp] theorem Protocol.getFramePrefixSize_eq (p : Protocol) : p.getFramePrefixSize = 10 :=
  p.prefixSize_eq

/-- The member is never assigned after its initializer. -/
theorem Protocol.prefixSize_eq_ten (p : Protocol) : p.prefixSize = 10 :=
  p.prefixSize_eq

/-! ## Frames -/

/-- The prefix `serialize` writes before a message. The size is cut to 32 bits. -/
def framePrefixOf (message : MessageLite) : FramePrefix :=
  { size := UInt32.ofNat message.byteSizeLong, type := FramePrefix.MessageType.echo.number }

/-- A message as it is put on the wire: its prefix, then the message. -/
def frame (message : MessageLite) : Bytes :=
  (MessageLite.framePrefix (framePrefixOf message)).encode ++ message.encode

/-- A message with a size the prefix can hold and that is not the default. The limits are those of
the field: a size of 0 is not written, and a larger one is not encoded. -/
def MessageLite.Framable (message : MessageLite) : Prop :=
  0 < message.byteSizeLong ∧ message.byteSizeLong ≤ maxLength

/-- The size in the prefix is the size of the message: nothing is cut off. -/
theorem MessageLite.Framable.size_toNat {message : MessageLite} (h : message.Framable) :
    (framePrefixOf message).size.toNat = message.byteSizeLong := by
  have hle := h.2
  simp only [maxLength] at hle
  rw [framePrefixOf, UInt32.toNat_ofNat']
  omega

/-- The prefix has the length that is reserved for it, for both of its fields are set. -/
theorem MessageLite.Framable.prefix_length {message : MessageLite} (h : message.Framable) :
    (MessageLite.framePrefix (framePrefixOf message)).encode.length = 10 := by
  have hsize : (framePrefixOf message).size ≠ 0 := by
    intro h0
    have := h.size_toNat
    rw [h0] at this
    have hpos := h.1
    simp only [UInt32.toNat_zero] at this
    omega
  exact FramePrefix.encode_length hsize (by decide)

/-- The first encoding of `serialize` succeeds. -/
theorem MessageLite.Framable.serialize_prefix {message : MessageLite} (h : message.Framable) :
    (MessageLite.framePrefix (framePrefixOf message)).serializeToString
      = some (MessageLite.framePrefix (framePrefixOf message)).encode := by
  rw [MessageLite.serializeToString, MessageLite.appendToString, if_pos, List.nil_append]
  rw [MessageLite.byteSizeLong, h.prefix_length]
  decide

/-- The second encoding of `serialize` succeeds, and gives the frame. -/
theorem MessageLite.Framable.append_message {message : MessageLite} (h : message.Framable) :
    message.appendToString (MessageLite.framePrefix (framePrefixOf message)).encode
      = some (frame message) := by
  rw [MessageLite.appendToString, if_pos h.2, frame]

/-- A frame is as long as its prefix says, which is what the assertion of `serialize` compares. -/
theorem MessageLite.Framable.frame_length {message : MessageLite} (h : message.Framable) :
    (frame message).length = 10 + (framePrefixOf message).size.toNat := by
  rw [frame, List.length_append, h.prefix_length, h.size_toNat, MessageLite.byteSizeLong]

/-- **What `serialize` returns.** A message of 1 to 2^31 - 1 bytes is framed; only the cached
prefix changes. -/
theorem Protocol.serialize_eq (p : Protocol) {message : MessageLite} (h : message.Framable) :
    p.serialize message
      = (.ok (frame message), { p with serFramePrefixCache := framePrefixOf message }) := by
  have hser := h.serialize_prefix
  have hmsg := h.append_message
  have hlen : (frame message).length = p.prefixSize + (framePrefixOf message).size.toNat := by
    rw [h.frame_length, p.prefixSize_eq_ten]
  rw [Protocol.serialize]
  simp only [framePrefixOf] at hser hmsg hlen ⊢
  rw [hser]
  simp only [hmsg]
  rw [if_pos hlen]

/-- A message of more than 2^31 - 1 bytes is not encoded: `serialize` throws. The prefix has already
been cached then. -/
theorem Protocol.serialize_long (p : Protocol) {message : MessageLite}
    (h : maxLength < message.byteSizeLong) :
    ∃ f, p.serialize message
      = (.error f, { p with serFramePrefixCache := framePrefixOf message }) := by
  have hnone : ∀ output, message.appendToString output = none :=
    fun output => if_neg (Nat.not_le.mpr h)
  simp only [serialize, hnone]
  split <;> exact ⟨_, rfl⟩

/-- **Prefix round trip.** The first ten bytes of a frame tell the size of the rest, to any
`Protocol` object; the prefix is in its cache afterwards. -/
theorem Protocol.getMessageSize_frame (p : Protocol) {message : MessageLite}
    (h : message.Framable) :
    p.getMessageSize ((frame message).take 10)
      = (.ok message.byteSizeLong, { p with deserFramePrefixCache := framePrefixOf message }) := by
  have htake : (frame message).take 10
      = (MessageLite.framePrefix (framePrefixOf message)).encode :=
    List.take_left' h.prefix_length
  have hparse : FramePrefix.parseFromArray
      (MessageLite.framePrefix (framePrefixOf message)).encode = some (framePrefixOf message) :=
    FramePrefix.parseFromArray_encode _ _
  rw [htake, Protocol.getMessageSize, hparse]
  simp only [h.size_toNat]

/-! ## The messages that can be framed -/

/-- A prefix whose size is 0 is five bytes short: the field is not written. -/
theorem Protocol.serialize_empty (p : Protocol) :
    p.serialize (.chatMessage {})
      = (.error (.assertionFailed "output.size() == _PREFIX_SIZE + _serFramePrefixCache.size()"),
          { p with serFramePrefixCache := { size := 0, type := 1 } }) := by
  have hten := p.prefixSize_eq_ten
  have hsize : (MessageLite.chatMessage {}).byteSizeLong = 0 := rfl
  have hencoded : (MessageLite.framePrefix { size := 0, type := 1 }).serializeToString
      = some [29, 1, 0, 0, 0] := by
    decide +kernel
  have hmessage : (MessageLite.chatMessage {}).appendToString [29, 1, 0, 0, 0]
      = some [29, 1, 0, 0, 0] := by
    decide +kernel
  have htype : FramePrefix.MessageType.echo.number = 1 := rfl
  have hzero : UInt32.ofNat 0 = 0 := rfl
  rw [Protocol.serialize]
  simp only [hsize, htype, hzero, hencoded, hmessage, hten]
  rw [if_neg (by decide)]

/-- A message whose encoding succeeds can be framed, unless it is the empty one. -/
theorem MessageLite.framable_of_append {m : ChatMessage} {framePrefix output : Bytes}
    (hmessage : (MessageLite.chatMessage m).appendToString framePrefix = some output)
    (hne : m ≠ {}) : (MessageLite.chatMessage m).Framable := by
  constructor
  · rw [MessageLite.byteSizeLong, List.length_pos_iff]
    exact fun hnil => hne (ChatMessage.encode_eq_nil_iff.mp hnil)
  · rw [MessageLite.appendToString] at hmessage
    split at hmessage
    · next hle => exact hle
    · cases hmessage

/-- **Frames have a fixed prefix and a truthful size, but for the empty message.** For every
message both encodings of which succeed: `serialize` returns what they have produced, cut after
`getFramePrefixSize()` bytes any receiver reads the exact number of the remaining bytes from the
first part, and these are the encoding of the message, if and only if the message has a field that
is set. -/
theorem Protocol.serialize_frame_iff (p : Protocol) {m : ChatMessage} {framePrefix output : Bytes}
    (hencoded : (MessageLite.framePrefix (framePrefixOf (.chatMessage m))).serializeToString
      = some framePrefix)
    (hmessage : (MessageLite.chatMessage m).appendToString framePrefix = some output) :
    ((∃ p', p.serialize (.chatMessage m) = (.ok output, p')) ∧
      p.getFramePrefixSize ≤ output.length ∧
      (∀ q : Protocol, ∃ q', q.getMessageSize (output.take p.getFramePrefixSize)
        = (.ok (output.drop p.getFramePrefixSize).length, q')) ∧
      output.drop p.getFramePrefixSize = (MessageLite.chatMessage m).encode) ↔ m ≠ {} := by
  constructor
  · rintro ⟨⟨p', hser⟩, -⟩ rfl
    rw [p.serialize_empty] at hser
    cases (Prod.mk.inj hser).1
  · intro hne
    have h := MessageLite.framable_of_append hmessage hne
    -- the two encodings put together are the frame of the message
    have hframe : output = frame (.chatMessage m) := by
      rw [h.serialize_prefix] at hencoded
      obtain rfl := Option.some.inj hencoded
      rw [h.append_message] at hmessage
      exact (Option.some.inj hmessage).symm
    have hdrop : (frame (.chatMessage m)).drop 10 = (MessageLite.chatMessage m).encode :=
      List.drop_left' h.prefix_length
    rw [hframe, p.getFramePrefixSize_eq, hdrop]
    refine ⟨⟨_, p.serialize_eq h⟩, ?_, fun q => ⟨_, q.getMessageSize_frame h⟩, rfl⟩
    rw [h.frame_length]
    omega

/-- A message with only a type: its frame has two bytes after the prefix. -/
theorem Protocol.serialize_frame_typed :
    let output : Bytes := [13, 2, 0, 0, 0, 29, 1, 0, 0, 0, 120, 5]
    (∃ p', ({} : Protocol).serialize (.chatMessage { type := 5 }) = (.ok output, p')) ∧
      ∀ q : Protocol, ∃ q', q.getMessageSize (output.take 10) = (.ok 2, q') := by
  intro output
  have hencoded : (MessageLite.framePrefix (framePrefixOf
      (.chatMessage { type := 5 }))).serializeToString = some [13, 2, 0, 0, 0, 29, 1, 0, 0, 0] := by
    decide +kernel
  have hmessage : (MessageLite.chatMessage { type := 5 }).appendToString
      [13, 2, 0, 0, 0, 29, 1, 0, 0, 0] = some output := by
    decide +kernel
  have hiff := Protocol.serialize_frame_iff {} hencoded hmessage
  obtain ⟨hser, -, hsize, -⟩ := hiff.mpr (by decide)
  exact ⟨hser, hsize⟩

/-- The empty message: both encodings succeed, and the assertion of `serialize` fails. -/
theorem Protocol.serialize_empty_fails :
    (MessageLite.framePrefix (framePrefixOf (.chatMessage {}))).serializeToString
        = some [29, 1, 0, 0, 0] ∧
      (MessageLite.chatMessage {}).appendToString [29, 1, 0, 0, 0] = some [29, 1, 0, 0, 0] ∧
      (({} : Protocol).serialize (.chatMessage {})).1
        = .error (.assertionFailed "output.size() == _PREFIX_SIZE + _serFramePrefixCache.size()") := by
  refine ⟨by decide +kernel, by decide +kernel, by decide +kernel⟩

/-! ## Several messages -/

/-- The concatenation of the outputs of `serialize` for messages that are serialized one after the
other. -/
def Protocol.serializeAll (p : Protocol) : List ChatMessage → Except Failure Bytes
  | [] => .ok []
  | m :: ms =>
    match p.serialize (.chatMessage m) with
    | (.error f, _) => .error f
    | (.ok output, p) => (p.serializeAll ms).map (output ++ ·)

/-- Messages that can be framed are serialized as the concatenation of their frames: what the object
keeps from one call does not show in the next. -/
theorem Protocol.serializeAll_eq (p : Protocol) {ms : List ChatMessage}
    (h : ∀ m ∈ ms, (MessageLite.chatMessage m).Framable) :
    p.serializeAll ms = .ok (ms.flatMap fun m => frame (.chatMessage m)) := by
  induction ms generalizing p with
  | nil => rfl
  | cons m ms ih =>
    obtain ⟨hm, hms⟩ := List.forall_mem_cons.mp h
    rw [serializeAll, p.serialize_eq hm]
    simp only
    rw [ih _ hms, List.flatMap_cons]
    rfl

/-- **A message comes back from its frame.** The cached prefix must be the one of the message. -/
theorem Protocol.deserialize_encode {p : Protocol} {m : ChatMessage} (hu : m.unknownFields = [])
    (hlen : m.text.length ≤ maxLength) (htext : ValidUtf8 m.text)
    (hcache : p.deserFramePrefixCache = framePrefixOf (.chatMessage m)) :
    p.deserialize (MessageLite.chatMessage m).encode = .ok (.chatMessage m) := by
  have htype : p.deserFramePrefixCache.type = FramePrefix.MessageType.echo.number := by
    rw [hcache, framePrefixOf]
  rw [deserialize, if_pos htype, ChatMessage.parseFromArray_encode hu hlen htext]

end Acs
