import AsioClientServer.Lib.Utf8
import AsioClientServer.Lib.Wire

/-!
# The messages of `framing.proto` and `chat.proto`

The two message types the program exchanges, with the members of the generated classes it calls.
Both are proto3: a field with its default value is not written, the fields are written in the
order of their numbers, and the unknown fields a parse has kept are written after them.

* `FramePrefix`: `fixed32 size = 1`, `fixed32 type = 3`.
* `ChatMessage`: `uint32 id = 1`, `string text = 2`, `MessageType type = 15`. The enum is open: any
  `int32` is a value of the field. A `string` is checked to be UTF-8 when it is parsed, and
  written as it is.
-/

namespace Acs

open Wire

/-! ## `framing.proto` -/

/-- `enum FramePrefix.MessageType`. `Protocol` writes `ECHO` into every prefix and accepts nothing
else. -/
inductive FramePrefix.MessageType where
  | invalid
  | echo
  | chat
  | game
  deriving DecidableEq, Repr

/-- The values of the enumeration in `framing.proto`. The field is a `fixed32`, which holds any of
them and any other number. -/
def FramePrefix.MessageType.number : FramePrefix.MessageType → UInt32
  | .invalid => 0
  | .echo => 1
  | .chat => 2
  | .game => 3

/-- `message FramePrefix`: the prefix of every message on a connection. Both fields are of fixed
width, so that a prefix has a fixed length where both of them are set. -/
structure FramePrefix where
  size : UInt32 := 0
  type : UInt32 := 0
  /-- What a parse has found and the type has no field for. -/
  unknownFields : List Token := []
  deriving DecidableEq, Repr

/-- The fields that are not their default, in the order of their numbers. Both are of fixed width,
so that the prefix has ten bytes when neither is zero. -/
def FramePrefix.tokens (m : FramePrefix) : List Token :=
  (if m.size = 0 then [] else [⟨1, .fixed32 m.size⟩]) ++
    (if m.type = 0 then [] else [⟨3, .fixed32 m.type⟩]) ++ m.unknownFields

/-- How the generated parser merges a field. One of another wire type than the field has is unknown,
like a field with another number. -/
def FramePrefix.schema : Schema FramePrefix where
  merge m t :=
    match t.number, t.value with
    | 1, .fixed32 v => .known { m with size := v }
    | 3, .fixed32 v => .known { m with type := v }
    | _, _ => .unknown
  keepUnknown m t := { m with unknownFields := m.unknownFields ++ [t] }

/-- `FramePrefix::ParseFromArray` on a cleared message; `none` when it returns `false`. -/
def FramePrefix.parseFromArray (data : Bytes) : Option FramePrefix :=
  parse FramePrefix.schema {} data

/-! ## `chat.proto` -/

/-- `enum ChatMessage.MessageType`. The echo protocol uses two of its values. -/
inductive ChatMessage.MessageType where
  | normal
  | urgent
  | eventSetter
  | eventDeleter
  | echoRequest
  | echoResponse
  | test
  deriving DecidableEq, Repr

/-- The values of the enumeration in `chat.proto`. -/
def ChatMessage.MessageType.number : ChatMessage.MessageType → Int32
  | .normal => 0
  | .urgent => 1
  | .eventSetter => 2
  | .eventDeleter => 3
  | .echoRequest => 4
  | .echoResponse => 5
  | .test => 14

/-- `message ChatMessage`: what is sent behind a prefix. The type is kept as the number it has,
since a proto3 enumeration takes numbers it has no name for. -/
structure ChatMessage where
  id : UInt32 := 0
  /-- The bytes of the text. That they are UTF-8 is a matter of the parser. -/
  text : Bytes := []
  type : Int32 := 0
  /-- What a parse has found and the type has no field for. It is written again after the fields. -/
  unknownFields : List Token := []
  deriving DecidableEq, Repr

/-- The value of an `int32` or enum field on the wire: sign-extended to 64 bits. -/
def int32ToVarint (v : Int32) : UInt64 :=
  v.toInt64.toUInt64

/-- An `int32` or enum field read from a varint: its low 32 bits. -/
def int32OfVarint (v : UInt64) : Int32 :=
  v.toUInt32.toInt32

/-- A value comes back from the wire: the bits the extension has added are the ones that are
dropped. -/
@[simp] theorem int32OfVarint_toVarint (v : Int32) : int32OfVarint (int32ToVarint v) = v := by
  apply Int32.toBitVec_inj.mp
  simp only [int32OfVarint, int32ToVarint, UInt32.toBitVec_toInt32, UInt64.toBitVec_toUInt32,
    Int64.toBitVec_toUInt64, Int32.toBitVec_toInt64]
  apply BitVec.eq_of_getElem_eq
  intro i hi
  rw [BitVec.getElem_setWidth, BitVec.getLsbD_signExtend]
  simp [hi, BitVec.getLsbD_eq_getElem, show i < 64 by omega]

/-- A value that is not negative is written as it is, without an extension. -/
theorem int32ToVarint_toNat {v : Int32} (h : v.toUInt32.toNat < 2 ^ 31) :
    (int32ToVarint v).toNat = v.toUInt32.toNat := by
  have hv : v.toUInt32.toNat = v.toBitVec.toNat := rfl
  have hmsb : v.toBitVec.msb = false := by
    rw [BitVec.msb_eq_false_iff_two_mul_lt]
    omega
  have hto : (int32ToVarint v).toNat = (v.toBitVec.signExtend 64).toNat := rfl
  rw [hto, BitVec.signExtend_eq_setWidth_of_msb_false hmsb, BitVec.toNat_setWidth]
  omega

/-- A negative value is written with ten bytes, and can be read from five. -/
theorem int32ToVarint_length_le (v : Int32) : (encodeVarint (int32ToVarint v).toNat).length
    ≤ (encodeVarint v.toUInt32.toNat).length + 5 := by
  have hlt := v.toUInt32.toNat_lt
  by_cases h : v.toUInt32.toNat < 2 ^ 31
  · rw [int32ToVarint_toNat h]
    omega
  · have hlong := (int32ToVarint v).toNat_lt
    have hten := encodeVarint_length_le (k := 10) (n := (int32ToVarint v).toNat) (by decide)
      (by omega) (by decide)
    have hfive := encodeVarint_length_succ (k := 4) (n := v.toUInt32.toNat) (by decide) (by omega)
      (by omega)
    omega

/-- The fields that are not their default, in the order of their numbers, and the unknown ones. A
reader that knows no such field therefore finds its own fields first, and in order. -/
def ChatMessage.tokens (m : ChatMessage) : List Token :=
  (if m.id = 0 then [] else [⟨1, .varint m.id.toUInt64⟩]) ++
    (if m.text = [] then [] else [⟨2, .bytes m.text⟩]) ++
    (if m.type = 0 then [] else [⟨15, .varint (int32ToVarint m.type)⟩]) ++ m.unknownFields

/-- How the generated parser merges a field. The last value of a repeated field wins; a text that is
not UTF-8 is refused and with it the message. -/
def ChatMessage.schema : Schema ChatMessage where
  merge m t :=
    match t.number, t.value with
    | 1, .varint v => .known { m with id := v.toUInt32 }
    | 2, .bytes bs => if ValidUtf8 bs then .known { m with text := bs } else .refused
    | 15, .varint v => .known { m with type := int32OfVarint v }
    | _, _ => .unknown
  keepUnknown m t := { m with unknownFields := m.unknownFields ++ [t] }

/-- `ChatMessage::ParseFromArray` on a fresh message; `none` when it returns `false`. -/
def ChatMessage.parseFromArray (data : Bytes) : Option ChatMessage :=
  parse ChatMessage.schema {} data

/-! ## `google::protobuf::MessageLite` -/

/-- A message of either generated class, behind their common base class, as `Protocol` passes it
around. -/
inductive MessageLite where
  | framePrefix (m : FramePrefix)
  | chatMessage (m : ChatMessage)
  deriving DecidableEq, Repr

/-- The tokens of the message that is behind the base class. -/
def MessageLite.tokens : MessageLite → List Token
  | .framePrefix m => m.tokens
  | .chatMessage m => m.tokens

/-- The bytes of a message. -/
def MessageLite.encode (m : MessageLite) : Bytes :=
  encodeTokens m.tokens

/-- `MessageLite::ByteSizeLong`: the number of bytes the message will be written with. -/
def MessageLite.byteSizeLong (m : MessageLite) : Nat :=
  m.encode.length

/-- `MessageLite::AppendToString`: `none` when it returns `false`, which is when the message is
larger than 2 GiB. -/
def MessageLite.appendToString (m : MessageLite) (output : Bytes) : Option Bytes :=
  if m.byteSizeLong ≤ maxLength then some (output ++ m.encode) else none

/-- `MessageLite::SerializeToString`: like `AppendToString` on a cleared string. -/
def MessageLite.serializeToString (m : MessageLite) : Option Bytes :=
  m.appendToString []

/-! ## Frame prefixes on the wire -/

/-- A frame prefix whose two fields are set takes ten bytes, whatever their values. -/
theorem FramePrefix.encode_length {size type : UInt32} (hs : size ≠ 0) (ht : type ≠ 0) :
    (MessageLite.framePrefix { size, type }).byteSizeLong = 10 := by
  have h1 : (encodeVarint 13).length = 1 := rfl
  have h2 : (encodeVarint 29).length = 1 := rfl
  simp [MessageLite.byteSizeLong, MessageLite.encode, MessageLite.tokens, FramePrefix.tokens, hs,
    ht, encodeToken, encodeValue, Value.wireType, h1, h2]

/-- **Frame prefix round trip.** It holds for every size and type, those that are not written
included: a field that is absent is read as its default. -/
theorem FramePrefix.parseFromArray_encode (size type : UInt32) :
    FramePrefix.parseFromArray (MessageLite.framePrefix { size, type }).encode
      = some { size, type } := by
  have hwf : ∀ t ∈ ({ size, type } : FramePrefix).tokens, t.WellFormed := by
    intro t ht
    simp only [FramePrefix.tokens, List.append_nil, List.mem_append] at ht
    rcases ht with ht | ht <;> split at ht <;>
      simp_all [Token.WellFormed]
  rw [FramePrefix.parseFromArray, MessageLite.encode, MessageLite.tokens,
    parse_encodeTokens hwf, FramePrefix.tokens, List.append_nil]
  -- a number that is zero is not written, and is read back as the default
  by_cases hs : size = 0
  · subst hs
    by_cases ht : type = 0
    · subst ht
      rfl
    · rw [if_pos rfl, if_neg ht, List.nil_append,
        mergeTokens_cons_known (k := { type }) [] (by simp) (by simp) rfl, mergeTokens_nil]
  · rw [if_neg hs, List.singleton_append,
      mergeTokens_cons_known (k := { size }) _ (by simp) (by simp) rfl]
    by_cases ht : type = 0
    · subst ht
      rfl
    · rw [if_neg ht,
        mergeTokens_cons_known (k := { size, type }) [] (by simp) (by simp) rfl, mergeTokens_nil]

/-- Only one field sets the size. -/
theorem FramePrefix.size_merge {m m' : FramePrefix} {t : Token}
    (h : FramePrefix.schema.merge m t = .known m') :
    m'.size = m.size ∨ ∃ v, t = ⟨1, .fixed32 v⟩ ∧ m'.size = v := by
  obtain ⟨number, value⟩ := t
  simp only [FramePrefix.schema] at h
  split at h
  · obtain rfl := Merged.known.inj h
    exact Or.inr ⟨_, rfl, rfl⟩
  · obtain rfl := Merged.known.inj h
    exact Or.inl rfl
  · cases h

/-- A size that is set takes five bytes: its tag and four bytes of the number. Whatever else the
tokens hold, they are at least as long. -/
theorem FramePrefix.five_le_of_merge {groups : List Nat} {m m' : FramePrefix} {ts : List Token}
    (h : mergeTokens FramePrefix.schema groups m ts = some m') (hm : m.size = 0)
    (hm' : m'.size ≠ 0) : 5 ≤ (encodeTokens ts).length := by
  have hle := mergeTokens_weight_le (fun m : FramePrefix => if m.size = 0 then 0 else 5) ?_ ?_ h
  · simpa [hm, hm'] using hle
  · intro k k' t hk
    rcases size_merge hk with hsame | ⟨v, rfl, -⟩
    · simp only [hsame]
      omega
    · have hfive : (encodeToken ⟨1, .fixed32 v⟩).length = 5 := by
        simp [encodeToken, encodeValue, Value.wireType, encodeVarint_of_lt]
      rw [hfive]
      split <;> omega
  · exact fun k t => Nat.le_add_right _ _

/-- **Five bytes with a size that is set are that field**: its tag and four bytes. The first token
is the field, or what is left is too short for it. -/
theorem FramePrefix.eq_of_parse_five {data : Bytes} {m : FramePrefix}
    (h : FramePrefix.parseFromArray data = some m) (hlen : data.length = 5) (hsize : m.size ≠ 0) :
    ∃ bs, data = 13 :: bs ∧ m.size = UInt32.ofNat (ofLE bs) := by
  obtain ⟨ts, hts, h⟩ := Option.bind_eq_some_iff.mp h
  obtain ⟨b, tail, rfl⟩ := List.exists_cons_of_length_pos (l := data) (by omega)
  rw [List.length_cons] at hlen
  obtain ⟨⟨t, rest⟩, ht, hts⟩ := Option.bind_eq_some_iff.mp hts
  obtain ⟨us, hus, rfl⟩ := Option.map_eq_some_iff.mp hts
  obtain ⟨r, hr, hmerge⟩ := Option.bind_eq_some_iff.mp h
  have htoken := decodeToken_length ht
  have hpos := List.length_pos_iff.mpr (encodeToken_ne_nil t)
  have htokens := decodeTokensAux_length hus
  rw [List.length_cons] at htoken
  -- five bytes are one token of a fixed number; were the size set later, there would be five more
  by_cases hset : r.2.size = 0
  · have := five_le_of_merge hmerge hset hsize
    simp only at htokens htoken
    omega
  · -- the first token has set the size
    obtain ⟨v, rfl, hv⟩ : ∃ v, t = ⟨1, .fixed32 v⟩ ∧ r.2.size = v := by
      rcases mergeToken_cases hr with hknown | hkeep
      · exact (size_merge hknown).resolve_left hset
      · rw [hkeep] at hset
        exact absurd rfl hset
    have hfive : (encodeToken ⟨1, .fixed32 v⟩).length = 5 := by
      simp [encodeToken, encodeValue, Value.wireType, encodeVarint_of_lt]
    obtain rfl : rest = [] := List.eq_nil_of_length_eq_zero (by omega)
    obtain rfl : us = [] := by
      have hnil : (encodeTokens us).length = 0 := Nat.le_zero.mp htokens
      exact encodeTokens_eq_nil_iff.mp (List.eq_nil_of_length_eq_zero hnil)
    obtain ⟨hb, hofLE⟩ := fixed32_of_decodeToken ht (by omega)
    refine ⟨tail, ?_, ?_⟩
    · have : b = 13 := UInt8.toNat_inj.mp hb
      rw [this]
    · rw [mergeTokens] at hmerge
      split at hmerge
      · obtain rfl := Option.some.inj hmerge
        rw [hv, hofLE]
      · cases hmerge

/-! ## Chat messages on the wire -/

/-- A chat message the program can build: `set_id`, `set_text` and `set_type` on a fresh
message. -/
def chatMessage (id : UInt32) (text : Bytes) (type : Int32) : ChatMessage :=
  { id, text, type }

/-- What a message is written as can be read: its tags are small, and its text is not longer than a
length can say. -/
theorem ChatMessage.tokens_wellFormed {m : ChatMessage}
    (hu : ∀ t ∈ m.unknownFields, t.WellFormed) (hlen : m.text.length ≤ maxLength) :
    ∀ t ∈ m.tokens, t.WellFormed := by
  intro t ht
  simp only [ChatMessage.tokens, List.mem_append] at ht
  rcases ht with ((ht | ht) | ht) | ht
  · split at ht <;> simp_all [Token.WellFormed]
  · split at ht <;> simp_all [Token.WellFormed]
  · split at ht <;> simp_all [Token.WellFormed]
  · exact hu t ht

/-- The text of a message is a part of what is written. -/
theorem ChatMessage.text_length_le (m : ChatMessage) :
    m.text.length ≤ (MessageLite.chatMessage m).byteSizeLong := by
  by_cases htext : m.text = []
  · simp [htext]
  · simp only [MessageLite.byteSizeLong, MessageLite.encode, MessageLite.tokens,
      ChatMessage.tokens, if_neg htext, encodeTokens_append, encodeTokens_cons, encodeToken,
      encodeValue, List.length_append]
    omega

/-- **The size of a chat message**, field by field. This is what the bounds on requests and
responses are computed from. -/
theorem ChatMessage.byteSizeLong_eq (m : ChatMessage) :
    (MessageLite.chatMessage m).byteSizeLong
      = (if m.id = 0 then 0 else 1 + (encodeVarint m.id.toNat).length) +
        (if m.text = [] then 0 else 1 + (encodeVarint m.text.length).length + m.text.length) +
        (if m.type = 0 then 0 else 1 + (encodeVarint (int32ToVarint m.type).toNat).length) +
        (encodeTokens m.unknownFields).length := by
  -- every tag has one byte, that of field 15 too
  have h1 : (encodeVarint (8 * 1 + 0)).length = 1 := rfl
  have h2 : (encodeVarint (8 * 2 + 2)).length = 1 := rfl
  have h15 : (encodeVarint (8 * 15 + 0)).length = 1 := rfl
  have hid : (encodeTokens (if m.id = 0 then [] else [⟨1, .varint m.id.toUInt64⟩])).length
      = if m.id = 0 then 0 else 1 + (encodeVarint m.id.toNat).length := by
    split
    · rfl
    · simp [encodeToken, encodeValue, Value.wireType, h1]
  have htext : (encodeTokens (if m.text = [] then [] else [⟨2, .bytes m.text⟩])).length
      = if m.text = [] then 0
        else 1 + (encodeVarint m.text.length).length + m.text.length := by
    split
    · rfl
    · simp [encodeToken, encodeValue, Value.wireType, h2]
      omega
  have htype : (encodeTokens (if m.type = 0 then []
      else [⟨15, .varint (int32ToVarint m.type)⟩])).length
      = if m.type = 0 then 0 else 1 + (encodeVarint (int32ToVarint m.type).toNat).length := by
    split
    · rfl
    · simp [encodeToken, encodeValue, Value.wireType, h15]
  simp only [MessageLite.byteSizeLong, MessageLite.encode, MessageLite.tokens, ChatMessage.tokens,
    encodeTokens_append, List.length_append, hid, htext, htype]

/-- Only the message without any field is written as nothing. -/
theorem ChatMessage.encode_eq_nil_iff {m : ChatMessage} :
    (MessageLite.chatMessage m).encode = [] ↔ m = {} := by
  obtain ⟨id, text, type, unknownFields⟩ := m
  rw [MessageLite.encode, encodeTokens_eq_nil_iff, MessageLite.tokens, ChatMessage.tokens]
  simp only [List.append_eq_nil_iff, ite_eq_left_iff, List.cons_ne_nil, imp_false, not_not,
    ChatMessage.mk.injEq, and_assoc]

/-- The tag of the first field is not the tag of a prefix. A client that reads from the middle of a
stream can tell the two apart by their first byte. -/
theorem ChatMessage.head_encode {m : ChatMessage} (hu : m.unknownFields = []) {b : UInt8}
    (hb : (MessageLite.chatMessage m).encode.head? = some b) : b ≠ 13 := by
  have h1 : encodeVarint (8 * 1 + 0) = [8] := rfl
  have h2 : encodeVarint (8 * 2 + 2) = [18] := rfl
  have h15 : encodeVarint (8 * 15 + 0) = [120] := rfl
  simp only [MessageLite.encode, MessageLite.tokens, ChatMessage.tokens, hu, List.append_nil,
    encodeTokens_append] at hb
  -- the first byte is the tag of the first field that is set
  rcases eq_or_ne m.id 0 with hid | hid
  · rw [if_pos hid, encodeTokens_nil, List.nil_append] at hb
    rcases eq_or_ne m.text [] with htext | htext
    · rw [if_pos htext, encodeTokens_nil, List.nil_append] at hb
      split at hb
      · cases hb
      · simp only [encodeTokens_cons, encodeToken, Value.wireType, h15] at hb
        obtain rfl := Option.some.inj hb
        decide
    · rw [if_neg htext] at hb
      simp only [encodeTokens_cons, encodeToken, Value.wireType, h2] at hb
      obtain rfl := Option.some.inj hb
      decide
  · rw [if_neg hid] at hb
    simp only [encodeTokens_cons, encodeToken, Value.wireType, h1] at hb
    obtain rfl := Option.some.inj hb
    decide

section Parse

variable {id : UInt32} {text : Bytes} {type : Int32}

/-- Reading the first field, which is absent when the id is 0. -/
theorem ChatMessage.merge_id (ts : List Token) :
    mergeTokens ChatMessage.schema [] {}
        ((if id = 0 then [] else [⟨1, .varint id.toUInt64⟩]) ++ ts)
      = mergeTokens ChatMessage.schema [] { id } ts := by
  split
  · next h => rw [h, List.nil_append]
  · rw [List.singleton_append,
      mergeTokens_cons_known (k := { id }) ts (by simp) (by simp) (by simp [schema])]

/-- Reading the second field, which is absent when the text is empty. Here the text has to be
UTF-8. -/
theorem ChatMessage.merge_text (htext : ValidUtf8 text) (ts : List Token) :
    mergeTokens ChatMessage.schema [] { id }
        ((if text = [] then [] else [⟨2, .bytes text⟩]) ++ ts)
      = mergeTokens ChatMessage.schema [] { id, text } ts := by
  split
  · next h => rw [h, List.nil_append]
  · rw [List.singleton_append,
      mergeTokens_cons_known (k := { id, text }) ts (by simp) (by simp)
        (by simpa [schema] using htext)]

/-- Reading the last field, which is absent when the type is `NORMAL`. -/
theorem ChatMessage.merge_type (ts : List Token) :
    mergeTokens ChatMessage.schema [] { id, text }
        ((if type = 0 then [] else [⟨15, .varint (int32ToVarint type)⟩]) ++ ts)
      = mergeTokens ChatMessage.schema [] { id, text, type } ts := by
  split
  · next h => rw [h, List.nil_append]
  · rw [List.singleton_append, mergeTokens_cons_known (k := { id, text, type }) ts (by simp)
      (by simp) (by simp [schema])]

/-- Tokens that every message keeps when they are merged into it. -/
structure ChatMessage.Kept (us : List Token) : Prop where
  /-- They can be read back from what is written of them. -/
  wellFormed : ∀ t ∈ us, t.WellFormed
  /-- None of them is a field, and no group is left open. -/
  merge : ∀ m : ChatMessage, mergeTokens ChatMessage.schema [] m us
    = some { m with unknownFields := m.unknownFields ++ us }

theorem ChatMessage.kept_nil : ChatMessage.Kept [] := by
  refine ⟨by simp, fun m => ?_⟩
  rw [mergeTokens_nil, List.append_nil]

/-- **Chat message round trip.** A message whose text is UTF-8 is parsed back from what is written
of it, with the unknown fields it has. -/
theorem ChatMessage.parseFromArray_encode_kept {m : ChatMessage}
    (hu : ChatMessage.Kept m.unknownFields) (hlen : m.text.length ≤ maxLength)
    (htext : ValidUtf8 m.text) :
    ChatMessage.parseFromArray (MessageLite.chatMessage m).encode = some m := by
  rw [ChatMessage.parseFromArray, MessageLite.encode, MessageLite.tokens,
    parse_encodeTokens (ChatMessage.tokens_wellFormed hu.wellFormed hlen)]
  obtain ⟨id, text, type, unknownFields⟩ := m
  rw [ChatMessage.tokens, List.append_assoc, List.append_assoc, merge_id, merge_text htext,
    merge_type, hu.merge]
  rfl

/-- The round trip for a message the program has built, which has no unknown fields. The text has to
be UTF-8, for the parser of a `string` field checks that and the writer does not. -/
theorem ChatMessage.parseFromArray_encode {m : ChatMessage} (hu : m.unknownFields = [])
    (hlen : m.text.length ≤ maxLength) (htext : ValidUtf8 m.text) :
    ChatMessage.parseFromArray (MessageLite.chatMessage m).encode = some m :=
  ChatMessage.parseFromArray_encode_kept (hu ▸ ChatMessage.kept_nil) hlen htext

/-- **A text that is not UTF-8 is written, and refused by whoever reads it.** The writer does not
check what the parser checks. -/
theorem ChatMessage.parseFromArray_encode_of_not_utf8 {m : ChatMessage}
    (hu : m.unknownFields = []) (hlen : m.text.length ≤ maxLength) (htext : ¬ ValidUtf8 m.text) :
    ChatMessage.parseFromArray (MessageLite.chatMessage m).encode = none := by
  rw [ChatMessage.parseFromArray, MessageLite.encode, MessageLite.tokens,
    parse_encodeTokens (ChatMessage.tokens_wellFormed (by simp [hu]) hlen)]
  obtain ⟨id, text, type, unknownFields⟩ := m
  subst hu
  have hne : text ≠ [] := by
    rintro rfl
    exact htext validUtf8_nil
  rw [ChatMessage.tokens, List.append_nil, List.append_assoc, merge_id, if_neg hne,
    List.singleton_append,
    mergeTokens_cons_refused _ (by simp) (by simp) (by simpa [schema] using htext)]

/-! ## Parsed messages -/

/-- Whether a field is known depends on its number and its wire type alone. -/
theorem ChatMessage.schema_uniform : ChatMessage.schema.Uniform := by
  rintro m k ⟨number, value⟩ h
  simp only [ChatMessage.schema] at h ⊢
  split at h
  · cases h
  · split at h <;> cases h
  · cases h
  · rfl

/-- A field that is known leaves the unknown ones as they are. -/
theorem ChatMessage.merge_unknownFields {m m' : ChatMessage} {t : Token}
    (h : ChatMessage.schema.merge m t = .known m') : m'.unknownFields = m.unknownFields := by
  simp only [ChatMessage.schema] at h
  split at h
  · obtain rfl := Merged.known.inj h
    rfl
  · split at h
    · obtain rfl := Merged.known.inj h
      rfl
    · cases h
  · obtain rfl := Merged.known.inj h
    rfl
  · cases h

/-- Tokens that are kept one after the other stand in that order. -/
theorem ChatMessage.foldl_keepUnknown (us : List Token) (m : ChatMessage) :
    us.foldl ChatMessage.schema.keepUnknown m
      = { m with unknownFields := m.unknownFields ++ us } := by
  induction us generalizing m with
  | nil => rw [List.foldl_nil, List.append_nil]
  | cons t us ih =>
    rw [List.foldl_cons, ih]
    simp only [ChatMessage.schema, List.append_assoc, List.singleton_append]

/-- **The unknown fields of a message that was parsed** are kept again when they are read again.
Whatever a peer puts into a message, its response can be parsed. -/
theorem ChatMessage.kept_of_parse {data : Bytes} {m : ChatMessage}
    (h : ChatMessage.parseFromArray data = some m) : ChatMessage.Kept m.unknownFields := by
  obtain ⟨ts, hts, h⟩ := Option.bind_eq_some_iff.mp h
  obtain ⟨us, hus, hmem, hagain⟩ := mergeTokens_kept schema_uniform ChatMessage.unknownFields
    (fun _ _ _ => merge_unknownFields) (fun _ _ => rfl) h
  obtain rfl : m.unknownFields = us := hus
  refine ⟨fun t ht => wellFormed_of_decodeTokensAux hts t (hmem t ht), fun k => ?_⟩
  rw [hagain, foldl_keepUnknown]

/-- **A message that was parsed has a text that is UTF-8**, so what the server echoes is text. A
client that gets the echo parses it again, and would throw for a text that is not. -/
theorem ChatMessage.validUtf8_of_parse {data : Bytes} {m : ChatMessage}
    (h : ChatMessage.parseFromArray data = some m) : ValidUtf8 m.text := by
  obtain ⟨ts, -, h⟩ := Option.bind_eq_some_iff.mp h
  refine mergeTokens_invariant (P := fun m : ChatMessage => ValidUtf8 m.text) ?_
    (fun _ _ hm => hm) validUtf8_nil h
  intro m m' t hm hmerge
  simp only [ChatMessage.schema] at hmerge
  split at hmerge
  · obtain rfl := Merged.known.inj hmerge
    exact hm
  · split at hmerge
    · next htext =>
      obtain rfl := Merged.known.inj hmerge
      exact htext
    · cases hmerge
  · obtain rfl := Merged.known.inj hmerge
    exact hm
  · cases hmerge

/-- What the program gets of a message that was parsed: all of it, or all but the unknown fields.
`parse` keeps these, as the releases of proto3 since 3.5 do; the older ones drop them. The program
cannot look at them, but it writes them again. -/
inductive ChatMessage.Retained (m : ChatMessage) : ChatMessage → Prop
  | kept : Retained m m
  | dropped : Retained m { m with unknownFields := [] }

/-- Either way the program finds the same id, text and type. Hence nothing the handlers look at
depends on the choice. -/
theorem ChatMessage.Retained.fields_eq {m received : ChatMessage} (h : m.Retained received) :
    received.id = m.id ∧ received.text = m.text ∧ received.type = m.type := by
  cases h with
  | kept => exact ⟨rfl, rfl, rfl⟩
  | dropped => exact ⟨rfl, rfl, rfl⟩

/-- Whatever is retained of unknown fields that are read back is read back. -/
theorem ChatMessage.Retained.kept_unknownFields {m received : ChatMessage}
    (h : m.Retained received) (hkept : ChatMessage.Kept m.unknownFields) :
    ChatMessage.Kept received.unknownFields := by
  cases h with
  | kept => exact hkept
  | dropped => exact ChatMessage.kept_nil

/-- Field 3 is not a field of a chat message, and is kept. -/
theorem ChatMessage.unknownFields_ne_nil_of_parse {bs : Bytes} {m : ChatMessage}
    (h : ChatMessage.parseFromArray (29 :: bs) = some m) : m.unknownFields ≠ [] := by
  obtain ⟨ts, hts, h⟩ := Option.bind_eq_some_iff.mp h
  obtain ⟨⟨t, rest⟩, ht, hts⟩ := Option.bind_eq_some_iff.mp hts
  obtain ⟨us, -, rfl⟩ := Option.map_eq_some_iff.mp hts
  obtain ⟨r, hr, hmerge⟩ := Option.bind_eq_some_iff.mp h
  -- the byte 29 is the tag of a fixed number in field 3
  obtain ⟨v, rfl⟩ : ∃ v, t = ⟨3, .fixed32 v⟩ := by
    have hvarint : decodeVarint 5 (29 :: bs) = some (29, bs) := rfl
    rw [decodeToken, hvarint, Option.bind_some] at ht
    simp only [Nat.reducePow, Nat.reduceMod, Nat.reduceDiv, decodeValue] at ht
    split at ht
    · cases ht
    · split at ht
      · obtain ⟨rfl, -⟩ := Prod.mk.inj (Option.some.inj ht)
        exact ⟨_, rfl⟩
      · cases ht
  obtain rfl : ([], ({ unknownFields := [⟨3, .fixed32 v⟩] } : ChatMessage)) = r :=
    Option.some.inj hr
  -- and what has been kept once is kept
  refine mergeTokens_invariant (P := fun m : ChatMessage => m.unknownFields ≠ []) ?_ ?_ ?_ hmerge
  · intro k k' t hk hknown
    rw [ChatMessage.merge_unknownFields hknown]
    exact hk
  · intro k t hk
    simp [ChatMessage.schema, hk]
  · simp

end Parse

/-! ## The weight of a chat message

How much of the bytes it was parsed from a message can account for, whatever their form: fields in
any order or repeated, over-long varints, unknown fields. A type can be longer when it is written
again than it was, so it counts for what `typeSize` says. -/

/-- The bytes the fields account for when they are written, with `typeSize` for the type. -/
def ChatMessage.weight (typeSize : Int32 → Nat) (m : ChatMessage) : Nat :=
  (encodeTokens (if m.id = 0 then [] else [⟨1, .varint m.id.toUInt64⟩])).length +
    (encodeTokens (if m.text = [] then [] else [⟨2, .bytes m.text⟩])).length +
    typeSize m.type + (encodeTokens m.unknownFields).length

section Weight

variable {typeSize : Int32 → Nat}

/-- A field that is read adds no more than the bytes it was read from. The id loses the bits above
32, and a field that is set again replaces the value before it. -/
theorem ChatMessage.weight_merge
    (htype : ∀ v, typeSize (int32OfVarint v) ≤ (encodeToken ⟨15, .varint v⟩).length)
    {m m' : ChatMessage} {t : Token} (h : ChatMessage.schema.merge m t = .known m') :
    m'.weight typeSize ≤ m.weight typeSize + (encodeToken t).length := by
  obtain ⟨number, value⟩ := t
  simp only [ChatMessage.schema] at h
  -- a field takes the place of its old value, so the message grows by the new value at most
  split at h
  · next number value v =>
    obtain rfl := Merged.known.inj h
    have hmono : (encodeVarint v.toUInt32.toUInt64.toNat).length ≤ (encodeVarint v.toNat).length := by
      apply encodeVarint_length_mono
      simp only [UInt32.toNat_toUInt64, UInt64.toNat_toUInt32]
      exact Nat.mod_le _ _
    have hid : (encodeTokens (if v.toUInt32 = 0 then []
        else [⟨1, .varint v.toUInt32.toUInt64⟩])).length
        ≤ (encodeToken ⟨1, .varint v⟩).length := by
      split
      · simp
      · simp only [encodeTokens_cons, encodeTokens_nil, List.append_nil, encodeToken, encodeValue,
          List.length_append, Value.wireType]
        omega
    simp only [weight]
    omega
  · next number value bs =>
    split at h
    · obtain rfl := Merged.known.inj h
      have htext : (encodeTokens (if bs = [] then [] else [⟨2, .bytes bs⟩])).length
          ≤ (encodeToken ⟨2, .bytes bs⟩).length := by
        split <;> simp
      simp only [weight]
      omega
    · cases h
  · next number value v =>
    obtain rfl := Merged.known.inj h
    have hle := htype v
    simp only [weight]
    omega
  · cases h

/-- A token that is kept adds the bytes it is written with. -/
theorem ChatMessage.weight_keepUnknown (m : ChatMessage) (t : Token) :
    (ChatMessage.schema.keepUnknown m t).weight typeSize
      ≤ m.weight typeSize + (encodeToken t).length := by
  have hunknown : (encodeTokens (m.unknownFields ++ [t])).length
      = (encodeTokens m.unknownFields).length + (encodeToken t).length := by
    rw [encodeTokens_append, List.length_append, encodeTokens_cons, encodeTokens_nil,
      List.append_nil]
  have hkeep : (ChatMessage.schema.keepUnknown m t).weight typeSize
      = { m with unknownFields := m.unknownFields ++ [t] }.weight typeSize := rfl
  rw [hkeep]
  simp only [weight, hunknown]
  omega

/-- **A parsed message accounts for no more than the bytes it was parsed from.** The writer uses the
shortest form of everything, and a field that was given twice is written once. -/
theorem ChatMessage.weight_le_of_parse
    (htype : ∀ v, typeSize (int32OfVarint v) ≤ (encodeToken ⟨15, .varint v⟩).length)
    (hzero : typeSize 0 = 0) {data : Bytes} {m : ChatMessage}
    (hparse : ChatMessage.parseFromArray data = some m) : m.weight typeSize ≤ data.length := by
  have hle := parse_weight_le (weight typeSize) (fun _ _ _ h => weight_merge htype h)
    weight_keepUnknown hparse
  have hempty : ({} : ChatMessage).weight typeSize = 0 := by
    simp [weight, hzero]
  omega

/-- What is dropped weighs nothing. -/
theorem ChatMessage.Retained.weight_le {m received : ChatMessage} (h : m.Retained received) :
    received.weight typeSize ≤ m.weight typeSize := by
  cases h with
  | kept => exact Nat.le_refl _
  | dropped =>
    simp only [weight, encodeTokens_nil, List.length_nil]
    omega

/-- **A message is written with at most five bytes more than it was parsed from**, in whatever form
it was encoded. -/
theorem ChatMessage.byteSizeLong_le_of_parse {data : Bytes} {m : ChatMessage}
    (hparse : ChatMessage.parseFromArray data = some m) :
    (MessageLite.chatMessage m).byteSizeLong ≤ data.length + 5 := by
  have h15 : (encodeVarint (8 * 15 + 0)).length = 1 := rfl
  let typeSize : Int32 → Nat := fun type =>
    if type = 0 then 0 else 1 + (encodeVarint type.toUInt32.toNat).length
  have hread : ∀ v, typeSize (int32OfVarint v) ≤ (encodeToken ⟨15, .varint v⟩).length := by
    intro v
    -- reading drops the bits above 32
    have hmono : (encodeVarint v.toUInt32.toNat).length ≤ (encodeVarint v.toNat).length := by
      apply encodeVarint_length_mono
      rw [UInt64.toNat_toUInt32]
      exact Nat.mod_le _ _
    have hv : (int32OfVarint v).toUInt32 = v.toUInt32 := by simp [int32OfVarint]
    simp only [typeSize, hv, encodeToken, encodeValue, List.length_append, Value.wireType, h15]
    split <;> omega
  have hweight := weight_le_of_parse hread rfl hparse
  have htype : (encodeTokens (if m.type = 0 then []
      else [⟨15, .varint (int32ToVarint m.type)⟩])).length
      ≤ typeSize m.type + 5 := by
    have hlong := int32ToVarint_length_le m.type
    simp only [typeSize]
    split
    · simp
    · simp only [encodeTokens_cons, encodeTokens_nil, List.append_nil, encodeToken, encodeValue,
        List.length_append, Value.wireType, h15]
      omega
  simp only [weight] at hweight
  simp only [MessageLite.byteSizeLong, MessageLite.encode, MessageLite.tokens, ChatMessage.tokens,
    encodeTokens_append, List.length_append]
  omega

end Weight

end Acs
