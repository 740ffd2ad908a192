import AsioClientServer.Proto.Messages
import Mathlib.Data.Nat.Digits.Lemmas

/-!
# `acs::conn::AsyncTcpClient::_decodeMessage`

The text that the blocking receive loop prints for a message. It is composed in a string stream
that has been given a heading. The stream is not opened at its end, so what is written goes over
the heading.

* `decodeMessage_lines`: the text that is left, line by line. All of the heading is written over.
* `decodeMessage_eq_iff`: the whole text, which tells the id, the kind of message and the text of the
  message.
-/

namespace Acs

/-! ## String streams -/

/-- `std::ostringstream`: the characters, and where the next ones go. -/
structure OStringStream where
  buffer : Bytes
  position : Nat := 0
  deriving DecidableEq, Repr

namespace OStringStream

/-- `operator<<`: the characters are written where the stream stands, over what is there, and the
stream moves behind them. -/
def put (s : OStringStream) (characters : Bytes) : OStringStream where
  buffer := s.buffer.take s.position ++ characters
    ++ s.buffer.drop (s.position + characters.length)
  position := s.position + characters.length

/-- `str()`: all characters, whether they have been written or were there from the start. -/
def str (s : OStringStream) : Bytes :=
  s.buffer

/-- A stream that was given a heading, after some characters have been written. As long as these are
fewer, the rest of the heading stands behind them. -/
def after (heading written : Bytes) : OStringStream where
  buffer := written ++ heading.drop written.length
  position := written.length

/-- **What is written goes over the heading.** -/
theorem put_after (heading written characters : Bytes) :
    (after heading written).put characters = after heading (written ++ characters) := by
  simp only [put, after, List.take_left, List.drop_append, List.length_append, List.drop_drop,
    List.drop_eq_nil_of_le (Nat.le_add_right _ _), Nat.add_sub_cancel_left, List.nil_append]

/-- When as many characters have been written as the heading has, nothing of it is left. -/
theorem str_after {heading written : Bytes} (h : heading.length ≤ written.length) :
    (after heading written).str = written := by
  rw [str, after, List.drop_eq_nil_of_le h, List.append_nil]

end OStringStream

/-! ## The text -/

/-- An unsigned number, as `operator<<` writes it: its decimal digits, the highest first, without
zeros in front. -/
def decimal (n : Nat) : Bytes :=
  if n = 0 then [48] else ((Nat.digits 10 n).map fun d => UInt8.ofNat (48 + d)).reverse

/-- The names the message types are printed with. Two of them have no name of their own. -/
def typeName (type : Int32) : Bytes :=
  if type = ChatMessage.MessageType.normal.number then utf8 "normal"
  else if type = ChatMessage.MessageType.urgent.number then utf8 "urgent"
  else if type = ChatMessage.MessageType.eventSetter.number then utf8 "event setter"
  else if type = ChatMessage.MessageType.eventDeleter.number then utf8 "event deleter"
  else if type = ChatMessage.MessageType.test.number then utf8 "test"
  -- also for `ECHO_REQUEST` and `ECHO_RESPONSE`
  else utf8 "unknown type"

/-- `_decodeMessage`: the id, the name of the type and the text are written to a stream that has a
heading. -/
def decodeMessage (message : ChatMessage) : Bytes :=
  let decoded : OStringStream := { buffer := utf8 "Message received:\n" }
  let decoded := ((decoded.put (utf8 "Id:   ")).put (decimal message.id.toNat)).put (utf8 "\nType: ")
  let decoded := decoded.put (typeName message.type)
  -- `std::endl` writes the last line break
  (((decoded.put [10]).put message.text).put [10]).str

/-! ## Numbers -/

section Decimal

variable {n m : Nat}

theorem digit_lt {d : Nat} (h : d ∈ Nat.digits 10 n) : d < 10 :=
  Nat.digits_lt_base (by decide) h

theorem decimal_ne_nil (n : Nat) : decimal n ≠ [] := by
  unfold decimal
  split
  · exact List.cons_ne_nil _ _
  · next hn => simpa [Nat.digits_ne_nil_iff_ne_zero] using hn

/-- A number is written without line breaks. -/
theorem newline_notMem_decimal (n : Nat) : (10 : UInt8) ∉ decimal n := by
  unfold decimal
  split
  · decide
  · intro hmem
    obtain ⟨d, hd, heq⟩ := List.mem_map.mp (List.mem_reverse.mp hmem)
    have hlt := digit_lt hd
    have hnat := congrArg UInt8.toNat heq
    rw [UInt8.toNat_ofNat'] at hnat
    simp at hnat
    omega

/-- The number that is written: the inverse of `decimal`, which the program does not have. -/
def ofDecimal (written : Bytes) : Nat :=
  Nat.ofDigits 10 (written.reverse.map fun b => b.toNat - 48)

/-- **A number is read back**, so two numbers that are written alike are the same. -/
theorem ofDecimal_decimal (n : Nat) : ofDecimal (decimal n) = n := by
  unfold decimal
  split
  · next hn => rw [hn]; decide
  · have hdigits : ((Nat.digits 10 n).map fun d => UInt8.ofNat (48 + d)).map
        (fun b => b.toNat - 48) = Nat.digits 10 n := by
      rw [List.map_map]
      conv_rhs => rw [← List.map_id (Nat.digits 10 n)]
      refine List.map_congr_left fun d hd => ?_
      have hlt := digit_lt hd
      simp only [Function.comp_apply, UInt8.toNat_ofNat', id]
      omega
    rw [ofDecimal, List.reverse_reverse, hdigits, Nat.ofDigits_digits]

end Decimal

/-! ## Lines -/

/-- The first line of a text is the part before its first line break. -/
theorem append_newline_inj {line line' rest rest' : Bytes} (h : (10 : UInt8) ∉ line)
    (h' : (10 : UInt8) ∉ line') :
    line ++ 10 :: rest = line' ++ 10 :: rest' ↔ line = line' ∧ rest = rest' := by
  constructor
  · intro heq
    have hline := congrArg (List.takeWhile (· != 10)) heq
    have hall : ∀ l : Bytes, (10 : UInt8) ∉ l → ∀ b ∈ l, (b != 10) = true := by
      intro l hl b hb
      simpa using fun hten : b = 10 => hl (hten ▸ hb)
    rw [List.takeWhile_append_of_pos (hall line h), List.takeWhile_append_of_pos (hall line' h'),
      List.takeWhile_cons_of_neg (by decide), List.takeWhile_cons_of_neg (by decide),
      List.append_nil, List.append_nil] at hline
    subst hline
    exact ⟨rfl, (List.cons.inj (List.append_cancel_left heq)).2⟩
  · rintro ⟨rfl, rfl⟩
    rfl

/-- The second label begins with the line break that ends the first line. -/
theorem utf8_typeLabel : utf8 "\nType: " = 10 :: utf8 "Type: " := by decide +kernel

/-- Every name of a type fits on a line, and the shortest has four characters. -/
theorem typeName_cases (type : Int32) :
    (10 : UInt8) ∉ typeName type ∧ 4 ≤ (typeName type).length := by
  unfold typeName
  split_ifs <;> decide +kernel

/-- The lines of the text. What is written is at least as long as the heading, even for an id of one
digit and the shortest name. -/
theorem decodeMessage_lines (message : ChatMessage) :
    decodeMessage message = (utf8 "Id:   " ++ decimal message.id.toNat) ++ 10 ::
      ((utf8 "Type: " ++ typeName message.type) ++ 10 :: (message.text ++ [10])) := by
  have hheading : ({ buffer := utf8 "Message received:\n" } : OStringStream)
      = .after (utf8 "Message received:\n") [] := rfl
  have hdigits := List.length_pos_iff.mpr (decimal_ne_nil message.id.toNat)
  have hname := (typeName_cases message.type).2
  have h18 : (utf8 "Message received:\n").length = 18 := by decide +kernel
  have h6 : (utf8 "Id:   ").length = 6 := by decide +kernel
  have h6' : (utf8 "Type: ").length = 6 := by decide +kernel
  simp only [decodeMessage, hheading, OStringStream.put_after, List.nil_append]
  rw [OStringStream.str_after, utf8_typeLabel]
  · simp only [List.append_assoc, List.cons_append, List.nil_append]
  · simp only [List.length_append, utf8_typeLabel, List.length_cons, List.length_nil, h18, h6, h6']
    omega

/-- The two labels and what follows them have no line breaks, so the first two line breaks of the
text are those that end them. -/
theorem newline_notMem_labels (message : ChatMessage) :
    (10 : UInt8) ∉ utf8 "Id:   " ++ decimal message.id.toNat ∧
      (10 : UInt8) ∉ utf8 "Type: " ++ typeName message.type := by
  constructor
  · intro hmem
    rcases List.mem_append.mp hmem with hmem | hmem
    · revert hmem
      decide +kernel
    · exact newline_notMem_decimal _ hmem
  · intro hmem
    rcases List.mem_append.mp hmem with hmem | hmem
    · revert hmem
      decide +kernel
    · exact (typeName_cases message.type).1 hmem

/-- **The text of a message is what the message says, and nothing of the heading**: the id, the name
of the type and the text, each on its line. It tells them: two messages are printed alike exactly if
they agree in the id, in the name of the type and in the text, whatever the text contains. -/
theorem decodeMessage_eq_iff (message message' : ChatMessage) :
    decodeMessage message = utf8 "Id:   " ++ decimal message.id.toNat ++ utf8 "\nType: " ++
        typeName message.type ++ [10] ++ message.text ++ [10] ∧
      (decodeMessage message = decodeMessage message' ↔
        message.id = message'.id ∧ typeName message.type = typeName message'.type ∧
          message.text = message'.text) := by
  obtain ⟨hid, htype⟩ := newline_notMem_labels message
  obtain ⟨hid', htype'⟩ := newline_notMem_labels message'
  constructor
  · rw [decodeMessage_lines, utf8_typeLabel]
    simp only [List.append_assoc, List.cons_append, List.nil_append]
  · rw [decodeMessage_lines, decodeMessage_lines, append_newline_inj hid hid',
      append_newline_inj htype htype', List.append_cancel_left_eq, List.append_cancel_left_eq,
      List.append_cancel_right_eq]
    refine and_congr_left fun _ => ⟨fun h => ?_, fun h => by rw [h]⟩
    have hnat := congrArg ofDecimal h
    rw [ofDecimal_decimal, ofDecimal_decimal] at hnat
    exact UInt32.toNat_inj.mp hnat

end Acs
