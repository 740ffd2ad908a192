import AsioClientServer.Conn.FramedRead

/-!
# Messages from one end to the other

One direction of a connection: a sender that has one buffer and at most one write of it in
progress, the bytes on their way, and a receiver in the framed read loop. Whoever owns the two
ends, an event of either keeps the link (`Link.start`, `Link.transfer`, `Link.finish`,
`Link.received`), and a read that completes at the receiver hands out the next message
(`Link.completed`). When nothing is under way any more, all of them have been handed out
(`Link.delivered_eq`).
-/

namespace Acs

open AsyncReader

/-- The sender has started the frames of `messages` one after the other, and still has the last one
in its buffer while it writes it; the receiver has handed out the first `delivered` of them. -/
inductive Link (messages : List ChatMessage) (buffer : Bytes) (writes : List Asio.WriteOp)
    (channel : Bytes) (reader : AsyncReader Unit Unit) (protocol : Protocol) (delivered : Nat) :
    Prop
  | intro {stream read : Bytes} {frames : List Frame}
      (hmessages : ∀ m ∈ messages, m.Deliverable)
      (hwritten : Asio.Written buffer writes (messages.map fun m => frame (.chatMessage m)) stream)
      (hstream : stream = read ++ channel)
      (hphase : FramedPhase maxReadBufferSizeBytes () () reader protocol frames read)
      (hdelivered : frames.length = delivered)

namespace Link

variable {messages : List ChatMessage} {buffer channel : Bytes} {writes : List Asio.WriteOp}
  {reader : AsyncReader Unit Unit} {protocol : Protocol} {delivered : Nat}

/-- The frames the receiver finds are the frames the sender makes. They are complete ones, and the
first of them. -/
theorem frames_isPrefix {stream read : Bytes} {frames : List Frame}
    (hmessages : ∀ m ∈ messages, m.Deliverable)
    (hwritten : Asio.Written buffer writes (messages.map fun m => frame (.chatMessage m)) stream)
    (hstream : stream = read ++ channel)
    (hphase : FramedPhase maxReadBufferSizeBytes () () reader protocol frames read) :
    frames <+: messages.map frameOf := by
  obtain ⟨rest, hrest⟩ := hwritten.prefix
  have hall : (messages.flatMap fun m => frame (.chatMessage m)) = read ++ (channel ++ rest) := by
    rw [List.flatMap_def, ← hrest, hstream, List.append_assoc]
  have hparse := hphase.prefix_parseFrames hall
  rwa [parseFrames_deliverable hmessages] at hparse

/-- Every message of the link can be delivered. -/
theorem deliverable (h : Link messages buffer writes channel reader protocol delivered) :
    ∀ m ∈ messages, m.Deliverable := by
  obtain ⟨hmessages, -⟩ := h
  exact hmessages

/-- Serializing through the receiver's protocol object does not disturb the link. -/
theorem protocol_congr {protocol' : Protocol}
    (h : Link messages buffer writes channel reader protocol delivered)
    (hcache : protocol'.deserFramePrefixCache = protocol.deserFramePrefixCache) :
    Link messages buffer writes channel reader protocol' delivered := by
  obtain ⟨hmessages, hwritten, hstream, hphase, hdelivered⟩ := h
  exact ⟨hmessages, hwritten, hstream, hphase.protocol_congr hcache, hdelivered⟩

/-! ## The sender -/

/-- The sender starts the next message. It is idle, so all before it have been put on their way. -/
theorem start (h : Link messages buffer [] channel reader protocol delivered) {m : ChatMessage}
    (hm : m.Deliverable) :
    Link (messages ++ [m]) (frame (.chatMessage m)) [⟨(frame (.chatMessage m)).length, 0⟩] channel
      reader protocol delivered := by
  obtain ⟨hmessages, hwritten, hstream, hphase, hdelivered⟩ := h
  refine ⟨?_, ?_, hstream, hphase, hdelivered⟩
  · exact List.forall_mem_append.mpr ⟨hmessages, List.forall_mem_singleton.mpr hm⟩
  · rw [List.map_append, List.map_singleton]
    exact hwritten.start _

/-- Bytes leave the buffer of the sender and are on their way. -/
theorem transfer {i n : Nat} {piece : Bytes} {writes' : List Asio.WriteOp}
    (h : Link messages buffer writes channel reader protocol delivered)
    (ht : Asio.transfer buffer writes i n = some (piece, writes')) :
    Link messages buffer writes' (channel ++ piece) reader protocol delivered ∧ writes' ≠ [] := by
  obtain ⟨hmessages, hwritten, hstream, hphase, hdelivered⟩ := h
  obtain ⟨hwritten', hne⟩ := hwritten.transfer ht
  refine ⟨⟨hmessages, hwritten', ?_, hphase, hdelivered⟩, hne⟩
  rw [hstream, List.append_assoc]

/-- The write of the sender has completed. Nothing else changes. -/
theorem finish {i : Nat} {writes' : List Asio.WriteOp}
    (h : Link messages buffer writes channel reader protocol delivered)
    (hf : Asio.finish writes i = some writes') :
    writes' = [] ∧ Link messages buffer writes' channel reader protocol delivered := by
  obtain ⟨hmessages, hwritten, hstream, hphase, hdelivered⟩ := h
  obtain ⟨hnil, hwritten'⟩ := hwritten.finish hf buffer
  exact ⟨hnil, hmessages, hwritten', hstream, hphase, hdelivered⟩

/-! ## The receiver -/

/-- Bytes that were on their way arrive, the oldest first, and the receiver keeps them. -/
theorem received {piece rest : Bytes} {res : HandlerResult Unit Unit}
    (h : Link messages buffer writes channel reader protocol delivered)
    (hchannel : channel = piece ++ rest)
    (hr : reader.onEvent protocol (.received piece) = some res) :
    res.exit = .returned ∧ res.protocol = protocol ∧
      Link messages buffer writes rest res.reader protocol delivered := by
  obtain ⟨hmessages, hwritten, hstream, hphase, hdelivered⟩ := h
  obtain ⟨hexit, hprotocol, hphase', -⟩ := hphase.received hr
  refine ⟨hexit, hprotocol, hmessages, hwritten, ?_, hphase', hdelivered⟩
  rw [hstream, hchannel, List.append_assoc]

/-- **A read that completes at the receiver** schedules the read of a payload, or hands out the
next message, with its prefix in the cache. -/
theorem completed {res : HandlerResult Unit Unit}
    (h : Link messages buffer writes channel reader protocol delivered)
    (hr : reader.onEvent protocol .completed = some res) :
    (∃ op, reader.outstanding = [⟨op, .handleReadProtoFramePrefixFinished true⟩] ∧
        res.exit = .returned ∧
        Link messages buffer writes channel res.reader res.protocol delivered) ∨
      ∃ m op, messages[delivered]? = some m ∧
        reader.outstanding = [⟨op, .handleReadProtoMessageFinished true⟩] ∧
        reader.readBuffer = (MessageLite.chatMessage m).encode ∧
        res.exit = .calls () (MessageLite.chatMessage m).encode false ∧ res.protocol = protocol ∧
        protocol.deserFramePrefixCache = framePrefixOf (.chatMessage m) ∧
        Link messages buffer writes channel res.reader protocol (delivered + 1) := by
  obtain @⟨stream, read, frames, hmessages, hwritten, hstream, hphase, hdelivered⟩ := h
  obtain ⟨after, hafter⟩ := hwritten.prefix
  have hall : (messages.flatMap fun m => frame (.chatMessage m))
      = read ++ (channel ++ after) := by
    rw [List.flatMap_def, ← hafter, hstream, List.append_assoc]
  have hparse := parseFrames_deliverable hmessages
  cases hphase.completed (by decide) hr with
  | scheduled hout _ _ hexit hphase' =>
    exact Or.inl ⟨_, hout, hexit, hmessages, hwritten, hstream, hphase', hdelivered⟩
  -- the frame that was found is the next one of the messages, for the stream begins with their
  -- frames
  | @delivered op hout hexit hprotocol _ hphase' =>
    obtain ⟨rest, hrest⟩ := frames_isPrefix hmessages hwritten hstream hphase'
    have hget := congrArg (·[delivered]?) hrest
    simp only [List.append_assoc, List.singleton_append, ← hdelivered,
      List.getElem?_append_right (Nat.le_refl _), Nat.sub_self, List.getElem?_cons_zero,
      List.getElem?_map] at hget
    obtain ⟨m, hm, hframe⟩ := Option.map_eq_some_iff.mp hget.symm
    obtain ⟨hcache, hpayload⟩ := Frame.mk.inj hframe
    refine Or.inr ⟨m, op, hdelivered ▸ hm, hout, hpayload.symm, hpayload ▸ hexit, hprotocol, hcache.symm,
      hmessages, hwritten, hstream, hphase', ?_⟩
    rw [List.length_append, hdelivered]
    rfl
  -- the parser reads the frames of the messages to the end, so it does not stop at a prefix
  | badPrefix _ _ hframes hread hpre hbad =>
    have hstop := parseFrames_append hframes (reader.readBuffer ++ (channel ++ after))
    rw [parseFrames_badPrefix hpre hbad, ← List.append_assoc, ← hread, ← hall, hparse] at hstop
    cases (Prod.mk.inj hstop).2
  | tooLong _ _ hframes hread hpre hlong hmax =>
    have hstop := parseFrames_append hframes (reader.readBuffer ++ (channel ++ after))
    rw [parseFrames_tooLong hpre hlong hmax, ← List.append_assoc, ← hread, ← hall, hparse] at hstop
    cases (Prod.mk.inj hstop).2

/-! ## Towards the end of a direction -/

/-- A receiver that takes bytes gets heavier by two for each, which pays for the two handlers they
may run. -/
theorem weight_received {piece : Bytes} {res : HandlerResult Unit Unit}
    (h : Link messages buffer writes channel reader protocol delivered)
    (hr : reader.onEvent protocol (.received piece) = some res) :
    0 < piece.length ∧ res.reader.weight = reader.weight + 2 * piece.length := by
  obtain ⟨-, -, -, hphase, -⟩ := h
  obtain ⟨op, handler, hout⟩ := hphase.outstanding
  obtain ⟨-, hpos, -, -⟩ := (onEvent_received_iff hout).mp hr
  obtain ⟨-, -, -, hweight⟩ := hphase.received hr
  exact ⟨hpos, hweight⟩

/-- A handler makes the receiver lighter; one that hands out a message uses up all it held. This is
what makes runs of a whole system end. -/
theorem weight_completed {res : HandlerResult Unit Unit}
    (h : Link messages buffer writes channel reader protocol delivered)
    (hr : reader.onEvent protocol .completed = some res) :
    res.reader.weight < reader.weight ∧
      ∀ data once, res.exit = .calls () data once →
        reader.weight = 2 * data.length + 1 ∧ res.reader.weight = 0 := by
  have hreturns : ∀ f, res.exit ≠ .threw f := by
    intro f hexit
    rcases h.completed hr with ⟨_, -, hreturned, -⟩ | ⟨_, _, -, -, -, hcalls, -⟩
    · rw [hexit] at hreturned
      cases hreturned
    · rw [hexit] at hcalls
      cases hcalls
  obtain ⟨-, -, -, hphase, -⟩ := h
  refine ⟨?_, fun data once hexit => hphase.weight_delivered (by decide) hr hexit⟩
  cases hphase.completed (by decide) hr with
  | scheduled _ _ _ _ _ hweight => exact hweight
  | delivered _ _ _ _ _ hweight => exact hweight
  | badPrefix _ hexit => exact absurd hexit (hreturns _)
  | tooLong _ hexit => exact absurd hexit (hreturns _)

/-- A receiver completes a read or takes the next byte: the loop does not hang on its own. What it
waits for is on its way, or has not been sent. -/
theorem progress (h : Link messages buffer writes channel reader protocol delivered) :
    (∃ res, reader.onEvent protocol .completed = some res) ∨
      ∀ b, ∃ res, reader.onEvent protocol (.received [b]) = some res := by
  obtain ⟨-, -, -, hphase, -⟩ := h
  rcases hphase.progress with hcompleted | ⟨hreceived, -⟩
  · exact Or.inl hcompleted
  · exact Or.inr hreceived

/-- A write of the sender can go on: it has bytes to transfer, or its handler can run. -/
theorem progress_write (h : Link messages buffer writes channel reader protocol delivered)
    (hne : writes ≠ []) :
    (∃ i t, Asio.transfer buffer writes i 1 = some t) ∨
      ∃ i writes', Asio.finish writes i = some writes' := by
  obtain ⟨-, hwritten, -, -, -⟩ := h
  cases hwritten with
  | idle hwrites => exact absurd hwrites hne
  | writing hwrites hle =>
    rw [hwrites]
    exact Asio.progress (List.mem_singleton_self _) hle buffer

/-- **When nothing is under way, everything has been delivered**: no write, no byte on its way, and
a receiver that waits for more. -/
theorem delivered_eq (h : Link messages buffer [] [] reader protocol delivered)
    (hwaits : reader.onEvent protocol .completed = none) : delivered = messages.length := by
  obtain @⟨stream, read, frames, hmessages, hwritten, hstream, hphase, hdelivered⟩ := h
  have hall : (messages.flatMap fun m => frame (.chatMessage m)) = read ++ [] := by
    rw [List.flatMap_def, ← hwritten.eq_flatten, hstream]
  have hparse := parseFrames_deliverable hmessages
  rw [hall, List.append_nil] at hparse
  -- a receiver that waits would take the end of the stream
  rcases hphase.progress with ⟨res, hres⟩ | ⟨-, hfails⟩
  · rw [hwaits] at hres
    cases hres
  · obtain ⟨res, hres⟩ := hfails .eof
    obtain ⟨-, hframes⟩ := hphase.failed hres
    rw [hframes] at hparse
    have hframes := congrArg (fun parsed => parsed.1.length) hparse
    rw [List.length_map] at hframes
    rw [← hdelivered, ← hframes]

end Link

end Acs
