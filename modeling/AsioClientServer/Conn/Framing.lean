import AsioClientServer.Conn.AsyncReader

/-!
# Frames of a byte stream

What the framed read loop of `AsyncReader` is for: it cuts a stream into frames, each a prefix of
ten bytes and a payload of the size the prefix gives. `parseFrames` says so in one recursion on
the whole stream. The loop does it with two composed reads per frame that schedule one another
and share one buffer.

* `FramesOf M bytes frames`: `bytes` is exactly a sequence of complete frames.
  `parseFrames_append` lets the parser skip them.
* `FramedPhase`: the reader stands between two handlers of the loop, in one of its two phases,
  after some frames and some bytes. It is what every event of the reader preserves
  (`FramedPhase.received`, `FramedPhase.completed`), and it says why the loop stops
  (`FramedPhase.failed`).
-/

namespace Acs

open AsyncReader

/-! ## The batch parser -/

/-- A prefix, as it was parsed, and the bytes behind it. It is what one turn of the framed loop
reads. -/
structure Frame where
  framePrefix : FramePrefix
  payload : Bytes
  deriving DecidableEq, Repr

/-- Cut a stream that ends into frames, and say why that stops: fewer bytes are left than a frame
has, or a prefix is wrong, or it is too large for the reader. -/
def parseFrames (maxSize : Nat) (stream : Bytes) : List Frame × Failure :=
  if stream.length < 10 then ([], .systemError .eof)
  else
    match FramePrefix.parseFromArray (stream.take 10) with
    | none => ([], .runtimeError "Wrong frame prefix format. Parse failed")
    | some framePrefix =>
      let size := framePrefix.size.toNat
      if maxSize < size then ([], .lengthError "Message size exceeds max read buffer size")
      else if (stream.drop 10).length < size then ([], .systemError .eof)
      else
        let rest := parseFrames maxSize (stream.drop (10 + size))
        (⟨framePrefix, (stream.drop 10).take size⟩ :: rest.1, rest.2)
termination_by stream.length
decreasing_by
  rw [List.length_drop]
  omega

section Parser

variable {maxSize : Nat} {pre payload rest : Bytes} {framePrefix : FramePrefix}

/-- Fewer than ten bytes are no prefix: the stream has ended there. -/
theorem parseFrames_of_lt (h : rest.length < 10) :
    parseFrames maxSize rest = ([], .systemError .eof) := by
  rw [parseFrames, if_pos h]

/-- Ten bytes that are no prefix stop the parser, whatever comes after them. -/
theorem parseFrames_badPrefix (hpre : pre.length = 10)
    (hparse : FramePrefix.parseFromArray pre = none) :
    parseFrames maxSize (pre ++ rest)
      = ([], .runtimeError "Wrong frame prefix format. Parse failed") := by
  have hlen : ¬ (pre ++ rest).length < 10 := by
    rw [List.length_append]
    omega
  rw [parseFrames, if_neg hlen, List.take_left' hpre, hparse]

/-- A prefix with a size beyond the limit stops the parser, whatever comes after it. -/
theorem parseFrames_tooLong (hpre : pre.length = 10)
    (hparse : FramePrefix.parseFromArray pre = some framePrefix)
    (hmax : maxSize < framePrefix.size.toNat) :
    parseFrames maxSize (pre ++ rest)
      = ([], .lengthError "Message size exceeds max read buffer size") := by
  have hlen : ¬ (pre ++ rest).length < 10 := by
    rw [List.length_append]
    omega
  rw [parseFrames, if_neg hlen, List.take_left' hpre, hparse]
  simp only
  rw [if_pos hmax]

/-- A payload that the stream ends in is not a frame. The reader waits for the rest of it, and gets
the end of the stream. -/
theorem parseFrames_cutOff (hpre : pre.length = 10)
    (hparse : FramePrefix.parseFromArray pre = some framePrefix)
    (hmax : framePrefix.size.toNat ≤ maxSize) (hrest : rest.length < framePrefix.size.toNat) :
    parseFrames maxSize (pre ++ rest) = ([], .systemError .eof) := by
  have hlen : ¬ (pre ++ rest).length < 10 := by
    rw [List.length_append]
    omega
  rw [parseFrames, if_neg hlen, List.take_left' hpre, hparse]
  simp only
  rw [if_neg (by omega), List.drop_left' hpre, if_pos hrest]

/-- A complete frame is taken off the front, and the parser goes on behind it. -/
theorem parseFrames_frame (hpre : pre.length = 10)
    (hparse : FramePrefix.parseFromArray pre = some framePrefix)
    (hsize : payload.length = framePrefix.size.toNat) (hmax : framePrefix.size.toNat ≤ maxSize) :
    parseFrames maxSize (pre ++ payload ++ rest)
      = (⟨framePrefix, payload⟩ :: (parseFrames maxSize rest).1,
          (parseFrames maxSize rest).2) := by
  have hlen : ¬ (pre ++ payload ++ rest).length < 10 := by
    rw [List.length_append, List.length_append]
    omega
  have htake : (pre ++ payload ++ rest).take 10 = pre := by
    rw [List.append_assoc, List.take_left' hpre]
  have hdrop : (pre ++ payload ++ rest).drop 10 = payload ++ rest := by
    rw [List.append_assoc, List.drop_left' hpre]
  have hdrop' : (pre ++ payload ++ rest).drop (10 + framePrefix.size.toNat) = rest := by
    rw [← List.drop_drop, hdrop, List.drop_left' hsize]
  rw [parseFrames, if_neg hlen, htake, hparse]
  simp only
  rw [if_neg (by omega), hdrop, if_neg (by rw [List.length_append]; omega), hdrop',
    List.take_left' hsize]

/-- **A parse ends for one of three reasons.** Induction on the length of the stream, along the
parser. -/
theorem parseFrames_reason (maxSize : Nat) (stream : Bytes) :
    (parseFrames maxSize stream).2 = .systemError .eof ∨
      (parseFrames maxSize stream).2
        = .runtimeError "Wrong frame prefix format. Parse failed" ∨
      (parseFrames maxSize stream).2
        = .lengthError "Message size exceeds max read buffer size" := by
  induction stream using parseFrames.induct maxSize with
  | case1 stream hlen => rw [parseFrames, if_pos hlen]; exact Or.inl rfl
  | case2 stream hlen hparse =>
    rw [parseFrames, if_neg hlen, hparse]
    exact Or.inr (Or.inl rfl)
  | case3 stream hlen framePrefix hparse size hmax =>
    rw [parseFrames, if_neg hlen, hparse]
    simp only
    rw [if_pos hmax]
    exact Or.inr (Or.inr rfl)
  | case4 stream hlen framePrefix hparse size hmax hrest =>
    rw [parseFrames, if_neg hlen, hparse]
    simp only
    rw [if_neg hmax, if_pos hrest]
    exact Or.inl rfl
  | case5 stream hlen framePrefix hparse size hmax hrest ih =>
    rw [parseFrames, if_neg hlen, hparse]
    simp only
    rw [if_neg hmax, if_neg hrest]
    exact ih

/-- No payload is longer than the reader's limit. -/
theorem parseFrames_payload_length_le (maxSize : Nat) (stream : Bytes) :
    ∀ received ∈ (parseFrames maxSize stream).1, received.payload.length ≤ maxSize := by
  induction stream using parseFrames.induct maxSize with
  | case1 stream hlen => rw [parseFrames, if_pos hlen]; simp
  | case2 stream hlen hparse => rw [parseFrames, if_neg hlen, hparse]; simp
  | case3 stream hlen framePrefix hparse size hmax =>
    rw [parseFrames, if_neg hlen, hparse]
    simp only
    rw [if_pos hmax]
    simp
  | case4 stream hlen framePrefix hparse size hmax hrest =>
    rw [parseFrames, if_neg hlen, hparse]
    simp only
    rw [if_neg hmax, if_pos hrest]
    simp
  | case5 stream hlen framePrefix hparse size hmax hrest ih =>
    rw [parseFrames, if_neg hlen, hparse]
    simp only
    rw [if_neg hmax, if_neg hrest]
    refine List.forall_mem_cons.mpr ⟨?_, ih⟩
    exact (List.length_take_le _ _).trans (Nat.le_of_not_lt hmax)

end Parser

/-! ## Complete frames -/

/-- The bytes are the concatenation of complete frames. The last frame is the outermost, as it is
for a reader that receives one after the other. -/
inductive FramesOf (maxSize : Nat) : Bytes → List Frame → Prop where
  | nil : FramesOf maxSize [] []
  | snoc {done pre payload : Bytes} {frames : List Frame} {framePrefix : FramePrefix}
      (hframes : FramesOf maxSize done frames) (hpre : pre.length = 10)
      (hparse : FramePrefix.parseFromArray pre = some framePrefix)
      (hsize : payload.length = framePrefix.size.toNat)
      (hmax : framePrefix.size.toNat ≤ maxSize) :
      FramesOf maxSize (done ++ (pre ++ payload)) (frames ++ [⟨framePrefix, payload⟩])

/-- **The parser goes through complete frames.** Induction on the frames, the last one first. So a
parser of the whole stream finds what a loop has found in the part it has read. -/
theorem parseFrames_append {maxSize : Nat} {done : Bytes} {frames : List Frame}
    (h : FramesOf maxSize done frames) (rest : Bytes) :
    parseFrames maxSize (done ++ rest)
      = (frames ++ (parseFrames maxSize rest).1, (parseFrames maxSize rest).2) := by
  induction h generalizing rest with
  | nil => simp
  | snoc _ hpre hparse hsize hmax ih =>
    rw [List.append_assoc, ih, parseFrames_frame hpre hparse hsize hmax]
    simp

/-- Complete frames are all found, and what stops the parser then is that nothing is left. -/
theorem parseFrames_of_framesOf {maxSize : Nat} {bytes : Bytes} {frames : List Frame}
    (h : FramesOf maxSize bytes frames) :
    parseFrames maxSize bytes = (frames, .systemError .eof) := by
  have heof : parseFrames maxSize [] = ([], .systemError .eof) := parseFrames_of_lt (by simp)
  rw [← List.append_nil bytes, parseFrames_append h, heof, List.append_nil]

/-! ## Frames of messages -/

/-- The frame a message is sent in, as the receiver has it: the parsed prefix and the encoded
message. -/
def frameOf (m : ChatMessage) : Frame :=
  ⟨framePrefixOf (.chatMessage m), (MessageLite.chatMessage m).encode⟩

/-- **The parser finds the frames that were serialized.** Neither the text nor the id of a message
can be taken for a part of a prefix, as the sizes are followed. -/
theorem parseFrames_serialized {maxSize : Nat} {ms : List ChatMessage}
    (h : ∀ m ∈ ms, (MessageLite.chatMessage m).Framable ∧
      (MessageLite.chatMessage m).byteSizeLong ≤ maxSize) (rest : Bytes) :
    parseFrames maxSize ((ms.flatMap fun m => frame (.chatMessage m)) ++ rest)
      = (ms.map frameOf ++ (parseFrames maxSize rest).1, (parseFrames maxSize rest).2) := by
  induction ms with
  | nil => rfl
  | cons m ms ih =>
    obtain ⟨⟨hm, hmax⟩, hms⟩ := List.forall_mem_cons.mp h
    have hsize := hm.size_toNat
    have hparse : FramePrefix.parseFromArray
        (MessageLite.framePrefix (framePrefixOf (.chatMessage m))).encode
        = some (framePrefixOf (.chatMessage m)) :=
      FramePrefix.parseFromArray_encode _ _
    rw [List.flatMap_cons, List.append_assoc, frame,
      parseFrames_frame hm.prefix_length hparse (by rw [hsize, MessageLite.byteSizeLong])
        (by rw [hsize]; exact hmax), ih hms]
    rfl

/-- **Of a stream of frames that is cut off, the parser finds those that are complete.** Induction
on the messages; the first one is cut off in its prefix, in its payload, or not at all. -/
theorem parseFrames_of_prefix {maxSize : Nat} {ms : List ChatMessage}
    (h : ∀ m ∈ ms, (MessageLite.chatMessage m).Framable ∧
      (MessageLite.chatMessage m).byteSizeLong ≤ maxSize) :
    ∀ {received : Bytes}, received <+: (ms.flatMap fun m => frame (.chatMessage m)) →
      ∃ complete, complete <+: ms ∧
        parseFrames maxSize received = (complete.map frameOf, .systemError .eof) := by
  induction ms with
  | nil =>
    intro received hpre
    rw [List.flatMap_nil, List.prefix_nil] at hpre
    exact ⟨[], List.nil_prefix, parseFrames_of_lt (by simp [hpre])⟩
  | cons m ms ih =>
    intro received hpre
    obtain ⟨⟨hm, hmax⟩, hms⟩ := List.forall_mem_cons.mp h
    rw [List.flatMap_cons] at hpre
    have hprefix := hm.prefix_length
    have hsize := hm.size_toNat
    have hparse : FramePrefix.parseFromArray
        (MessageLite.framePrefix (framePrefixOf (.chatMessage m))).encode
        = some (framePrefixOf (.chatMessage m)) :=
      FramePrefix.parseFromArray_encode _ _
    by_cases hcomplete : (frame (.chatMessage m)).length ≤ received.length
    · -- the first frame is complete
      obtain ⟨rest, rfl⟩ := List.prefix_of_prefix_length_le (List.prefix_append _ _) hpre hcomplete
      obtain ⟨complete, hms', hrest⟩ := ih hms ((List.prefix_append_right_inj _).mp hpre)
      refine ⟨m :: complete, List.cons_prefix_cons.mpr ⟨rfl, hms'⟩, ?_⟩
      rw [frame, parseFrames_frame hprefix hparse (by rw [hsize, MessageLite.byteSizeLong])
        (by rw [hsize]; exact hmax), hrest]
      rfl
    · -- the first frame is cut off, so nothing is complete
      refine ⟨[], List.nil_prefix, ?_⟩
      have hcut : received <+: frame (.chatMessage m) :=
        List.prefix_of_prefix_length_le hpre (List.prefix_append _ _) (by omega)
      by_cases hlen : received.length < 10
      · exact parseFrames_of_lt hlen
      · -- the prefix is complete, its payload is not
        rw [frame] at hcut
        obtain ⟨rest, rfl⟩ :=
          List.prefix_of_prefix_length_le (List.prefix_append _ _) hcut (by omega)
        rw [hm.frame_length, List.length_append, hprefix] at hcomplete
        exact parseFrames_cutOff hprefix hparse (by rw [hsize]; exact hmax) (by omega)

/-! ## The two phases of the loop -/

variable {κ π : Type} {maxSize : Nat} {callback : κ} {protocol : π} {r : AsyncReader κ π}
  {p : Protocol} {frames : List Frame} {read : Bytes}

/-- What the loop keeps in the reader from its start on: the limit, the lock, the callback and the
pointer to the protocol object. -/
structure InLoop (maxSize : Nat) (callback : κ) (protocol : π) (r : AsyncReader κ π) : Prop where
  maxBufferSize_eq : r.maxBufferSize = maxSize
  callback_eq : r.callback = some callback
  protocol_eq : r.protocol = some protocol
  locked : r.readInProgress = true

/-- The reader waits in the framed loop, after the complete `frames` and `read` bytes in all. What
is left of them is in the read buffer: a part of a prefix, or a part of a payload whose prefix is in
the cache. -/
inductive FramedPhase (maxSize : Nat) (callback : κ) (protocol : π) (r : AsyncReader κ π)
    (p : Protocol) (frames : List Frame) (read : Bytes) : Prop where
  /-- for the rest of a prefix. -/
  | inPrefix {done : Bytes} (hloop : InLoop maxSize callback protocol r)
      (hframes : FramesOf maxSize done frames) (hread : read = done ++ r.readBuffer)
      (hlen : r.readBuffer.length ≤ 10)
      (hout : r.outstanding = [⟨⟨.full, 10, r.readBuffer.length⟩,
        .handleReadProtoFramePrefixFinished true⟩])
  /-- for the rest of a payload. -/
  | inPayload {done pre : Bytes} {framePrefix : FramePrefix}
      (hloop : InLoop maxSize callback protocol r) (hframes : FramesOf maxSize done frames)
      (hpre : pre.length = 10) (hparse : FramePrefix.parseFromArray pre = some framePrefix)
      (hmax : framePrefix.size.toNat ≤ maxSize)
      (hcache : p.deserFramePrefixCache = framePrefix)
      (hread : read = done ++ (pre ++ r.readBuffer))
      (hlen : r.readBuffer.length ≤ framePrefix.size.toNat)
      (hout : r.outstanding = [⟨⟨.full, framePrefix.size.toNat, r.readBuffer.length⟩,
        .handleReadProtoMessageFinished true⟩])

/-- The frames so far are complete, and stand at the front of what has been read. With
`parseFrames_append`, whatever comes next is parsed from the end of them on. -/
theorem FramedPhase.framesOf (h : FramedPhase maxSize callback protocol r p frames read) :
    ∃ done rest, FramesOf maxSize done frames ∧ read = done ++ rest := by
  cases h with
  | inPrefix _ hframes hread => exact ⟨_, _, hframes, hread⟩
  | inPayload _ hframes _ _ _ _ hread => exact ⟨_, _, hframes, hread⟩

/-- **What has been delivered is the first part of what the parser finds**, whatever is still to
come. -/
theorem FramedPhase.prefix_parseFrames {stream incoming : Bytes}
    (h : FramedPhase maxSize callback protocol r p frames read)
    (hstream : stream = read ++ incoming) : frames <+: (parseFrames maxSize stream).1 := by
  obtain ⟨done, rest, hframes, hread⟩ := h.framesOf
  rw [hstream, hread, List.append_assoc, parseFrames_append hframes]
  exact List.prefix_append _ _

/-- Serializing through the protocol object does not disturb the loop: it writes the other one of
the two cached prefixes. -/
theorem FramedPhase.protocol_congr {p' : Protocol}
    (h : FramedPhase maxSize callback protocol r p frames read)
    (hcache : p'.deserFramePrefixCache = p.deserFramePrefixCache) :
    FramedPhase maxSize callback protocol r p' frames read := by
  cases h with
  | inPrefix hloop hframes hread hlen hout => exact .inPrefix hloop hframes hread hlen hout
  | inPayload hloop hframes hpre hparse hmax hcache' hread hlen hout =>
    exact .inPayload hloop hframes hpre hparse hmax (hcache.trans hcache') hread hlen hout

/-! ## Starting the loop -/

/-- The weight of the bytes a reader holds, and of the phase it is in. It goes down with every
handler that runs. -/
def AsyncReader.weight (r : AsyncReader κ π) : Nat :=
  2 * r.readBuffer.length +
    match r.outstanding with
    | ⟨_, .handleReadProtoMessageFinished _⟩ :: _ => 1
    | _ => 0

/-- **The loop starts with the read of a prefix.** The reader must be large enough for a prefix,
otherwise the entry point throws. -/
theorem readAsyncProtoInfOccupy_phase (hbuf : r.readBuffer = [])
    (hlock : r.readInProgress = false) (hout : r.outstanding = []) (hM : 10 ≤ r.maxBufferSize)
    (callback : κ) (protocol : π) (p : Protocol) :
    ∃ r', r.readAsyncProtoInfOccupy callback protocol p = (none, r') ∧
      FramedPhase r.maxBufferSize callback protocol r' p [] [] ∧ r'.weight = 0 := by
  refine ⟨_, readAsyncProtoInfOccupy_eq hlock hM callback protocol p,
    .inPrefix ⟨rfl, rfl, rfl, rfl⟩ .nil ?_ ?_ ?_, ?_⟩
  · exact hbuf.symm
  · simp [initiate, hbuf]
  · simp [initiate, hbuf, hout]
  · simp [weight, initiate, hbuf, hout]

/-! ## Events of the loop -/

/-- **Bytes that arrive leave the loop in its phase.** They are appended to the buffer, and the
handler does not run before all that its read asks for is there. -/
theorem FramedPhase.received {piece : Bytes} {res : HandlerResult κ π}
    (h : FramedPhase maxSize callback protocol r p frames read)
    (hr : r.onEvent p (.received piece) = some res) :
    res.exit = .returned ∧ res.protocol = p ∧
      FramedPhase maxSize callback protocol res.reader p frames (read ++ piece) ∧
      res.reader.weight = r.weight + 2 * piece.length := by
  cases h with
  | inPrefix hloop hframes hread hlen hout =>
    obtain ⟨-, -, hroom, rfl⟩ := (onEvent_received_iff hout).mp hr
    simp only [Asio.ReadOp.room] at hroom
    refine ⟨rfl, rfl, .inPrefix ⟨hloop.1, hloop.2, hloop.3, hloop.4⟩ hframes ?_ ?_ ?_, ?_⟩
    · rw [hread, List.append_assoc]
    · rw [List.length_append]
      omega
    · rw [List.length_append]
      rfl
    · simp only [weight, hout, List.length_append]
      omega
  -- the same for the bytes of a payload, where the prefix has been read and parsed already
  | inPayload hloop hframes hpre hparse hmax hcache hread hlen hout =>
    obtain ⟨-, -, hroom, rfl⟩ := (onEvent_received_iff hout).mp hr
    simp only [Asio.ReadOp.room] at hroom
    refine ⟨rfl, rfl, .inPayload ⟨hloop.1, hloop.2, hloop.3, hloop.4⟩ hframes hpre hparse hmax
      hcache ?_ ?_ ?_, ?_⟩
    · rw [hread, List.append_assoc, List.append_assoc]
    · rw [List.length_append]
      omega
    · rw [List.length_append]
      rfl
    · simp only [weight, hout, List.length_append]
      omega

/-- How a handler of the loop can end, after `frames` and `read` bytes. Everything later is derived
from these four cases, and no proof looks into the handlers again. -/
inductive FramedCompletion (maxSize : Nat) (callback : κ) (protocol : π) (r : AsyncReader κ π)
    (p : Protocol) (frames : List Frame) (read : Bytes) (res : HandlerResult κ π) : Prop where
  /-- The prefix has been parsed and the read of the payload is scheduled. -/
  | scheduled {op : Asio.ReadOp} {framePrefix : FramePrefix}
      (hout : r.outstanding = [⟨op, .handleReadProtoFramePrefixFinished true⟩])
      (hparse : FramePrefix.parseFromArray r.readBuffer = some framePrefix)
      (hmax : framePrefix.size.toNat ≤ maxSize) (hexit : res.exit = .returned)
      (hphase : FramedPhase maxSize callback protocol res.reader res.protocol frames read)
      (hweight : res.reader.weight < r.weight)
  /-- The payload is handed to the callback, while the cache holds the prefix of this payload. -/
  | delivered {op : Asio.ReadOp}
      (hout : r.outstanding = [⟨op, .handleReadProtoMessageFinished true⟩])
      (hexit : res.exit = .calls callback r.readBuffer false) (hprotocol : res.protocol = p)
      (hlen : r.readBuffer.length ≤ maxSize)
      (hphase : FramedPhase maxSize callback protocol res.reader p
        (frames ++ [⟨p.deserFramePrefixCache, r.readBuffer⟩]) read)
      (hweight : res.reader.weight < r.weight)
  /-- The prefix does not parse. -/
  | badPrefix {op : Asio.ReadOp} {done : Bytes}
      (hout : r.outstanding = [⟨op, .handleReadProtoFramePrefixFinished true⟩])
      (hexit : res.exit = .threw (.runtimeError "Wrong frame prefix format. Parse failed"))
      (hframes : FramesOf maxSize done frames) (hread : read = done ++ r.readBuffer)
      (hpre : r.readBuffer.length = 10) (hparse : FramePrefix.parseFromArray r.readBuffer = none)
  /-- The prefix gives a size above the limit. -/
  | tooLong {op : Asio.ReadOp} {done : Bytes} {framePrefix : FramePrefix}
      (hout : r.outstanding = [⟨op, .handleReadProtoFramePrefixFinished true⟩])
      (hexit : res.exit = .threw (.lengthError "Message size exceeds max read buffer size"))
      (hframes : FramesOf maxSize done frames) (hread : read = done ++ r.readBuffer)
      (hpre : r.readBuffer.length = 10)
      (hparse : FramePrefix.parseFromArray r.readBuffer = some framePrefix)
      (hmax : maxSize < framePrefix.size.toNat)

/-- The read of a prefix is over when ten bytes are there. The size in it decides: a payload is
scheduled, or the loop ends with an exception. -/
theorem completed_inPrefix {done : Bytes} {res : HandlerResult κ π}
    (hloop : InLoop maxSize callback protocol r) (hframes : FramesOf maxSize done frames)
    (hread : read = done ++ r.readBuffer) (hlen : r.readBuffer.length ≤ 10)
    (hout : r.outstanding = [⟨⟨.full, 10, r.readBuffer.length⟩,
      .handleReadProtoFramePrefixFinished true⟩])
    (hr : r.onEvent p .completed = some res) :
    FramedCompletion maxSize callback protocol r p frames read res := by
  obtain ⟨hfull, rfl⟩ := onEvent_completed_full hout hr
  have hten : r.readBuffer.length = 10 := by omega
  have htake : r.readBuffer.take 10 = r.readBuffer := List.take_of_length_le (by omega)
  have hdrop : r.readBuffer.drop 10 = [] := List.drop_of_length_le (by omega)
  rw [hten]
  simp only [runHandler]
  -- the three ways `getMessageSize` and `_doReadProtoMessage` can go
  cases hparse : FramePrefix.parseFromArray r.readBuffer with
  | none =>
    rw [framePrefixFinished_badPrefix (r := { r with outstanding := [] }) true
      (by rw [htake]; exact hparse)]
    exact .badPrefix hout rfl hframes hread hten hparse
  | some framePrefix =>
    by_cases hmax : maxSize < framePrefix.size.toNat
    · rw [framePrefixFinished_tooLong (r := { r with outstanding := [] }) hloop.protocol_eq
        true (by rw [htake]; exact hparse) (by rw [hloop.maxBufferSize_eq]; exact hmax)]
      exact .tooLong hout rfl hframes hread hten hparse hmax
    · rw [framePrefixFinished_ok (r := { r with outstanding := [] }) hloop.protocol_eq
        true (by rw [htake]; exact hparse) (by rw [hloop.maxBufferSize_eq]; omega)]
      refine .scheduled hout hparse (by omega) rfl (.inPayload
        ⟨hloop.1, hloop.2, hloop.3, hloop.4⟩ hframes hten hparse (by omega) rfl ?_ ?_ ?_) ?_
      · simpa [initiate, hdrop] using hread
      · simp [initiate, hdrop]
      · simp [initiate, hdrop]
      · simp only [weight, initiate, hout, hdrop, hten, List.nil_append, List.length_nil]
        omega

/-- The read of a payload is over when it is all there. The read of the next prefix is started
before the callback gets the payload, so the loop is back at a prefix. -/
theorem completed_inPayload {done pre : Bytes} {framePrefix : FramePrefix}
    {res : HandlerResult κ π} (hM : 10 ≤ maxSize) (hloop : InLoop maxSize callback protocol r)
    (hframes : FramesOf maxSize done frames) (hpre : pre.length = 10)
    (hparse : FramePrefix.parseFromArray pre = some framePrefix)
    (hmax : framePrefix.size.toNat ≤ maxSize) (hcache : p.deserFramePrefixCache = framePrefix)
    (hread : read = done ++ (pre ++ r.readBuffer))
    (hlen : r.readBuffer.length ≤ framePrefix.size.toNat)
    (hout : r.outstanding = [⟨⟨.full, framePrefix.size.toNat, r.readBuffer.length⟩,
      .handleReadProtoMessageFinished true⟩])
    (hr : r.onEvent p .completed = some res) :
    FramedCompletion maxSize callback protocol r p frames read res := by
  obtain ⟨hfull, rfl⟩ := onEvent_completed_full hout hr
  have hsize : r.readBuffer.length = framePrefix.size.toNat := by omega
  have htake : r.readBuffer.take r.readBuffer.length = r.readBuffer := List.take_length
  have hdrop : r.readBuffer.drop r.readBuffer.length = [] := List.drop_length
  simp only [runHandler]
  rw [messageFinished_ok (r := { r with outstanding := [] }) hloop.protocol_eq
    hloop.callback_eq (by rw [hloop.maxBufferSize_eq]; exact hM) _]
  -- the prefix, its payload and what was there before are complete frames again
  have hdone : FramesOf maxSize (done ++ (pre ++ r.readBuffer))
      (frames ++ [⟨p.deserFramePrefixCache, r.readBuffer⟩]) := by
    rw [hcache]
    exact .snoc hframes hpre hparse hsize hmax
  refine .delivered hout (by rw [htake]) rfl (by omega)
    (.inPrefix ⟨hloop.1, hloop.2, hloop.3, hloop.4⟩ hdone ?_ ?_ ?_) ?_
  · simpa [initiate, hdrop] using hread
  · simp [initiate]
  · simp [initiate]
  · simp only [weight, initiate, hout, hdrop, List.nil_append, List.length_nil]
    omega

/-- **A handler of the loop schedules the next read, delivers a frame, or stops the loop for a
reason the parser has too.** -/
theorem FramedPhase.completed {res : HandlerResult κ π} (hM : 10 ≤ maxSize)
    (h : FramedPhase maxSize callback protocol r p frames read)
    (hr : r.onEvent p .completed = some res) :
    FramedCompletion maxSize callback protocol r p frames read res := by
  cases h with
  | inPrefix hloop hframes hread hlen hout =>
    exact completed_inPrefix hloop hframes hread hlen hout hr
  | inPayload hloop hframes hpre hparse hmax hcache hread hlen hout =>
    exact completed_inPayload hM hloop hframes hpre hparse hmax hcache hread hlen hout hr

/-- A handler that calls the callback has used up all that the reader held, and the payload is what
it held. -/
theorem FramedPhase.weight_delivered {data : Bytes} {once : Bool} {res : HandlerResult κ π}
    (hM : 10 ≤ maxSize) (h : FramedPhase maxSize callback protocol r p frames read)
    (hr : r.onEvent p .completed = some res) (hexit : res.exit = .calls callback data once) :
    r.weight = 2 * data.length + 1 ∧ res.reader.weight = 0 := by
  cases h with
  | inPrefix hloop hframes hread hlen hout =>
    cases completed_inPrefix hloop hframes hread hlen hout hr with
    | scheduled _ _ _ hreturned => rw [hreturned] at hexit; cases hexit
    | delivered hout' => rw [hout] at hout'; cases hout'
    | badPrefix _ hthrew => rw [hthrew] at hexit; cases hexit
    | tooLong _ hthrew => rw [hthrew] at hexit; cases hexit
  | inPayload hloop hframes hpre hparse hmax hcache hread hlen hout =>
    obtain ⟨-, rfl⟩ := onEvent_completed_full hout hr
    simp only [runHandler] at hexit ⊢
    rw [messageFinished_ok (r := { r with outstanding := [] }) hloop.protocol_eq
      hloop.callback_eq (by rw [hloop.maxBufferSize_eq]; exact hM)] at hexit ⊢
    obtain ⟨-, hdata, -⟩ := HandlerExit.calls.inj hexit
    rw [List.take_length] at hdata
    constructor
    · simp only [weight, hout, hdata]
    · simp [weight, initiate]

/-- **A stream that fails stops the loop where the parser stops too.** -/
theorem FramedPhase.failed {e : Asio.ErrorCode} {res : HandlerResult κ π}
    (h : FramedPhase maxSize callback protocol r p frames read)
    (hr : r.onEvent p (.failed e) = some res) :
    res.exit = .threw (.systemError e) ∧
      parseFrames maxSize read = (frames, .systemError .eof) := by
  cases h with
  | inPrefix hloop hframes hread hlen hout =>
    obtain ⟨hres, rfl⟩ := (onEvent_failed_iff hout).mp hr
    have hshort := Asio.ReadOp.result_full_eq_none.mp hres
    refine ⟨rfl, ?_⟩
    rw [hread, parseFrames_append hframes, parseFrames_of_lt hshort, List.append_nil]
  | inPayload hloop hframes hpre hparse hmax hcache hread hlen hout =>
    obtain ⟨hres, rfl⟩ := (onEvent_failed_iff hout).mp hr
    have hshort := Asio.ReadOp.result_full_eq_none.mp hres
    refine ⟨rfl, ?_⟩
    rw [hread, parseFrames_append hframes, parseFrames_cutOff hpre hparse hmax hshort,
      List.append_nil]

theorem FramedPhase.outstanding (h : FramedPhase maxSize callback protocol r p frames read) :
    ∃ op handler, r.outstanding = [⟨op, handler⟩] := by
  cases h with
  | inPrefix _ _ _ _ hout => exact ⟨_, _, hout⟩
  | inPayload _ _ _ _ _ _ _ _ hout => exact ⟨_, _, hout⟩

theorem FramedPhase.inLoop (h : FramedPhase maxSize callback protocol r p frames read) :
    InLoop maxSize callback protocol r := by
  cases h with
  | inPrefix hloop => exact hloop
  | inPayload hloop => exact hloop

/-- **The loop never hangs on its own.** Either a handler can run, or the stream is asked for more
bytes: one byte is taken, and a failure is. -/
theorem FramedPhase.progress (h : FramedPhase maxSize callback protocol r p frames read) :
    (∃ res, r.onEvent p .completed = some res) ∨
      (∀ b, ∃ res, r.onEvent p (.received [b]) = some res) ∧
        ∀ e, ∃ res, r.onEvent p (.failed e) = some res := by
  obtain ⟨op, handler, hout⟩ := h.outstanding
  cases hres : op.result r.readBuffer with
  | some result =>
    exact Or.inl ⟨_, (onEvent_completed_iff hout).mpr ⟨result.1, result.2, hres, rfl⟩⟩
  | none =>
    have hroom := Asio.ReadOp.room_pos_of_result_none hres
    exact Or.inr
      ⟨fun b => ⟨_, (onEvent_received_iff hout).mpr ⟨hres, by simp, hroom, rfl⟩⟩,
        fun e => ⟨_, (onEvent_failed_iff hout).mpr ⟨hres, rfl⟩⟩⟩

end Acs
