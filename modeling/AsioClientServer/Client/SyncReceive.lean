import AsioClientServer.Conn.FramedRead
import Mathlib.Tactic.IntervalCases

/-!
# `acs::conn::AsyncTcpClient`: blocking reads

The client has a second receive loop (`AsyncTcpClient.cpp`), which reads a prefix and a message
with blocking reads and decodes them without the help of `Protocol`. It has its own prefix size and
its own buffer.

* `receiveInfinitelySync`: the loop on a stream that ends.
* `decoded_ne_of_lag`: a loop that has fallen behind the frames never decodes the messages of the
  frames that are left.
* `receive_agrees_iff`: the streams on which the two loops decode the same messages.
-/

namespace Acs

open Wire

namespace SyncReceive

/-! ## The loop -/

/-- `RECV_BUFFER_SIZE`: the size of the one buffer all reads of the loop use. -/
def recvBufferSize : Nat := 128

/-- `_FRAME_PREFIX_SIZE`, as `_initializeFramingProtocol` sets it: only the size of the dummy is
set. -/
def framePrefixSize : Nat :=
  (MessageLite.framePrefix { size := 1 }).byteSizeLong

/-- `_decodeMessageSize`: the size in a prefix. -/
def decodeMessageSize (framePrefix : FramePrefix) : Nat :=
  framePrefix.size.toNat

/-- `asio::read` into `asio::buffer(recvBuffer, n)`: the bytes and the rest of the stream, or `none`
for the end of the stream. -/
def read (stream : Bytes) (n : Nat) : Option (Bytes × Bytes) :=
  let size := min recvBufferSize n
  if size ≤ stream.length then some (stream.take size, stream.drop size) else none

/-- What the loop prints, line by line: of a round that goes on, the size it has read and what
became of the message. -/
inductive Output where
  | sizeToCome (messageSize : Nat)
  | decoded (message : ChatMessage)
  /-- "Failed to parse chat message". -/
  | badMessage
  /-- "Failed to parse frame prefix". -/
  | badPrefix
  /-- "Connection closed cleanly by peer". -/
  | closed
  deriving DecidableEq, Repr

/-- What the loop has printed, and the assertion that has ended it. The messages are what a user
sees; the rest tells how the loop has fared. -/
structure Result where
  output : List Output
  failure : Option Failure := none
  deriving DecidableEq, Repr

/-- The messages among what was printed. -/
def Result.decoded (res : Result) : List ChatMessage :=
  res.output.filterMap fun
    | .decoded message => some message
    | _ => none

/-- What a blocking read takes is the front of the stream, and as long as was asked for, unless the
buffer is shorter. -/
theorem read_length {stream data rest : Bytes} {n : Nat} (h : read stream n = some (data, rest)) :
    stream = data ++ rest ∧ data.length = min recvBufferSize n := by
  unfold read at h
  simp only at h
  split at h
  · next hle =>
    obtain ⟨rfl, rfl⟩ := Prod.mk.inj (Option.some.inj h)
    exact ⟨(List.take_append_drop _ stream).symm, List.length_take_of_le hle⟩
  · cases h

/-- `receiveInfinitelySync` on a stream that ends: each round reads a prefix and a message, and
prints what it has decoded. It leaves the loop when a prefix does not parse. -/
def receiveInfinitelySync (stream : Bytes) : Result :=
  match _ : read stream framePrefixSize with
  | none => { output := [.closed] }
  | some (data, rest) =>
    if data.length = framePrefixSize then
      match FramePrefix.parseFromArray data with
      | none => { output := [.badPrefix] }
      | some framePrefix =>
        let messageSize := decodeMessageSize framePrefix
        match _ : read rest messageSize with
        | none => { output := [.sizeToCome messageSize, .closed] }
        | some (data, rest) =>
          if data.length = messageSize then
            let next := receiveInfinitelySync rest
            match ChatMessage.parseFromArray data with
            | none => { next with output := .sizeToCome messageSize :: .badMessage :: next.output }
            | some message =>
              { next with output := .sizeToCome messageSize :: .decoded message :: next.output }
          else
            { output := [.sizeToCome messageSize]
              failure := some (.assertionFailed "readLen == messageSize") }
    else { output := [], failure := some (.assertionFailed "readLen == _FRAME_PREFIX_SIZE") }
termination_by stream.length
decreasing_by
  obtain ⟨hs, hlen⟩ := read_length ‹read stream framePrefixSize = some _›
  obtain ⟨hs', -⟩ := read_length ‹read _ _ = some (_, _)›
  have hpos : 0 < min recvBufferSize framePrefixSize := by decide
  rw [hs, hs', List.length_append, List.length_append]
  omega

/-! ## One round of the loop -/

/-- **What a round does**: it ends the loop, or it decodes what it has read as a message, if it can,
and goes on with the rest. -/
inductive Round (stream : Bytes) : Prop
  | ended (hdecoded : (receiveInfinitelySync stream).decoded = [])
  | next {data payload rest : Bytes} {framePrefix : FramePrefix}
      (hstream : stream = data ++ (payload ++ rest)) (hdata : data.length = 5)
      (hparse : FramePrefix.parseFromArray data = some framePrefix)
      (hsize : payload.length = framePrefix.size.toNat) (hmax : payload.length ≤ recvBufferSize)
      (hdecoded : (receiveInfinitelySync stream).decoded
        = (ChatMessage.parseFromArray payload).toList ++ (receiveInfinitelySync rest).decoded)

/-- **Every round is one of these.** The loop is taken apart here once. The prefix of a round has
five bytes and its size is read from the field that is there. -/
theorem round (stream : Bytes) : Round stream := by
  -- the loop is followed read by read: each may meet the end, and each parse may fail
  cases hprefix : read stream framePrefixSize with
  | none =>
    refine .ended ?_
    rw [receiveInfinitelySync, hprefix]
    rfl
  | some r =>
    obtain ⟨hstream, hdata⟩ := read_length hprefix
    have hfive : r.1.length = framePrefixSize := hdata.trans (by decide)
    cases hparse : FramePrefix.parseFromArray r.1 with
    | none =>
      refine .ended ?_
      rw [receiveInfinitelySync, hprefix]
      simp only [hfive, if_true, hparse]
      rfl
    | some framePrefix =>
      cases hmessage : read r.2 (decodeMessageSize framePrefix) with
      | none =>
        refine .ended ?_
        rw [receiveInfinitelySync, hprefix]
        simp only [hfive, if_true, hparse]
        rw [hmessage]
        rfl
      | some q =>
        obtain ⟨hrest, hpayload⟩ := read_length hmessage
        by_cases hsize : q.1.length = decodeMessageSize framePrefix
        · have hsplit : stream = r.1 ++ (q.1 ++ q.2) := by rw [hstream, hrest]
          refine .next hsplit hfive hparse hsize ?_ ?_
          · omega
          · rw [receiveInfinitelySync, hprefix]
            simp only [hfive, if_true, hparse]
            rw [hmessage]
            simp only [hsize, if_true]
            cases ChatMessage.parseFromArray q.1 <;> rfl
        · refine .ended ?_
          rw [receiveInfinitelySync, hprefix]
          simp only [hfive, if_true, hparse]
          rw [hmessage]
          simp only [if_neg hsize]
          rfl

/-! ## A loop that has fallen behind

The loop takes five bytes for a prefix, so from the first frame on it is behind. It stays behind:
it meets no prefix in the first ten bytes it may start at, and a message it decodes is written with
at most five bytes more than it has read. -/

/-- The bytes of a frame, one by one up to the message. -/
theorem frame_eq {m : ChatMessage} (hm : m.Deliverable) :
    frame (.chatMessage m) =
      13 :: UInt8.ofNat (MessageLite.chatMessage m).byteSizeLong ::
        UInt8.ofNat ((MessageLite.chatMessage m).byteSizeLong / 256) ::
        0 :: 0 :: 29 :: 1 :: 0 :: 0 :: 0 :: (MessageLite.chatMessage m).encode := by
  have hsize := hm.framable.size_toNat
  have hle := hm.size_le
  simp only [maxReadBufferSizeBytes] at hle
  -- a size that is not zero is written, so the prefix has all its ten bytes
  have hne : (framePrefixOf (.chatMessage m)).size ≠ 0 := by
    intro hzero
    rw [hzero, UInt32.toNat_zero] at hsize
    have := hm.size_pos
    omega
  -- only the first two of the four bytes of the size can be other than zero, as a payload has at
  -- most 1024 bytes
  have hLE : toLE 4 (framePrefixOf (.chatMessage m)).size.toNat
      = [UInt8.ofNat (MessageLite.chatMessage m).byteSizeLong,
        UInt8.ofNat ((MessageLite.chatMessage m).byteSizeLong / 256), 0, 0] := by
    have h2 : (MessageLite.chatMessage m).byteSizeLong / 256 / 256 = 0 := by omega
    rw [hsize]
    simp only [toLE, h2]
    rfl
  have htype : (framePrefixOf (.chatMessage m)).type = 1 := rfl
  have hunknown : (framePrefixOf (.chatMessage m)).unknownFields = [] := rfl
  have h13 : encodeVarint (8 * 1 + 5) = [13] := rfl
  simp only [frame, MessageLite.encode, MessageLite.tokens, FramePrefix.tokens, if_neg hne, htype,
    hunknown, encodeTokens_append, encodeTokens_cons, encodeTokens_nil, encodeToken, encodeValue,
    Value.wireType, hLE, h13]
  rfl

/-- A prefix of a size the loop can hold: the size field, three bytes of which are 0. The loop reads
five bytes, so there is no room for the type. -/
theorem prefix_of_parse {data : Bytes} {framePrefix : FramePrefix} (hdata : data.length = 5)
    (hparse : FramePrefix.parseFromArray data = some framePrefix)
    (hpos : 0 < framePrefix.size.toNat) (hmax : framePrefix.size.toNat ≤ recvBufferSize) :
    ∃ b, data = [13, b, 0, 0, 0] := by
  have hne : framePrefix.size ≠ 0 := by
    intro hzero
    rw [hzero, UInt32.toNat_zero] at hpos
    omega
  obtain ⟨bs, rfl, hsize⟩ := FramePrefix.eq_of_parse_five hparse hdata hne
  match bs, hdata with
  | [b, c, d, e], _ =>
    rw [hsize, UInt32.toNat_ofNat'] at hmax
    simp only [recvBufferSize, ofLE] at hmax
    have hb := b.toNat_lt
    have hc := c.toNat_lt
    have hd := d.toNat_lt
    have he := e.toNat_lt
    refine ⟨b, ?_⟩
    have hc0 : c = 0 := UInt8.toNat_inj.mp (by rw [UInt8.toNat_zero]; omega)
    have hd0 : d = 0 := UInt8.toNat_inj.mp (by rw [UInt8.toNat_zero]; omega)
    have he0 : e = 0 := UInt8.toNat_inj.mp (by rw [UInt8.toNat_zero]; omega)
    rw [hc0, hd0, he0]

/-- Such a prefix does not start in the second to the eleventh byte of a frame, so a loop that is a
few bytes out of step finds none there. -/
theorem eleven_le_of_prefix {m : ChatMessage} (hm : m.Deliverable) {lag : Nat} (hpos : 0 < lag)
    {rest tail : Bytes} {b : UInt8}
    (h : (frame (.chatMessage m) ++ rest).drop lag = [13, b, 0, 0, 0] ++ tail) : 11 ≤ lag := by
  by_contra hlt
  obtain ⟨c, cs, hencode⟩ := List.exists_cons_of_length_pos hm.size_pos
  have hc : c ≠ 13 := ChatMessage.head_encode hm.unknownFields_eq (by rw [hencode]; rfl)
  rw [frame_eq hm, hencode] at h
  interval_cases lag <;> simp [hc] at h

/-- **A loop that has fallen behind does not catch up.** Behind the first byte of some frames it
never decodes exactly their messages. Induction on the bytes that are left. -/
theorem decoded_ne_of_lag {ms : List ChatMessage} (hms : ∀ m ∈ ms, m.Deliverable) {lag : Nat}
    (hpos : 0 < lag) (hle : lag ≤ (ms.flatMap fun m => frame (.chatMessage m)).length) :
    (receiveInfinitelySync ((ms.flatMap fun m => frame (.chatMessage m)).drop lag)).decoded
      ≠ ms := by
  induction hn : (ms.flatMap fun m => frame (.chatMessage m)).length - lag using Nat.strongRecOn
    generalizing ms lag with
  | ind n ih =>
    cases ms with
    | nil =>
      simp only [List.flatMap_nil, List.length_nil] at hle
      omega
    | cons m ms =>
      obtain ⟨hm, hrest⟩ := List.forall_mem_cons.mp hms
      have hframe := hm.framable.frame_length
      rw [hm.framable.size_toNat] at hframe
      rw [List.flatMap_cons] at hle hn ⊢
      rw [List.length_append] at hle hn
      cases round ((frame (.chatMessage m) ++ ms.flatMap fun m => frame (.chatMessage m)).drop
        lag) with
      | ended hdecoded =>
        rw [hdecoded]
        exact (List.cons_ne_nil _ _).symm
      | @next data payload rest framePrefix hstream hdata hparse hsize hmax hdecoded =>
        -- the next round starts five bytes and a payload further on
        have hlen := congrArg List.length hstream
        simp only [List.length_drop, List.length_append, hdata] at hlen
        have hdrop : rest = (frame (.chatMessage m) ++
            ms.flatMap fun m => frame (.chatMessage m)).drop (lag + (5 + payload.length)) := by
          rw [← List.drop_drop, hstream, ← List.append_assoc,
            List.drop_left' (by rw [List.length_append, hdata])]
        rw [hdecoded]
        cases hmessage : ChatMessage.parseFromArray payload with
        | none =>
          -- the same message is still to come
          rw [Option.toList_none, List.nil_append, hdrop]
          have hsame : ((m :: ms).flatMap fun m => frame (.chatMessage m)).length
              = (frame (.chatMessage m)).length +
                (ms.flatMap fun m => frame (.chatMessage m)).length := by
            rw [List.flatMap_cons, List.length_append]
          have hpos' : 0 < lag + (5 + payload.length) := by omega
          exact ih _ (by omega) hms hpos' (by omega) rfl
        | some d =>
          rw [Option.toList_some, List.singleton_append]
          intro heq
          obtain ⟨rfl, hnext⟩ := List.cons.inj heq
          -- the prefix is a good one, so it starts after the first eleven bytes
          have hsizePos : 0 < payload.length := by
            by_contra hzero
            have hnil : payload = [] := List.eq_nil_of_length_eq_zero (by omega)
            rw [hnil] at hmessage
            obtain rfl := Option.some.inj hmessage
            exact absurd hm.size_pos (by decide)
          obtain ⟨b, rfl⟩ := prefix_of_parse hdata hparse (by omega) (by omega)
          have heleven := eleven_le_of_prefix hm hpos hstream
          have hbytes := ChatMessage.byteSizeLong_le_of_parse hmessage
          have hdrop' : rest = (ms.flatMap fun m => frame (.chatMessage m)).drop
              (lag + (5 + payload.length) - (frame (.chatMessage d)).length) := by
            rw [hdrop, List.drop_append, List.drop_of_length_le (by omega), List.nil_append]
          rw [hdrop'] at hnext
          refine ih _ ?_ hrest ?_ ?_ rfl hnext <;> omega

/-- **The loop never decodes the messages of a stream that has any.** What it takes for the first
message begins with the type field of the prefix. -/
theorem decoded_ne {ms : List ChatMessage} (hms : ∀ m ∈ ms, m.Deliverable) (hne : ms ≠ []) :
    (receiveInfinitelySync (ms.flatMap fun m => frame (.chatMessage m))).decoded ≠ ms := by
  obtain ⟨m, ms, rfl⟩ := List.exists_cons_of_ne_nil hne
  obtain ⟨hm, -⟩ := List.forall_mem_cons.mp hms
  -- the first round takes five bytes for the prefix, where the frame has ten: it is out of step
  -- from then
  cases round ((m :: ms).flatMap fun m => frame (.chatMessage m)) with
  | ended hdecoded =>
    rw [hdecoded]
    exact (List.cons_ne_nil _ _).symm
  | @next data payload rest framePrefix hstream hdata hparse hsize hmax hdecoded =>
    have hlen := congrArg List.length hstream
    simp only [List.length_append, hdata] at hlen
    have hdrop : rest = ((m :: ms).flatMap fun m => frame (.chatMessage m)).drop
        (5 + payload.length) := by
      rw [hstream, ← List.append_assoc, List.drop_left' (by rw [List.length_append, hdata])]
    rw [hdecoded]
    cases hmessage : ChatMessage.parseFromArray payload with
    | none =>
      rw [Option.toList_none, List.nil_append, hdrop]
      exact decoded_ne_of_lag hms (by omega) (by omega)
    -- a message it does decode begins with the byte 29, which is no field of a chat message
    | some d =>
      rw [Option.toList_some, List.singleton_append]
      intro heq
      obtain ⟨rfl, -⟩ := List.cons.inj heq
      cases payload with
      | nil =>
        obtain rfl := Option.some.inj hmessage
        exact absurd hm.size_pos (by decide)
      | cons b bs =>
        have hb : b = 29 := by
          have hfive := congrArg (·[5]?) hstream
          rw [List.flatMap_cons, frame_eq hm] at hfive
          simp only [List.getElem?_append_right (Nat.le_of_eq hdata), hdata] at hfive
          exact (Option.some.inj hfive).symm
        subst hb
        exact ChatMessage.unknownFields_ne_nil_of_parse hmessage hm.unknownFields_eq

/-! ## The two loops -/

/-- On this stream the blocking loop fails no assertion, and it decodes what the asynchronous loop
has decoded when nothing is left to arrive and no handler to run, however the stream is cut. -/
def Agrees (stream : Bytes) : Prop :=
  (∀ condition, (receiveInfinitelySync stream).failure ≠ some (.assertionFailed condition)) ∧
  ∀ es s, Runs.run (FramedRead.step decodeEach)
      (FramedRead.start maxReadBufferSizeBytes stream []) es = some s →
    FramedRead.step decodeEach s .complete = none →
    FramedRead.step decodeEach s (.receive 1) = none →
    s.user = (receiveInfinitelySync stream).decoded.map .chatMessage

end SyncReceive

/-- **The blocking loop agrees with the asynchronous one on the empty list alone.** -/
theorem receive_agrees_iff (p : Protocol) {ms : List ChatMessage}
    (hms : ∀ m ∈ ms, m.Deliverable) :
    ∃ stream, p.serializeAll ms = .ok stream ∧ (SyncReceive.Agrees stream ↔ ms = []) := by
  obtain ⟨stream, hser, hround⟩ := framedRead_roundTrip p hms
  have hstream : stream = ms.flatMap fun m => frame (.chatMessage m) := by
    rw [p.serializeAll_eq fun m hm => (hms m hm).framable] at hser
    exact (Except.ok.inj hser).symm
  refine ⟨stream, hser, fun hagrees => ?_, ?_⟩
  · -- a run of the asynchronous loop that reaches the end has decoded all the messages
    by_contra hne
    obtain ⟨es, s, hrun, hstopped⟩ := exists_run_deliverable hms
    rw [← hstream] at hrun
    have hend : ∀ event, FramedRead.step decodeEach s event = none :=
      FramedRead.step_of_stopped hstopped
    have hsync := hagrees.2 es s hrun (hend _) (hend _)
    obtain ⟨-, -, hall, -⟩ := hround es s hrun
    rw [hall (hend _) (hend _), hstream] at hsync
    exact SyncReceive.decoded_ne hms hne
      (List.map_injective_iff.mpr (fun _ _ h => MessageLite.chatMessage.inj h) hsync.symm)
  · -- without messages there is nothing to be decoded, and both loops only see the end
    rintro rfl
    obtain rfl : stream = [] := hstream
    have hreceive : SyncReceive.receiveInfinitelySync [] = { output := [.closed] } := by
      rw [SyncReceive.receiveInfinitelySync]
      rfl
    refine ⟨fun condition => by simp [hreceive], fun es s hrun hcomplete hreceive' => ?_⟩
    obtain ⟨-, -, hall, -⟩ := hround es s hrun
    rw [hall hcomplete hreceive', hreceive]
    rfl

/-- No message, and two messages. -/
theorem receive_agrees_iff_two :
    let ms := [chatMessage 1 [104, 105] 4, chatMessage 300 [] (-1)]
    (∃ stream, ({} : Protocol).serializeAll [] = .ok stream ∧ SyncReceive.Agrees stream) ∧
      ∃ stream, ({} : Protocol).serializeAll ms = .ok stream ∧ ¬ SyncReceive.Agrees stream := by
  intro ms
  have hms : ∀ m ∈ ms, m.Deliverable := by
    rintro m hm
    rcases List.mem_pair.mp hm with rfl | rfl
    · exact ⟨rfl, by decide +kernel, by decide +kernel, by decide +kernel⟩
    · exact ⟨rfl, by decide +kernel, by decide +kernel, by decide +kernel⟩
  have hnil : ∀ m ∈ ([] : List ChatMessage), m.Deliverable := by simp
  obtain ⟨stream, hser, hiff⟩ := receive_agrees_iff {} hnil
  obtain ⟨stream', hser', hiff'⟩ := receive_agrees_iff {} hms
  exact ⟨⟨stream, hser, hiff.mpr rfl⟩, stream', hser', fun h => List.cons_ne_nil _ _ (hiff'.mp h)⟩

/-- One message: the asynchronous loop decodes it. The blocking loop takes the first five bytes of
the prefix for the whole prefix and the other five for the start of the message, and decodes
nothing. -/
theorem receive_disagrees :
    let stream : Bytes := [13, 8, 0, 0, 0, 29, 1, 0, 0, 0, 8, 1, 18, 2, 104, 105, 120, 4]
    let m := chatMessage 1 [104, 105] 4
    ({} : Protocol).serializeAll [m] = .ok stream ∧
    SyncReceive.receiveInfinitelySync stream
      = { output := [.sizeToCome 8, .badMessage, .badPrefix] } ∧
    (∃ s, Runs.run (FramedRead.step decodeEach)
        (FramedRead.start maxReadBufferSizeBytes stream [])
        [.receive 10, .complete, .receive 8, .complete] = some s ∧
      s.user = [.chatMessage m]) ∧
    ¬ SyncReceive.Agrees stream := by
  intro stream m
  -- five bytes short in each round: the payload starts in the second half of the prefix
  have hsync : SyncReceive.receiveInfinitelySync stream
      = { output := [.sizeToCome 8, .badMessage, .badPrefix] } := by
    decide +kernel
  have hresult : (Runs.run (FramedRead.step decodeEach)
      (FramedRead.start maxReadBufferSizeBytes stream [])
      [.receive 10, .complete, .receive 8, .complete]).map
        (fun s => (s.user, s.step decodeEach .complete, s.step decodeEach (.receive 1)))
      = some ([.chatMessage m], none, none) := by
    decide +kernel
  obtain ⟨s, hrun, hs⟩ := Option.map_eq_some_iff.mp hresult
  simp only [Prod.mk.injEq] at hs
  refine ⟨by decide +kernel, hsync, ⟨s, hrun, hs.1⟩, fun hagrees => ?_⟩
  have huser := hagrees.2 _ s hrun hs.2.1 hs.2.2
  rw [hs.1, hsync] at huser
  cases huser

end Acs
