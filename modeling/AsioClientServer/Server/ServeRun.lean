import AsioClientServer.Lib.Runs
import AsioClientServer.Server.TcpConnection

/-!
# A connection that serves a stream

One connection of the server, with the bytes its client sends. Its reader, the protocol decoder
and the message handler all look at these bytes, and three assertions on the way state what the
server's own client would send.

* `reason`: what serving a stream ends with, read off the stream. `reached_or_system_error` says
  that no run stops for another reason but an error of the socket, and `exists_run_reason` that
  some run gets there.
* `tcpConnection_no_assertion_iff`: the streams that fail no assertion.
-/

namespace Acs

open TcpConnection

/-- A connection, with the bytes of its client that have not arrived. It has stopped when an
exception or an assertion has left one of its handlers. -/
structure ServeRun where
  connection : TcpConnection
  incoming : Bytes
  /-- The exception or the assertion a handler has ended with. -/
  stopped : Option Failure := none
  deriving DecidableEq, Repr

/-- What the client, the network and the socket do. -/
inductive ServeRun.Event where
  | stream (event : StreamEvent)
  /-- The socket fails while the reader waits. -/
  | readError (e : Asio.ErrorCode)
  | transfer (i n : Nat)
  | written (i : Nat)
  | writeError (i : Nat) (e : Asio.ErrorCode)
  deriving DecidableEq, Repr

namespace ServeRun

/-- The connection has been accepted and started; all of the stream is still to come. -/
def start (id : UInt64) (stream : Bytes) : ServeRun :=
  let started := ({ id, handler := .echoClientHandler } : TcpConnection).start
  { connection := started.2, incoming := stream, stopped := started.1 }

/-- The next state, `none` where the event is not possible. Nothing happens once the connection has
stopped. -/
def step (s : ServeRun) (event : Event) : Option ServeRun :=
  if s.stopped = none then
    match event with
    | .stream event =>
      (event.read s.incoming).bind fun e =>
        (s.connection.onRead e.1).map fun out => ⟨out.2, e.2, out.1⟩
    | .readError e =>
      (s.connection.onRead (.failed e)).map fun out => ⟨out.2, s.incoming, out.1⟩
    | .transfer i n =>
      (s.connection.onTransfer i n).map fun t => { s with connection := t.2 }
    | .written i => (s.connection.onWritten i).map fun w => { s with connection := w.2 }
    | .writeError i e => (s.connection.onWriteError i e).map fun w => { s with connection := w.2 }
  else none

/-! ## Why serving stops -/

/-- What serving the stream ends with: the first frame the handler throws for, or the reason the
parser stops. -/
def reason (stream : Bytes) : Failure :=
  let parsed := parseFrames maxReadBufferSizeBytes stream
  (parsed.1.findSome? frameFailure).getD parsed.2

/-- A stream without a frame that is thrown for ends for the reason of the parser. -/
theorem reason_of_frames_ok {stream : Bytes} {frames : List Frame} {f : Failure}
    (hparse : parseFrames maxReadBufferSizeBytes stream = (frames, f))
    (hok : ∀ frame ∈ frames, frameFailure frame = none) : reason stream = f := by
  have hnone : frames.findSome? frameFailure = none := List.findSome?_eq_none_iff.mpr hok
  simp only [reason, hparse, hnone, Option.getD_none]

/-- The first frame that is thrown for is the reason, whatever comes after it. A client can
therefore end the server with one frame. -/
theorem reason_of_failing_frame {stream : Bytes} {frames : List Frame} {frame : Frame}
    {f : Failure} (hpart : frames ++ [frame] <+: (parseFrames maxReadBufferSizeBytes stream).1)
    (hok : ∀ frame ∈ frames, frameFailure frame = none) (hframe : frameFailure frame = some f) :
    reason stream = f := by
  obtain ⟨rest, hrest⟩ := hpart
  have hnone : frames.findSome? frameFailure = none := List.findSome?_eq_none_iff.mpr hok
  simp only [reason, ← hrest, List.findSome?_append, hnone, List.findSome?_cons, hframe,
    Option.none_or, Option.some_or, Option.getD_some]

/-! ## The invariant -/

/-- The connection receives, and all the frames it has received have been answered. What is to come
is the rest of the stream. -/
def Serving (stream : Bytes) (s : ServeRun) : Prop :=
  s.stopped = none ∧ ∃ frames read, stream = read ++ s.incoming ∧
    s.connection.Receiving frames read ∧ ∀ frame ∈ frames, frameFailure frame = none

/-- How many events of the stream are possible at most. The writes are counted elsewhere. -/
def measure (s : ServeRun) : Nat :=
  3 * s.incoming.length + s.connection.reader.weight

variable {stream : Bytes} {s s' : ServeRun}

theorem serving_start (id : UInt64) (stream : Bytes) : Serving stream (start id stream) := by
  obtain ⟨c, hstart, hreceiving, -⟩ := TcpConnection.start_eq
    (c := { id, handler := .echoClientHandler }) rfl rfl
  have heq : start id stream = ⟨c, stream, none⟩ := by
    rw [start, hstart]
  rw [heq]
  exact ⟨rfl, [], [], rfl, hreceiving, by simp⟩

/-- **An event of the stream goes on with serving it, or ends it for its reason.** -/
theorem serving_stream {event : StreamEvent} (h : Serving stream s)
    (hstep : s.step (.stream event) = some s') :
    (Serving stream s' ∧ measure s' < measure s) ∨ s'.stopped = some (reason stream) := by
  obtain ⟨hnone, frames, read, hstream, hphase, hok⟩ := h
  simp only [step, hnone, if_true] at hstep
  obtain ⟨e, he, hstep⟩ := Option.bind_eq_some_iff.mp hstep
  obtain ⟨out, hout, rfl⟩ := Option.map_eq_some_iff.mp hstep
  obtain ⟨res, hres, -⟩ := Option.map_eq_some_iff.mp hout
  rcases StreamEvent.read_cases he hres with ⟨piece, rest, hpiece, hincoming, rfl⟩ | rfl |
    ⟨hincoming, rfl⟩
  · -- bytes that arrive
    obtain ⟨reader, rfl, hphase', hweight⟩ := hphase.received hout
    have hpos : 0 < piece.length := List.length_pos_iff.mpr hpiece
    refine Or.inl ⟨⟨rfl, frames, read ++ piece, ?_, hphase', hok⟩, ?_⟩
    · rw [hstream, hincoming, List.append_assoc]
    · simp only [measure, hincoming, List.length_append, hweight]
      omega
  · -- a handler of the reader, with the callback
    cases hphase.completed hout with
    | scheduled _ _ _ hout hphase' hweight =>
      subst hout
      refine Or.inl ⟨⟨rfl, frames, read, hstream, hphase', hok⟩, ?_⟩
      simp only [measure]
      omega
    | answered _ hrequest _ hout hphase' hweight =>
      subst hout
      -- the frames that have been handled grow by this one
      refine Or.inl ⟨⟨rfl, _, read, hstream, hphase', ?_⟩, ?_⟩
      · intro frame hframe
        rcases List.mem_append.mp hframe with hframe | hframe
        · exact hok frame hframe
        · rw [List.mem_singleton.mp hframe]
          exact frameFailure_eq_none_iff.mpr hrequest
      · simp only [measure, sendMove, send_reader]
        omega
    -- the frames before are requests and this one is not, whatever is still to come
    | refused _ hfailure hout hpart =>
      refine Or.inr ?_
      rw [reason_of_failing_frame (hstream ▸ hpart _) hok hfailure]
      exact hout
    | stopped _ _ hout hreason =>
      refine Or.inr ?_
      rw [reason_of_frames_ok (hstream ▸ hreason _) hok]
      exact hout
  · -- the end of the stream
    obtain ⟨hout, hparse⟩ := hphase.failed hout
    refine Or.inr ?_
    rw [hincoming, List.append_nil] at hstream
    rw [reason_of_frames_ok (hstream ▸ hparse) hok]
    exact hout

/-- **A connection that serves its stream can go on** by an event of the stream alone, and be it its
end. -/
theorem Serving.progress (h : Serving stream s) :
    ∃ event s', s.step (.stream event) = some s' := by
  obtain ⟨hnone, frames, read, -, hphase, -⟩ := h
  have hstep : ∀ event e rest out, event.read s.incoming = some (e, rest) →
      s.connection.onRead e = some out → s.step (.stream event) = some ⟨out.2, rest, out.1⟩ := by
    intro event e rest out he hout
    simp only [step, hnone, if_true, he, Option.bind_some, hout, Option.map_some]
  rcases hphase.progress with ⟨out, hout⟩ | ⟨hreceive, hfail⟩
  · exact ⟨.complete, _, hstep .complete _ _ out rfl hout⟩
  · cases hincoming : s.incoming with
    | nil =>
      obtain ⟨out, hout⟩ := hfail .eof
      exact ⟨.eof, _, hstep .eof _ _ out (if_pos hincoming) hout⟩
    | cons b rest =>
      obtain ⟨out, hout⟩ := hreceive b
      have hread : StreamEvent.read s.incoming (.receive 1) = some (.received [b], rest) := by
        simp [StreamEvent.read, hincoming]
      exact ⟨.receive 1, _, hstep _ _ _ out hread hout⟩

/-- What only touches the writes goes on with serving the stream. Reading and writing share the
socket and nothing else. -/
theorem Serving.of_write {c : TcpConnection} (h : Serving stream s)
    (hreader : c.reader = s.connection.reader) (hprotocol : c.protocol = s.connection.protocol) :
    Serving stream ⟨c, s.incoming, none⟩ := by
  obtain ⟨-, frames, read, hstream, hphase, hok⟩ := h
  refine ⟨rfl, frames, read, hstream, ?_, hok⟩
  show FramedPhase maxReadBufferSizeBytes () () c.reader c.protocol frames read
  rw [hreader, hprotocol]
  exact hphase

/-- **Every event goes on with serving the stream, or ends it**: for its reason, or with an error of
the socket. -/
theorem serving_step {event : Event} (h : Serving stream s) (hstep : s.step event = some s') :
    Serving stream s' ∨ s'.stopped = some (reason stream) ∨
      ∃ e, s'.stopped = some (.systemError e) := by
  have hnone := h.1
  cases event with
  | stream event =>
    rcases serving_stream h hstep with ⟨h', -⟩ | h'
    · exact Or.inl h'
    · exact Or.inr (Or.inl h')
  | readError e =>
    obtain ⟨-, frames, read, hstream, hphase, hok⟩ := h
    simp only [step, hnone, if_true] at hstep
    obtain ⟨out, hout, rfl⟩ := Option.map_eq_some_iff.mp hstep
    exact Or.inr (Or.inr ⟨e, (hphase.failed hout).1⟩)
  -- a write touches neither the reader nor the stream
  | transfer i n =>
    simp only [step, hnone, if_true] at hstep
    obtain ⟨t, ht, rfl⟩ := Option.map_eq_some_iff.mp hstep
    obtain ⟨u, -, rfl⟩ := Option.map_eq_some_iff.mp ht
    exact Or.inl (h.of_write rfl rfl)
  | written i =>
    simp only [step, hnone, if_true] at hstep
    obtain ⟨w, hw, rfl⟩ := Option.map_eq_some_iff.mp hstep
    obtain ⟨u, -, rfl⟩ := Option.map_eq_some_iff.mp hw
    exact Or.inl (h.of_write rfl rfl)
  | writeError i e =>
    simp only [step, hnone, if_true] at hstep
    obtain ⟨w, hw, rfl⟩ := Option.map_eq_some_iff.mp hstep
    obtain ⟨u, -, rfl⟩ := Option.map_eq_some_iff.mp hw
    exact Or.inl (h.of_write rfl rfl)

/-- **A run stops for the reason of its stream, or for an error of the socket.** An error of the
socket can come at any time and says nothing about the stream. -/
theorem reached_or_system_error {id : UInt64} {es : List Event} {f : Failure}
    (hrun : Runs.run step (start id stream) es = some s) (hstopped : s.stopped = some f) :
    f = reason stream ∨ ∃ e, f = .systemError e := by
  have hinv := Runs.run_invariant (P := fun s => Serving stream s ∨ s.stopped = some (reason stream) ∨
      ∃ e, s.stopped = some (.systemError e))
    (fun s e s' h hs => by
      rcases h with h | h | ⟨e, h⟩
      · exact serving_step h hs
      · simp [step, h] at hs
      · simp [step, h] at hs)
    (Or.inl (serving_start id stream)) hrun
  rcases hinv with ⟨hnone, -⟩ | h | ⟨e, h⟩
  · rw [hstopped] at hnone
    cases hnone
  · rw [hstopped] at h
    exact Or.inl (Option.some.inj h)
  · rw [hstopped] at h
    exact Or.inr ⟨e, Option.some.inj h⟩

/-- **Some run of every stream stops for its reason.** -/
theorem exists_run_reason (id : UInt64) (stream : Bytes) :
    ∃ es s, Runs.run step (start id stream) es = some s ∧
      s.stopped = some (reason stream) := by
  refine Runs.exists_run (P := Serving stream) measure ?_ (serving_start id stream)
  intro s h
  obtain ⟨event, s', hs'⟩ := h.progress
  exact ⟨_, s', hs', (serving_stream h hs').symm⟩

end ServeRun

/-! ## Streams that fail no assertion -/

/-- The frames fail no assertion: as far as the server gets, the prefixes say `ECHO` and the
payloads that parse are requests. It gets no further than the first payload that does not parse. -/
def FailNoAssertion : List Frame → Prop
  | [] => True
  | frame :: frames =>
    frame.framePrefix.type = FramePrefix.MessageType.echo.number ∧
      match ChatMessage.parseFromArray frame.payload with
      | none => True
      | some m => m.type = ChatMessage.MessageType.echoRequest.number ∧ FailNoAssertion frames

/-- The condition, as the handler looks for it: no frame that an assertion fails for comes before
all others that are thrown for. -/
theorem failNoAssertion_iff {frames : List Frame} :
    FailNoAssertion frames ↔
      ∀ condition, frames.findSome? frameFailure ≠ some (.assertionFailed condition) := by
  induction frames with
  | nil => simp [FailNoAssertion]
  | cons frame frames ih =>
    rw [FailNoAssertion, List.findSome?_cons]
    -- the first frame decides, by the check at which it fails, or leaves it to the rest
    by_cases htype : frame.framePrefix.type = FramePrefix.MessageType.echo.number
    · cases hparse : ChatMessage.parseFromArray frame.payload with
      | none =>
        have hframe : frameFailure frame
            = some (.runtimeError "Wrong chat message format. Parse failed") := by
          simp only [frameFailure, if_pos htype, hparse]
        simp [htype, hframe]
      | some m =>
        by_cases hm : m.type = ChatMessage.MessageType.echoRequest.number
        · have hframe : frameFailure frame = none := by
            simp only [frameFailure, if_pos htype, hparse, if_pos hm]
          simpa [htype, hm, hframe] using ih
        · have hframe : frameFailure frame = some
              (.assertionFailed "echoMessage->type() == proto::ChatMessage::ECHO_REQUEST") := by
            simp only [frameFailure, if_pos htype, hparse, if_neg hm]
          simp [hm, hframe]
    · have hframe : frameFailure frame = some
          (.assertionFailed "_deserFramePrefixCache.type() == proto::FramePrefix::ECHO") := by
        simp only [frameFailure, if_neg htype]
      simp [htype, hframe]

/-- **The streams that fail no assertion of the server.** Whatever the chunks, the writes and the
errors of the socket: every assertion on the way from the reader to the response holds whenever it
is evaluated, if and only if the frames of the stream are what the own client would send, as far as
the server gets. -/
theorem tcpConnection_no_assertion_iff (id : UInt64) (stream : Bytes) :
    (∀ es s, Runs.run ServeRun.step (ServeRun.start id stream) es = some s →
      ∀ condition, s.stopped ≠ some (.assertionFailed condition)) ↔
      FailNoAssertion (parseFrames maxReadBufferSizeBytes stream).1 := by
  have hreason : (∀ condition, ServeRun.reason stream ≠ .assertionFailed condition) ↔
      FailNoAssertion (parseFrames maxReadBufferSizeBytes stream).1 := by
    rw [failNoAssertion_iff, ServeRun.reason]
    cases (parseFrames maxReadBufferSizeBytes stream).1.findSome? frameFailure with
    | some f => simp
    | none =>
      rcases parseFrames_reason maxReadBufferSizeBytes stream with h | h | h <;> simp [h]
  rw [← hreason]
  constructor
  · intro hall condition hfail
    obtain ⟨es, s, hrun, hstopped⟩ := ServeRun.exists_run_reason id stream
    exact hall es s hrun condition (hfail ▸ hstopped)
  · intro hno es s hrun condition hstopped
    rcases ServeRun.reached_or_system_error hrun hstopped with h | ⟨e, h⟩
    · exact hno condition h.symm
    · cases h

/-- A frame whose prefix says `CHAT`: the type assertion of `deserialize` fails. -/
theorem tcpConnection_chat_prefix_fails :
    let stream : Bytes := [13, 1, 0, 0, 0, 29, 2, 0, 0, 0, 0]
    let events : List ServeRun.Event := [.stream (.receive 10), .stream .complete,
      .stream (.receive 1), .stream .complete]
    ∃ s, Runs.run ServeRun.step (ServeRun.start 0 stream) events = some s ∧
      s.stopped = some
        (.assertionFailed "_deserFramePrefixCache.type() == proto::FramePrefix::ECHO") := by
  intro stream events
  have hresult : (Runs.run ServeRun.step (ServeRun.start 0 stream) events).map (·.stopped)
      = some (some
        (.assertionFailed "_deserFramePrefixCache.type() == proto::FramePrefix::ECHO")) := by
    decide +kernel
  exact Option.map_eq_some_iff.mp hresult

end Acs
