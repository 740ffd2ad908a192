import AsioClientServer.Client.AsyncTcpClient
import AsioClientServer.Conn.Framing
import AsioClientServer.Lib.Runs

/-!
# What a client displays

The client on a stream of any bytes, with a user who enters lines and a socket that may fail at any
time. The reader and the writer share one `Protocol` object, and every handler may throw.

* `displays`: what is displayed, read off the stream.
* `Displaying`: the reader stands in the framed loop, and what it has delivered is displayed.
* `client_displays`: the stream alone decides what is displayed, whatever the user enters and the
  writes do.
-/

namespace Acs

/-! ## Up to the first error -/

/-- The values before the first error, and that error. A client displays message after message until
one of its handlers throws. -/
def untilError {ε β : Type*} : List (Except ε β) → List β × Option ε
  | [] => ([], none)
  | .ok b :: rest => (b :: (untilError rest).1, (untilError rest).2)
  | .error e :: _ => ([], some e)

/-- Values that are in front stay in front. -/
theorem untilError_append {ε β : Type*} (bs : List β) (rest : List (Except ε β)) :
    untilError (bs.map .ok ++ rest) = (bs ++ (untilError rest).1, (untilError rest).2) := by
  induction bs with
  | nil => rfl
  | cons b bs ih => rw [List.map_cons, List.cons_append, untilError, ih, List.cons_append]

theorem untilError_ok {ε β : Type*} (bs : List β) :
    untilError (bs.map (Except.ok : β → Except ε β)) = (bs, none) := by
  rw [← List.append_nil (bs.map _), untilError_append]
  simp [untilError]

/-! ## What a stream displays -/

/-- What `_handleRead` displays of a frame, or throws for it. It depends on nothing but the
frame. -/
def shown (received : Frame) : Except Failure (UInt32 × Bytes) :=
  (({ deserFramePrefixCache := received.framePrefix } : Protocol).deserialize
    received.payload).bind EchoHandler.handleClient

/-- What a client displays of a stream that ends, and the exception that ends it: the one of its own
handler, or else the one the parser stops for. -/
def displays (stream : Bytes) : List (UInt32 × Bytes) × Failure :=
  let parsed := parseFrames maxReadBufferSizeBytes stream
  let handled := untilError (parsed.1.map shown)
  (handled.1, handled.2.getD parsed.2)

section Displays

variable {stream : Bytes} {frames : List Frame} {displayed : List (UInt32 × Bytes)}

/-- What has been displayed of the first frames is the first part of what the stream displays. -/
theorem displayed_prefix_displays
    (hpart : frames <+: (parseFrames maxReadBufferSizeBytes stream).1)
    (hshown : frames.map shown = displayed.map .ok) : displayed <+: (displays stream).1 := by
  obtain ⟨rest, hrest⟩ := hpart
  rw [displays, ← hrest, List.map_append, hshown, untilError_append]
  exact List.prefix_append _ _

/-- If all frames can be displayed, they all are, and the stream ends for the reason of the
parser. -/
theorem displays_of_frames_ok {f : Failure}
    (hparse : parseFrames maxReadBufferSizeBytes stream = (frames, f))
    (hshown : frames.map shown = displayed.map .ok) : displays stream = (displayed, f) := by
  rw [displays, hparse]
  simp only [hshown, untilError_ok, Option.getD_none]

/-- If a frame cannot be displayed, those before it are, and the stream ends for the failure of its
handler. -/
theorem displays_of_failing_frame {received : Frame} {f : Failure}
    (hpart : frames ++ [received] <+: (parseFrames maxReadBufferSizeBytes stream).1)
    (hshown : frames.map shown = displayed.map .ok) (hfail : shown received = .error f) :
    displays stream = (displayed, f) := by
  obtain ⟨rest, hrest⟩ := hpart
  rw [displays, ← hrest, List.append_assoc, List.map_append, hshown, untilError_append]
  simp only [List.singleton_append, List.map_cons, hfail, untilError, List.append_nil,
    Option.getD_some]

end Displays

/-! ## The receive loop of the client -/

namespace AsyncTcpClient

/-- The client's reader is in the framed loop, after `frames` and `read` bytes. It is `FramedPhase`
at the client's parameters. -/
def Receiving (c : AsyncTcpClient) (frames : List Frame) (read : Bytes) : Prop :=
  FramedPhase maxReadBufferSizeBytes () () c.reader c.protocol frames read

/-- How the completion of a read can end, after `frames` and `read` bytes. The two cases that throw
say what the stream has, whatever is still to come. -/
inductive ReadCompletion (c : AsyncTcpClient) (frames : List Frame) (read : Bytes)
    (out : Except Failure (Option (UInt32 × Bytes)) × AsyncTcpClient) : Prop
  /-- The read of the payload is scheduled. -/
  | scheduled (hout : out.1 = .ok none) (hphase : out.2.Receiving frames read)
      (hweight : out.2.reader.weight < c.reader.weight)
  /-- The message is displayed. -/
  | displayed {received : Frame} {entry : UInt32 × Bytes} (hshown : shown received = .ok entry)
      (hout : out.1 = .ok (some entry)) (hphase : out.2.Receiving (frames ++ [received]) read)
      (hweight : out.2.reader.weight < c.reader.weight)
  /-- The callback throws. -/
  | refused {received : Frame} {f : Failure} (hshown : shown received = .error f)
      (hout : out.1 = .error f)
      (hpart : ∀ incoming, frames ++ [received]
        <+: (parseFrames maxReadBufferSizeBytes (read ++ incoming)).1)
  /-- The reader throws. -/
  | stopped {f : Failure} (hout : out.1 = .error f)
      (hreason : ∀ incoming, parseFrames maxReadBufferSizeBytes (read ++ incoming) = (frames, f))

variable {c : AsyncTcpClient} {frames : List Frame} {read : Bytes}
  {out : Except Failure (Option (UInt32 × Bytes)) × AsyncTcpClient}

/-- `_handleRead` displays the frame of the cached prefix and the payload. -/
theorem handleRead_eq (c : AsyncTcpClient) (payload : Bytes) :
    c.handleRead payload = shown ⟨c.protocol.deserFramePrefixCache, payload⟩ := rfl

/-- Bytes that arrive are kept in the reader, and nothing is displayed. -/
theorem Receiving.received {piece : Bytes} (h : c.Receiving frames read)
    (hr : c.onRead (.received piece) = some out) :
    out.1 = .ok none ∧ out.2.Receiving frames (read ++ piece) ∧
      out.2.reader.weight = c.reader.weight + 2 * piece.length := by
  obtain ⟨res, hres, rfl⟩ := Option.map_eq_some_iff.mp hr
  obtain ⟨hexit, hprotocol, hphase, hweight⟩ := FramedPhase.received h hres
  simp only [afterHandler, hexit, hprotocol]
  exact ⟨trivial, hphase, hweight⟩

/-- A stream that fails ends the loop with its error, where the parser ends. -/
theorem Receiving.failed {e : Asio.ErrorCode} (h : c.Receiving frames read)
    (hr : c.onRead (.failed e) = some out) :
    out.1 = .error (.systemError e) ∧
      parseFrames maxReadBufferSizeBytes read = (frames, .systemError .eof) := by
  obtain ⟨res, hres, rfl⟩ := Option.map_eq_some_iff.mp hr
  obtain ⟨hexit, hparse⟩ := FramedPhase.failed h hres
  refine ⟨?_, hparse⟩
  simp only [afterHandler, hexit]

/-- **A read that completes schedules the next one, displays a message, or ends in an exception.**
The callback of the client throws for a frame it does not take, and displays the others. -/
theorem Receiving.completed (h : c.Receiving frames read) (hr : c.onRead .completed = some out) :
    ReadCompletion c frames read out := by
  obtain ⟨res, hres, rfl⟩ := Option.map_eq_some_iff.mp hr
  cases FramedPhase.completed (by decide) h hres with
  | scheduled _ _ _ hexit hphase hweight =>
    have hout : c.afterHandler res
        = (.ok none, { c with reader := res.reader, protocol := res.protocol }) := by
      simp only [afterHandler, hexit]
    rw [hout]
    exact .scheduled rfl hphase hweight
  | delivered _ hexit hprotocol _ hphase hweight =>
    have hcallback : res.afterCallback = res.reader := by
      simp only [HandlerResult.afterCallback, hexit]
    have hread := handleRead_eq { c with reader := res.reader, protocol := res.protocol }
      c.reader.readBuffer
    rw [hprotocol] at hread
    -- the frame is displayed or thrown for; what was read of the stream up to it is the same
    cases hshown : shown ⟨c.protocol.deserFramePrefixCache, c.reader.readBuffer⟩ with
    | error f =>
      refine .refused hshown ?_ fun incoming => FramedPhase.prefix_parseFrames hphase rfl
      simp only [afterHandler, hexit, hprotocol, hread, hshown]
    | ok entry =>
      have hout : c.afterHandler res = (.ok (some entry), { c with reader := res.reader }) := by
        simp only [afterHandler, hexit, hprotocol, hread, hshown, hcallback]
      rw [hout]
      exact .displayed hshown rfl hphase hweight
  -- here the reader itself throws, and the parser stops at the same prefix
  | badPrefix _ hexit hframes hread hpre hparse =>
    refine .stopped (f := .runtimeError "Wrong frame prefix format. Parse failed") ?_ ?_
    · simp only [afterHandler, hexit]
    · intro incoming
      rw [hread, List.append_assoc, parseFrames_append hframes, parseFrames_badPrefix hpre hparse,
        List.append_nil]
  | tooLong _ hexit hframes hread hpre hparse hmax =>
    refine .stopped (f := .lengthError "Message size exceeds max read buffer size") ?_ ?_
    · simp only [afterHandler, hexit]
    · intro incoming
      rw [hread, List.append_assoc, parseFrames_append hframes,
        parseFrames_tooLong hpre hparse hmax, List.append_nil]

/-- **A client that receives can go on**: its handler runs, or it takes a byte and any error. -/
theorem Receiving.progress (h : c.Receiving frames read) :
    (∃ out, c.onRead .completed = some out) ∨
      (∀ b, ∃ out, c.onRead (.received [b]) = some out) ∧
        ∀ e, ∃ out, c.onRead (.failed e) = some out := by
  rcases FramedPhase.progress h with ⟨res, hres⟩ | ⟨hreceive, hfail⟩
  · exact Or.inl ⟨_, Option.map_eq_some_iff.mpr ⟨res, hres, rfl⟩⟩
  · refine Or.inr ⟨fun b => ?_, fun e => ?_⟩
    · obtain ⟨res, hres⟩ := hreceive b
      exact ⟨_, Option.map_eq_some_iff.mpr ⟨res, hres, rfl⟩⟩
    · obtain ⟨res, hres⟩ := hfail e
      exact ⟨_, Option.map_eq_some_iff.mpr ⟨res, hres, rfl⟩⟩

end AsyncTcpClient

/-! ## The system -/

/-- A client that is connected, with the bytes of the server that have not arrived, and what it has
displayed until now. -/
structure DisplayRun where
  client : AsyncTcpClient
  /-- The counter of `EchoCommandHandler::handleCommand`. -/
  echoCommandId : UInt64 := 0
  incoming : Bytes
  displayed : List (UInt32 × Bytes) := []
  /-- The exception or the assertion that has ended the client. -/
  stopped : Option Failure := none
  deriving DecidableEq, Repr

/-- What the server, the user and the socket do. -/
inductive DisplayRun.Event where
  | stream (event : StreamEvent)
  /-- The socket fails while the reader waits. -/
  | readError (e : Asio.ErrorCode)
  /-- The command loop reads a line. -/
  | command (line : Bytes)
  | transfer (i n : Nat)
  | written (i : Nat)
  | writeError (i : Nat) (e : Asio.ErrorCode)
  deriving DecidableEq, Repr

namespace DisplayRun

/-- The client has just been connected and has started its loop. -/
def start (stream : Bytes) : DisplayRun :=
  let connected := ({} : AsyncTcpClient).handleConnect none
  { client := connected.2, incoming := stream, stopped := connected.1 }

/-- The state after an event of the reader: what is displayed is recorded, and what is thrown ends
the run. -/
def afterRead (s : DisplayRun) (incoming : Bytes)
    (out : Except Failure (Option (UInt32 × Bytes)) × AsyncTcpClient) : DisplayRun :=
  match out.1 with
  | .error f => { s with client := out.2, incoming, stopped := some f }
  | .ok shown => { s with client := out.2, incoming, displayed := s.displayed ++ shown.toList }

/-- An echo command is entered. It uses the protocol object the reader uses. The two share one
object on the client, so serializing must not touch what the reader has cached. -/
def enter (s : DisplayRun) (text : Bytes) : DisplayRun :=
  let handled := EchoCommandHandler.handleCommand text s.client s.echoCommandId
  { s with client := handled.2.1, echoCommandId := handled.2.2, stopped := handled.1 }

/-- The state after the handler of a write. -/
def afterWrite (s : DisplayRun) (out : Option Failure × AsyncWriter) : DisplayRun :=
  { s with client := { s.client with writer := out.2 }, stopped := out.1 }

/-- The next state, `none` where the event is not possible. Nothing happens once the client has
stopped. -/
def step (s : DisplayRun) (event : Event) : Option DisplayRun :=
  if s.stopped = none then
    match event with
    | .stream event =>
      (event.read s.incoming).bind fun e => (s.client.onRead e.1).map (s.afterRead e.2)
    | .readError e => (s.client.onRead (.failed e)).map (s.afterRead s.incoming)
    | .command line => some ((dispatchCommand line).elim s s.enter)
    | .transfer i n =>
      (Asio.transfer s.client.writer.writeBuffer s.client.writer.outstanding i n).map fun t =>
        { s with client := { s.client with writer := { s.client.writer with outstanding := t.2 } } }
    | .written i =>
      (Asio.finish s.client.writer.outstanding i).map fun outstanding =>
        s.afterWrite ({ s.client.writer with outstanding }.handleWriteFinished none)
    | .writeError i e =>
      (Asio.abort s.client.writer.outstanding i).map fun outstanding =>
        s.afterWrite ({ s.client.writer with outstanding }.handleWriteFinished (some e))
  else none

/-- The event may end the client with `f` without regard to the stream: the socket fails, or a line
is longer than the command loop delivers. -/
def Event.Fails (f : Failure) : Event → Prop
  | .readError e => f = .systemError e
  | .writeError _ e => f = .systemError e
  | .command line => maxReadBufferSizeBytes ≤ line.length
  | .stream _ | .transfer _ _ | .written _ => False

/-! ## The invariant -/

/-- The client has taken in `read`, whose `frames` it has displayed. What is still to come of the
stream is the rest of it. -/
structure Displaying (stream : Bytes) (s : DisplayRun) (frames : List Frame) (read : Bytes) :
    Prop where
  stream_eq : stream = read ++ s.incoming
  shown_eq : frames.map shown = s.displayed.map .ok
  frames_prefix : frames <+: (parseFrames maxReadBufferSizeBytes stream).1

/-- The client receives, or its stream has ended it and is displayed, or something else has. -/
def Progress (stream : Bytes) (es : List Event) (s : DisplayRun) (frames : List Frame)
    (read : Bytes) : Prop :=
  (s.stopped = none ∧ s.client.Receiving frames read) ∨
  (s.stopped = some (displays stream).2 ∧ s.displayed = (displays stream).1) ∨
  ∃ f, s.stopped = some f ∧ ∃ event ∈ es, event.Fails f

/-- How many events of the stream are possible at most. Commands and writes are not counted: a user
may go on for ever. -/
def measure (s : DisplayRun) : Nat :=
  3 * s.incoming.length + s.client.reader.weight

variable {stream : Bytes} {s s' : DisplayRun} {frames : List Frame} {read : Bytes}

theorem displaying_start (stream : Bytes) :
    Displaying stream (start stream) [] [] ∧ (start stream).stopped = none ∧
      (start stream).client.Receiving [] [] := by
  obtain ⟨reader, hread, hphase, -⟩ := readAsyncProtoInfOccupy_phase
    (r := ({ maxBufferSize := maxReadBufferSizeBytes } : AsyncReader Unit Unit)) rfl rfl rfl
    (by decide) () () {}
  have hstart : start stream = { client := { reader }, incoming := stream } := by
    simp only [start, AsyncTcpClient.handleConnect, AsyncTcpClient.receiveInfinitely, hread]
  rw [hstart]
  exact ⟨⟨rfl, rfl, List.nil_prefix⟩, rfl, hphase⟩

/-- What leaves the reader and the stream alone goes on with displaying it. -/
theorem Displaying.of_frame (h : Displaying stream s frames read)
    (hreceiving : s.client.Receiving frames read) (hincoming : s'.incoming = s.incoming)
    (hdisplayed : s'.displayed = s.displayed) (hreader : s'.client.reader = s.client.reader)
    (hcache : s'.client.protocol.deserFramePrefixCache
      = s.client.protocol.deserFramePrefixCache) :
    Displaying stream s' frames read ∧ s'.client.Receiving frames read := by
  refine ⟨⟨by rw [hincoming]; exact h.stream_eq, by rw [hdisplayed]; exact h.shown_eq,
    h.frames_prefix⟩, ?_⟩
  unfold AsyncTcpClient.Receiving
  rw [hreader]
  exact FramedPhase.protocol_congr hreceiving hcache

/-- **An event of the stream goes on with displaying it, or ends it for its reason.** The measure
goes down with each of them, whatever the user does in between. -/
theorem displaying_stream (h : Displaying stream s frames read) (hrunning : s.stopped = none)
    (hreceiving : s.client.Receiving frames read) {event : StreamEvent}
    (hstep : s.step (.stream event) = some s') :
    ∃ frames' read', Displaying stream s' frames' read' ∧
      ((s'.stopped = none ∧ s'.client.Receiving frames' read' ∧ s'.measure < s.measure) ∨
        s'.stopped = some (displays stream).2 ∧ s'.displayed = (displays stream).1) := by
  obtain ⟨-, hevent⟩ := Option.ite_none_right_eq_some.mp hstep
  obtain ⟨e, he, hevent⟩ := Option.bind_eq_some_iff.mp hevent
  obtain ⟨out, hread, rfl⟩ := Option.map_eq_some_iff.mp hevent
  obtain ⟨res, hres, -⟩ := Option.map_eq_some_iff.mp hread
  have hstream := h.stream_eq
  rcases StreamEvent.read_cases he hres with ⟨piece, rest, hpiece, hincoming, rfl⟩ | rfl |
    ⟨hincoming, rfl⟩
  · -- bytes that arrive
    obtain ⟨hout, hphase, hweight⟩ := hreceiving.received hread
    have hpos : 0 < piece.length := List.length_pos_iff.mpr hpiece
    simp only [afterRead, hout, Option.toList_none, List.append_nil]
    refine ⟨frames, read ++ piece, ⟨?_, h.shown_eq, h.frames_prefix⟩,
      Or.inl ⟨hrunning, hphase, ?_⟩⟩
    · rw [hstream, hincoming, List.append_assoc]
    · simp only [measure, hincoming, List.length_append, hweight]
      omega
  · -- a handler of the reader, with the callback
    cases hreceiving.completed hread with
    | scheduled hout hphase hweight =>
      simp only [afterRead, hout, Option.toList_none, List.append_nil]
      refine ⟨frames, read, ⟨hstream, h.shown_eq, h.frames_prefix⟩,
        Or.inl ⟨hrunning, hphase, ?_⟩⟩
      simp only [measure]
      omega
    | displayed hshown hout hphase hweight =>
      simp only [afterRead, hout, Option.toList_some]
      refine ⟨_, read, ⟨hstream, ?_, FramedPhase.prefix_parseFrames hphase hstream⟩,
        Or.inl ⟨hrunning, hphase, ?_⟩⟩
      · rw [List.map_append, List.map_append, h.shown_eq, List.map_singleton, hshown,
          List.map_singleton]
      · simp only [measure]
        omega
    -- the handler has thrown at this frame, and so does the reading of the stream
    | refused hshown hout hpart =>
      have hdisplays := displays_of_failing_frame (hstream ▸ hpart _) h.shown_eq hshown
      simp only [afterRead, hout, hdisplays]
      exact ⟨frames, read, ⟨hstream, h.shown_eq, h.frames_prefix⟩, Or.inr ⟨trivial, trivial⟩⟩
    | stopped hout hreason =>
      have hdisplays := displays_of_frames_ok (hstream ▸ hreason _) h.shown_eq
      simp only [afterRead, hout, hdisplays]
      exact ⟨frames, read, ⟨hstream, h.shown_eq, h.frames_prefix⟩, Or.inr ⟨trivial, trivial⟩⟩
  · -- the end of the stream
    obtain ⟨hout, hparse⟩ := hreceiving.failed hread
    rw [hincoming, List.append_nil] at hstream
    have hdisplays := displays_of_frames_ok (hstream ▸ hparse) h.shown_eq
    simp only [afterRead, hout, hdisplays]
    refine ⟨frames, read, ⟨?_, h.shown_eq, h.frames_prefix⟩, Or.inr ⟨trivial, trivial⟩⟩
    rw [List.append_nil]
    exact hstream

/-- A command changes nothing that receiving looks at: it writes the other one of the two cached
prefixes. -/
theorem enter_frame (s : DisplayRun) (text : Bytes) :
    (s.enter text).incoming = s.incoming ∧ (s.enter text).displayed = s.displayed ∧
      (s.enter text).client.reader = s.client.reader ∧
      (s.enter text).client.protocol.deserFramePrefixCache
        = s.client.protocol.deserFramePrefixCache := by
  have hserialize : ∀ message, (s.client.protocol.serialize message).2.deserFramePrefixCache
      = s.client.protocol.deserFramePrefixCache := by
    intro message
    simp only [Protocol.serialize]
    split
    · rfl
    · split
      · rfl
      · split <;> rfl
  simp only [enter, EchoCommandHandler.handleCommand, AsyncTcpClient.send]
  have hcache := hserialize
    (.chatMessage (EchoCommandHandler.echoMessage s.echoCommandId text))
  generalize s.client.protocol.serialize _ = serialized at hcache
  obtain ⟨f | wireMessage, protocol⟩ := serialized
  · exact ⟨trivial, trivial, rfl, hcache⟩
  · exact ⟨trivial, trivial, rfl, hcache⟩

/-- A line that the command loop delivers is encoded. -/
theorem enter_stopped (s : DisplayRun) {line text : Bytes}
    (hdispatch : dispatchCommand line = some text) (hline : line.length < maxReadBufferSizeBytes) :
    (s.enter text).stopped = none := by
  have hlen := dispatchCommand_length hdispatch
  have hframable : (MessageLite.chatMessage
      (EchoCommandHandler.echoMessage s.echoCommandId text)).Framable := by
    apply echoMessage_framable
    rw [maxReadBufferSizeBytes] at hline
    omega
  simp only [enter, EchoCommandHandler.handleCommand, s.client.send_eq hframable]

/-- **Every event goes on with displaying the stream, or ends it.** -/
theorem displaying_step (h : Displaying stream s frames read) (hrunning : s.stopped = none)
    (hreceiving : s.client.Receiving frames read) {event : Event}
    (hstep : s.step event = some s') :
    ∃ frames' read', Displaying stream s' frames' read' ∧
      Progress stream [event] s' frames' read' := by
  have hevent := (Option.ite_none_right_eq_some.mp hstep).2
  cases event with
  | stream event =>
    obtain ⟨frames', read', h', ⟨hrun, hphase, -⟩ | hended⟩ :=
      displaying_stream h hrunning hreceiving hstep
    · exact ⟨frames', read', h', Or.inl ⟨hrun, hphase⟩⟩
    · exact ⟨frames', read', h', Or.inr (Or.inl hended)⟩
  | readError e =>
    obtain ⟨out, hread, rfl⟩ := Option.map_eq_some_iff.mp hevent
    obtain ⟨hout, -⟩ := hreceiving.failed hread
    simp only [afterRead, hout]
    exact ⟨frames, read, ⟨h.stream_eq, h.shown_eq, h.frames_prefix⟩,
      Or.inr (Or.inr ⟨_, rfl, _, List.mem_singleton_self _, rfl⟩)⟩
  -- a command uses the protocol object too, but not the part of it that the reader caches
  | command line =>
    have heq : (dispatchCommand line).elim s s.enter = s' := Option.some.inj hevent
    cases hdispatch : dispatchCommand line with
    | none =>
      rw [hdispatch, Option.elim_none] at heq
      subst heq
      exact ⟨frames, read, h, Or.inl ⟨hrunning, hreceiving⟩⟩
    | some text =>
      rw [hdispatch, Option.elim_some] at heq
      subst heq
      obtain ⟨hincoming, hdisplayed, hreader, hcache⟩ := s.enter_frame text
      obtain ⟨h', hphase⟩ : Displaying stream (s.enter text) frames read ∧
          (s.enter text).client.Receiving frames read :=
        h.of_frame hreceiving hincoming hdisplayed hreader hcache
      refine ⟨frames, read, h', ?_⟩
      by_cases hline : line.length < maxReadBufferSizeBytes
      · exact Or.inl ⟨s.enter_stopped hdispatch hline, hphase⟩
      · -- a line longer than the command loop delivers is looked at too, and may fail to be encoded
        cases hstopped : (s.enter text).stopped with
        | none => exact Or.inl ⟨hstopped, hphase⟩
        | some f =>
          exact Or.inr (Or.inr ⟨f, hstopped, _, List.mem_singleton_self _, Nat.le_of_not_lt hline⟩)
  -- the writes have no part in what is displayed
  | transfer i n =>
    obtain ⟨t, -, rfl⟩ := Option.map_eq_some_iff.mp hevent
    exact ⟨frames, read, ⟨h.stream_eq, h.shown_eq, h.frames_prefix⟩,
      Or.inl ⟨hrunning, hreceiving⟩⟩
  | written i =>
    obtain ⟨outstanding, -, rfl⟩ := Option.map_eq_some_iff.mp hevent
    exact ⟨frames, read, ⟨h.stream_eq, h.shown_eq, h.frames_prefix⟩,
      Or.inl ⟨rfl, hreceiving⟩⟩
  | writeError i e =>
    obtain ⟨outstanding, -, rfl⟩ := Option.map_eq_some_iff.mp hevent
    refine ⟨frames, read, ⟨h.stream_eq, h.shown_eq, h.frames_prefix⟩, ?_⟩
    cases e with
    | eof => exact Or.inl ⟨rfl, hreceiving⟩
    | _ => exact Or.inr (Or.inr ⟨_, rfl, _, List.mem_singleton_self _, rfl⟩)

/-- In every run the client has displayed what it has taken in. Induction on the run. -/
theorem displaying_of_run {es : List Event} (hrun : Runs.run step (start stream) es = some s) :
    ∃ frames read, Displaying stream s frames read ∧ Progress stream es s frames read := by
  have hmeets : Runs.StepsMeet step (fun _ _ => True) (start stream) es :=
    Runs.stepsMeet_of_forall (p := fun _ => True) (fun _ _ => trivial)
  obtain ⟨h, hstart⟩ := displaying_start stream
  have hprogress : Progress stream [] (start stream) [] [] := Or.inl hstart
  refine Runs.run_history (P := fun es s => ∃ frames read, Displaying stream s frames read ∧
    Progress stream es s frames read) ?_ ⟨[], [], h, hprogress⟩ hmeets hrun
  rintro es s event s' ⟨frames, read, h, hprogress⟩ - hs
  have hrunning := (Option.ite_none_right_eq_some.mp hs).1
  rcases hprogress with ⟨-, hreceiving⟩ | ⟨hstopped, -⟩ | ⟨f, hstopped, -⟩
  · obtain ⟨frames', read', h', hprogress'⟩ := displaying_step h hrunning hreceiving hs
    refine ⟨frames', read', h', ?_⟩
    rcases hprogress' with hrun | hended | ⟨f, hstop, event', hmem, hfails⟩
    · exact Or.inl hrun
    · exact Or.inr (Or.inl hended)
    · exact Or.inr (Or.inr ⟨f, hstop, event', List.mem_append_right _ hmem, hfails⟩)
  · rw [hrunning] at hstopped
    cases hstopped
  · rw [hrunning] at hstopped
    cases hstopped

/-- **Some run displays the whole stream.** -/
theorem exists_run_displays (stream : Bytes) :
    ∃ es s, Runs.run step (start stream) es = some s ∧
      s.stopped = some (displays stream).2 ∧ s.displayed = (displays stream).1 := by
  obtain ⟨hstart, hrunning, hreceiving⟩ := displaying_start stream
  refine Runs.exists_run (P := fun s => ∃ frames read, Displaying stream s frames read ∧
    s.stopped = none ∧ s.client.Receiving frames read) measure ?_
    ⟨[], [], hstart, hrunning, hreceiving⟩
  rintro s ⟨frames, read, h, hrunning, hreceiving⟩
  -- a client that has not stopped can go on: complete a read, get a byte, or meet the end
  obtain ⟨event, s', hstep⟩ : ∃ event s', s.step (.stream event) = some s' := by
    have hstep : ∀ event e rest out, event.read s.incoming = some (e, rest) →
        s.client.onRead e = some out → s.step (.stream event) = some (s.afterRead rest out) := by
      intro event e rest out he hout
      simp only [step, hrunning, if_true, he, Option.bind_some, hout, Option.map_some]
    rcases hreceiving.progress with ⟨out, hout⟩ | ⟨hreceive, hfail⟩
    · exact ⟨.complete, _, hstep .complete _ _ out rfl hout⟩
    · cases hincoming : s.incoming with
      | nil =>
        obtain ⟨out, hout⟩ := hfail .eof
        exact ⟨.eof, _, hstep .eof _ _ out (if_pos hincoming) hout⟩
      | cons b rest =>
        obtain ⟨out, hout⟩ := hreceive b
        have hread : StreamEvent.read s.incoming (.receive 1) = some (.received [b], rest) := by
          simp [StreamEvent.read, hincoming]
        exact ⟨.receive 1, _, hstep _ _ _ out hread hout⟩
  obtain ⟨frames', read', h', ⟨hrun, hphase, hlt⟩ | hended⟩ :=
    displaying_stream h hrunning hreceiving hstep
  · exact ⟨_, s', hstep, Or.inr ⟨⟨frames', read', h', hrun, hphase⟩, hlt⟩⟩
  · exact ⟨_, s', hstep, Or.inl hended⟩

end DisplayRun

/-- **What a client displays is a function of the server's stream.** Whatever the bytes the server
sends, however they are cut, and whatever the user enters and the writes do: at every moment the
client has displayed the first part of what the stream displays. A client that stops, other than
for an error of its socket or a line the command loop does not deliver, stops for the reason of the
stream and has displayed all of it, and some run gets there. -/
theorem client_displays (stream : Bytes) :
    (∀ es s, Runs.run DisplayRun.step (DisplayRun.start stream) es = some s →
      s.displayed <+: (displays stream).1 ∧
      ∀ f, s.stopped = some f → (∀ event ∈ es, ¬ event.Fails f) →
        f = (displays stream).2 ∧ s.displayed = (displays stream).1) ∧
    ∃ es s, Runs.run DisplayRun.step (DisplayRun.start stream) es = some s ∧
      s.stopped = some (displays stream).2 ∧ s.displayed = (displays stream).1 := by
  refine ⟨fun es s hrun => ?_, DisplayRun.exists_run_displays stream⟩
  obtain ⟨frames, read, h, hprogress⟩ := DisplayRun.displaying_of_run hrun
  refine ⟨displayed_prefix_displays h.frames_prefix h.shown_eq, fun f hstopped hfails => ?_⟩
  rcases hprogress with ⟨hrunning, -⟩ | ⟨hreason, hdisplayed⟩ | ⟨f', hstopped', event, hmem, hfail⟩
  · rw [hstopped] at hrunning
    cases hrunning
  · exact ⟨Option.some.inj (hstopped.symm.trans hreason), hdisplayed⟩
  · obtain rfl := Option.some.inj (hstopped.symm.trans hstopped')
    exact absurd hfail (hfails event hmem)

end Acs
