import AsioClientServer.Server.ServeRun

/-!
# What a connection answers

`ServeRun` says why serving a stream stops, whatever the client sends. Here: which messages its
`send` is given until then, and how many bytes its writes transfer.

* `answers`: the greeting and the responses, read off the stream. A run passes the first part of
  them to `send`, in order (`Answering`), however the stream is cut and whatever the writes do.
* `TcpConnection.Sent`: what a connection is after calls of its `send`. A run records the messages
  beside the steps, and `sent_of_run` says that the record is the truth.
* `server_answers`: a run that its stream ends has passed them all to `send`, and the writes never
  transfer more bytes than the greeting has and the connection has taken in.
-/

namespace Acs

open TcpConnection Wire

/-! ## What is passed to `send` -/

/-- The request that `EchoHandler::handleServer` finds in a frame, if it finds one. The three
conditions are those at which `_handleRead` throws. -/
def requestOf (received : Frame) : Option ChatMessage :=
  if received.framePrefix.type = FramePrefix.MessageType.echo.number then
    (ChatMessage.parseFromArray received.payload).filter fun m =>
      m.type = ChatMessage.MessageType.echoRequest.number
  else none

/-- What it passes to `send` for the frame: the frame of its response. -/
def answerTo (received : Frame) : Option Bytes :=
  (requestOf received).map fun m => frame (.chatMessage (EchoHandler.response m))

/-- What a connection passes to `send` for a client that sends the stream: the greeting, and the
responses up to the first frame that is no request. -/
def answers (stream : Bytes) : List Bytes :=
  frame (.chatMessage welcome) ::
    ((parseFrames maxReadBufferSizeBytes stream).1.takeWhile
      fun received => (answerTo received).isSome).filterMap answerTo

namespace TcpConnection

/-- The string that `_handleRead` has for `send`, if it does not throw. -/
def answer (c : TcpConnection) (inputMessageData : Bytes) : Option Bytes :=
  (c.respond inputMessageData).1.toOption

/-- The string that the handler of a read has for `send`. That it is the argument of the call which
the connection makes is `onRead_sends`. -/
def answerOf (c : TcpConnection) (event : ReadEvent) : Option Bytes :=
  (c.reader.onEvent c.protocol event).bind fun res =>
    match res.exit with
    | .calls _ data _ => { c with reader := res.reader, protocol := res.protocol }.answer data
    | .returned | .threw _ => none

/-- The second connection is what the first one has become by the calls of `send` with the messages,
one after the other. Before, between and after the calls its reader and its protocol object may have
changed, and its writes may have gone on, which is all that the other operations can do to it. So
the list is neither longer nor shorter than what `send` has really been given, up to calls that
change nothing, and its last message is in the buffer. -/
inductive Sent : TcpConnection → List Bytes → TcpConnection → Prop
  | nil (c : TcpConnection) : Sent c [] c
  /-- One more call of the connection's own `send`, which may start a write or be refused. -/
  | send {c c' : TcpConnection} {messages : List Bytes} (h : Sent c messages c') (message : Bytes) :
      Sent c (messages ++ [message]) (c'.send message)
  | read {c c' : TcpConnection} {messages : List Bytes} (h : Sent c messages c')
      (reader : AsyncReader Unit Unit) (protocol : Protocol) :
      Sent c messages { c' with reader, protocol }
  /-- A transfer or the end of a write. -/
  | write {c c' : TcpConnection} {messages : List Bytes} {event : Event} {res : Result}
      (h : Sent c messages c') (hevent : ∀ e, event ≠ .read e) (hres : c'.onEvent event = some res) :
      Sent c messages res.connection

end TcpConnection

/-! ## The system -/

/-- `ServeRun` with what has been passed to `send` and what has reached the socket. That the record
is the truth about the connection is `sent_of_run`. -/
structure AnswerRun where
  serve : ServeRun
  /-- The messages `send` has been given, the refused ones included. -/
  sends : List Bytes
  /-- The contents of the buffer that the writes have put on the socket. -/
  wire : Bytes := []
  /-- How many bytes the writes have transferred. A write goes on to the length it was started with,
  also when a refused `send` has stored a shorter message over the one it writes. -/
  transferred : Nat := 0
  deriving DecidableEq, Repr

namespace AnswerRun

/-- The connection has been started: the greeting has been sent, and nothing has been
transferred. -/
def start (id : UInt64) (stream : Bytes) : AnswerRun :=
  let serve := ServeRun.start id stream
  -- `handleStart` has sent the greeting
  { serve, sends := [serve.connection.sendMsg] }

/-- The message a handler passes to `send` at the event. Only a handler of the reader sends. -/
def sent (s : AnswerRun) : ServeRun.Event → Option Bytes
  | .stream event =>
    (event.read s.serve.incoming).bind fun e => s.serve.connection.answerOf e.1
  | .readError e => s.serve.connection.answerOf (.failed e)
  | .transfer _ _ | .written _ | .writeError _ _ => none

/-- The piece of the buffer that the event puts on the socket. It is what the buffer holds there,
which is less than is transferred when the message has become shorter under the write. -/
def written (s : AnswerRun) : ServeRun.Event → Bytes
  | .transfer i n => ((s.serve.connection.onTransfer i n).map Prod.fst).getD []
  | .stream _ | .readError _ | .written _ | .writeError _ _ => []

/-- The number of bytes that the event puts on the socket, which is what the write has counted. -/
def moved : ServeRun.Event → Nat
  | .transfer _ n => n
  | .stream _ | .readError _ | .written _ | .writeError _ _ => 0

/-- A step of `ServeRun`, with what it sends and transfers. -/
def step (s : AnswerRun) (event : ServeRun.Event) : Option AnswerRun :=
  (s.serve.step event).map fun serve =>
    { serve
      sends := s.sends ++ (s.sent event).toList
      wire := s.wire ++ s.written event
      transferred := s.transferred + moved event }

end AnswerRun

/-! ## Answers to frames -/

/-- What makes a frame a request. -/
theorem requestOf_eq_some_iff {received : Frame} {m : ChatMessage} :
    requestOf received = some m ↔
      received.framePrefix.type = FramePrefix.MessageType.echo.number ∧
        ChatMessage.parseFromArray received.payload = some m ∧
        m.type = ChatMessage.MessageType.echoRequest.number := by
  unfold requestOf
  split
  · next htype => simp [htype, Option.filter_eq_some_iff]
  · next htype => simp [htype]

/-- The frames that are answered are those the handler does not throw for. -/
theorem answerTo_eq_none_iff {received : Frame} :
    answerTo received = none ↔ frameFailure received ≠ none := by
  rw [answerTo, Option.map_eq_none_iff, ne_eq, frameFailure_eq_none_iff,
    Option.eq_none_iff_forall_ne_some]
  constructor
  · rintro hnone ⟨htype, m, hparse, hm⟩
    exact hnone m (requestOf_eq_some_iff.mpr ⟨htype, hparse, hm⟩)
  · intro hnone m hrequest
    obtain ⟨htype, hparse, hm⟩ := requestOf_eq_some_iff.mp hrequest
    exact hnone ⟨htype, m, hparse, hm⟩

/-- The frames in front that are answered are the first to be answered. -/
theorem answers_append {stream : Bytes} {frames rest : List Frame}
    (hparse : (parseFrames maxReadBufferSizeBytes stream).1 = frames ++ rest)
    (hok : ∀ received ∈ frames, frameFailure received = none) :
    answers stream = (frame (.chatMessage welcome) :: frames.filterMap answerTo) ++
      (rest.takeWhile fun received => (answerTo received).isSome).filterMap answerTo := by
  have hall : ∀ received ∈ frames, (answerTo received).isSome = true := by
    intro received hmem
    rw [Option.isSome_iff_ne_none]
    exact fun hnone => answerTo_eq_none_iff.mp hnone (hok received hmem)
  rw [answers, hparse, List.takeWhile_append_of_pos hall, List.filterMap_append,
    List.cons_append]

/-- A stream of requests is answered to its end. -/
theorem answers_of_frames_ok {stream : Bytes} {frames : List Frame}
    (hparse : (parseFrames maxReadBufferSizeBytes stream).1 = frames)
    (hok : ∀ received ∈ frames, frameFailure received = none) :
    answers stream = frame (.chatMessage welcome) :: frames.filterMap answerTo := by
  rw [answers_append (hparse.trans (List.append_nil _).symm) hok, List.takeWhile_nil,
    List.filterMap_nil, List.append_nil]

/-- A stream is answered up to the first frame that is thrown for. What comes after it is not looked
at any more. -/
theorem answers_of_failing_frame {stream : Bytes} {frames : List Frame} {received : Frame}
    (hpart : frames ++ [received] <+: (parseFrames maxReadBufferSizeBytes stream).1)
    (hok : ∀ received ∈ frames, frameFailure received = none) (hfail : frameFailure received ≠ none) :
    answers stream = frame (.chatMessage welcome) :: frames.filterMap answerTo := by
  obtain ⟨rest, hrest⟩ := hpart
  have hnone : answerTo received = none := answerTo_eq_none_iff.mpr hfail
  rw [List.append_assoc, List.singleton_append] at hrest
  rw [answers_append hrest.symm hok, List.takeWhile_cons_of_neg (by simp [hnone]),
    List.filterMap_nil, List.append_nil]

/-- What has been answered is the first part of the answers. -/
theorem prefix_answers {stream : Bytes} {frames : List Frame}
    (hpart : frames <+: (parseFrames maxReadBufferSizeBytes stream).1)
    (hok : ∀ received ∈ frames, frameFailure received = none) :
    frame (.chatMessage welcome) :: frames.filterMap answerTo <+: answers stream := by
  obtain ⟨rest, hrest⟩ := hpart
  rw [answers_append hrest.symm hok]
  exact List.prefix_append _ _

namespace TcpConnection

variable {c : TcpConnection} {frames : List Frame} {read : Bytes} {event : ReadEvent}
  {out : Option Failure × TcpConnection}

/-! ## Answers of a connection -/

/-- What `send` does does not depend on the reader and the protocol object. -/
theorem send_with (c : TcpConnection) (reader : AsyncReader Unit Unit) (protocol : Protocol)
    (message : Bytes) :
    { c with reader, protocol }.send message = { c.send message with reader, protocol } := by
  simp only [send, doSend]
  split <;> rfl

/-- **`_handleRead` sends its answer, or throws.** Of the connection, nothing else has changed but
the protocol object. -/
theorem handleRead_answer (c : TcpConnection) (data : Bytes) :
    (∃ wire protocol, c.answer data = some wire ∧
      c.handleRead data = (none, { c with protocol }.sendMove wire)) ∨
    ∃ f protocol, c.answer data = none ∧ c.handleRead data = (some f, { c with protocol }) := by
  simp only [answer, handleRead]
  generalize c.respond data = responded
  obtain ⟨f | wire, protocol⟩ := responded
  · exact Or.inr ⟨f, protocol, rfl, rfl⟩
  · exact Or.inl ⟨wire, protocol, rfl, rfl⟩

/-- **What a read does to the writes is to send its answer**, if it has one. The rest of the
connection is as before, but for the reader and the protocol object. -/
theorem onRead_sends (hr : c.onRead event = some out) :
    ∃ reader protocol, out.2 = { (c.answerOf event).elim c c.send with reader, protocol } := by
  obtain ⟨res, hres, rfl⟩ := Option.map_eq_some_iff.mp hr
  simp only [afterHandler, answerOf, hres, Option.bind_some]
  cases res.exit with
  | returned => exact ⟨res.reader, res.protocol, rfl⟩
  | threw f => exact ⟨res.reader, res.protocol, rfl⟩
  | calls callback data once =>
    dsimp only
    rcases handleRead_answer { c with reader := res.reader, protocol := res.protocol } data with
      ⟨wire, protocol, hanswer, hread⟩ | ⟨f, protocol, hanswer, hread⟩
    · have hsend := send_with c res.reader protocol wire
      simp only [hanswer, hread, sendMove, hsend, Option.elim_some]
      exact ⟨res.afterCallback, protocol, rfl⟩
    · rw [hanswer, hread]
      exact ⟨res.reader, protocol, rfl⟩

/-- A read adds to what is left to write no more than it sends. -/
theorem left_onRead (hr : c.onRead event = some out) :
    Asio.left out.2.writes
      ≤ Asio.left c.writes + ((c.answerOf event).toList.map List.length).sum := by
  obtain ⟨reader, protocol, hout⟩ := onRead_sends hr
  rw [hout]
  cases c.answerOf event with
  | none => exact Nat.le_add_right _ _
  | some wire => simpa using (left_send_le c wire).1

/-- The answer to a payload depends on its frame alone. -/
theorem answer_eq {payload : Bytes} (hlen : payload.length ≤ maxLength) :
    c.answer payload = answerTo ⟨c.protocol.deserFramePrefixCache, payload⟩ := by
  unfold answer respond answerTo requestOf Protocol.deserialize
  by_cases htype : c.protocol.deserFramePrefixCache.type = FramePrefix.MessageType.echo.number
  · rw [if_pos htype, if_pos htype]
    cases hparse : ChatMessage.parseFromArray payload with
    | none => rfl
    | some m =>
      simp only [Option.filter_some]
      by_cases hm : m.type = ChatMessage.MessageType.echoRequest.number
      · rw [EchoHandler.handleServer_request c.protocol hparse hm hlen, if_pos (decide_eq_true hm)]
        rfl
      · rw [EchoHandler.handleServer, if_neg hm, if_neg (by simpa using hm)]
        rfl
  · rw [if_neg htype, if_neg htype]
    rfl

/-- **A handler of the loop answers the frame it delivers**, and nothing else. A prefix that has
been read is no frame yet, and a prefix that is refused never becomes one. -/
theorem Receiving.answerOf_completed (h : c.Receiving frames read)
    (hr : c.onRead .completed = some out) :
    ((∃ op, c.reader.outstanding = [⟨op, .handleReadProtoFramePrefixFinished true⟩]) ∧
      c.answerOf .completed = none) ∨
    (∃ op, c.reader.outstanding = [⟨op, .handleReadProtoMessageFinished true⟩]) ∧
      c.answerOf .completed
        = answerTo ⟨c.protocol.deserFramePrefixCache, c.reader.readBuffer⟩ := by
  obtain ⟨res, hres, -⟩ := Option.map_eq_some_iff.mp hr
  simp only [answerOf, hres, Option.bind_some]
  cases FramedPhase.completed (by decide) h hres with
  | scheduled hreads _ _ hexit =>
    rw [hexit]
    exact Or.inl ⟨⟨_, hreads⟩, rfl⟩
  | delivered hreads hexit hprotocol hlen =>
    rw [hexit]
    refine Or.inr ⟨⟨_, hreads⟩, ?_⟩
    have hanswer := answer_eq (c := { c with reader := res.reader, protocol := res.protocol })
      (hlen.trans (by decide))
    rw [hprotocol] at hanswer
    rw [hprotocol]
    exact hanswer
  | badPrefix hreads hexit =>
    rw [hexit]
    exact Or.inl ⟨⟨_, hreads⟩, rfl⟩
  | tooLong hreads hexit =>
    rw [hexit]
    exact Or.inl ⟨⟨_, hreads⟩, rfl⟩

/-- Bytes that arrive are not answered. -/
theorem Receiving.answerOf_received {piece : Bytes} (h : c.Receiving frames read)
    (hr : c.onRead (.received piece) = some out) : c.answerOf (.received piece) = none := by
  obtain ⟨res, hres, -⟩ := Option.map_eq_some_iff.mp hr
  obtain ⟨hexit, -⟩ := FramedPhase.received h hres
  simp only [answerOf, hres, Option.bind_some, hexit]

/-- The end of a stream is not answered. -/
theorem Receiving.answerOf_failed {e : Asio.ErrorCode} (h : c.Receiving frames read)
    (hr : c.onRead (.failed e) = some out) : c.answerOf (.failed e) = none := by
  obtain ⟨res, hres, -⟩ := Option.map_eq_some_iff.mp hr
  obtain ⟨hexit, -⟩ := FramedPhase.failed h hres
  simp only [answerOf, hres, Option.bind_some, hexit]

end TcpConnection

namespace AnswerRun

/-! ## The bytes on the socket -/

/-- What the writes have transferred and what they have still to transfer was sent. A refused
message counts as sent, and a write counts with the length it was started with. -/
def Covered (s : AnswerRun) : Prop :=
  s.transferred + Asio.left s.serve.connection.writes ≤ (s.sends.map List.length).sum

variable {stream : Bytes} {s s' : AnswerRun} {frames : List Frame} {read : Bytes}

/-- The connection starts to receive while it writes the greeting. -/
theorem serve_start (id : UInt64) (stream : Bytes) :
    ∃ c, ServeRun.start id stream = ⟨c, stream, none⟩ ∧ c.Receiving [] [] ∧
      c.writeInProgress = true ∧ c.sendMsg = frame (.chatMessage welcome) ∧
      c.writes = [⟨(frame (.chatMessage welcome)).length, 0⟩] ∧
      Sent { id, handler := .echoClientHandler } [frame (.chatMessage welcome)] c := by
  obtain ⟨c, hstart, hreceiving, hc⟩ := TcpConnection.start_eq
    (c := { id, handler := .echoClientHandler }) rfl rfl
  have hsent : Sent { id, handler := .echoClientHandler } [frame (.chatMessage welcome)] c := by
    rw [hc, sendMove]
    exact ((Sent.nil _).send _).read c.reader _
  have hsend := TcpConnection.send_of_idle (c := { id, handler := .echoClientHandler }) rfl
    (frame (.chatMessage welcome))
  rw [sendMove, hsend] at hc
  refine ⟨c, ?_, hreceiving, ?_, ?_, ?_, hsent⟩
  · rw [ServeRun.start, hstart]
  · exact congrArg TcpConnection.writeInProgress hc
  · exact congrArg TcpConnection.sendMsg hc
  · exact congrArg TcpConnection.writes hc

theorem covered_start (id : UInt64) (stream : Bytes) : Covered (start id stream) := by
  obtain ⟨c, hserve, -, -, hmsg, hwrites, -⟩ := serve_start id stream
  simp only [Covered, start, hserve, hwrites, hmsg, Asio.left]
  simp

/-- **Every event keeps the socket covered**, whatever the connection is doing. No condition is put
on when the answers are sent. -/
theorem covered_step {event : ServeRun.Event} (h : Covered s) (hstep : s.step event = some s') :
    Covered s' := by
  obtain ⟨serve, hserve, rfl⟩ := Option.map_eq_some_iff.mp hstep
  obtain ⟨-, hevent⟩ := Option.ite_none_right_eq_some.mp hserve
  unfold Covered at h ⊢
  simp only [List.map_append, List.sum_append]
  -- an answer moves its length to what is left to write, a transfer from there to what has been
  -- transferred; the other events only let go of it
  cases event with
  | stream event =>
    obtain ⟨e, he, hevent⟩ := Option.bind_eq_some_iff.mp hevent
    obtain ⟨out, hout, rfl⟩ := Option.map_eq_some_iff.mp hevent
    have hleft := TcpConnection.left_onRead hout
    simp only [sent, moved, he, Option.bind_some]
    omega
  | readError e =>
    obtain ⟨out, hout, rfl⟩ := Option.map_eq_some_iff.mp hevent
    have hleft := TcpConnection.left_onRead hout
    simp only [sent, moved]
    omega
  | transfer i n =>
    obtain ⟨t, ht, rfl⟩ := Option.map_eq_some_iff.mp hevent
    obtain ⟨u, hu, rfl⟩ := Option.map_eq_some_iff.mp ht
    obtain ⟨-, -, -, hleft⟩ := Asio.left_transfer hu
    simp only [sent, moved, Option.toList_none, List.map_nil, List.sum_nil]
    omega
  | written i =>
    obtain ⟨w, hw, rfl⟩ := Option.map_eq_some_iff.mp hevent
    obtain ⟨writes, hf, rfl⟩ := Option.map_eq_some_iff.mp hw
    obtain ⟨-, hleft⟩ := Asio.left_finish hf
    simp only [sent, moved, handleWrite, Option.toList_none, List.map_nil, List.sum_nil]
    omega
  | writeError i e =>
    obtain ⟨w, hw, rfl⟩ := Option.map_eq_some_iff.mp hevent
    obtain ⟨writes, ha, rfl⟩ := Option.map_eq_some_iff.mp hw
    obtain ⟨op, hop, rfl⟩ := Option.map_eq_some_iff.mp ha
    have hleft := Asio.left_eraseIdx hop
    simp only [sent, moved, handleWrite, Option.toList_none, List.map_nil, List.sum_nil]
    omega

/-! ## What `send` is given -/

/-- **What a step records is what the connection's own `send` is given.** The list cannot be filled
by anything else, and nothing that was sent is missing from it. -/
theorem sent_step {c₀ : TcpConnection} {event : ServeRun.Event}
    (h : Sent c₀ s.sends s.serve.connection) (hstep : s.step event = some s') :
    Sent c₀ s'.sends s'.serve.connection := by
  obtain ⟨serve, hserve, rfl⟩ := Option.map_eq_some_iff.mp hstep
  obtain ⟨-, hevent⟩ := Option.ite_none_right_eq_some.mp hserve
  -- a handler of a read sends its answer, if it has one
  have hread : ∀ {e : ReadEvent} {out : Option Failure × TcpConnection},
      s.serve.connection.onRead e = some out →
      Sent c₀ (s.sends ++ (s.serve.connection.answerOf e).toList) out.2 := by
    intro e out hout
    obtain ⟨reader, protocol, heq⟩ := onRead_sends hout
    rw [heq]
    cases s.serve.connection.answerOf e with
    | none =>
      rw [Option.toList_none, List.append_nil]
      exact h.read reader protocol
    | some message => exact (h.send message).read reader protocol
  -- the events of the writes are those of the connection, under other names
  cases event with
  | stream event =>
    obtain ⟨e, he, hevent⟩ := Option.bind_eq_some_iff.mp hevent
    obtain ⟨out, hout, rfl⟩ := Option.map_eq_some_iff.mp hevent
    simp only [sent, he, Option.bind_some]
    exact hread hout
  | readError e =>
    obtain ⟨out, hout, rfl⟩ := Option.map_eq_some_iff.mp hevent
    exact hread hout
  | transfer i n =>
    obtain ⟨t, ht, rfl⟩ := Option.map_eq_some_iff.mp hevent
    have hres : s.serve.connection.onEvent (.transfer i n) = some { connection := t.2 } :=
      Option.map_eq_some_iff.mpr ⟨t, ht, rfl⟩
    simp only [sent, Option.toList_none, List.append_nil]
    exact h.write (by simp) hres
  | written i =>
    obtain ⟨w, hw, rfl⟩ := Option.map_eq_some_iff.mp hevent
    have hres : s.serve.connection.onEvent (.written i)
        = some { connection := w.2, closes := w.1 } := Option.map_eq_some_iff.mpr ⟨w, hw, rfl⟩
    simp only [sent, Option.toList_none, List.append_nil]
    exact h.write (by simp) hres
  | writeError i e =>
    obtain ⟨w, hw, rfl⟩ := Option.map_eq_some_iff.mp hevent
    have hres : s.serve.connection.onEvent (.writeError i e)
        = some { connection := w.2, closes := w.1 } := Option.map_eq_some_iff.mpr ⟨w, hw, rfl⟩
    simp only [sent, Option.toList_none, List.append_nil]
    exact h.write (by simp) hres

/-- In every run, the recorded messages are those the connection's own `send` has been given. -/
theorem sent_of_run {id : UInt64} {es : List ServeRun.Event}
    (hrun : Runs.run step (start id stream) es = some s) :
    Sent { id, handler := .echoClientHandler } s.sends s.serve.connection := by
  obtain ⟨c, hserve, -, -, hmsg, -, hsent⟩ := serve_start id stream
  have hstart : Sent { id, handler := .echoClientHandler } (start id stream).sends
      (start id stream).serve.connection := by
    simp only [start, hserve, hmsg]
    exact hsent
  exact Runs.run_invariant (fun _ _ _ h hs => sent_step h hs) hstart hrun

/-! ## The invariant -/

/-- The connection has taken in `read`, whose `frames` it has answered, after the greeting. The rest
of the stream is still to come, so the answers to it are still open. -/
structure Answering (stream : Bytes) (s : AnswerRun) (frames : List Frame) (read : Bytes) :
    Prop where
  stream_eq : stream = read ++ s.serve.incoming
  framesOf : ∃ done rest, FramesOf maxReadBufferSizeBytes done frames ∧ read = done ++ rest
  ok : ∀ received ∈ frames, frameFailure received = none
  sends_eq : s.sends = frame (.chatMessage welcome) :: frames.filterMap answerTo

/-- The connection receives, or its stream has ended it and has been answered, or its socket has
failed. -/
def Progress (stream : Bytes) (es : List ServeRun.Event) (s : AnswerRun) (frames : List Frame)
    (read : Bytes) : Prop :=
  (s.serve.stopped = none ∧ s.serve.connection.Receiving frames read) ∨
  (s.serve.stopped = some (ServeRun.reason stream) ∧ s.sends = answers stream) ∨
  ∃ e, .readError e ∈ es ∧ s.serve.stopped = some (.systemError e)

/-- At the start the greeting has been sent and the connection receives. -/
theorem answering_start (id : UInt64) (stream : Bytes) :
    Answering stream (start id stream) [] [] ∧ Progress stream [] (start id stream) [] [] := by
  obtain ⟨c, hserve, hreceiving, -, hmsg, -, -⟩ := serve_start id stream
  simp only [start, hserve]
  exact ⟨⟨rfl, ⟨[], [], .nil, rfl⟩, by simp, by rw [hmsg]; rfl⟩, Or.inl ⟨rfl, hreceiving⟩⟩

/-- Nothing is sent and nothing more is taken in. -/
theorem Answering.of_silent (h : Answering stream s frames read) {serve : ServeRun} {wire : Bytes}
    {transferred : Nat} (hincoming : serve.incoming = s.serve.incoming) :
    Answering stream { serve, sends := s.sends ++ (none : Option Bytes).toList, wire, transferred }
      frames read :=
  ⟨by rw [hincoming]; exact h.stream_eq, h.framesOf, h.ok,
    by rw [Option.toList_none, List.append_nil]; exact h.sends_eq⟩

/-- **A read that completes answers a frame, or ends what is answered.** -/
theorem answering_completed (h : Answering stream s frames read)
    (hreceiving : s.serve.connection.Receiving frames read)
    {out : Option Failure × TcpConnection} (hout : s.serve.connection.onRead .completed = some out)
    (wire : Bytes) (transferred : Nat) :
    let s' : AnswerRun := {
      serve := ⟨out.2, s.serve.incoming, out.1⟩
      sends := s.sends ++ (s.serve.connection.answerOf .completed).toList
      wire
      transferred }
    ∃ frames', Answering stream s' frames' read ∧ ∀ es, Progress stream es s' frames' read := by
  intro s'
  have hstream := h.stream_eq
  have hanswer := hreceiving.answerOf_completed hout
  -- the answer is there exactly when the reader has called the callback and the frame is a request,
  -- so the four ways a read completes are the four ways the answers go on
  cases hreceiving.completed hout with
  | scheduled hreads _ _ heq hphase _ =>
    obtain ⟨-, hnone⟩ := hanswer.resolve_right (by simp [hreads])
    subst heq
    refine ⟨frames, ?_, fun es => Or.inl ⟨rfl, hphase⟩⟩
    simp only [s', hnone]
    exact h.of_silent rfl
  | answered hreads hrequest hparse heq hphase _ =>
    obtain ⟨-, hsome⟩ := hanswer.resolve_left (by simp [hreads])
    refine ⟨_, ⟨hstream, hphase.framesOf, ?_, ?_⟩, fun es => Or.inl ⟨congrArg Prod.fst heq, hphase⟩⟩
    · exact List.forall_mem_append.mpr ⟨h.ok, List.forall_mem_singleton.mpr
        (frameFailure_eq_none_iff.mpr hrequest)⟩
    · simp only [s', hsome, h.sends_eq, List.filterMap_append, List.cons_append]
      cases hresponse : answerTo ⟨s.serve.connection.protocol.deserFramePrefixCache,
        s.serve.connection.reader.readBuffer⟩ <;> simp [hresponse]
  -- the frame cannot be answered: it is the one at which the answers to the stream stop
  | refused hreads hfailure heq hpart =>
    obtain ⟨-, hsome⟩ := hanswer.resolve_left (by simp [hreads])
    have hfail : frameFailure ⟨s.serve.connection.protocol.deserFramePrefixCache,
        s.serve.connection.reader.readBuffer⟩ ≠ none := by
      rw [hfailure]
      exact Option.some_ne_none _
    have hanswers := answers_of_failing_frame (hstream ▸ hpart _) h.ok hfail
    refine ⟨frames, ?_, fun es => Or.inr (Or.inl ⟨?_, ?_⟩)⟩
    · simp only [s', hsome, answerTo_eq_none_iff.mpr hfail]
      exact h.of_silent rfl
    · rw [ServeRun.reason_of_failing_frame (hstream ▸ hpart _) h.ok hfailure]
      exact heq
    · rw [hanswers]
      simp only [s', hsome, answerTo_eq_none_iff.mpr hfail, Option.toList_none, List.append_nil]
      exact h.sends_eq
  -- the prefix cannot be used, so the parser of the stream stops here as well
  | stopped hreads _ heq hreason =>
    obtain ⟨-, hnone⟩ := hanswer.resolve_right (by simp [hreads])
    have hparse := hreason s.serve.incoming
    rw [← hstream] at hparse
    refine ⟨frames, ?_, fun es => Or.inr (Or.inl ⟨?_, ?_⟩)⟩
    · simp only [s', hnone]
      exact h.of_silent rfl
    · rw [ServeRun.reason_of_frames_ok hparse h.ok]
      exact heq
    · rw [answers_of_frames_ok (congrArg Prod.fst hparse) h.ok]
      simp only [s', hnone, Option.toList_none, List.append_nil]
      exact h.sends_eq

/-- **Every event goes on with answering the stream, or ends it.** The last case of `Progress` is an
error of the socket, which the stream knows nothing of. -/
theorem answering_step (h : Answering stream s frames read)
    (hreceiving : s.serve.connection.Receiving frames read) {event : ServeRun.Event}
    (hstep : s.step event = some s') :
    ∃ frames' read', Answering stream s' frames' read' ∧
      Progress stream [event] s' frames' read' := by
  obtain ⟨serve, hserve, rfl⟩ := Option.map_eq_some_iff.mp hstep
  obtain ⟨hrunning, hevent⟩ := Option.ite_none_right_eq_some.mp hserve
  cases event with
  | stream event =>
    obtain ⟨e, he, hevent⟩ := Option.bind_eq_some_iff.mp hevent
    obtain ⟨out, hout, rfl⟩ := Option.map_eq_some_iff.mp hevent
    obtain ⟨res, hres, -⟩ := Option.map_eq_some_iff.mp hout
    simp only [sent, written, he, Option.bind_some]
    rcases StreamEvent.read_cases he hres with ⟨piece, rest, hpiece, hincoming, rfl⟩ | rfl |
      ⟨hincoming, rfl⟩
    · -- bytes that arrive
      rw [hreceiving.answerOf_received hout]
      obtain ⟨reader, rfl, hphase, -⟩ := hreceiving.received hout
      refine ⟨frames, read ++ piece, ⟨?_, hphase.framesOf, h.ok, ?_⟩, Or.inl ⟨rfl, hphase⟩⟩
      · rw [h.stream_eq, hincoming, List.append_assoc]
      · rw [Option.toList_none, List.append_nil]
        exact h.sends_eq
    · -- a handler of the reader, with the callback
      obtain ⟨frames', h', hprogress⟩ := answering_completed h hreceiving hout _ _
      exact ⟨frames', read, h', hprogress _⟩
    · -- the end of the stream
      rw [hreceiving.answerOf_failed hout]
      obtain ⟨hfailure, hparse⟩ := hreceiving.failed hout
      have hstream := h.stream_eq
      rw [hincoming, List.append_nil] at hstream
      rw [← hstream] at hparse
      refine ⟨frames, read, h.of_silent hincoming.symm, Or.inr (Or.inl ⟨?_, ?_⟩)⟩
      · rw [ServeRun.reason_of_frames_ok hparse h.ok]
        exact hfailure
      · rw [answers_of_frames_ok (congrArg Prod.fst hparse) h.ok, Option.toList_none,
          List.append_nil]
        exact h.sends_eq
  -- an error of the socket comes from outside: nothing is said about the stream then
  | readError e =>
    obtain ⟨out, hout, rfl⟩ := Option.map_eq_some_iff.mp hevent
    simp only [sent]
    rw [hreceiving.answerOf_failed hout]
    obtain ⟨hfailure, -⟩ := hreceiving.failed hout
    exact ⟨frames, read, h.of_silent rfl,
      Or.inr (Or.inr ⟨e, List.mem_singleton_self _, hfailure⟩)⟩
  -- the writes do not take part in what is answered
  | transfer i n =>
    obtain ⟨t, ht, rfl⟩ := Option.map_eq_some_iff.mp hevent
    obtain ⟨u, -, rfl⟩ := Option.map_eq_some_iff.mp ht
    exact ⟨frames, read, h.of_silent rfl, Or.inl ⟨hrunning, hreceiving⟩⟩
  | written i =>
    obtain ⟨w, hw, rfl⟩ := Option.map_eq_some_iff.mp hevent
    obtain ⟨u, -, rfl⟩ := Option.map_eq_some_iff.mp hw
    exact ⟨frames, read, h.of_silent rfl, Or.inl ⟨hrunning, hreceiving⟩⟩
  | writeError i e =>
    obtain ⟨w, hw, rfl⟩ := Option.map_eq_some_iff.mp hevent
    obtain ⟨u, -, rfl⟩ := Option.map_eq_some_iff.mp hw
    exact ⟨frames, read, h.of_silent rfl, Or.inl ⟨hrunning, hreceiving⟩⟩

/-- In every run the connection has answered what it has taken in, and the socket is covered.
Induction on the run. -/
theorem answering_of_run {id : UInt64} {es : List ServeRun.Event}
    (hrun : Runs.run step (start id stream) es = some s) :
    Covered s ∧ ∃ frames read, Answering stream s frames read ∧ Progress stream es s frames read := by
  have hmeets : Runs.StepsMeet step (fun _ _ => True) (start id stream) es :=
    Runs.stepsMeet_of_forall (p := fun _ => True) (fun _ _ => trivial)
  obtain ⟨h, hprogress⟩ := answering_start id stream
  refine ⟨Runs.run_invariant (fun _ _ _ h hs => covered_step h hs) (covered_start id stream) hrun,
    Runs.run_history (P := fun es s => ∃ frames read, Answering stream s frames read ∧
      Progress stream es s frames read) ?_ ⟨[], [], h, hprogress⟩ hmeets hrun⟩
  rintro es s event s' ⟨frames, read, h, hprogress⟩ - hs
  obtain ⟨serve, hserve, -⟩ := Option.map_eq_some_iff.mp hs
  have hrunning := (Option.ite_none_right_eq_some.mp hserve).1
  rcases hprogress with ⟨-, hreceiving⟩ | ⟨hstopped, -⟩ | ⟨e, -, hstopped⟩
  · obtain ⟨frames', read', h', hprogress'⟩ := answering_step h hreceiving hs
    refine ⟨frames', read', h', ?_⟩
    rcases hprogress' with hrun | hstop | ⟨e, hmem, hstop⟩
    · exact Or.inl hrun
    · exact Or.inr (Or.inl hstop)
    · exact Or.inr (Or.inr ⟨e, List.mem_append_right _ hmem, hstop⟩)
  · rw [hrunning] at hstopped
    cases hstopped
  · rw [hrunning] at hstopped
    cases hstopped

/-- **What has been sent is the first part of the answers** to the whole stream. -/
theorem Answering.sends_prefix (h : Answering stream s frames read) : s.sends <+: answers stream := by
  obtain ⟨done, rest, hframes, hread⟩ := h.framesOf
  rw [h.sends_eq]
  refine prefix_answers ?_ h.ok
  rw [h.stream_eq, hread, List.append_assoc, parseFrames_append hframes]
  exact List.prefix_append _ _

end AnswerRun

end Acs
