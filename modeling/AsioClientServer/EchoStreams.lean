import AsioClientServer.Client.DisplayRun
import AsioClientServer.Server.AnswerWire

/-!
# A client on the answers of a server

The server answers whatever arrives, and what arrives need not come from a client of this program.
What it puts out is of its own making, and a client has to take that.

* `responses_displayable`: whatever the server sends is a message its clients take, in whatever form
  the request was encoded.
* `echo_streams`: no bytes make the server send what a client refuses. The client displays the
  greeting and the requests of the server's stream.

The bytes on the socket are what was sent as long as no answer is sent into a write in progress
(`AnswerRun.SendsIdle`); otherwise `TcpConnection::send` replaces the message that is being written.
-/

namespace Acs

open Wire

/-! ## What a client takes -/

/-- A message a client takes and displays, when it gets its frame: it can be framed, its payload
fits the reader's buffer and parses to it, and its type is the one the client's handler accepts. -/
structure ChatMessage.Displayable (m : ChatMessage) : Prop where
  framable : (MessageLite.chatMessage m).Framable
  size_le : (MessageLite.chatMessage m).byteSizeLong ≤ maxReadBufferSizeBytes
  parse_eq : ChatMessage.parseFromArray (MessageLite.chatMessage m).encode = some m
  type_eq : m.type = ChatMessage.MessageType.echoResponse.number

/-- The client displays the id and the text of such a message. -/
theorem ChatMessage.Displayable.shown_eq {m : ChatMessage} (h : m.Displayable) :
    shown (frameOf m) = .ok (m.id, m.text) := by
  have hdeserialize : ({ deserFramePrefixCache := framePrefixOf (.chatMessage m) } :
      Protocol).deserialize (MessageLite.chatMessage m).encode = .ok (.chatMessage m) := by
    simp only [Protocol.deserialize, framePrefixOf, if_true, h.parse_eq]
  rw [shown, frameOf, hdeserialize]
  show EchoHandler.handleClient (.chatMessage m) = _
  rw [EchoHandler.handleClient, if_pos h.type_eq]

theorem welcome_displayable : welcome.Displayable where
  framable := TcpConnection.welcome_framable
  size_le := by decide +kernel
  parse_eq := ChatMessage.parseFromArray_encode rfl
    (welcome.text_length_le.trans TcpConnection.welcome_framable.2) (validUtf8_utf8 _)
  type_eq := rfl

/-- **The response to a request of the stream is displayable**, in whatever form that came. -/
theorem response_displayable {received : Frame} {m : ChatMessage}
    (hrequest : requestOf received = some m)
    (hlen : received.payload.length ≤ maxReadBufferSizeBytes) :
    (EchoHandler.response m).Displayable := by
  obtain ⟨-, hparse, htype⟩ := requestOf_eq_some_iff.mp hrequest
  have hmax : received.payload.length ≤ maxLength := hlen.trans (by decide)
  exact ⟨EchoHandler.response_framable hparse htype hmax,
    (EchoHandler.response_length_le hparse htype).trans hlen,
    EchoHandler.parse_response hparse htype hmax, rfl⟩

/-- **What is displayed of displayable messages**, with the stream cut off anywhere. -/
theorem displays_of_prefix {ms : List ChatMessage} (h : ∀ m ∈ ms, m.Displayable)
    {received : Bytes} (hpre : received <+: (ms.flatMap fun m => frame (.chatMessage m))) :
    (displays received).1 <+: (ms.map fun m => (m.id, m.text)) ∧
      (displays received).2 = .systemError .eof := by
  obtain ⟨complete, hcomplete, hparse⟩ :=
    parseFrames_of_prefix (fun m hm => ⟨(h m hm).framable, (h m hm).size_le⟩) hpre
  have hshown : (complete.map frameOf).map shown
      = (complete.map fun m => (m.id, m.text)).map .ok := by
    rw [List.map_map, List.map_map]
    exact List.map_congr_left fun m hm => (h m (hcomplete.subset hm)).shown_eq
  rw [displays_of_frames_ok hparse hshown]
  exact ⟨hcomplete.map _, rfl⟩

theorem displays_of_displayable {ms : List ChatMessage} (h : ∀ m ∈ ms, m.Displayable) :
    displays (ms.flatMap fun m => frame (.chatMessage m))
      = ((ms.map fun m => (m.id, m.text)), .systemError .eof) := by
  have hframes := parseFrames_serialized
    (fun m (hm : m ∈ ms) => ⟨(h m hm).framable, (h m hm).size_le⟩) []
  rw [List.append_nil, parseFrames_of_lt (by simp : ([] : Bytes).length < 10),
    List.append_nil] at hframes
  refine displays_of_frames_ok hframes ?_
  rw [List.map_map, List.map_map]
  exact List.map_congr_left fun m hm => (h m hm).shown_eq

/-! ## What a server sends -/

/-- The requests of the stream, up to the first frame that is none. -/
def requests (stream : Bytes) : List ChatMessage :=
  ((parseFrames maxReadBufferSizeBytes stream).1.takeWhile
    fun received => (requestOf received).isSome).filterMap requestOf

/-- The messages a connection sends. -/
def responses (stream : Bytes) : List ChatMessage :=
  welcome :: (requests stream).map EchoHandler.response

/-- What `AnswerRun` counts as the answers are the frames of the responses. -/
theorem answers_eq (stream : Bytes) :
    answers stream = (responses stream).map fun m => frame (.chatMessage m) := by
  have hsome : (fun received => (answerTo received).isSome)
      = fun received => (requestOf received).isSome := by
    funext received
    rw [answerTo, Option.isSome_map]
  rw [answers, hsome, responses, List.map_cons, List.map_map, requests, List.map_filterMap]
  rfl

/-- **Whatever the server sends is displayable**, for every stream. -/
theorem responses_displayable (stream : Bytes) : ∀ m ∈ responses stream, m.Displayable := by
  refine List.forall_mem_cons.mpr ⟨welcome_displayable, ?_⟩
  intro m hm
  obtain ⟨request, hrequest, rfl⟩ := List.mem_map.mp hm
  obtain ⟨received, hreceived, hsome⟩ := List.mem_filterMap.mp hrequest
  have hmem := (List.takeWhile_prefix _).subset hreceived
  exact response_displayable hsome (parseFrames_payload_length_le _ _ received hmem)

/-- What a client displays of the responses: the greeting, and the requests. -/
theorem responses_shown (stream : Bytes) :
    ((responses stream).map fun m => (m.id, m.text))
      = (welcome.id, welcome.text) :: (requests stream).map fun m => (m.id, m.text) := by
  rw [responses, List.map_cons, List.map_map]
  rfl

/-- The bytes of the answers are the frames of the responses. -/
theorem answers_flatten (stream : Bytes) :
    (answers stream).flatten = (responses stream).flatMap fun m => frame (.chatMessage m) := by
  rw [answers_eq, List.flatMap_def]

/-- **No bytes make the server send what its client refuses.** The server gets any stream, from
whomever; a client of this program gets the bytes that the server has put on the socket, as far as
they have come, and its user does what he likes. The client displays the greeting and the requests
of the server's stream, the first of them in order, and nothing that arrives ends it but the end.
When the server has stopped for its stream and written everything, and the client has got it and
stopped as well, all of them have been displayed. -/
theorem echo_streams {id : UInt64} {stream received : Bytes} {es : List ServeRun.Event}
    {s : AnswerRun} {ds : List DisplayRun.Event} {d : DisplayRun}
    (hidle : Runs.StepsMeet AnswerRun.step AnswerRun.SendsIdle (AnswerRun.start id stream) es)
    (hserver : Runs.run AnswerRun.step (AnswerRun.start id stream) es = some s)
    (hreceived : received <+: s.wire)
    (hclient : Runs.run DisplayRun.step (DisplayRun.start received) ds = some d) :
    d.displayed <+: (welcome.id, welcome.text) :: ((requests stream).map fun m => (m.id, m.text)) ∧
    ∀ f, d.stopped = some f → (∀ event ∈ ds, ¬ event.Fails f) →
      f = .systemError .eof ∧
        (s.serve.stopped ≠ none → (∀ e, .readError e ∉ es) → s.serve.connection.writes = [] →
          received = s.wire →
          d.displayed
            = (welcome.id, welcome.text) :: (requests stream).map fun m => (m.id, m.text)) := by
  obtain ⟨hwire, -⟩ := AnswerRun.wire_isPrefix_of_run hidle hserver
  obtain ⟨frames', read', h', hprogress⟩ := DisplayRun.displaying_of_run hclient
  rw [answers_flatten] at hwire
  obtain ⟨hentries, heof⟩ :=
    displays_of_prefix (responses_displayable stream) (hreceived.trans hwire)
  rw [← responses_shown]
  refine ⟨(displayed_prefix_displays h'.frames_prefix h'.shown_eq).trans hentries, ?_⟩
  intro f hstopped hfails
  rcases hprogress with ⟨hrunning, -⟩ | ⟨hreason, hdisplayed⟩ | ⟨f', hstopped', event, hmem, hfail⟩
  · rw [hstopped] at hrunning
    cases hrunning
  · refine ⟨(Option.some.inj (hstopped.symm.trans hreason)).trans heof, ?_⟩
    intro hended herrors hwrites hall
    rw [hdisplayed, hall, AnswerRun.wire_eq_of_run hidle hserver hended herrors hwrites,
      answers_flatten, displays_of_displayable (responses_displayable stream)]
  · obtain rfl := Option.some.inj (hstopped.symm.trans hstopped')
    exact absurd hfail (hfails event hmem)

/-- A request with its fields in another order and an id of two bytes is displayed like any other. -/
theorem echo_streams_run :
    let stream : Bytes := [13, 8, 0, 0, 0, 29, 1, 0, 0, 0, 120, 4, 18, 1, 97, 8, 135, 0]
    let served : List ServeRun.Event := [.transfer 0 60, .written 0, .stream (.receive 10),
      .stream .complete, .stream (.receive 8), .stream .complete, .transfer 0 17, .written 0,
      .stream .eof]
    let events : List DisplayRun.Event := [.stream (.receive 10), .stream .complete,
      .stream (.receive 50), .stream .complete, .command (echoCmdPrefix ++ [98]), .stream (.receive 10),
      .stream .complete, .stream (.receive 7), .stream .complete, .stream .eof]
    ∃ s d, Runs.run AnswerRun.step (AnswerRun.start 0 stream) served = some s ∧
      Runs.run DisplayRun.step (DisplayRun.start s.wire) events = some d ∧
      d.displayed = (welcome.id, welcome.text) :: (requests stream).map fun m => (m.id, m.text) := by
  intro stream served events
  -- the two runs are evaluated on their own, the client's on the bytes the server's ends with
  have hserver : (Runs.run AnswerRun.step (AnswerRun.start 0 stream) served).map
      (fun s => (s.serve.stopped, s.serve.connection.writes, s.wire))
      = some (some (.systemError .eof), [], frame (.chatMessage welcome) ++
        [13, 7, 0, 0, 0, 29, 1, 0, 0, 0, 8, 7, 18, 1, 97, 120, 5]) := by
    decide +kernel
  have hclient : (Runs.run DisplayRun.step (DisplayRun.start (frame (.chatMessage welcome) ++
        [13, 7, 0, 0, 0, 29, 1, 0, 0, 0, 8, 7, 18, 1, 97, 120, 5])) events).map (·.stopped)
      = some (some (.systemError .eof)) := by
    decide +kernel
  obtain ⟨s, hs, hstate⟩ := Option.map_eq_some_iff.mp hserver
  obtain ⟨hstopped, hwrites, hwire⟩ := by simpa only [Prod.mk.injEq] using hstate
  rw [← hwire] at hclient
  obtain ⟨d, hd, hended⟩ := Option.map_eq_some_iff.mp hclient
  obtain ⟨-, hend⟩ := echo_streams (by decide +kernel) hs List.prefix_rfl hd
  have hfails : ∀ event ∈ events, ¬ event.Fails (.systemError .eof) := by
    simp [events, DisplayRun.Event.Fails]
    decide
  obtain ⟨-, hall⟩ := hend _ hended hfails
  exact ⟨s, d, hs, hd, hall (by rw [hstopped]; simp) (by simp [served]) hwrites rfl⟩

end Acs
