import AsioClientServer.Client.RequestIds
import AsioClientServer.EchoDelivery
import AsioClientServer.Server.AnswerWire

/-!
# A server on the requests of a client

The other direction of `EchoStreams`. The client is connected to anyone, who may send it anything,
and its handlers may throw for that; its user enters commands that fit. A server of this program gets
the bytes that the client has put on its socket.

* `ClientRun.requested`: the commands the writer has taken, with the ids they got.
* `ClientRun.Requesting`: the socket holds their frames, the last one as far as its write has come.
* `echo_requests`: the server gives its `send` the responses to them, in order, and throws for none.
  If none is refused, its socket gets them.
-/

namespace Acs

open EchoSystem TcpConnection

/-! ## What a server makes of requests -/

/-- The server reads back the request whose frame it gets. -/
theorem requestOf_frameOf {m : ChatMessage} (h : m.Deliverable)
    (htype : m.type = ChatMessage.MessageType.echoRequest.number) :
    requestOf (frameOf m) = some m := by
  rw [requestOf_eq_some_iff]
  have hlen := m.text_length_le.trans h.framable.2
  exact ⟨rfl, ChatMessage.parseFromArray_encode h.unknownFields_eq hlen h.text_utf8, htype⟩

/-- **What is answered to the frames of commands**, and why the server stops after them. -/
theorem answers_of_requests {commands : List (UInt32 × Bytes)} {stream : Bytes} {f : Failure}
    (h : ∀ command ∈ commands, (request command).Deliverable)
    (hparse : parseFrames maxReadBufferSizeBytes stream
      = (commands.map fun command => frameOf (request command), f)) :
    answers stream = (frame (.chatMessage welcome) :: commands.map fun command =>
        frame (.chatMessage (EchoHandler.response (request command)))) ∧
      ServeRun.reason stream = f := by
  have hanswer : ∀ command ∈ commands, answerTo (frameOf (request command))
      = some (frame (.chatMessage (EchoHandler.response (request command)))) := by
    intro command hmem
    rw [answerTo, requestOf_frameOf (h command hmem) rfl, Option.map_some]
  have hok : ∀ received ∈ commands.map fun command => frameOf (request command),
      frameFailure received = none := by
    intro received hmem
    obtain ⟨command, hcommand, rfl⟩ := List.mem_map.mp hmem
    by_contra hfailure
    rw [← ne_eq, ← answerTo_eq_none_iff, hanswer command hcommand] at hfailure
    cases hfailure
  constructor
  · rw [answers_of_frames_ok (congrArg Prod.fst hparse) hok, List.filterMap_map]
    congr 1
    rw [← List.filterMap_eq_map]
    exact List.filterMap_congr hanswer
  · exact ServeRun.reason_of_frames_ok hparse hok

/-- What a server finds in the first part of the frames of commands is the first part of them: a
frame that is cut off is not a request yet, and the server waits for the rest of it. -/
theorem answers_of_prefix {commands : List (UInt32 × Bytes)} {stream : Bytes}
    (h : ∀ command ∈ commands, (request command).Deliverable)
    (hpre : stream <+: (commands.map fun command => frame (.chatMessage (request command))).flatten) :
    answers stream <+: (frame (.chatMessage welcome) :: commands.map fun command =>
        frame (.chatMessage (EchoHandler.response (request command)))) ∧
      ServeRun.reason stream = .systemError .eof := by
  have hmessages : ∀ m ∈ commands.map request, (MessageLite.chatMessage m).Framable ∧
      (MessageLite.chatMessage m).byteSizeLong ≤ maxReadBufferSizeBytes := by
    intro m hm
    obtain ⟨command, hcommand, rfl⟩ := List.mem_map.mp hm
    exact ⟨(h command hcommand).framable, (h command hcommand).size_le⟩
  have hstream : stream <+: (commands.map request).flatMap fun m => frame (.chatMessage m) := by
    rw [List.flatMap_map, List.flatMap_def]
    exact hpre
  obtain ⟨complete, hcomplete, hparse⟩ := parseFrames_of_prefix hmessages hstream
  obtain ⟨first, hfirst, rfl⟩ := List.prefix_map_iff.mp hcomplete
  rw [List.map_map] at hparse
  obtain ⟨hanswers, hreason⟩ :=
    answers_of_requests (fun command hmem => h command (hfirst.subset hmem)) hparse
  refine ⟨?_, hreason⟩
  rw [hanswers, List.cons_prefix_cons]
  exact ⟨rfl, hfirst.map _⟩

/-- All of them, when the frames are complete. -/
theorem answers_of_all {commands : List (UInt32 × Bytes)}
    (h : ∀ command ∈ commands, (request command).Deliverable) :
    answers (commands.map fun command => frame (.chatMessage (request command))).flatten
      = frame (.chatMessage welcome) :: commands.map fun command =>
        frame (.chatMessage (EchoHandler.response (request command))) := by
  have hparse := parseFrames_deliverable (List.forall_mem_map.mpr h)
  rw [List.flatMap_map, List.flatMap_def, List.map_map] at hparse
  exact (answers_of_requests h hparse).1

/-! ## The requests of a client -/

namespace ClientRun

/-- The echo command a line of the command loop enters. -/
def Event.text : Event → Option Bytes
  | .command line => dispatchCommand line
  | .connected _ | .read _ | .transfer _ _ | .written _ | .writeError _ _ => none

/-- The echo commands of a run, in order. -/
def typed (es : List Event) : List Bytes :=
  es.filterMap Event.text

/-- The commands the writer has taken, with the ids the client gives them. -/
def requested (es : List Event) (s : ClientRun) : List (UInt32 × Bytes) :=
  s.sent.filterMap fun r => (numbered (typed es))[r.number]?

/-- The text of a command is UTF-8 and its request is one a server's reader takes. The writes do not
fail: one that does leaves a part of its frame on the socket. -/
def Fits (s : ClientRun) : Event → Prop
  | .command line => ∀ text ∈ dispatchCommand line, ValidUtf8 text ∧
      (MessageLite.chatMessage
        (EchoCommandHandler.echoMessage s.echoCommandId text)).byteSizeLong
        ≤ maxReadBufferSizeBytes
  | .writeError _ _ => False
  | .connected _ | .read _ | .transfer _ _ | .written _ => True

instance (s : ClientRun) : (event : Event) → Decidable (s.Fits event)
  | .command line => inferInstanceAs (Decidable (∀ text ∈ dispatchCommand line, _))
  | .writeError _ _ => isFalse id
  | .connected _ | .read _ | .transfer _ _ | .written _ => isTrue trivial

theorem typed_append (es : List Event) (event : Event) :
    typed (es ++ [event]) = typed es ++ event.text.toList :=
  filterMap_concat _ _ _

theorem numbered_length (texts : List Bytes) : (numbered texts).length = texts.length :=
  List.length_mapIdx

/-- What has been numbered keeps its number. -/
theorem numbered_isPrefix (es : List Event) (event : Event) :
    numbered (typed es) <+: numbered (typed (es ++ [event])) := by
  rw [typed_append]
  cases event.text with
  | none => rw [Option.toList_none, List.append_nil]
  | some text =>
    rw [Option.toList_some, numbered_append]
    exact List.prefix_append _ _

/-- The socket holds the frames of the commands that have been taken, the last one as far as its
write has come. A write that has ended has left nothing behind, for writes do not fail here. -/
structure Requesting (es : List Event) (s : ClientRun) : Prop where
  inv : Inv s
  /-- Every command has been given a number, whether the writer took it or not. -/
  returned_eq : s.returned = (typed es).length
  /-- What the writer has taken are the frames of the commands. -/
  wire_eq : s.sent.map (·.wireMessage)
    = (s.requested es).map fun command => frame (.chatMessage (request command))
  /-- They are some of the commands, in the order in which they were typed. -/
  sublist : (s.requested es).Sublist (numbered (typed es))
  deliverable : ∀ command ∈ s.requested es, (request command).Deliverable
  /-- The bytes on the socket are those of the frames, up to what the outstanding write has left. -/
  written : Asio.Written s.client.writer.writeBuffer s.client.writer.outstanding
    (s.sent.map (·.wireMessage)) s.socket

variable {es : List Event} {s s' : ClientRun}

/-- Nothing has been taken and nothing is on the socket, and the counter is at zero. -/
theorem requesting_start : Requesting [] {} :=
  ⟨inv_start, rfl, rfl, .slnil, by simp [requested], .idle rfl rfl⟩

/-- The commands that were taken are those that were taken before the event. -/
theorem Requesting.requested_append (h : Requesting es s) (event : Event) :
    s.requested (es ++ [event]) = s.requested es := by
  refine List.filterMap_congr fun r hr => ?_
  have hlt : r.number < (numbered (typed es)).length := by
    rw [numbered_length, ← h.returned_eq]
    exact h.inv.number_lt r hr
  obtain ⟨rest, hrest⟩ := numbered_isPrefix es event
  rw [← hrest, List.getElem?_append_left hlt]

/-- Of an event that the writer takes no command at, the number of commands matters only. -/
theorem Requesting.of_sent_eq (h : Requesting es s) {event : Event} (hinv : Inv s')
    (hreturned : s'.returned = (typed (es ++ [event])).length) (hsent : s'.sent = s.sent)
    (hwritten : Asio.Written s'.client.writer.writeBuffer s'.client.writer.outstanding
      (s.sent.map (·.wireMessage)) s'.socket) : Requesting (es ++ [event]) s' := by
  have hrequested : s'.requested (es ++ [event]) = s.requested es := by
    rw [← h.requested_append event, requested, hsent, requested]
  refine ⟨hinv, hreturned, ?_, ?_, ?_, ?_⟩
  · rw [hsent, hrequested]
    exact h.wire_eq
  · rw [hrequested]
    exact h.sublist.trans (numbered_isPrefix es event).sublist
  · rw [hrequested]
    exact h.deliverable
  · rw [hsent]
    exact hwritten

/-- **A command that fits** is taken by a writer that is idle, and refused by one that writes. The
counter goes up in both cases. -/
theorem Requesting.enter (h : Requesting es s) {line text : Bytes}
    (hfits : s.Fits (.command line)) (hdispatch : dispatchCommand line = some text) :
    Requesting (es ++ [.command line]) (s.enter text) := by
  obtain ⟨htext, hsize⟩ := hfits text hdispatch
  have hdeliverable := request_deliverable htext hsize
  have hsend := s.client.send_eq hdeliverable.framable
  have hinv := h.inv.enter text
  have htyped : typed (es ++ [.command line]) = typed es ++ [text] := by
    rw [typed_append, Event.text, hdispatch, Option.toList_some]
  have hreturned : (s.enter text).returned = (typed (es ++ [.command line])).length := by
    rw [htyped, List.length_append, ← h.returned_eq]
    simp only [ClientRun.enter, EchoCommandHandler.handleCommand, hsend, List.length_singleton]
  cases hlock : s.client.writer.writeInProgress with
  | true =>
    refine h.of_sent_eq hinv hreturned ?_ ?_
    · simp only [ClientRun.enter, EchoCommandHandler.handleCommand, hsend, hlock, if_true]
    · simp only [ClientRun.enter, EchoCommandHandler.handleCommand, hsend, AsyncWriter.writeMove,
        AsyncWriter.write_of_locked hlock]
      exact h.written
  | false =>
    have hnil := Asio.nil_of_unlocked h.inv.locked_iff hlock
    have hid : EchoCommandHandler.echoMessage s.echoCommandId text
        = request (UInt32.ofNat s.returned, text) := by
      rw [EchoCommandHandler.echoMessage, h.inv.counter, UInt64.toUInt32_ofNat', request]
    rw [hid] at hsend hdeliverable
    have hsent : (s.enter text).sent = s.sent ++
        [⟨s.returned, frame (.chatMessage (request (UInt32.ofNat s.returned, text)))⟩] := by
      simp only [ClientRun.enter, EchoCommandHandler.handleCommand, hid, hsend, hlock,
        Bool.false_eq_true, if_false, AsyncWriter.writeMove, AsyncWriter.write_of_unlocked hlock]
    -- the command has the number of the commands before it
    have hrequested : (s.enter text).requested (es ++ [.command line])
        = s.requested es ++ [(UInt32.ofNat s.returned, text)] := by
      have hnumber : (numbered (typed (es ++ [.command line])))[s.returned]?
          = some (UInt32.ofNat s.returned, text) := by
        rw [htyped, numbered_append, h.returned_eq, ← numbered_length (typed es),
          List.getElem?_concat_length]
      rw [requested, hsent, filterMap_concat, hnumber, Option.toList_some, ← requested,
        h.requested_append]
    refine ⟨hinv, hreturned, ?_, ?_, ?_, ?_⟩
    · rw [hsent, hrequested, List.map_append, List.map_append, h.wire_eq]
      rfl
    · rw [hrequested, htyped, numbered_append, h.returned_eq]
      exact h.sublist.append_right _
    · rw [hrequested]
      exact List.forall_mem_append.mpr
        ⟨h.deliverable, List.forall_mem_singleton.mpr hdeliverable⟩
    · have hwritten := h.written
      rw [hnil] at hwritten
      rw [hsent, List.map_append]
      simp only [ClientRun.enter, EchoCommandHandler.handleCommand, hid, hsend,
        AsyncWriter.writeMove, AsyncWriter.write_of_unlocked hlock, hnil, List.nil_append]
      exact hwritten.start _

/-- **Every event that fits keeps the socket in order.** Only commands and writes touch it; what is
read, and what is thrown for it, does not. -/
theorem Requesting.step {event : Event} (h : Requesting es s) (hfits : s.Fits event)
    (hstep : s.step event = some s') : Requesting (es ++ [event]) s' := by
  have hinv := inv_step h.inv hstep
  obtain ⟨-, hstep⟩ := Option.ite_none_left_eq_some.mp hstep
  have hquiet : event.text = none → s.returned = (typed (es ++ [event])).length := by
    intro htext
    rw [typed_append, htext, Option.toList_none, List.append_nil]
    exact h.returned_eq
  cases event with
  -- the only event that can append a request
  | command line =>
    cases hdispatch : dispatchCommand line with
    | none =>
      obtain rfl : s = s' := by simpa [hdispatch] using hstep
      exact h.of_sent_eq hinv (hquiet hdispatch) rfl h.written
    | some text =>
      obtain rfl : s.enter text = s' := by simpa [hdispatch] using hstep
      exact h.enter hfits hdispatch
  | connected error =>
    obtain rfl := Option.some.inj hstep
    refine h.of_sent_eq hinv (hquiet rfl) rfl ?_
    simp only [writer_handleConnect]
    exact h.written
  | read event =>
    obtain ⟨⟨shown, client⟩, hread, rfl⟩ := Option.map_eq_some_iff.mp hstep
    refine h.of_sent_eq hinv (hquiet rfl) rfl ?_
    simp only [writer_onRead hread]
    exact h.written
  -- the socket gets the next bytes of the frame that is being written
  | transfer i n =>
    obtain ⟨⟨piece, outstanding⟩, ht, rfl⟩ := Option.map_eq_some_iff.mp hstep
    exact h.of_sent_eq hinv (hquiet rfl) rfl (h.written.transfer ht).1
  | written i =>
    obtain ⟨outstanding, hf, rfl⟩ := Option.map_eq_some_iff.mp hstep
    obtain ⟨rfl, hwritten⟩ := h.written.finish hf s.client.writer.writeBuffer
    exact h.of_sent_eq hinv (hquiet rfl) rfl hwritten
  | writeError i e => cases hfits

theorem requesting_of_run (hfits : Runs.StepsMeet step Fits {} es)
    (hrun : Runs.run step {} es = some s) : Requesting es s :=
  Runs.run_history (P := Requesting) (fun _ _ _ _ h hok hs => h.step hok hs) requesting_start
    hfits hrun

end ClientRun

/-- **A server takes what its client sends.** The client may be connected to anyone: whatever has
arrived there and whatever was thrown for it, as long as the commands fit and no write of the client
fails, the socket holds requests only. A server of this program that gets the bytes on the socket,
as far as they have come, answers the commands the client's writer has taken: its `send` is given the
greeting and the responses, the first of them in order and with the ids of their numbers, and nothing
that arrives ends it but the end. When it has stopped for its stream, with everything written by the
client and received, it has been given them all.

A response that comes while the server still writes is refused by its `doSend`. If none is, its
socket gets the frames of these messages, and all of them when it has stopped and its writes are
over. -/
theorem echo_requests {es : List ClientRun.Event} {s : ClientRun} {received : Bytes} {id : UInt64}
    {served : List ServeRun.Event} {t : AnswerRun}
    (hfits : Runs.StepsMeet ClientRun.step ClientRun.Fits {} es)
    (hclient : Runs.run ClientRun.step {} es = some s)
    (hreceived : received <+: s.socket)
    (hserver : Runs.run AnswerRun.step (AnswerRun.start id received) served = some t) :
    let sends := frame (.chatMessage welcome) :: (s.requested es).map fun command =>
      frame (.chatMessage (EchoHandler.response (request command)))
    let idle := Runs.StepsMeet AnswerRun.step AnswerRun.SendsIdle (AnswerRun.start id received) served
    (s.requested es).Sublist (numbered (ClientRun.typed es)) ∧
    Sent { id, handler := .echoClientHandler } t.sends t.serve.connection ∧ t.sends <+: sends ∧
    (idle → t.wire <+: sends.flatten) ∧
    ∀ f, t.serve.stopped = some f → (∀ e, .readError e ∉ served) →
      f = .systemError .eof ∧
        (s.client.writer.outstanding = [] → received = s.socket →
          t.sends = sends ∧ (idle → t.serve.connection.writes = [] → t.wire = sends.flatten)) := by
  intro sends idle
  have h : ClientRun.Requesting es s := ClientRun.requesting_of_run hfits hclient
  obtain ⟨-, frames, read, hanswering, hserved⟩ := AnswerRun.answering_of_run hserver
  -- what has been received is a first part of the frames the client's writer was given
  have hpre := hreceived.trans h.written.prefix
  rw [h.wire_eq] at hpre
  obtain ⟨hanswers, hreason⟩ := answers_of_prefix h.deliverable hpre
  have hsends : t.sends <+: sends := hanswering.sends_prefix.trans hanswers
  refine ⟨h.sublist, AnswerRun.sent_of_run hserver, hsends, ?_, ?_⟩
  · intro hidle
    obtain ⟨rest, hrest⟩ := hanswers
    refine (AnswerRun.wire_isPrefix_of_run hidle hserver).1.trans ?_
    rw [show sends = answers received ++ rest from hrest.symm, List.flatten_append]
    exact List.prefix_append _ _
  · intro f hstopped herrors
    rcases hserved with ⟨hrunning, -⟩ | ⟨hended, hall⟩ | ⟨e, hmem, -⟩
    · rw [hstopped] at hrunning
      cases hrunning
    · refine ⟨(Option.some.inj (hstopped.symm.trans hended)).trans hreason, ?_⟩
      intro hwritten heq
      -- the last frame is complete on the socket, as no write is outstanding
      have hsocket : s.socket = ((s.requested es).map fun command =>
          frame (.chatMessage (request command))).flatten := by
        have hstarted := h.written
        rw [hwritten] at hstarted
        rw [← h.wire_eq]
        exact hstarted.eq_flatten
      have hsends : t.sends = sends := by
        rw [hall, heq, hsocket]
        exact answers_of_all h.deliverable
      refine ⟨hsends, fun hidle hwrites => ?_⟩
      rw [(AnswerRun.intact_of_run hidle hserver).wire_eq hwrites, hsends]
    · exact absurd hmem (herrors e)

/-- A command is refused while the first request is written, and the client throws for what it is
sent. The server answers the commands 0 and 2, and both responses are on its socket. -/
theorem echo_requests_run :
    let events : List ClientRun.Event := [.connected none, .command (echoCmdPrefix ++ [32, 97]),
      .command (echoCmdPrefix ++ [32, 98]), .read (.received (List.replicate 10 255)),
      .read .completed, .transfer 0 15, .written 0, .command (echoCmdPrefix ++ [32, 99]),
      .transfer 0 17, .written 0]
    let served : List ServeRun.Event := [.transfer 0 60, .written 0, .stream (.receive 10),
      .stream .complete, .stream (.receive 5), .stream .complete, .transfer 0 10,
      .stream (.receive 10), .transfer 0 5, .written 0, .stream .complete, .stream (.receive 7),
      .stream .complete, .transfer 0 17, .written 0, .stream .eof]
    ∃ s t, Runs.run ClientRun.step {} events = some s ∧
      Runs.run AnswerRun.step (AnswerRun.start 0 s.socket) served = some t ∧
      s.requested events = [(0, [97]), (2, [99])] ∧
      t.wire = (frame (.chatMessage welcome) :: (s.requested events).map fun command =>
        frame (.chatMessage (EchoHandler.response (request command)))).flatten := by
  intro events served
  -- the two runs are evaluated on their own, the server's on the bytes the client's ends with
  have hclient : (Runs.run ClientRun.step {} events).map
      (fun s => (s.client.writer.outstanding, s.requested events, s.socket))
      = some ([], [(0, [97]), (2, [99])], frame (.chatMessage (request (0, [97]))) ++
        frame (.chatMessage (request (2, [99])))) := by
    decide +kernel
  have hserver : (Runs.run AnswerRun.step (AnswerRun.start 0 (frame (.chatMessage (request (0, [97])))
        ++ frame (.chatMessage (request (2, [99]))))) served).map
      (fun t => (t.serve.stopped, t.serve.connection.writes))
      = some (some (.systemError .eof), []) := by
    decide +kernel
  have hidle : Runs.StepsMeet AnswerRun.step AnswerRun.SendsIdle (AnswerRun.start 0
      (frame (.chatMessage (request (0, [97]))) ++ frame (.chatMessage (request (2, [99])))))
      served := by
    decide +kernel
  obtain ⟨s, hs, hstate⟩ := Option.map_eq_some_iff.mp hclient
  obtain ⟨hwrites, hrequested, hsocket⟩ := by simpa only [Prod.mk.injEq] using hstate
  rw [← hsocket] at hserver hidle
  obtain ⟨t, ht, hended⟩ := Option.map_eq_some_iff.mp hserver
  obtain ⟨hstopped, hover⟩ := Prod.mk.inj hended
  obtain ⟨-, -, -, -, hend⟩ := echo_requests (by decide +kernel) hs List.prefix_rfl ht
  obtain ⟨-, hall⟩ := hend _ hstopped (by simp [served])
  obtain ⟨-, hwire⟩ := hall hwrites rfl
  exact ⟨s, t, hs, ht, hrequested, hwire hidle hover⟩

end Acs
