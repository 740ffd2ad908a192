import AsioClientServer.Server.AnswerRun

/-!
# The bytes of the answers

`AnswerRun` says which messages a connection passes to its `send`. Whether they also reach the
socket depends on when that happens: `TcpConnection::send` stores the message before it looks at
`_writeInProgress`, so a message that is passed while a write is in progress starts no write of its
own, and the write in progress goes on with its bytes.

Here are the runs where this does not happen (`SendsIdle`): every answer is sent while nothing is
written, and no write fails. In these the socket holds what `send` was given (`Intact`).

* `wire_isPrefix_of_run`: at every moment, the socket has got the first bytes of the answers to the
  stream, and as many as the writes have transferred.
* `wire_eq_of_run`: all of them, when the connection has stopped for its stream and has written
  everything.
-/

namespace Acs

open Wire

/-- The event is a write that fails. What it has not transferred by then is never sent. -/
def ServeRun.Event.failsWrite : ServeRun.Event → Bool
  | .writeError _ _ => true
  | .stream _ | .readError _ | .transfer _ _ | .written _ => false

namespace AnswerRun

/-! ## Answers to an idle connection -/

/-- An answer is sent while no write is in progress, and the writes do not fail. A client that waits
for the response to a request, and for the greeting before its first one, makes its server's runs
such runs. -/
def SendsIdle (s : AnswerRun) (event : ServeRun.Event) : Prop :=
  (s.serve.connection.writeInProgress = true → s.sent event = none) ∧ event.failsWrite = false

instance (s : AnswerRun) (event : ServeRun.Event) : Decidable (s.SendsIdle event) :=
  inferInstanceAs (Decidable (_ ∧ _))

/-- The socket holds what was passed to `send`, the last message as far as its write has come. -/
structure Intact (s : AnswerRun) : Prop where
  /-- The flag of the connection is set exactly while `asio` has a write of it. -/
  locked_iff : s.serve.connection.writeInProgress = true ↔ s.serve.connection.writes ≠ []
  /-- There is one write at most, and the buffer still holds its message. -/
  written : Asio.Written s.serve.connection.sendMsg s.serve.connection.writes s.sends s.wire
  /-- No write has run beyond the end of what the buffer holds. -/
  length_eq : s.wire.length = s.transferred

variable {stream : Bytes} {s s' : AnswerRun}

/-- A connection starts with the greeting in its buffer, and nothing of it on the socket. -/
theorem intact_start (id : UInt64) (stream : Bytes) : Intact (start id stream) := by
  obtain ⟨c, hserve, -, hlock, hmsg, hwrites, -⟩ := serve_start id stream
  have hnone : Asio.Written [] [] [] [] := .idle rfl rfl
  refine ⟨?_, ?_, rfl⟩
  · simp only [start, hserve, hlock, hwrites]
    simp
  · simp only [start, hserve, hwrites, hmsg]
    exact hnone.start _

/-- **What a read sends is started after the writes before it.** A handler that has an answer finds
the connection idle, so the write that it starts is the only one and takes its own message. -/
theorem Intact.onRead {event : ReadEvent} {out : Option Failure × TcpConnection} (h : Intact s)
    (hidle : s.serve.connection.writeInProgress = true → s.serve.connection.answerOf event = none)
    (hout : s.serve.connection.onRead event = some out) (incoming : Bytes)
    (stopped : Option Failure) :
    Intact {
      serve := ⟨out.2, incoming, stopped⟩
      sends := s.sends ++ (s.serve.connection.answerOf event).toList
      wire := s.wire ++ []
      transferred := s.transferred + 0 } := by
  obtain ⟨hlocked, hwritten, hlength⟩ := h
  obtain ⟨reader, protocol, heq⟩ := TcpConnection.onRead_sends hout
  cases hanswer : s.serve.connection.answerOf event with
  | none =>
    rw [hanswer, Option.elim_none] at heq
    rw [heq]
    simp only [Option.toList_none, List.append_nil, Nat.add_zero]
    exact ⟨hlocked, hwritten, hlength⟩
  | some message =>
    have hlock : s.serve.connection.writeInProgress = false := by
      rw [Bool.eq_false_iff]
      intro hlock
      rw [hidle hlock] at hanswer
      cases hanswer
    have hnil := Asio.nil_of_unlocked hlocked hlock
    rw [hanswer, Option.elim_some, TcpConnection.send_of_idle hlock] at heq
    rw [hnil] at hwritten
    rw [heq]
    refine ⟨by simp, ?_, ?_⟩
    · simp only [hnil, Option.toList_some, List.nil_append, List.append_nil]
      exact hwritten.start message
    · rw [List.append_nil, Nat.add_zero]
      exact hlength

/-- **Every event keeps the socket intact**, if it sends to an idle connection only. -/
theorem intact_step {event : ServeRun.Event} (h : Intact s) (hidle : SendsIdle s event)
    (hstep : s.step event = some s') : Intact s' := by
  obtain ⟨serve, hserve, rfl⟩ := Option.map_eq_some_iff.mp hstep
  obtain ⟨-, hevent⟩ := Option.ite_none_right_eq_some.mp hserve
  obtain ⟨hsent, hwrites⟩ := hidle
  cases event with
  | stream event =>
    obtain ⟨e, he, hevent⟩ := Option.bind_eq_some_iff.mp hevent
    obtain ⟨out, hout, rfl⟩ := Option.map_eq_some_iff.mp hevent
    simp only [sent, he, Option.bind_some] at hsent
    simp only [sent, written, moved, he, Option.bind_some]
    exact h.onRead hsent hout _ _
  | readError e =>
    obtain ⟨out, hout, rfl⟩ := Option.map_eq_some_iff.mp hevent
    exact h.onRead hsent hout _ _
  -- the buffer holds the message of the write, so the piece has the bytes that are counted
  | transfer i n =>
    obtain ⟨t, ht, rfl⟩ := Option.map_eq_some_iff.mp hevent
    have htransfer := ht
    obtain ⟨⟨piece, writes⟩, hw, rfl⟩ := Option.map_eq_some_iff.mp htransfer
    obtain ⟨hwritten, hne⟩ := h.written.transfer hw
    have hpiece := h.written.piece_length hw
    have hlock := h.locked_iff.mpr (Asio.ne_nil_of_transfer hw)
    simp only [sent, written, moved, ht, Option.map_some, Option.getD_some, Option.toList_none,
      List.append_nil]
    refine ⟨iff_of_true hlock hne, hwritten, ?_⟩
    rw [List.length_append, hpiece, h.length_eq]
  -- the write has transferred all of its message: nothing of what was sent is missing
  | written i =>
    obtain ⟨w, hw, rfl⟩ := Option.map_eq_some_iff.mp hevent
    obtain ⟨writes, hf, rfl⟩ := Option.map_eq_some_iff.mp hw
    obtain ⟨rfl, hwritten⟩ := h.written.finish hf s.serve.connection.sendMsg
    simp only [sent, written, moved, Option.toList_none, List.append_nil, Nat.add_zero]
    exact ⟨by simp [TcpConnection.handleWrite], hwritten, h.length_eq⟩
  | writeError i e => cases hwrites

theorem intact_of_run {id : UInt64} {es : List ServeRun.Event}
    (hidle : Runs.StepsMeet step SendsIdle (start id stream) es)
    (hrun : Runs.run step (start id stream) es = some s) : Intact s :=
  (Runs.along_of_invariant (fun _ _ _ h hok hs => intact_step h hok hs) (intact_start id stream)
    hidle).last hrun

/-! ## What the socket has got -/

/-- **What is on the socket is the first part of the answers**, byte for byte. -/
theorem wire_isPrefix_of_run {id : UInt64} {es : List ServeRun.Event}
    (hidle : Runs.StepsMeet step SendsIdle (start id stream) es)
    (hrun : Runs.run step (start id stream) es = some s) :
    s.wire <+: (answers stream).flatten ∧ s.wire.length = s.transferred := by
  have h : Intact s := intact_of_run hidle hrun
  obtain ⟨-, frames, read, hanswering, -⟩ := answering_of_run hrun
  obtain ⟨rest, hrest⟩ := hanswering.sends_prefix
  have hsends : s.wire <+: s.sends.flatten := h.written.prefix
  refine ⟨hsends.trans ?_, h.length_eq⟩
  rw [← hrest, List.flatten_append]
  exact List.prefix_append _ _

/-- When the messages that were passed to `send` are written, they are on the socket. -/
theorem Intact.wire_eq (h : Intact s) (hwrites : s.serve.connection.writes = []) :
    s.wire = s.sends.flatten := by
  have hwritten := h.written
  rw [hwrites] at hwritten
  exact hwritten.eq_flatten

/-- **The client gets all answers** of a connection that stops for its stream and whose writes are
over. -/
theorem wire_eq_of_run {id : UInt64} {es : List ServeRun.Event}
    (hidle : Runs.StepsMeet step SendsIdle (start id stream) es)
    (hrun : Runs.run step (start id stream) es = some s) (hstopped : s.serve.stopped ≠ none)
    (herrors : ∀ e, .readError e ∉ es) (hwrites : s.serve.connection.writes = []) :
    s.wire = (answers stream).flatten := by
  obtain ⟨-, frames, read, -, hprogress⟩ := answering_of_run hrun
  rw [(intact_of_run hidle hrun).wire_eq hwrites]
  rcases hprogress with ⟨hrunning, -⟩ | ⟨-, hsends⟩ | ⟨e, hmem, -⟩
  · exact absurd hrunning hstopped
  · rw [hsends]
  · exact absurd hmem (herrors e)

end AnswerRun

end Acs
