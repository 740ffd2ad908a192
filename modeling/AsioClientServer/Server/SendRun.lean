import AsioClientServer.Lib.Runs
import AsioClientServer.Server.TcpConnection

/-!
# What a connection puts on its socket

`TcpConnection::send` stores its message before it looks whether a write is in progress, and the
write in progress takes its bytes from where the message is stored. A send that is refused can
therefore change what is transmitted.

* `SendRun`: calls of `send` in any order with the transfers and completions of the writes.
* `tcpConnection_send_integrity_iff`: the socket holds what was sent exactly when every refused
  send passes the message that is being written.
-/

namespace Acs

/-- A connection, the bytes it has put on its socket, and the messages whose `send` has started a
write. It is looked at from outside: what is in its buffer is its own affair. -/
structure SendRun where
  connection : TcpConnection
  wire : Bytes := []
  started : List Bytes := []
  /-- The handler has closed the connection. -/
  closed : Bool := false
  deriving DecidableEq, Repr

/-- What the program and the socket do. -/
inductive SendRun.Event where
  | sendCopy (message : Bytes)
  | sendMove (message : Bytes)
  /-- The `i`-th outstanding write puts `n` bytes on the socket. -/
  | transfer (i n : Nat)
  /-- The `i`-th outstanding write completes without an error. -/
  | complete (i : Nat)
  deriving DecidableEq, Repr

namespace SendRun

/-- A connection that has sent nothing. -/
def start (id : UInt64) (handler : ClientHandler) : SendRun :=
  { connection := { id, handler } }

/-- The state after a call of `send`. Whether it has started a write is read off the connection. -/
def afterSend (s : SendRun) (message : Bytes) (connection : TcpConnection) : SendRun :=
  { s with
    connection
    started := if connection.writes.length = s.connection.writes.length then s.started
      else s.started ++ [message] }

/-- The next state, `none` where the event is not possible or the connection has been closed. -/
def step (s : SendRun) (event : Event) : Option SendRun :=
  if s.closed then none
  else
    match event with
    | .sendCopy message => some (s.afterSend message (s.connection.sendCopy message))
    | .sendMove message => some (s.afterSend message (s.connection.sendMove message))
    | .transfer i n =>
      (s.connection.onTransfer i n).map fun t =>
        { s with connection := t.2, wire := s.wire ++ t.1 }
    | .complete i =>
      (s.connection.onWritten i).map fun w => { s with connection := w.2, closed := w.1 }

/-- The socket holds the messages whose `send` started a write, the last one as far as its write
has come; while a write is in progress the connection still stores its message. -/
structure Intact (s : SendRun) : Prop where
  locked_iff : s.connection.writeInProgress = true ↔ s.connection.writes ≠ []
  written : Asio.Written s.connection.sendMsg s.connection.writes s.started s.wire

/-- A call of `send` while a write is in progress passes the message that is being written. All
other events are free. -/
def SendsSame (s : SendRun) : Event → Prop
  | .sendCopy message | .sendMove message =>
    s.connection.writeInProgress = true → message = s.connection.sendMsg
  | .transfer _ _ | .complete _ => True

variable {s s' : SendRun}

/-- **A call of `send` keeps the socket intact exactly when it passes the message that is being
written**, or nothing is. -/
theorem intact_send_iff (h : Intact s) (message : Bytes) :
    Intact (s.afterSend message (s.connection.send message)) ↔
      (s.connection.writeInProgress = true → message = s.connection.sendMsg) := by
  obtain ⟨hlocked, hwritten⟩ := h
  cases hlock : s.connection.writeInProgress with
  | true =>
    have hne := hlocked.mp hlock
    rw [TcpConnection.send_of_writing hlock, afterSend, if_pos rfl]
    constructor
    · exact fun h _ => hwritten.contents_unique h.written hne
    · intro hmessage
      rw [hmessage rfl]
      exact ⟨hlocked, hwritten⟩
  | false =>
    have hnil := Asio.nil_of_unlocked hlocked hlock
    rw [TcpConnection.send_of_idle hlock, afterSend, if_neg (by simp)]
    simp only [Bool.false_eq_true, false_implies, iff_true]
    refine ⟨by simp, ?_⟩
    simp only [hnil, List.nil_append] at hwritten ⊢
    exact hwritten.start message

/-- **An event keeps the socket intact exactly when it meets the condition.** -/
theorem intact_step_iff {event : Event} (h : Intact s) (hstep : s.step event = some s') :
    Intact s' ↔ SendsSame s event := by
  simp only [step] at hstep
  split at hstep
  · cases hstep
  · cases event with
    | sendCopy message =>
      obtain rfl := Option.some.inj hstep
      exact intact_send_iff h message
    | sendMove message =>
      obtain rfl := Option.some.inj hstep
      exact intact_send_iff h message
    -- a transfer takes its bytes from the message the write was started with
    | transfer i n =>
      obtain ⟨t, ht, rfl⟩ := Option.map_eq_some_iff.mp hstep
      obtain ⟨⟨piece, writes⟩, hw, rfl⟩ := Option.map_eq_some_iff.mp ht
      obtain ⟨hwritten, hne⟩ := h.written.transfer hw
      have hlock := h.locked_iff.mpr (Asio.ne_nil_of_transfer hw)
      simp only [SendsSame, iff_true]
      exact ⟨iff_of_true hlock hne, hwritten⟩
    | complete i =>
      obtain ⟨w, hw, rfl⟩ := Option.map_eq_some_iff.mp hstep
      obtain ⟨writes, hf, rfl⟩ := Option.map_eq_some_iff.mp hw
      obtain ⟨rfl, hwritten⟩ := h.written.finish hf s.connection.sendMsg
      simp only [SendsSame, iff_true]
      exact ⟨by simp [TcpConnection.handleWrite], hwritten⟩

end SendRun

/-- **When a connection transmits what was sent.** In every run of sends, transfers and
completions: the socket holds, all along, the messages whose `send` started a write, if and only
if no send that is refused passes another message than the one being written. -/
theorem tcpConnection_send_integrity_iff (id : UInt64) (handler : ClientHandler)
    (es : List SendRun.Event) :
    Runs.Along SendRun.step SendRun.Intact (SendRun.start id handler) es ↔
      Runs.StepsMeet SendRun.step SendRun.SendsSame (SendRun.start id handler) es :=
  Runs.along_iff_stepsMeet (fun _ _ _ h hs => SendRun.intact_step_iff h hs)
    ⟨by simp [SendRun.start], .idle rfl rfl⟩

/-- A message that is refused is transmitted in the place of the one being written. -/
theorem tcpConnection_send_overwrites :
    let events : List SendRun.Event := [.sendMove [1, 2, 3], .sendMove [7, 8, 9], .transfer 0 2]
    ¬ Runs.Along SendRun.step SendRun.Intact (SendRun.start 0 .echoClientHandler) events ∧
    ∃ s, Runs.run SendRun.step (SendRun.start 0 .echoClientHandler) events = some s ∧
      s.started = [[1, 2, 3]] ∧ s.connection.writeInProgress = true ∧
      s.connection.sendMsg = [7, 8, 9] ∧ s.wire = [7, 8] := by
  intro events
  have hresult : (Runs.run SendRun.step (SendRun.start 0 .echoClientHandler) events).map
      (fun s => (s.started, s.connection.writeInProgress, s.connection.sendMsg, s.wire))
      = some ([[1, 2, 3]], true, [7, 8, 9], [7, 8]) := by
    decide +kernel
  obtain ⟨s, hrun, hs⟩ := Option.map_eq_some_iff.mp hresult
  simp only [Prod.mk.injEq] at hs
  refine ⟨?_, s, hrun, hs⟩
  intro hall
  have hintact := hall.last hrun
  obtain ⟨hstarted, hlock, hmsg, -⟩ := hs
  cases hintact.written with
  | idle hwrites => exact hintact.locked_iff.mp hlock hwrites
  | writing _ _ hdone =>
    rw [hstarted, hmsg] at hdone
    have := congrArg List.getLast? hdone
    simp at this

end Acs
