import AsioClientServer.Lib.Runs
import AsioClientServer.Proto.Protocol

/-!
# `acs::conn::AsyncWriter`

The writer of `AsyncWriter.hpp`: it takes its lock before it touches its buffer, so a write that
is refused has no effect at all.

* `WriterRun` runs a writer on a stream: calls of `write` in any order with the transfers and the
  completions of the writes that have been started.
* `asyncWriter_integrity`: the stream holds exactly the messages whose `write` found no write in
  progress.
-/

namespace Acs

/-- `class AsyncWriter`, without the stream it writes to. -/
structure AsyncWriter where
  /-- `_writeBuffer`: the message of the write in progress, and afterwards that of the last one. -/
  writeBuffer : Bytes := []
  /-- `_writeInProgress`: the lock. -/
  writeInProgress : Bool := false
  /-- The composed writes that have been started and have not completed. -/
  outstanding : List Asio.WriteOp := []
  deriving DecidableEq, Repr

namespace AsyncWriter

/-- `_tryLockWriting`: whether the lock was free. It is taken then. -/
def tryLockWriting (w : AsyncWriter) : Bool × AsyncWriter :=
  if w.writeInProgress then (false, w) else (true, { w with writeInProgress := true })

/-- `_doWrite`: a composed write of the whole buffer is started. -/
def doWrite (w : AsyncWriter) : AsyncWriter :=
  { w with outstanding := w.outstanding ++ [⟨w.writeBuffer.length, 0⟩] }

/-- `write`, both overloads: the writer ends up with the same contents whether they are copied or
moved. -/
def write (w : AsyncWriter) (data : Bytes) : AsyncWriter :=
  match w.tryLockWriting with
  | (true, w) => { w with writeBuffer := data }.doWrite
  | (false, w) => w

/-- `write(std::string&&)` -/
def writeMove (w : AsyncWriter) (data : Bytes) : AsyncWriter :=
  w.write data

/-- `write(const std::string&)` -/
def writeCopy (w : AsyncWriter) (data : Bytes) : AsyncWriter :=
  w.write data

/-- `_handleWriteFinished`: the lock is given back, and an error other than the end of the stream is
thrown. -/
def handleWriteFinished (w : AsyncWriter) (error : Option Asio.ErrorCode) :
    Option Failure × AsyncWriter :=
  let w := { w with writeInProgress := false }
  match error with
  | none => (none, w)
  -- closed cleanly by the peer: only logged
  | some .eof => (none, w)
  | some e => (some (.systemError e), w)

/-- **A write that is refused has no effect**: the buffer belongs to the write in progress. -/
theorem write_of_locked {w : AsyncWriter} (h : w.writeInProgress = true) (data : Bytes) :
    w.write data = w := by
  simp only [write, tryLockWriting, h, if_true]

/-- A write that finds the lock free stores its message and starts. -/
theorem write_of_unlocked {w : AsyncWriter} (h : w.writeInProgress = false) (data : Bytes) :
    w.write data = { w with
      writeBuffer := data
      writeInProgress := true
      outstanding := w.outstanding ++ [⟨data.length, 0⟩] } := by
  simp only [write, tryLockWriting, h, Bool.false_eq_true, if_false, doWrite]

end AsyncWriter

/-! ## A writer and its stream -/

/-- A writer on a stream, with what it has been given while it was idle. -/
structure WriterRun where
  writer : AsyncWriter := {}
  stream : Bytes := []
  /-- The messages whose `write` was called while no write was outstanding. -/
  accepted : List Bytes := []
  deriving DecidableEq, Repr

/-- What its owner and its stream do. -/
inductive WriterRun.Event where
  | writeMove (data : Bytes)
  | writeCopy (data : Bytes)
  /-- The `i`-th outstanding write puts `n` bytes on the stream. -/
  | transfer (i n : Nat)
  /-- The `i`-th outstanding write completes without an error. -/
  | complete (i : Nat)
  deriving DecidableEq, Repr

namespace WriterRun

/-- The state after a call of `write`. Whether the message counts is read off the writer before the
call. -/
def afterWrite (s : WriterRun) (data : Bytes) (writer : AsyncWriter) : WriterRun :=
  { s with
    writer
    accepted := if s.writer.outstanding = [] then s.accepted ++ [data] else s.accepted }

/-- The next state, `none` where the event is not possible. -/
def step (s : WriterRun) : Event → Option WriterRun
  | .writeMove data => some (s.afterWrite data (s.writer.writeMove data))
  | .writeCopy data => some (s.afterWrite data (s.writer.writeCopy data))
  | .transfer i n =>
    (Asio.transfer s.writer.writeBuffer s.writer.outstanding i n).map fun t =>
      { s with writer := { s.writer with outstanding := t.2 }, stream := s.stream ++ t.1 }
  | .complete i =>
    (Asio.finish s.writer.outstanding i).map fun outstanding =>
      { s with writer := ({ s.writer with outstanding }.handleWriteFinished none).2 }

/-- The lock is taken exactly while a write is outstanding, and the stream holds what has been
accepted. -/
structure Inv (s : WriterRun) : Prop where
  locked_iff : s.writer.writeInProgress = true ↔ s.writer.outstanding ≠ []
  written : Asio.Written s.writer.writeBuffer s.writer.outstanding s.accepted s.stream

variable {s s' : WriterRun}

/-- **A call of `write` keeps the invariant.** An idle writer starts the message, and a locked one
stays as it is. -/
theorem Inv.write (h : Inv s) (data : Bytes) : Inv (s.afterWrite data (s.writer.write data)) := by
  obtain ⟨hlocked, hwritten⟩ := h
  cases hlock : s.writer.writeInProgress with
  | true =>
    -- refused: the writer is as before, and the message is not an accepted one
    have hout : s.writer.outstanding ≠ [] := hlocked.mp hlock
    rw [AsyncWriter.write_of_locked hlock, afterWrite, if_neg hout]
    exact ⟨hlocked, hwritten⟩
  | false =>
    -- accepted: the stream holds all the messages before this one
    have hout := Asio.nil_of_unlocked hlocked hlock
    rw [AsyncWriter.write_of_unlocked hlock, afterWrite, if_pos hout]
    refine ⟨by simp, ?_⟩
    simp only [hout, List.nil_append] at hwritten ⊢
    exact hwritten.start data

/-- **Every call, transfer and completion keeps the invariant.** -/
theorem inv_step {event : Event} (h : Inv s) (hstep : s.step event = some s') : Inv s' := by
  cases event with
  | writeMove data =>
    obtain rfl := Option.some.inj hstep
    exact h.write data
  | writeCopy data =>
    obtain rfl := Option.some.inj hstep
    exact h.write data
  | transfer i n =>
    obtain ⟨⟨piece, outstanding⟩, ht, rfl⟩ := Option.map_eq_some_iff.mp hstep
    obtain ⟨hwritten, hne⟩ := h.written.transfer ht
    have hlock := h.locked_iff.mpr (Asio.ne_nil_of_transfer ht)
    exact ⟨iff_of_true hlock hne, hwritten⟩
  | complete i =>
    obtain ⟨outstanding, hf, rfl⟩ := Option.map_eq_some_iff.mp hstep
    obtain ⟨rfl, hwritten⟩ := h.written.finish hf s.writer.writeBuffer
    exact ⟨by simp [AsyncWriter.handleWriteFinished], hwritten⟩

/-- While a write is outstanding nothing changes the buffer it takes its bytes from. -/
theorem writeBuffer_step {event : Event} (h : Inv s) (hstep : s.step event = some s')
    (hout : s.writer.outstanding ≠ []) : s'.writer.writeBuffer = s.writer.writeBuffer := by
  have hlock := h.locked_iff.mpr hout
  cases event with
  | writeMove data =>
    obtain rfl := Option.some.inj hstep
    rw [afterWrite, AsyncWriter.writeMove, AsyncWriter.write_of_locked hlock]
  | writeCopy data =>
    obtain rfl := Option.some.inj hstep
    rw [afterWrite, AsyncWriter.writeCopy, AsyncWriter.write_of_locked hlock]
  | transfer i n =>
    obtain ⟨t, -, rfl⟩ := Option.map_eq_some_iff.mp hstep
    rfl
  | complete i =>
    obtain ⟨outstanding, -, rfl⟩ := Option.map_eq_some_iff.mp hstep
    rfl

end WriterRun

/-- **Write integrity of `AsyncWriter`.** After any calls, transfers and completions, in any order:
at most one write is outstanding, and one is exactly while the lock is taken; the stream holds the
accepted messages, the last one as far as its write has come; the buffer does not change while a
write is outstanding; and a write refused then leaves the writer as it is. -/
theorem asyncWriter_integrity {es : List WriterRun.Event} {s : WriterRun}
    (hrun : Runs.run WriterRun.step {} es = some s) :
    s.writer.outstanding.length ≤ 1 ∧
    (s.writer.writeInProgress = true ↔ s.writer.outstanding ≠ []) ∧
    Asio.Written s.writer.writeBuffer s.writer.outstanding s.accepted s.stream ∧
    (s.writer.outstanding ≠ [] → ∀ event s', s.step event = some s' →
      s'.writer.writeBuffer = s.writer.writeBuffer) ∧
    (s.writer.outstanding ≠ [] → ∀ data,
      s.writer.writeMove data = s.writer ∧ s.writer.writeCopy data = s.writer) := by
  have hinv : WriterRun.Inv s := Runs.run_invariant (fun _ _ _ h hs => WriterRun.inv_step h hs)
    ⟨by simp, .idle rfl rfl⟩ hrun
  refine ⟨hinv.written.length_le_one, hinv.locked_iff, hinv.written, ?_, ?_⟩
  · exact fun hout event s' hs => WriterRun.writeBuffer_step hinv hs hout
  · intro hout data
    have hlock := hinv.locked_iff.mpr hout
    exact ⟨AsyncWriter.write_of_locked hlock data, AsyncWriter.write_of_locked hlock data⟩

/-- A message, one refused while it is transferred, and one after it. -/
theorem asyncWriter_integrity_run :
    let events : List WriterRun.Event := [.writeMove [1, 2, 3], .transfer 0 1, .writeCopy [9],
      .transfer 0 2, .complete 0, .writeCopy [4, 5], .transfer 0 1]
    ∃ s, Runs.run WriterRun.step {} events = some s ∧ s.writer.outstanding.length ≤ 1 ∧
      s.accepted = [[1, 2, 3], [4, 5]] ∧ s.stream = [1, 2, 3, 4] := by
  intro events
  have hresult : (Runs.run WriterRun.step {} events).map (fun s => (s.accepted, s.stream))
      = some ([[1, 2, 3], [4, 5]], [1, 2, 3, 4]) := by
    decide
  obtain ⟨s, hrun, hs⟩ := Option.map_eq_some_iff.mp hresult
  obtain ⟨haccepted, hstream⟩ := Prod.mk.inj hs
  exact ⟨s, hrun, (asyncWriter_integrity hrun).1, haccepted, hstream⟩

end Acs
