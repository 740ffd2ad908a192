import AsioClientServer.Proto.Protocol

/-!
# `acs::conn::AsyncReader`

The reader of `AsyncReader.hpp`: three entry points share one lock, one callback slot and one
read buffer, and each starts a chain of composed reads whose completion handlers schedule one
another.

A handler's last action, when nothing goes wrong, is to call the stored callback. What the callback
does concerns the whole program, so a handler here ends with a `HandlerExit` that says which
callback is called with which data; whoever runs the handler runs the callback.

* `κ` is the type of the callbacks, `π` of the pointers to `Protocol` objects. A handler that uses
  `_protocol` is given the object it points to, and gives it back.
* `outstanding` lists the composed reads that have been started and have not completed, each with
  its handler. The oldest one is the one that makes progress (`onEvent`).
-/

namespace Acs

variable {κ π : Type}

/-- The completion handlers, each with the arguments bound when it was scheduled. A reader has no
other state that says which loop it is in. -/
inductive ReadHandler where
  | handleReadUntilFinished (delim : UInt8) (discardDelim : Bool)
  | handleReadUntilInfNoUnlockLoopstep (delim : UInt8) (discardDelim : Bool)
  | handleReadProtoFramePrefixFinished (repeatReadProto : Bool)
  | handleReadProtoMessageFinished (repeatReadProto : Bool)
  deriving DecidableEq, Repr

/-- A composed read with the handler to run when it completes. -/
structure OutstandingRead where
  op : Asio.ReadOp
  handler : ReadHandler
  deriving DecidableEq, Repr

/-- `class AsyncReader`, without the stream it reads from. The three entry points share all of its
members. -/
structure AsyncReader (κ π : Type) where
  maxBufferSize : Nat
  /-- `_callback`: whose data is handed to, until the next request stores another one. -/
  callback : Option κ := none
  /-- `_protocol`: the object that the framed reads use, if one has been given. -/
  protocol : Option π := none
  /-- `_readBuffer`: what has been read and not been used yet. It survives the end of a read. -/
  readBuffer : Bytes := []
  /-- `_readInProgress`: the lock, taken from a request to the last handler of its chain. -/
  readInProgress : Bool := false
  outstanding : List OutstandingRead := []
  deriving DecidableEq, Repr

/-- `MAX_READ_BUFFER_SIZE_BYTES`: the default limit of a reader. No reader of the program has
another one. -/
def maxReadBufferSizeBytes : Nat := 1024

/-- How a completion handler ends: it returns, it calls the stored callback, or an exception leaves
it. -/
inductive HandlerExit (κ : Type) where
  | returned
  /-- The callback is called, and forgotten once it has returned when `once` is set. -/
  | calls (callback : κ) (data : Bytes) (once : Bool)
  | threw (failure : Failure)
  deriving DecidableEq, Repr

/-- A reader after a handler, before the callback is called if one is. The protocol object is given
back, for the handler may have parsed a prefix into it. -/
structure HandlerResult (κ π : Type) where
  exit : HandlerExit κ
  reader : AsyncReader κ π
  protocol : Protocol
  deriving DecidableEq, Repr

namespace AsyncReader

/-! ## The lock -/

/-- `_tryLockReading`: whether the lock was free. It is taken then. -/
def tryLockReading (r : AsyncReader κ π) : Bool × AsyncReader κ π :=
  if r.readInProgress then (false, r) else (true, { r with readInProgress := true })

/-- `_unlockReading`: the lock is given back, whoever has it. -/
def unlockReading (r : AsyncReader κ π) : AsyncReader κ π :=
  { r with readInProgress := false }

/-- `_checkError`: it throws for every error, and never returns `true`. The lock is given back
first. -/
def checkError (r : AsyncReader κ π) (error : Option Asio.ErrorCode) :
    Option Failure × AsyncReader κ π :=
  match error with
  -- the end of the stream is only logged differently: every error is thrown
  | some e => (some (.systemError e), r.unlockReading)
  | none => (none, r)

/-! ## Starting a composed read -/

/-- A composed read is started on the stream and the read buffer. Nothing stops a second one from
being started before the first has completed. -/
def initiate (r : AsyncReader κ π) (op : Asio.ReadOp) (handler : ReadHandler) :
    AsyncReader κ π :=
  { r with outstanding := r.outstanding ++ [⟨op, handler⟩] }

/-- `_doReadUntil`: one read up to the delimiter. -/
def doReadUntil (r : AsyncReader κ π) (delim : UInt8) (discardDelim : Bool) : AsyncReader κ π :=
  r.initiate ⟨.delim delim, r.maxBufferSize, 0⟩ (.handleReadUntilFinished delim discardDelim)

/-- `_doReadUntilInfinitelyNoUnlock`: one read of the delimited loop, whose handler starts the next
one. -/
def doReadUntilInfinitelyNoUnlock (r : AsyncReader κ π) (delim : UInt8) (discardDelim : Bool) :
    AsyncReader κ π :=
  r.initiate ⟨.delim delim, r.maxBufferSize, 0⟩
    (.handleReadUntilInfNoUnlockLoopstep delim discardDelim)

/-- `_doReadProtoFramePrefix`: the read of a prefix. It throws when the buffer could not hold one,
and the lock stays taken then. -/
def doReadProtoFramePrefix (r : AsyncReader κ π) (p : Protocol) (repeatReadProtoInf : Bool) :
    Option Failure × AsyncReader κ π :=
  match r.protocol with
  | none => (some (.assertionFailed "_protocol != nullptr"), r)
  | some _ =>
    let framePrefixSize := p.getFramePrefixSize
    if r.maxBufferSize < framePrefixSize then
      (some (.lengthError "Frame prefix size exceeds max read buffer size"), r)
    else
      (none, r.initiate ⟨.full, framePrefixSize, 0⟩
        (.handleReadProtoFramePrefixFinished repeatReadProtoInf))

/-- `_doReadProtoMessage`: the read of a payload. It throws when the buffer could not hold it, and
the lock stays taken then. -/
def doReadProtoMessage (r : AsyncReader κ π) (messageSize : Nat) (repeatReadProto : Bool) :
    Option Failure × AsyncReader κ π :=
  match r.protocol with
  | none => (some (.assertionFailed "_protocol != nullptr"), r)
  | some _ =>
    if r.maxBufferSize < messageSize then
      (some (.lengthError "Message size exceeds max read buffer size"), r)
    else
      (none, r.initiate ⟨.full, messageSize, 0⟩ (.handleReadProtoMessageFinished repeatReadProto))

/-! ## Entry points

A request made while another one holds the lock is refused: an error is logged and nothing
else happens. -/

/-- `readAsyncUntilDelim`: one delimited read. The callback gets what stands before the delimiter,
or that with the delimiter. -/
def readAsyncUntilDelim (r : AsyncReader κ π) (callback : κ) (delim : UInt8 := 10)
    (discardDelim : Bool := true) : AsyncReader κ π :=
  match r.tryLockReading with
  | (true, r) => { r with callback := some callback }.doReadUntil delim discardDelim
  | (false, r) => r

/-- `readAsyncUntilDelimInf` is not implemented: it throws before it looks at the lock. -/
def readAsyncUntilDelimInf (r : AsyncReader κ π) : Option Failure × AsyncReader κ π :=
  (some (.logicError "Function not yet implemented"), r)

/-- `readAsyncUntilDelimInfOccupy`: the delimited loop, which keeps the lock. -/
def readAsyncUntilDelimInfOccupy (r : AsyncReader κ π) (callback : κ) (delim : UInt8 := 10)
    (discardDelim : Bool := true) : AsyncReader κ π :=
  match r.tryLockReading with
  | (true, r) =>
    { r with callback := some callback }.doReadUntilInfinitelyNoUnlock delim discardDelim
  | (false, r) => r

/-- `readAsyncProtoInfOccupy` with a pointer to the protocol object `p`: the framed loop, which
keeps the lock. -/
def readAsyncProtoInfOccupy (r : AsyncReader κ π) (callback : κ) (protocol : π) (p : Protocol) :
    Option Failure × AsyncReader κ π :=
  match r.tryLockReading with
  | (true, r) =>
    { r with callback := some callback, protocol := some protocol }.doReadProtoFramePrefix p true
  | (false, r) => (none, r)

/-! ## Completion handlers -/

/-- `std::string::find` of a character; `none` is `npos`. -/
def find (s : Bytes) (c : UInt8) : Option Nat :=
  if c ∈ s then some (s.idxOf c) else none

/-- A position plus one, in `std::size_t` arithmetic: `npos + 1` is 0. -/
def posAfter : Option Nat → Nat
  | none => 0
  | some pos => pos + 1

/-- `substr(0, pos)` -/
def substrTo (s : Bytes) : Option Nat → Bytes
  | none => s
  | some pos => s.take pos

/-- `_callback(data)`: an empty `std::function` throws. -/
def callCallback (r : AsyncReader κ π) (data : Bytes) (once : Bool := false) : HandlerExit κ :=
  match r.callback with
  | some callback => .calls callback data once
  | none => .threw .badFunctionCall

/-- `_handleReadUntilFinished`: the end of a delimited read. The buffer is searched again, and what
is found has to be what the read has reported. -/
def handleReadUntilFinished (r : AsyncReader κ π) (p : Protocol) (delim : UInt8)
    (discardDelim : Bool) (error : Option Asio.ErrorCode) (bytesTransferred : Nat) :
    HandlerResult κ π :=
  match r.checkError error with
  | (some f, r) => ⟨.threw f, r, p⟩
  | (none, r) =>
    let delimPos := find r.readBuffer delim
    if bytesTransferred = posAfter delimPos then
      let requestedData :=
        if discardDelim then substrTo r.readBuffer delimPos
        else r.readBuffer.take (posAfter delimPos)
      -- what is left after the delimiter stays for the next read
      let r := { r with readBuffer := r.readBuffer.drop (posAfter delimPos) }
      let r := r.unlockReading
      ⟨r.callCallback requestedData, r, p⟩
    else ⟨.threw (.assertionFailed "bytesTransferred == delimPos+1"), r, p⟩

/-- `_handleReadUntilInfNoUnlockLoopstep`: one step of the delimited loop. It starts its next read
before it calls the callback, so that one finds a reader that is locked. -/
def handleReadUntilInfNoUnlockLoopstep (r : AsyncReader κ π) (p : Protocol) (delim : UInt8)
    (discardDelim : Bool) (error : Option Asio.ErrorCode) (bytesTransferred : Nat) :
    HandlerResult κ π :=
  match r.checkError error with
  | (some f, r) => ⟨.threw f, r, p⟩
  | (none, r) =>
    let delimPos := find r.readBuffer delim
    if bytesTransferred = posAfter delimPos then
      let requestedData :=
        if discardDelim then substrTo r.readBuffer delimPos
        else r.readBuffer.take (posAfter delimPos)
      let r := { r with readBuffer := r.readBuffer.drop (posAfter delimPos) }
      -- the next loop step is scheduled before the callback is called
      let r := r.doReadUntilInfinitelyNoUnlock delim discardDelim
      ⟨r.callCallback requestedData, r, p⟩
    else ⟨.threw (.assertionFailed "bytesTransferred == delimPos+1"), r, p⟩

/-- `_handleReadProtoFramePrefixFinished`: the end of the read of a prefix. The size it gives is the
size of the next read. -/
def handleReadProtoFramePrefixFinished (r : AsyncReader κ π) (p : Protocol)
    (repeatReadProto : Bool) (error : Option Asio.ErrorCode) (bytesTransferred : Nat) :
    HandlerResult κ π :=
  match r.checkError error with
  | (some f, r) => ⟨.threw f, r, p⟩
  | (none, r) =>
    if bytesTransferred = p.getFramePrefixSize then
      match p.getMessageSize (r.readBuffer.take bytesTransferred) with
      -- this exception and the next one leave the lock taken
      | (.error f, p) => ⟨.threw f, r, p⟩
      | (.ok messageSize, p) =>
        let r := { r with readBuffer := r.readBuffer.drop bytesTransferred }
        match r.doReadProtoMessage messageSize repeatReadProto with
        | (some f, r) => ⟨.threw f, r, p⟩
        | (none, r) => ⟨.returned, r, p⟩
    else
      ⟨.threw (.assertionFailed "bytesTransferred == _protocol->getFramePrefixSize()"), r, p⟩

/-- `_handleReadProtoMessageFinished`: the end of the read of a payload. With `repeatReadProto` it
is a step of the loop; without, the reader is released and the callback forgotten. -/
def handleReadProtoMessageFinished (r : AsyncReader κ π) (p : Protocol) (repeatReadProto : Bool)
    (error : Option Asio.ErrorCode) (bytesTransferred : Nat) : HandlerResult κ π :=
  match r.checkError error with
  | (some f, r) => ⟨.threw f, r, p⟩
  | (none, r) =>
    let requestedData := r.readBuffer.take bytesTransferred
    let r := { r with readBuffer := r.readBuffer.drop bytesTransferred }
    if repeatReadProto then
      -- the read of the next prefix is scheduled before the callback is called
      match r.doReadProtoFramePrefix p true with
      | (some f, r) => ⟨.threw f, r, p⟩
      | (none, r) => ⟨r.callCallback requestedData, r, p⟩
    else
      let r := { r.unlockReading with protocol := none }
      ⟨r.callCallback requestedData true, r, p⟩

/-- The handler that was scheduled with a composed read is called with its error and its count. -/
def runHandler (r : AsyncReader κ π) (p : Protocol) (handler : ReadHandler)
    (error : Option Asio.ErrorCode) (bytesTransferred : Nat) : HandlerResult κ π :=
  match handler with
  | .handleReadUntilFinished delim discardDelim =>
    r.handleReadUntilFinished p delim discardDelim error bytesTransferred
  | .handleReadUntilInfNoUnlockLoopstep delim discardDelim =>
    r.handleReadUntilInfNoUnlockLoopstep p delim discardDelim error bytesTransferred
  | .handleReadProtoFramePrefixFinished repeatReadProto =>
    r.handleReadProtoFramePrefixFinished p repeatReadProto error bytesTransferred
  | .handleReadProtoMessageFinished repeatReadProto =>
    r.handleReadProtoMessageFinished p repeatReadProto error bytesTransferred

end AsyncReader

/-- The reader once the callback has returned. -/
def HandlerResult.afterCallback (res : HandlerResult κ π) : AsyncReader κ π :=
  match res.exit with
  | .calls _ _ true => { res.reader with callback := none }
  | _ => res.reader

/-! ## Progress of the oldest outstanding read -/

/-- What can happen to the oldest outstanding read. -/
inductive ReadEvent where
  /-- The stream has returned some bytes. -/
  | received (piece : Bytes)
  /-- The read needs no more bytes: its handler runs. -/
  | completed
  /-- The stream has failed: the handler runs with the error. -/
  | failed (e : Asio.ErrorCode)
  deriving DecidableEq, Repr

namespace AsyncReader

/-- One event of the oldest outstanding read, `none` when it is not possible. A read that needs
no more bytes completes before its stream is asked again. -/
def onEvent (r : AsyncReader κ π) (p : Protocol) : ReadEvent → Option (HandlerResult κ π)
  | .received piece =>
    match r.outstanding with
    | [] => none
    | ⟨op, handler⟩ :: rest =>
      if op.result r.readBuffer = none ∧ 0 < piece.length ∧ piece.length ≤ op.room r.readBuffer then
        some ⟨.returned,
          { r with
            readBuffer := r.readBuffer ++ piece
            outstanding := ⟨op.advance piece.length, handler⟩ :: rest }, p⟩
      else none
  | .completed =>
    match r.outstanding with
    | [] => none
    | ⟨op, handler⟩ :: rest =>
      match op.result r.readBuffer with
      | none => none
      | some (error, n) => some ({ r with outstanding := rest }.runHandler p handler error n)
  | .failed e =>
    match r.outstanding with
    | [] => none
    | ⟨op, handler⟩ :: rest =>
      if op.result r.readBuffer = none then
        let (error, n) := op.failed e
        some ({ r with outstanding := rest }.runHandler p handler error n)
      else none

/-! ## Small facts -/

/-- A delimiter that is in the buffer is found where it is first. -/
@[simp] theorem find_of_mem {s : Bytes} {c : UInt8} (h : c ∈ s) : find s c = some (s.idxOf c) :=
  if_pos h

@[simp] theorem posAfter_some (pos : Nat) : posAfter (some pos) = pos + 1 := rfl

@[simp] theorem checkError_none (r : AsyncReader κ π) : r.checkError none = (none, r) := rfl

@[simp] theorem checkError_some (r : AsyncReader κ π) (e : Asio.ErrorCode) :
    r.checkError (some e) = (some (.systemError e), r.unlockReading) := rfl

/-- **Every handler ends alike when its read has failed**: the exception is thrown, the lock is
free, and the buffer is left as it is. -/
theorem runHandler_error (r : AsyncReader κ π) (p : Protocol) (handler : ReadHandler)
    (e : Asio.ErrorCode) (n : Nat) :
    r.runHandler p handler (some e) n = ⟨.threw (.systemError e), r.unlockReading, p⟩ := by
  cases handler <;> rfl

/-- Nothing happens to a reader that has not started a read. -/
theorem onEvent_of_outstanding_nil {r : AsyncReader κ π} (h : r.outstanding = []) (p : Protocol)
    (e : ReadEvent) : r.onEvent p e = none := by
  cases e <;> simp only [onEvent, h]

section OnEvent

variable {r : AsyncReader κ π} {p : Protocol} {op : Asio.ReadOp} {handler : ReadHandler}
  {rest : List OutstandingRead} {res : HandlerResult κ π}

/-- When the oldest read takes a piece, and what it does then: it needs bytes, and the piece fits
the buffer. -/
theorem onEvent_received_iff {piece : Bytes} (hout : r.outstanding = ⟨op, handler⟩ :: rest) :
    r.onEvent p (.received piece) = some res ↔
      op.result r.readBuffer = none ∧ 0 < piece.length ∧ piece.length ≤ op.room r.readBuffer ∧
        res = ⟨.returned,
          { r with
            readBuffer := r.readBuffer ++ piece
            outstanding := ⟨op.advance piece.length, handler⟩ :: rest }, p⟩ := by
  simp only [onEvent, hout]
  split
  · next h => simp only [h, Option.some.injEq, true_and, eq_comm]
  · next h =>
    constructor
    · intro h'
      cases h'
    · rintro ⟨h1, h2, h3, -⟩
      exact absurd ⟨h1, h2, h3⟩ h

/-- When the oldest read completes: its condition holds, and its handler runs with what it
reports. -/
theorem onEvent_completed_iff (hout : r.outstanding = ⟨op, handler⟩ :: rest) :
    r.onEvent p .completed = some res ↔
      ∃ error n, op.result r.readBuffer = some (error, n) ∧
        res = { r with outstanding := rest }.runHandler p handler error n := by
  simp only [onEvent, hout]
  cases op.result r.readBuffer with
  | none => simp
  | some result =>
    constructor
    · intro h
      exact ⟨result.1, result.2, rfl, (Option.some.inj h).symm⟩
    · rintro ⟨error, n, h, rfl⟩
      obtain rfl := Option.some.inj h
      rfl

/-- A read of `maxSize` bytes completes without an error, when they are there. -/
theorem onEvent_completed_full {maxSize transferred : Nat}
    (hout : r.outstanding = ⟨⟨.full, maxSize, transferred⟩, handler⟩ :: rest)
    (hr : r.onEvent p .completed = some res) :
    maxSize ≤ r.readBuffer.length ∧
      res = { r with outstanding := rest }.runHandler p handler none transferred := by
  obtain ⟨error, n, hres, rfl⟩ := (onEvent_completed_iff hout).mp hr
  rw [Asio.ReadOp.result_full] at hres
  split at hres
  · next hfull =>
    obtain ⟨rfl, rfl⟩ := Prod.mk.inj (Option.some.inj hres)
    exact ⟨hfull, rfl⟩
  · cases hres

/-- A delimited read that completes has found its delimiter, or its buffer is full. -/
theorem onEvent_completed_delim {delim : UInt8} {maxSize transferred : Nat}
    (hout : r.outstanding = ⟨⟨.delim delim, maxSize, transferred⟩, handler⟩ :: rest)
    (hr : r.onEvent p .completed = some res) :
    (delim ∈ r.readBuffer.take maxSize ∧
      res = { r with outstanding := rest }.runHandler p handler none
        (r.readBuffer.idxOf delim + 1)) ∨
    (delim ∉ r.readBuffer.take maxSize ∧ maxSize ≤ r.readBuffer.length ∧
      res = ⟨.threw (.systemError .notFound),
        { r with outstanding := rest, readInProgress := false }, p⟩) := by
  obtain ⟨error, n, hres, rfl⟩ := (onEvent_completed_iff hout).mp hr
  rw [Asio.ReadOp.result_delim] at hres
  split at hres
  · next hmem =>
    obtain ⟨rfl, rfl⟩ := Prod.mk.inj (Option.some.inj hres)
    exact Or.inl ⟨hmem, rfl⟩
  · next hmem =>
    split at hres
    · next hfull =>
      obtain ⟨rfl, rfl⟩ := Prod.mk.inj (Option.some.inj hres)
      refine Or.inr ⟨hmem, hfull, ?_⟩
      rw [runHandler_error]
      rfl
    · cases hres

/-- When the oldest read fails: it still needs bytes, so the stream is what ends it. -/
theorem onEvent_failed_iff {e : Asio.ErrorCode} (hout : r.outstanding = ⟨op, handler⟩ :: rest) :
    r.onEvent p (.failed e) = some res ↔
      op.result r.readBuffer = none ∧
        res = ⟨.threw (.systemError e),
          { r with outstanding := rest, readInProgress := false }, p⟩ := by
  have hrun : ({ r with outstanding := rest } : AsyncReader κ π).runHandler p handler
      (op.failed e).1 (op.failed e).2
      = ⟨.threw (.systemError e), { r with outstanding := rest, readInProgress := false }, p⟩ := by
    rw [op.failed_fst, runHandler_error]
    rfl
  simp only [onEvent, hout, hrun]
  split
  · next h => simp only [h, Option.some.injEq, true_and, eq_comm]
  · next h => simp [h]

end OnEvent

/-! ## The handlers, case by case -/

section Handlers

variable {r : AsyncReader κ π} {p : Protocol} {q : π}

/-- A prefix fits a buffer of ten bytes, so the read of one is scheduled. -/
theorem doReadProtoFramePrefix_eq (hq : r.protocol = some q) (hmax : 10 ≤ r.maxBufferSize)
    (b : Bool) :
    r.doReadProtoFramePrefix p b
      = (none, r.initiate ⟨.full, 10, 0⟩ (.handleReadProtoFramePrefixFinished b)) := by
  simp only [doReadProtoFramePrefix, hq, Protocol.getFramePrefixSize_eq]
  rw [if_neg (by omega)]

/-- The framed loop starts with the read of a prefix, whatever is in the buffer. -/
theorem readAsyncProtoInfOccupy_eq (hlock : r.readInProgress = false) (hmax : 10 ≤ r.maxBufferSize)
    (callback : κ) (protocol : π) (p : Protocol) :
    r.readAsyncProtoInfOccupy callback protocol p
      = (none, { r with
          readInProgress := true
          callback := some callback
          protocol := some protocol }.initiate ⟨.full, 10, 0⟩
            (.handleReadProtoFramePrefixFinished true)) := by
  have hprefix := doReadProtoFramePrefix_eq (p := p) (q := protocol)
    (r := { r with
      readInProgress := true, callback := some callback, protocol := some protocol }) rfl hmax true
  simp only [readAsyncProtoInfOccupy, tryLockReading, hlock, Bool.false_eq_true, if_false, hprefix]

/-- The prefix handler on bytes that are no prefix. The buffer still holds them, and the lock is
taken. -/
theorem framePrefixFinished_badPrefix (b : Bool)
    (hparse : FramePrefix.parseFromArray (r.readBuffer.take 10) = none) :
    r.handleReadProtoFramePrefixFinished p b none 10
      = ⟨.threw (.runtimeError "Wrong frame prefix format. Parse failed"), r,
          { p with deserFramePrefixCache := {} }⟩ := by
  simp only [handleReadProtoFramePrefixFinished, checkError_none, Protocol.getFramePrefixSize_eq,
    if_true, Protocol.getMessageSize, hparse]

/-- The prefix handler on a prefix whose payload would not fit. The prefix is gone from the buffer,
and it is in the cache. -/
theorem framePrefixFinished_tooLong (hq : r.protocol = some q) (b : Bool)
    {framePrefix : FramePrefix}
    (hparse : FramePrefix.parseFromArray (r.readBuffer.take 10) = some framePrefix)
    (hmax : r.maxBufferSize < framePrefix.size.toNat) :
    r.handleReadProtoFramePrefixFinished p b none 10
      = ⟨.threw (.lengthError "Message size exceeds max read buffer size"),
          { r with readBuffer := r.readBuffer.drop 10 },
          { p with deserFramePrefixCache := framePrefix }⟩ := by
  simp only [handleReadProtoFramePrefixFinished, checkError_none, Protocol.getFramePrefixSize_eq,
    if_true, Protocol.getMessageSize, hparse, doReadProtoMessage, hq, hmax]

/-- The prefix handler on a good prefix: the read of the payload is scheduled. -/
theorem framePrefixFinished_ok (hq : r.protocol = some q) (b : Bool) {framePrefix : FramePrefix}
    (hparse : FramePrefix.parseFromArray (r.readBuffer.take 10) = some framePrefix)
    (hmax : framePrefix.size.toNat ≤ r.maxBufferSize) :
    r.handleReadProtoFramePrefixFinished p b none 10
      = ⟨.returned,
          { r with readBuffer := r.readBuffer.drop 10 }.initiate
            ⟨.full, framePrefix.size.toNat, 0⟩ (.handleReadProtoMessageFinished b),
          { p with deserFramePrefixCache := framePrefix }⟩ := by
  simp only [handleReadProtoFramePrefixFinished, checkError_none, Protocol.getFramePrefixSize_eq,
    if_true, Protocol.getMessageSize, hparse, doReadProtoMessage, hq, Nat.not_lt.mpr hmax,
    if_false]

/-- The message handler of the loop: the read of the next prefix is scheduled, and the payload is
handed to the callback. -/
theorem messageFinished_ok {callback : κ} (hq : r.protocol = some q)
    (hcb : r.callback = some callback) (hmax : 10 ≤ r.maxBufferSize) (n : Nat) :
    r.handleReadProtoMessageFinished p true none n
      = ⟨.calls callback (r.readBuffer.take n) false,
          { r with readBuffer := r.readBuffer.drop n }.initiate ⟨.full, 10, 0⟩
            (.handleReadProtoFramePrefixFinished true), p⟩ := by
  have hprefix := doReadProtoFramePrefix_eq (p := p)
    (r := { r with readBuffer := r.readBuffer.drop n }) hq hmax true
  simp only [handleReadProtoMessageFinished, checkError_none, if_true, hprefix]
  simp only [callCallback, initiate, hcb]

/-- The handler of a delimited read: what stands before the first delimiter is handed to the
callback, what stands after it stays. The lock is given back. -/
theorem readUntilFinished_ok {callback : κ} {delim : UInt8} (hcb : r.callback = some callback)
    (hd : delim ∈ r.readBuffer) (discardDelim : Bool) :
    r.handleReadUntilFinished p delim discardDelim none (r.readBuffer.idxOf delim + 1)
      = ⟨.calls callback (r.readBuffer.take (r.readBuffer.idxOf delim +
            if discardDelim then 0 else 1)) false,
          { r with
            readBuffer := r.readBuffer.drop (r.readBuffer.idxOf delim + 1)
            readInProgress := false }, p⟩ := by
  simp only [handleReadUntilFinished, checkError_none, find_of_mem hd, posAfter_some, if_true]
  cases discardDelim <;> simp [callCallback, unlockReading, hcb, substrTo]

/-- The handler of the delimited loop: the same, but the next read is scheduled instead. -/
theorem readUntilInfLoopstep_ok {callback : κ} {delim : UInt8} (hcb : r.callback = some callback)
    (hd : delim ∈ r.readBuffer) (discardDelim : Bool) :
    r.handleReadUntilInfNoUnlockLoopstep p delim discardDelim none (r.readBuffer.idxOf delim + 1)
      = ⟨.calls callback (r.readBuffer.take (r.readBuffer.idxOf delim +
            if discardDelim then 0 else 1)) false,
          { r with readBuffer := r.readBuffer.drop (r.readBuffer.idxOf delim + 1) }.initiate
            ⟨.delim delim, r.maxBufferSize, 0⟩
            (.handleReadUntilInfNoUnlockLoopstep delim discardDelim), p⟩ := by
  simp only [handleReadUntilInfNoUnlockLoopstep, checkError_none, find_of_mem hd, posAfter_some,
    if_true]
  cases discardDelim <;>
    simp [callCallback, doReadUntilInfinitelyNoUnlock, initiate, hcb, substrTo]

end Handlers

end AsyncReader

/-! ## A stream that ends -/

/-- What can happen at the end of a connection whose peer has sent some bytes and then closed. -/
inductive StreamEvent where
  /-- The next `n` bytes arrive. -/
  | receive (n : Nat)
  /-- The oldest outstanding read needs no more bytes: its handler runs. -/
  | complete
  /-- There are no more bytes. -/
  | eof
  deriving DecidableEq, Repr

/-- The event of the reader, and the bytes that have not arrived yet after it. -/
def StreamEvent.read (incoming : Bytes) : StreamEvent → Option (ReadEvent × Bytes)
  | .receive n =>
    if n ≤ incoming.length then some (.received (incoming.take n), incoming.drop n) else none
  | .complete => some (.completed, incoming)
  | .eof => if incoming = [] then some (.failed .eof, []) else none

/-- **What the stream can do to a reader.** Bytes arrive from the front of the stream, the handler
runs, or the stream has ended. -/
theorem StreamEvent.read_cases {event : StreamEvent} {incoming : Bytes} {e : ReadEvent × Bytes}
    {r : AsyncReader κ π} {p : Protocol} {res : HandlerResult κ π}
    (he : event.read incoming = some e) (hres : r.onEvent p e.1 = some res) :
    (∃ piece rest, piece ≠ [] ∧ incoming = piece ++ rest ∧ e = (.received piece, rest)) ∨
      e = (.completed, incoming) ∨ incoming = [] ∧ e = (.failed .eof, []) := by
  cases event with
  | receive n =>
    simp only [StreamEvent.read] at he
    split at he
    · obtain rfl := Option.some.inj he
      refine Or.inl ⟨_, _, ?_, (List.take_append_drop n incoming).symm, rfl⟩
      intro hnil
      simp only [AsyncReader.onEvent, hnil] at hres
      split at hres
      · cases hres
      · simp at hres
    · cases he
  | complete => exact Or.inr (Or.inl (Option.some.inj he).symm)
  | eof =>
    simp only [StreamEvent.read] at he
    split at he
    · next hnil => exact Or.inr (Or.inr ⟨hnil, (Option.some.inj he).symm⟩)
    · cases he

end Acs
