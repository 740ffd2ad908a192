import AsioClientServer.Conn.AsyncReader
import AsioClientServer.Lib.Runs

/-!
# Requests on one reader

A program makes requests on an `AsyncReader` whenever it likes, from inside its callbacks too, while
bytes, errors and completions come in any order. The three entry points, the handlers they schedule
and the callbacks share one lock, one callback slot and one buffer.

* `Serves`: the outstanding read, the callback and the protocol pointer are those of one request.
* `asyncReader_exclusive`: at most one read is outstanding, and it serves the request that took the
  lock; a refused request changes nothing.
* `asyncReader_lock_iff`: the runs in which the lock is always given back.
-/

namespace Acs

open AsyncReader

variable {κ π : Type}

/-! ## The system -/

/-- The entry points, with their arguments besides the callback. -/
inductive ReadKind (π : Type) where
  | untilDelim (delim : UInt8) (discardDelim : Bool)
  | untilDelimInfOccupy (delim : UInt8) (discardDelim : Bool)
  | protoInfOccupy (protocol : π)
  deriving DecidableEq, Repr

/-- A request as the program makes it. Its callback is known by what the program makes of it, a
value of the type parameter. -/
structure ReadRequest (κ π : Type) where
  kind : ReadKind π
  callback : κ
  deriving DecidableEq, Repr

/-- What a callback does: it makes requests on the reader, whose exceptions it may catch, and
returns or throws. Whatever else it does to the program is left out. -/
structure CallbackBody (κ π : Type) where
  requests : List (ReadRequest κ π) := []
  throws : Bool := false
  deriving DecidableEq, Repr

/-- A string that was handed to a callback, and the request that was being served. -/
structure Delivery (κ π : Type) where
  callback : κ
  data : Bytes
  serving : Option (ReadRequest κ π)
  deriving DecidableEq, Repr

/-- A reader with the protocol objects of the program. -/
structure ReaderRun (κ π : Type) where
  reader : AsyncReader κ π
  protocols : π → Protocol
  /-- The last request that found the lock free. -/
  serving : Option (ReadRequest κ π) := none
  delivered : List (Delivery κ π) := []
  /-- An assertion has failed: the program is gone. -/
  aborted : Bool := false

/-- What the program and the stream do to a reader, in any order. A request may be made at any time,
from a callback too, and whatever the reader is doing. -/
inductive ReaderRun.Event (κ π : Type) where
  | request (q : ReadRequest κ π)
  | received (piece : Bytes)
  /-- The oldest read completes; its callback, if it calls one, behaves like `body`. -/
  | completed (body : CallbackBody κ π)
  | failed (e : Asio.ErrorCode)
  /-- The program uses a protocol object for something else. -/
  | useProtocol (protocol : π) (p : Protocol)
  deriving DecidableEq, Repr

/-- The entry point of a request is called. An exception that leaves it is one of the program's. -/
def AsyncReader.request (r : AsyncReader κ π) (protocols : π → Protocol) (q : ReadRequest κ π) :
    Option Failure × AsyncReader κ π :=
  match q.kind with
  | .untilDelim delim discardDelim => (none, r.readAsyncUntilDelim q.callback delim discardDelim)
  | .untilDelimInfOccupy delim discardDelim =>
    (none, r.readAsyncUntilDelimInfOccupy q.callback delim discardDelim)
  | .protoInfOccupy protocol => r.readAsyncProtoInfOccupy q.callback protocol (protocols protocol)

namespace ReaderRun

/-- A reader of the given size, and protocol objects in any state. -/
def start (maxSize : Nat) (protocols : π → Protocol) : ReaderRun κ π :=
  { reader := { maxBufferSize := maxSize }, protocols }

/-- A request of the program. One that takes the lock is the one that is served from then on. -/
def request (s : ReaderRun κ π) (q : ReadRequest κ π) : ReaderRun κ π :=
  let made := s.reader.request s.protocols q
  { s with
    reader := made.2
    serving := if s.reader.readInProgress then s.serving else some q
    aborted := s.aborted || made.1.any Failure.aborts }

/-- A protocol object changes. -/
def setProtocol [DecidableEq π] (s : ReaderRun κ π) (protocol : π) (p : Protocol) :
    ReaderRun κ π :=
  { s with protocols := fun x => if x = protocol then p else s.protocols x }

/-- The object `_protocol` points to. A delimited read does not use it. -/
def protocol (s : ReaderRun κ π) : Protocol :=
  match s.reader.protocol with
  | none => {}
  | some protocol => s.protocols protocol

/-- The handler has run, the callback has not been called. The object the handler used has what it
parsed. -/
def beforeCallback [DecidableEq π] (s : ReaderRun κ π) (res : HandlerResult κ π) :
    ReaderRun κ π :=
  let s := match s.reader.protocol with
    | none => s
    | some protocol => s.setProtocol protocol res.protocol
  { s with reader := res.reader }

/-- The state after a handler and its callback: the data is recorded, the requests of the callback
are made, and a callback that is called once is forgotten unless it has thrown. -/
def afterHandler [DecidableEq π] (s : ReaderRun κ π) (body : CallbackBody κ π)
    (res : HandlerResult κ π) : ReaderRun κ π :=
  let s := s.beforeCallback res
  match res.exit with
  | .returned => s
  | .threw f => { s with aborted := f.aborts }
  | .calls callback data once =>
    let s := { s with delivered := s.delivered ++ [⟨callback, data, s.serving⟩] }
    let s := body.requests.foldl request s
    if once ∧ body.throws = false then { s with reader := { s.reader with callback := none } } else s

/-- The next state, `none` where the event is not possible. Nothing happens after a failed
assertion. -/
def step [DecidableEq π] (s : ReaderRun κ π) (event : Event κ π) : Option (ReaderRun κ π) :=
  if s.aborted then none
  else
    match event with
    | .request q => some (s.request q)
    | .received piece =>
      (s.reader.onEvent s.protocol (.received piece)).map (s.afterHandler {})
    | .completed body => (s.reader.onEvent s.protocol .completed).map (s.afterHandler body)
    | .failed e => (s.reader.onEvent s.protocol (.failed e)).map (s.afterHandler {})
    | .useProtocol protocol p => some (s.setProtocol protocol p)

end ReaderRun

/-! ## A request that is served -/

/-- The reader is large enough for what the request reads first. -/
def ReadRequest.Fits (q : ReadRequest κ π) (maxSize : Nat) : Prop :=
  match q.kind with
  | .protoInfOccupy _ => 10 ≤ maxSize
  | _ => True

/-- The read that is outstanding for a request, by its handler: with the delimiter settings of the
request, or with its protocol pointer in the reader. -/
inductive ReadKind.Reads (maxSize : Nat) (pointer : Option π) :
    ReadKind π → OutstandingRead → Prop
  | once {delim : UInt8} {discardDelim : Bool} {transferred : Nat} :
      Reads maxSize pointer (.untilDelim delim discardDelim)
        ⟨⟨.delim delim, maxSize, transferred⟩, .handleReadUntilFinished delim discardDelim⟩
  | loop {delim : UInt8} {discardDelim : Bool} {transferred : Nat} :
      Reads maxSize pointer (.untilDelimInfOccupy delim discardDelim)
        ⟨⟨.delim delim, maxSize, transferred⟩,
          .handleReadUntilInfNoUnlockLoopstep delim discardDelim⟩
  | framePrefix {protocol : π} {transferred : Nat} (hpointer : pointer = some protocol)
      (hmax : 10 ≤ maxSize) :
      Reads maxSize pointer (.protoInfOccupy protocol)
        ⟨⟨.full, 10, transferred⟩, .handleReadProtoFramePrefixFinished true⟩
  | message {protocol : π} {size transferred : Nat} (hpointer : pointer = some protocol)
      (hmax : 10 ≤ maxSize) (hsize : size ≤ maxSize) :
      Reads maxSize pointer (.protoInfOccupy protocol)
        ⟨⟨.full, size, transferred⟩, .handleReadProtoMessageFinished true⟩

/-- The reader serves the request: one read is outstanding, and everything the reader has stored is
that of the request. -/
structure AsyncReader.Serves (r : AsyncReader κ π) (q : ReadRequest κ π) : Prop where
  locked : r.readInProgress = true
  callback : r.callback = some q.callback
  outstanding : ∃ read, r.outstanding = [read] ∧ q.kind.Reads r.maxBufferSize r.protocol read

section Serves

variable {r : AsyncReader κ π} {q : ReadRequest κ π} {p : Protocol} {res : HandlerResult κ π}

/-- **A request that finds the lock taken changes nothing**: neither the callback nor the protocol
pointer of the request that is served. -/
theorem AsyncReader.request_of_locked (h : r.readInProgress = true) (protocols : π → Protocol)
    (q : ReadRequest κ π) : r.request protocols q = (none, r) := by
  obtain ⟨kind, callback⟩ := q
  cases kind <;>
    simp only [AsyncReader.request, readAsyncUntilDelim, readAsyncUntilDelimInfOccupy,
      readAsyncProtoInfOccupy, tryLockReading, h, if_true]

/-- **A request that finds the lock free is served**, if the reader is large enough for it.
Otherwise it throws (`request_of_not_fits`), or it is refused. -/
theorem AsyncReader.request_of_unlocked (hlock : r.readInProgress = false)
    (hout : r.outstanding = []) (hfits : q.Fits r.maxBufferSize) (protocols : π → Protocol) :
    ∃ r', r.request protocols q = (none, r') ∧ r'.Serves q ∧
      r'.maxBufferSize = r.maxBufferSize := by
  obtain ⟨kind, callback⟩ := q
  cases kind with
  | untilDelim delim discardDelim =>
    refine ⟨_, rfl, ?_, ?_⟩ <;>
      simp only [readAsyncUntilDelim, tryLockReading, hlock, Bool.false_eq_true, if_false,
        doReadUntil, initiate]
    exact ⟨rfl, rfl, _, by rw [hout, List.nil_append], .once⟩
  | untilDelimInfOccupy delim discardDelim =>
    refine ⟨_, rfl, ?_, ?_⟩ <;>
      simp only [readAsyncUntilDelimInfOccupy, tryLockReading, hlock, Bool.false_eq_true,
        if_false, doReadUntilInfinitelyNoUnlock, initiate]
    exact ⟨rfl, rfl, _, by rw [hout, List.nil_append], .loop⟩
  | protoInfOccupy protocol =>
    refine ⟨_, readAsyncProtoInfOccupy_eq hlock hfits callback protocol (protocols protocol),
      ⟨rfl, rfl, ⟨⟨.full, 10, 0⟩, .handleReadProtoFramePrefixFinished true⟩, ?_,
        .framePrefix rfl hfits⟩, rfl⟩
    simp only [initiate, hout, List.nil_append]

/-- A framed request on a reader that is too small throws, with the lock taken. -/
theorem AsyncReader.request_of_not_fits (hlock : r.readInProgress = false)
    (hfits : ¬ q.Fits r.maxBufferSize) (protocols : π → Protocol) :
    ∃ f r', r.request protocols q = (some f, r') ∧ f.aborts = false ∧ r'.readInProgress = true ∧
      r'.outstanding = r.outstanding ∧ r'.maxBufferSize = r.maxBufferSize := by
  obtain ⟨kind, callback⟩ := q
  cases kind with
  | untilDelim delim discardDelim => exact absurd trivial hfits
  | untilDelimInfOccupy delim discardDelim => exact absurd trivial hfits
  | protoInfOccupy protocol =>
    have hlt : r.maxBufferSize < 10 := Nat.lt_of_not_le hfits
    refine ⟨.lengthError "Frame prefix size exceeds max read buffer size",
      { r with readInProgress := true, callback := some callback, protocol := some protocol }, ?_,
      rfl, rfl, rfl, rfl⟩
    simp only [AsyncReader.request, readAsyncProtoInfOccupy, tryLockReading, hlock,
      Bool.false_eq_true, if_false, doReadProtoFramePrefix, Protocol.getFramePrefixSize_eq, hlt,
      if_true]

/-- What the completion of the read of a served request can do. It ends the request, or goes on with
it, or leaves the lock taken. -/
inductive AsyncReader.Completion (r : AsyncReader κ π) (q : ReadRequest κ π)
    (res : HandlerResult κ π) : Prop
  /-- The buffer is full without a delimiter: the lock is given back. -/
  | notFound {op : Asio.ReadOp} {handler : ReadHandler} {f : Failure}
      (hread : r.outstanding = [⟨op, handler⟩])
      (hdelim : ∀ delim discardDelim, handler = .handleReadUntilFinished delim discardDelim →
        delim ∉ r.readBuffer.take r.maxBufferSize)
      (hnoPrefix : ∀ b, handler ≠ .handleReadProtoFramePrefixFinished b)
      (hexit : res.exit = .threw f)
      (haborts : f.aborts = false) (hlock : res.reader.readInProgress = false)
      (hout : res.reader.outstanding = [])
  /-- A single request is over: the lock is given back before the callback is called. -/
  | answered {op : Asio.ReadOp} {delim : UInt8} {discardDelim : Bool} {data : Bytes}
      (hread : r.outstanding = [⟨op, .handleReadUntilFinished delim discardDelim⟩])
      (hdelim : delim ∈ r.readBuffer.take r.maxBufferSize)
      (hexit : res.exit = .calls q.callback data false)
      (hlock : res.reader.readInProgress = false) (hout : res.reader.outstanding = [])
      (hmax : res.reader.maxBufferSize = r.maxBufferSize)
  /-- A loop has scheduled its next read before the callback is called. -/
  | looped {op : Asio.ReadOp} {handler : ReadHandler} {data : Bytes}
      (hread : r.outstanding = [⟨op, handler⟩])
      (hhandler : ∀ delim discardDelim, handler ≠ .handleReadUntilFinished delim discardDelim)
      (hnoPrefix : ∀ b, handler ≠ .handleReadProtoFramePrefixFinished b)
      (hexit : res.exit = .calls q.callback data false) (hserves : res.reader.Serves q)
  /-- The read of the payload is scheduled. -/
  | scheduled {op : Asio.ReadOp} {framePrefix : FramePrefix}
      (hread : r.outstanding = [⟨op, .handleReadProtoFramePrefixFinished true⟩])
      (hparse : FramePrefix.parseFromArray (r.readBuffer.take 10) = some framePrefix)
      (hmax : framePrefix.size.toNat ≤ r.maxBufferSize) (hexit : res.exit = .returned)
      (hserves : res.reader.Serves q)
  /-- The prefix is refused with an exception: the lock stays taken. -/
  | refused {op : Asio.ReadOp} {f : Failure}
      (hread : r.outstanding = [⟨op, .handleReadProtoFramePrefixFinished true⟩])
      (htransferred : op.transferred = 10)
      (hbad : ∀ framePrefix,
        FramePrefix.parseFromArray (r.readBuffer.take 10) = some framePrefix →
          r.maxBufferSize < framePrefix.size.toNat)
      (hexit : res.exit = .threw f) (haborts : f.aborts = false)
      (hlock : res.reader.readInProgress = true) (hout : res.reader.outstanding = [])
  /-- The prefix was not read as a whole. -/
  | asserted {op : Asio.ReadOp} {f : Failure}
      (hread : r.outstanding = [⟨op, .handleReadProtoFramePrefixFinished true⟩])
      (htransferred : op.transferred ≠ 10) (hexit : res.exit = .threw f) (haborts : f.aborts = true)
      (hout : res.reader.outstanding = [])

/-- **The completion of a served request.** One case per handler and way it can end. The data is
handed to the callback of the request that is served. -/
theorem AsyncReader.Serves.completed (h : r.Serves q) (hr : r.onEvent p .completed = some res) :
    Completion r q res := by
  obtain ⟨hlocked, hcallback, read, hread, hreads⟩ := h
  obtain ⟨kind, callback⟩ := q
  cases hreads with
  | @once delim discardDelim transferred =>
    rcases onEvent_completed_delim hread hr with ⟨hmem, rfl⟩ | ⟨hmem, -, rfl⟩
    · simp only [runHandler]
      rw [readUntilFinished_ok (r := { r with outstanding := [] }) hcallback
        (List.mem_of_mem_take hmem)]
      exact .answered hread hmem rfl rfl rfl rfl
    · refine .notFound hread ?_ (by simp) rfl rfl rfl rfl
      rintro _ _ ⟨⟩
      exact hmem
  | @loop delim discardDelim transferred =>
    rcases onEvent_completed_delim hread hr with ⟨hmem, rfl⟩ | ⟨-, -, rfl⟩
    · simp only [runHandler]
      rw [readUntilInfLoopstep_ok (r := { r with outstanding := [] }) hcallback
        (List.mem_of_mem_take hmem)]
      exact .looped hread (by simp) (by simp) rfl ⟨hlocked, hcallback, _, rfl, .loop⟩
    · exact .notFound hread (by simp) (by simp) rfl rfl rfl rfl
  | @framePrefix protocol transferred hpointer hmax =>
    obtain ⟨-, rfl⟩ := onEvent_completed_full hread hr
    simp only [runHandler]
    by_cases hten : transferred = 10
    · subst hten
      -- the three ways `getMessageSize` and `_doReadProtoMessage` can go
      cases hparse : FramePrefix.parseFromArray (r.readBuffer.take 10) with
      | none =>
        rw [framePrefixFinished_badPrefix (r := { r with outstanding := [] }) true hparse]
        exact .refused hread rfl (by simp [hparse]) rfl rfl hlocked rfl
      | some framePrefix =>
        by_cases hsize : r.maxBufferSize < framePrefix.size.toNat
        · rw [framePrefixFinished_tooLong (r := { r with outstanding := [] }) hpointer true
            hparse hsize]
          exact .refused hread rfl (by simpa [hparse] using hsize) rfl rfl hlocked rfl
        · rw [framePrefixFinished_ok (r := { r with outstanding := [] }) hpointer true hparse
            (Nat.le_of_not_lt hsize)]
          exact .scheduled hread hparse (Nat.le_of_not_lt hsize) rfl
            ⟨hlocked, hcallback, _, rfl, .message hpointer hmax (Nat.le_of_not_lt hsize)⟩
    · refine .asserted hread hten
        (f := .assertionFailed "bytesTransferred == _protocol->getFramePrefixSize()") ?_ rfl ?_ <;>
        simp only [handleReadProtoFramePrefixFinished, checkError_none,
          Protocol.getFramePrefixSize_eq, hten, if_false]
  | @message protocol size transferred hpointer hmax hsize =>
    obtain ⟨-, rfl⟩ := onEvent_completed_full hread hr
    simp only [runHandler]
    rw [messageFinished_ok (r := { r with outstanding := [] }) hpointer hcallback hmax]
    exact .looped hread (by simp) (by simp) rfl
      ⟨hlocked, hcallback, _, rfl, .framePrefix hpointer hmax⟩

/-- Bytes that arrive are read for the same request. -/
theorem AsyncReader.Serves.received {piece : Bytes} (h : r.Serves q)
    (hr : r.onEvent p (.received piece) = some res) :
    res.exit = .returned ∧ res.reader.Serves q := by
  obtain ⟨hlocked, hcallback, ⟨op, handler⟩, hread, hreads⟩ := h
  obtain ⟨kind, callback⟩ := q
  obtain ⟨-, -, -, rfl⟩ := (onEvent_received_iff hread).mp hr
  refine ⟨rfl, hlocked, hcallback, _, rfl, ?_⟩
  cases hreads with
  | once => exact .once
  | loop => exact .loop
  | framePrefix hpointer hmax => exact .framePrefix hpointer hmax
  | message hpointer hmax hsize => exact .message hpointer hmax hsize

/-- An error of the stream gives the lock back, and nothing is outstanding. -/
theorem AsyncReader.Serves.failed {e : Asio.ErrorCode} (h : r.Serves q)
    (hr : r.onEvent p (.failed e) = some res) :
    res.exit = .threw (.systemError e) ∧ res.reader.readInProgress = false ∧
      res.reader.outstanding = [] := by
  obtain ⟨-, -, read, hread, -⟩ := h
  obtain ⟨-, rfl⟩ := (onEvent_failed_iff hread).mp hr
  exact ⟨rfl, rfl, rfl⟩

end Serves

namespace ReaderRun

/-! ## The invariant -/

/-- What every reachable state has. Either a request is being served, and the reader is where that
request has brought it, or nothing is outstanding. -/
structure Inv (s : ReaderRun κ π) : Prop where
  serving : s.reader.outstanding = [] ∨ ∃ q, s.serving = some q ∧ s.reader.Serves q
  delivered : ∀ d ∈ s.delivered, ∃ q, d.serving = some q ∧ d.callback = q.callback

variable {s s' : ReaderRun κ π} {q : ReadRequest κ π}

theorem inv_start (maxSize : Nat) (protocols : π → Protocol) :
    Inv (start maxSize protocols : ReaderRun κ π) :=
  ⟨Or.inl rfl, by simp [start]⟩

/-- A read that is outstanding holds the lock. -/
theorem Inv.outstanding_nil (h : Inv s) (hlock : s.reader.readInProgress = false) :
    s.reader.outstanding = [] := by
  rcases h.serving with hout | ⟨q, -, hserves⟩
  · exact hout
  · rw [hserves.locked] at hlock
    cases hlock

/-- **A refused request changes nothing.** The callback that was given with it is dropped, and the
one that is being served stays. -/
theorem request_of_locked (hlock : s.reader.readInProgress = true) (q : ReadRequest κ π) :
    s.request q = s := by
  simp only [request, AsyncReader.request_of_locked hlock, hlock, if_true, Option.any_none,
    Bool.or_false]

/-- Any number of refused requests change nothing. -/
theorem foldl_request_of_locked (hlock : s.reader.readInProgress = true)
    (qs : List (ReadRequest κ π)) : qs.foldl request s = s := by
  induction qs with
  | nil => rfl
  | cons q qs ih => rw [List.foldl_cons, request_of_locked hlock, ih]

/-- A request that finds the lock free and fits is served from then on. -/
theorem request_of_fits (hlock : s.reader.readInProgress = false)
    (hout : s.reader.outstanding = []) (hfits : q.Fits s.reader.maxBufferSize) :
    (s.request q).reader.Serves q ∧ (s.request q).serving = some q ∧
      (s.request q).delivered = s.delivered ∧ (s.request q).aborted = s.aborted := by
  obtain ⟨r', hreq, hserves, -⟩ := AsyncReader.request_of_unlocked hlock hout hfits s.protocols
  have heq : s.request q = { s with reader := r', serving := some q } := by
    simp only [request, hreq, hlock, Bool.false_eq_true, if_false, Option.any_none, Bool.or_false]
  rw [heq]
  exact ⟨hserves, rfl, rfl, rfl⟩

/-- A framed request that is too large for the reader takes the lock and starts nothing. -/
theorem request_of_not_fits (hlock : s.reader.readInProgress = false)
    (hfits : ¬ q.Fits s.reader.maxBufferSize) :
    (s.request q).reader.readInProgress = true ∧
      (s.request q).reader.outstanding = s.reader.outstanding ∧
      (s.request q).delivered = s.delivered ∧ (s.request q).aborted = s.aborted := by
  obtain ⟨f, r', hreq, haborts, hlocked, hout, -⟩ :=
    AsyncReader.request_of_not_fits hlock hfits s.protocols
  have heq : s.request q = { s with reader := r', serving := some q } := by
    simp only [request, hreq, hlock, Bool.false_eq_true, if_false, Option.any_some, haborts,
      Bool.or_false]
  rw [heq]
  exact ⟨hlocked, hout, rfl, rfl⟩

/-- **Requests keep the invariant**, wherever they are made from. -/
theorem Inv.request (h : Inv s) (q : ReadRequest κ π) : Inv (s.request q) := by
  cases hlock : s.reader.readInProgress with
  | true =>
    rw [request_of_locked hlock]
    exact h
  | false =>
    have hout := h.outstanding_nil hlock
    by_cases hfits : q.Fits s.reader.maxBufferSize
    · obtain ⟨hserves, hserving, hdelivered, -⟩ := request_of_fits hlock hout hfits
      exact ⟨Or.inr ⟨q, hserving, hserves⟩, hdelivered ▸ h.delivered⟩
    · obtain ⟨-, hnil, hdelivered, -⟩ := request_of_not_fits hlock hfits
      exact ⟨Or.inl (hnil.trans hout), hdelivered ▸ h.delivered⟩

/-- The requests of a callback keep the invariant, one after the other. The first that finds the
lock free may take it, and the others are refused. -/
theorem Inv.foldl_request (h : Inv s) (qs : List (ReadRequest κ π)) :
    Inv (qs.foldl ReaderRun.request s) := by
  induction qs generalizing s with
  | nil => exact h
  | cons q qs ih => exact ih (h.request q)

/-! ## The lock -/

/-- When nothing is outstanding, the lock is free: the next request is not refused for good. The
invariant does not give this: a reader whose lock is kept refuses every later request. -/
def LockFree (s : ReaderRun κ π) : Prop :=
  s.aborted = false → s.reader.outstanding = [] → s.reader.readInProgress = false

/-- While a request is served there is nothing to say about the lock. -/
theorem lockFree_of_serves (h : s.reader.Serves q) : LockFree s := by
  intro _ hout
  obtain ⟨read, hread, -⟩ := h.outstanding
  rw [hread] at hout
  cases hout

/-- An event of the reader is one of the request that is served. -/
theorem Inv.serves_of_onEvent (h : Inv s) {p : Protocol} {e : ReadEvent}
    {res : HandlerResult κ π} (hr : s.reader.onEvent p e = some res) :
    ∃ q, s.serving = some q ∧ s.reader.Serves q := by
  rcases h.serving with hout | hserves
  · rw [onEvent_of_outstanding_nil hout] at hr
    cases hr
  · exact hserves

/-- The steps after which the lock is given back or still in use: a request that takes it fits the
reader, also when it is the first one of the callback of a single request, and a prefix that has
been read as a whole parses and gives a size the reader accepts. -/
def KeepsLock (s : ReaderRun κ π) : Event κ π → Prop
  | .request q => s.reader.readInProgress = true ∨ q.Fits s.reader.maxBufferSize
  | .completed body =>
    match s.reader.outstanding with
    | ⟨op, .handleReadProtoFramePrefixFinished _⟩ :: _ =>
      op.transferred = 10 → ∃ framePrefix,
        FramePrefix.parseFromArray (s.reader.readBuffer.take 10) = some framePrefix ∧
          framePrefix.size.toNat ≤ s.reader.maxBufferSize
    | ⟨_, .handleReadUntilFinished delim _⟩ :: _ =>
      delim ∈ s.reader.readBuffer.take s.reader.maxBufferSize →
        ∀ q, body.requests.head? = some q → q.Fits s.reader.maxBufferSize
    | _ => True
  | .received _ | .failed _ | .useProtocol _ _ => True

/-- Of the requests made while the lock is free and nothing is outstanding, the first one decides:
it is served, or it throws and takes the lock with it. -/
theorem lockFree_foldl_iff (haborted : s.aborted = false)
    (hlock : s.reader.readInProgress = false) (hout : s.reader.outstanding = [])
    (qs : List (ReadRequest κ π)) :
    LockFree (qs.foldl ReaderRun.request s) ↔
      ∀ q, qs.head? = some q → q.Fits s.reader.maxBufferSize := by
  cases qs with
  | nil => exact iff_of_true (fun _ _ => hlock) (by simp)
  | cons q qs =>
    rw [List.foldl_cons]
    simp only [List.head?_cons, Option.some.injEq, forall_eq']
    by_cases hfits : q.Fits s.reader.maxBufferSize
    · obtain ⟨hserves, -⟩ := request_of_fits hlock hout hfits
      rw [foldl_request_of_locked hserves.locked]
      exact iff_of_true (lockFree_of_serves hserves) hfits
    · obtain ⟨hlocked, hout', -, haborted'⟩ := request_of_not_fits hlock hfits
      rw [foldl_request_of_locked hlocked]
      refine iff_of_false (fun hfree => ?_) hfits
      have := hfree (haborted'.trans haborted) (hout'.trans hout)
      rw [hlocked] at this
      cases this

/-- A request on a free lock leaves it free, or in use, exactly when it fits the reader. -/
theorem lockFree_request_iff (h : Inv s) (haborted : s.aborted = false) (hfree : LockFree s)
    (q : ReadRequest κ π) : LockFree (s.request q) ↔ KeepsLock s (.request q) := by
  cases hlock : s.reader.readInProgress with
  | true =>
    rw [request_of_locked hlock]
    exact iff_of_true hfree (Or.inl hlock)
  | false =>
    have hiff := lockFree_foldl_iff haborted hlock (h.outstanding_nil hlock) [q]
    simpa [KeepsLock, hlock] using hiff

/-- A completion keeps the lock in use, or gives it back, when its handler is neither that of a
prefix nor that of a delimited read that has found its delimiter. In these two cases a request may
go wrong. -/
theorem keepsLock_of_handler {op : Asio.ReadOp} {handler : ReadHandler}
    (hread : s.reader.outstanding = [⟨op, handler⟩])
    (hdelim : ∀ delim discardDelim, handler = .handleReadUntilFinished delim discardDelim →
      delim ∉ s.reader.readBuffer.take s.reader.maxBufferSize)
    (hnoPrefix : ∀ b, handler ≠ .handleReadProtoFramePrefixFinished b) (body : CallbackBody κ π) :
    KeepsLock s (.completed body) := by
  simp only [KeepsLock, hread]
  cases handler with
  | handleReadUntilFinished delim discardDelim =>
    exact fun hmem => absurd hmem (hdelim delim discardDelim rfl)
  | handleReadUntilInfNoUnlockLoopstep delim discardDelim => trivial
  | handleReadProtoFramePrefixFinished b => exact absurd rfl (hnoPrefix b)
  | handleReadProtoMessageFinished b => trivial

/-! ## Steps -/

section Step

variable [DecidableEq π] {body : CallbackBody κ π} {res : HandlerResult κ π}

/-- The handler has changed the reader and at most the object it uses. -/
theorem beforeCallback_eq (s : ReaderRun κ π) (res : HandlerResult κ π) :
    (s.beforeCallback res).reader = res.reader ∧ (s.beforeCallback res).serving = s.serving ∧
      (s.beforeCallback res).delivered = s.delivered ∧
      (s.beforeCallback res).aborted = s.aborted := by
  unfold beforeCallback
  split <;> exact ⟨rfl, rfl, rfl, rfl⟩

theorem afterHandler_returned (hexit : res.exit = .returned) :
    s.afterHandler body res = s.beforeCallback res := by
  simp only [afterHandler, hexit]

/-- A handler that throws has called no callback; a failed assertion ends the program. -/
theorem afterHandler_threw {f : Failure} (hexit : res.exit = .threw f) :
    s.afterHandler body res = { s.beforeCallback res with aborted := f.aborts } := by
  simp only [afterHandler, hexit]

/-- The state the callback is called in. -/
def inCallback (s : ReaderRun κ π) (callback : κ) (data : Bytes) (res : HandlerResult κ π) :
    ReaderRun κ π :=
  { s.beforeCallback res with delivered := s.delivered ++ [⟨callback, data, s.serving⟩] }

/-- In a loop the callback stays, whatever it throws. -/
theorem afterHandler_calls {callback : κ} {data : Bytes}
    (hexit : res.exit = .calls callback data false) :
    s.afterHandler body res
      = body.requests.foldl ReaderRun.request (s.inCallback callback data res) := by
  obtain ⟨-, hserving, hdelivered, -⟩ := beforeCallback_eq s res
  simp only [afterHandler, hexit, Bool.false_eq_true, false_and, if_false, inCallback, hserving,
    hdelivered]

/-- The invariant holds when the callback is called, so the requests in it find a state like any
other. -/
theorem Inv.inCallback (h : Inv s) (hserving : s.serving = some q) {data : Bytes}
    (hreader : res.reader.outstanding = [] ∨ res.reader.Serves q) :
    Inv (s.inCallback q.callback data res) := by
  obtain ⟨hreader', hserving', -, -⟩ := beforeCallback_eq s res
  refine ⟨?_, ?_⟩
  · simp only [ReaderRun.inCallback, hreader', hserving', hserving]
    exact hreader.imp id fun hserves => ⟨q, rfl, hserves⟩
  · intro d hd
    rcases List.mem_append.mp hd with hd | hd
    · exact h.delivered d hd
    · rw [List.mem_singleton.mp hd]
      exact ⟨q, hserving, rfl⟩

/-- The invariant holds after a handler that has thrown, with nothing outstanding. -/
theorem Inv.threw (h : Inv s) (hout : res.reader.outstanding = []) (aborted : Bool) :
    Inv { s.beforeCallback res with aborted } := by
  obtain ⟨hreader, -, hdelivered, -⟩ := beforeCallback_eq s res
  refine ⟨Or.inl ?_, ?_⟩
  · simp only [hreader, hout]
  · simp only [hdelivered]
    exact h.delivered

/-- The invariant holds after a handler that has scheduled the next read of the same request. -/
theorem Inv.returned (h : Inv s) (hserving : s.serving = some q) (hserves : res.reader.Serves q) :
    Inv (s.beforeCallback res) := by
  obtain ⟨hreader, hserving', hdelivered, -⟩ := beforeCallback_eq s res
  refine ⟨Or.inr ⟨q, hserving'.trans hserving, hreader ▸ hserves⟩, ?_⟩
  rw [hdelivered]
  exact h.delivered

/-- **Every call, completion and error keeps the invariant.** -/
theorem inv_step {event : Event κ π} (h : Inv s) (hstep : s.step event = some s') : Inv s' := by
  unfold step at hstep
  split at hstep
  · cases hstep
  · cases event with
    | request q =>
      obtain rfl := Option.some.inj hstep
      exact h.request q
    | useProtocol protocol p =>
      obtain rfl := Option.some.inj hstep
      exact ⟨h.serving, h.delivered⟩
    | received piece =>
      obtain ⟨res, hr, rfl⟩ := Option.map_eq_some_iff.mp hstep
      obtain ⟨q, hserving, hserves⟩ := h.serves_of_onEvent hr
      obtain ⟨hexit, hserves'⟩ := hserves.received hr
      rw [afterHandler_returned hexit]
      exact h.returned hserving hserves'
    | failed e =>
      obtain ⟨res, hr, rfl⟩ := Option.map_eq_some_iff.mp hstep
      obtain ⟨q, -, hserves⟩ := h.serves_of_onEvent hr
      obtain ⟨hexit, -, hout⟩ := hserves.failed hr
      rw [afterHandler_threw hexit]
      exact h.threw hout _
    -- the request that was served is over, unless it goes on with a read of its own
    | completed body =>
      obtain ⟨res, hr, rfl⟩ := Option.map_eq_some_iff.mp hstep
      obtain ⟨q, hserving, hserves⟩ := h.serves_of_onEvent hr
      cases hserves.completed hr with
      | notFound _ _ _ hexit _ _ hout | refused _ _ _ hexit _ _ hout | asserted _ _ hexit _ hout =>
        rw [afterHandler_threw hexit]
        exact h.threw hout _
      | scheduled _ _ _ hexit hserves' =>
        rw [afterHandler_returned hexit]
        exact h.returned hserving hserves'
      | answered _ _ hexit _ hout =>
        rw [afterHandler_calls hexit]
        exact (h.inCallback hserving (Or.inl hout)).foldl_request _
      | looped _ _ _ hexit hserves' =>
        rw [afterHandler_calls hexit]
        exact (h.inCallback hserving (Or.inr hserves')).foldl_request _

/-- **A completion gives the lock back, or uses it again, under exactly these conditions.** The
conditions are on the event and the state before it. -/
theorem lockFree_completed_iff (h : Inv s) (haborted : s.aborted = false)
    (hr : s.reader.onEvent s.protocol .completed = some res) (body : CallbackBody κ π) :
    LockFree (s.afterHandler body res) ↔ KeepsLock s (.completed body) := by
  obtain ⟨q, hserving, hserves⟩ := h.serves_of_onEvent hr
  obtain ⟨hreader, -, -, haborted'⟩ := beforeCallback_eq s res
  cases hserves.completed hr with
  | notFound hread hdelim hnoPrefix hexit _ hlock _ =>
    rw [afterHandler_threw hexit]
    exact iff_of_true (fun _ _ => by simp only [hreader, hlock])
      (keepsLock_of_handler hread hdelim hnoPrefix body)
  | scheduled hread hparse hmax hexit hserves' =>
    rw [afterHandler_returned hexit]
    refine iff_of_true (lockFree_of_serves (hreader ▸ hserves')) ?_
    simp only [KeepsLock, hread]
    exact fun _ => ⟨_, hparse, hmax⟩
  -- the one exit that keeps the lock: the prefix is refused, and what throws has not freed it
  | refused hread htransferred hbad hexit hf hlock hout =>
    rw [afterHandler_threw hexit]
    refine iff_of_false (fun hfree => ?_) ?_
    · have := hfree hf (by simp only [hreader, hout])
      simp only [hreader, hlock] at this
      cases this
    · simp only [KeepsLock, hread]
      intro hok
      obtain ⟨framePrefix, hparse, hmax⟩ := hok htransferred
      have := hbad framePrefix hparse
      omega
  -- an assertion aborts the program, so there is no reader any more that could keep its lock
  | asserted hread htransferred hexit hf hout =>
    rw [afterHandler_threw hexit]
    refine iff_of_true (fun hnot => ?_) ?_
    · simp only [hf] at hnot
      cases hnot
    · simp only [KeepsLock, hread]
      exact fun hten => absurd hten htransferred
  -- the lock is free before the callback is called, so its requests decide what happens to it
  | answered hread hdelim hexit hlock hout hmax =>
    rw [afterHandler_calls hexit, lockFree_foldl_iff]
    · simp only [KeepsLock, hread, ReaderRun.inCallback, hreader, hmax, hdelim, forall_const]
    · exact haborted'.trans haborted
    · simp only [ReaderRun.inCallback, hreader, hlock]
    · simp only [ReaderRun.inCallback, hreader, hout]
  -- a loop keeps the lock on purpose, and refuses what its callback requests
  | @looped op handler data hread hhandler hnoPrefix hexit hserves' =>
    have hserves'' : (s.inCallback q.callback data res).reader.Serves q := hreader ▸ hserves'
    rw [afterHandler_calls hexit, foldl_request_of_locked hserves''.locked]
    exact iff_of_true (lockFree_of_serves hserves'') (keepsLock_of_handler hread
      (fun delim discardDelim heq => absurd heq (hhandler delim discardDelim)) hnoPrefix body)

/-- **The lock is free after a step, when nothing is outstanding, exactly after these steps.** -/
theorem lockFree_step_iff {event : Event κ π} (h : Inv s) (hfree : LockFree s)
    (hstep : s.step event = some s') : LockFree s' ↔ KeepsLock s event := by
  unfold step at hstep
  split at hstep
  · cases hstep
  · next haborted =>
    have haborted : s.aborted = false := by simpa using haborted
    cases event with
    | request q =>
      obtain rfl := Option.some.inj hstep
      exact lockFree_request_iff h haborted hfree q
    | useProtocol protocol p =>
      obtain rfl := Option.some.inj hstep
      exact iff_of_true hfree trivial
    -- a request that is served holds the lock by right
    | received piece =>
      obtain ⟨res, hr, rfl⟩ := Option.map_eq_some_iff.mp hstep
      obtain ⟨q, -, hserves⟩ := h.serves_of_onEvent hr
      obtain ⟨hexit, hserves'⟩ := hserves.received hr
      rw [afterHandler_returned hexit]
      exact iff_of_true (lockFree_of_serves ((beforeCallback_eq s res).1 ▸ hserves')) trivial
    | failed e =>
      obtain ⟨res, hr, rfl⟩ := Option.map_eq_some_iff.mp hstep
      obtain ⟨q, -, hserves⟩ := h.serves_of_onEvent hr
      obtain ⟨hexit, hlock, -⟩ := hserves.failed hr
      rw [afterHandler_threw hexit]
      exact iff_of_true (fun _ _ => by simp only [(beforeCallback_eq s res).1, hlock]) trivial
    | completed body =>
      obtain ⟨res, hr, rfl⟩ := Option.map_eq_some_iff.mp hstep
      exact lockFree_completed_iff h haborted hr body

end Step

end ReaderRun

/-- **Reads are exclusive.** After any requests, from outside and from inside the callbacks, and any
bytes, completions and errors, in any order: at most one read is outstanding; while one is, the
lock is taken, and the callback, the delimiter settings, the protocol pointer and the read are
those of the request that took it; a request refused then changes no part of the state; and
every string went to the callback of the request that was being served. -/
theorem asyncReader_exclusive [DecidableEq π] (maxSize : Nat) (protocols : π → Protocol)
    {es : List (ReaderRun.Event κ π)} {s : ReaderRun κ π}
    (hrun : Runs.run ReaderRun.step (ReaderRun.start maxSize protocols) es = some s) :
    s.reader.outstanding.length ≤ 1 ∧
    (s.reader.outstanding ≠ [] → ∃ q, s.serving = some q ∧ s.reader.Serves q) ∧
    (s.reader.readInProgress = true → ∀ q, s.request q = s) ∧
    ∀ d ∈ s.delivered, ∃ q, d.serving = some q ∧ d.callback = q.callback := by
  have hinv : ReaderRun.Inv s := Runs.run_invariant (fun _ _ _ h hs => ReaderRun.inv_step h hs)
    (ReaderRun.inv_start maxSize protocols) hrun
  refine ⟨?_, ?_, fun hlock q => ReaderRun.request_of_locked hlock q, hinv.delivered⟩
  · rcases hinv.serving with hout | ⟨q, -, hserves⟩
    · rw [hout]
      exact Nat.zero_le 1
    · obtain ⟨read, hread, -⟩ := hserves.outstanding
      rw [hread]
      exact Nat.le_refl 1
  · exact fun hne => hinv.serving.resolve_left hne

/-- A read until a comma that is answered with two bytes, in whose callback a framed loop is
requested, and a request that is refused while the loop reads. -/
theorem asyncReader_exclusive_run :
    let events : List (ReaderRun.Event Nat Unit) := [.request ⟨.untilDelim 44 true, 1⟩,
      .received [97, 44], .completed { requests := [⟨.protoInfOccupy (), 2⟩] },
      .request ⟨.untilDelim 10 true, 3⟩, .received [13]]
    ∃ s, Runs.run ReaderRun.step (ReaderRun.start 1024 fun _ => {}) events = some s ∧
      s.serving = some ⟨.protoInfOccupy (), 2⟩ ∧ s.reader.Serves ⟨.protoInfOccupy (), 2⟩ ∧
      s.delivered = [⟨1, [97], some ⟨.untilDelim 44 true, 1⟩⟩] := by
  intro events
  have hresult : (Runs.run ReaderRun.step (ReaderRun.start 1024 fun _ => {}) events).map
      (fun s => (s.serving, s.delivered, s.reader.outstanding.length))
      = some (some ⟨.protoInfOccupy (), 2⟩, [⟨1, [97], some ⟨.untilDelim 44 true, 1⟩⟩], 1) := by
    decide +kernel
  obtain ⟨s, hrun, hs⟩ := Option.map_eq_some_iff.mp hresult
  obtain ⟨hserving, hrest⟩ := Prod.mk.inj hs
  obtain ⟨hdelivered, hlen⟩ := Prod.mk.inj hrest
  obtain ⟨-, hserves, -⟩ := asyncReader_exclusive 1024 _ hrun
  obtain ⟨q, hq, hserves⟩ := hserves (List.length_pos_iff.mp (by omega))
  rw [hserving] at hq
  obtain rfl := Option.some.inj hq
  exact ⟨s, hrun, hserving, hserves, hdelivered⟩

/-- **The runs in which the read lock is never leaked.** In every state of a run the lock is free
when no read is outstanding, if and only if every request that takes the lock fits the reader and
every prefix that has been read as a whole parses and gives a size the reader accepts. I/O errors,
full buffers and exceptions of the callbacks never leak it. -/
theorem asyncReader_lock_iff [DecidableEq π] (maxSize : Nat) (protocols : π → Protocol)
    (es : List (ReaderRun.Event κ π)) :
    Runs.Along ReaderRun.step ReaderRun.LockFree (ReaderRun.start maxSize protocols) es ↔
      Runs.StepsMeet ReaderRun.step ReaderRun.KeepsLock (ReaderRun.start maxSize protocols) es :=
  Runs.along_iff_of_invariant (fun _ _ _ h hs => ReaderRun.inv_step h hs)
    (fun _ _ _ h hfree hs => ReaderRun.lockFree_step_iff h hfree hs)
    (ReaderRun.inv_start maxSize protocols) fun _ _ => rfl

/-- The events leave a lock that is taken for good: nothing is outstanding, and every later request
is refused. -/
def ReaderRun.Leaks (maxSize : Nat) (es : List (ReaderRun.Event Unit Unit)) : Prop :=
  ∃ s, Runs.run ReaderRun.step (ReaderRun.start maxSize fun _ => {}) es = some s ∧
    s.aborted = false ∧ s.reader.outstanding = [] ∧ s.reader.readInProgress = true ∧
    ∀ q, s.request q = s

/-- The leak is read off the state a run ends in. -/
theorem ReaderRun.leaks_of_run {maxSize : Nat} {es : List (ReaderRun.Event Unit Unit)}
    (h : (Runs.run ReaderRun.step (ReaderRun.start maxSize fun _ => {}) es).map
      (fun s => (s.aborted, s.reader.outstanding, s.reader.readInProgress))
        = some (false, [], true)) : ReaderRun.Leaks maxSize es := by
  obtain ⟨s, hrun, hs⟩ := Option.map_eq_some_iff.mp h
  obtain ⟨haborted, hrest⟩ := Prod.mk.inj hs
  obtain ⟨hout, hlock⟩ := Prod.mk.inj hrest
  exact ⟨s, hrun, haborted, hout, hlock, fun q => ReaderRun.request_of_locked hlock q⟩

/-- A prefix that does not parse, a prefix that gives a size above the limit, and a framed request
on a reader of nine bytes. -/
theorem asyncReader_lock_leaked :
    ReaderRun.Leaks 1024 [.request ⟨.protoInfOccupy (), ()⟩,
      .received [0, 0, 0, 0, 0, 0, 0, 0, 0, 0], .completed {}] ∧
    ReaderRun.Leaks 1024 [.request ⟨.protoInfOccupy (), ()⟩,
      .received [13, 1, 4, 0, 0, 29, 1, 0, 0, 0], .completed {}] ∧
    ReaderRun.Leaks 9 [.request ⟨.protoInfOccupy (), ()⟩] :=
  ⟨ReaderRun.leaks_of_run (by decide +kernel), ReaderRun.leaks_of_run (by decide +kernel),
    ReaderRun.leaks_of_run (by decide +kernel)⟩

end Acs
