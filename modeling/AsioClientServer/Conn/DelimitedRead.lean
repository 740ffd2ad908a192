import AsioClientServer.Conn.AsyncReader
import AsioClientServer.Lib.Runs

/-!
# Delimited reading to the end of a stream

A program makes `readAsyncUntilDelim` requests on one reader, each when the one before it has
ended, and may finish with `readAsyncUntilDelimInfOccupy`. A read takes what the socket gives it,
so bytes after a delimiter are left in the buffer and belong to later requests.

* `serve` says what becomes of one request on the whole stream that remains, `split` what becomes
  of all of them.
* `delimitedRead_refines_split`: however the stream is cut, the requests end as `split` says.
-/

namespace Acs

open AsyncReader

/-! ## The batch splitter -/

/-- The arguments of a request besides its callback. All requests here have the same callback, which
stores what it is given. -/
structure DelimRequest where
  delim : UInt8 := 10
  discardDelim : Bool := true
  deriving DecidableEq, Repr

/-- The string up to the first delimiter of the stream, which the request hands to its callback. -/
def DelimRequest.piece (q : DelimRequest) (stream : Bytes) : Bytes :=
  stream.take (stream.idxOf q.delim + if q.discardDelim then 0 else 1)

/-- What remains of the stream after the delimiter of a request. -/
def DelimRequest.rest (q : DelimRequest) (stream : Bytes) : Bytes :=
  stream.drop (stream.idxOf q.delim + 1)

/-- The error for a request whose delimiter does not come in time: the buffer is full, or the
stream has ended. -/
def readUntilError (maxSize : Nat) (stream : Bytes) : Failure :=
  .systemError (if maxSize ≤ stream.length then .notFound else .eof)

/-- What becomes of the requests made one after the other, and the stream that remains. A request
that ends in an error takes nothing from the stream. -/
def serve (maxSize : Nat) : Bytes → List DelimRequest → List (Except Failure Bytes) × Bytes
  | stream, [] => ([], stream)
  | stream, q :: qs =>
    if q.delim ∈ stream.take maxSize then
      let served := serve maxSize (q.rest stream) qs
      (.ok (q.piece stream) :: served.1, served.2)
    else
      let served := serve maxSize stream qs
      (.error (readUntilError maxSize stream) :: served.1, served.2)

/-- What becomes of a request that is repeated until it ends in an error. Its outcomes are strings,
and an exception at the end. -/
def serveLoop (maxSize : Nat) (q : DelimRequest) (stream : Bytes) : List (Except Failure Bytes) :=
  if q.delim ∈ stream.take maxSize then
    .ok (q.piece stream) :: serveLoop maxSize q (q.rest stream)
  else [.error (readUntilError maxSize stream)]
termination_by stream.length
decreasing_by
  have hpos := List.length_pos_of_mem (List.mem_of_mem_take ‹_›)
  rw [DelimRequest.rest, List.length_drop]
  omega

/-- What becomes of a sequence of requests and of the loop after them, if there is one. The stream
is looked at as a whole: how it arrives is no argument. -/
def split (maxSize : Nat) (stream : Bytes) (requests : List DelimRequest)
    (loop : Option DelimRequest) : List (Except Failure Bytes) :=
  let served := serve maxSize stream requests
  served.1 ++ match loop with
    | none => []
    | some q => serveLoop maxSize q served.2

section Split

variable {maxSize : Nat} {q : DelimRequest} {stream : Bytes} {qs : List DelimRequest}
  {loop : Option DelimRequest}

/-- A request whose delimiter comes in time takes its piece of the stream; the next one begins
behind it. -/
theorem split_cons_of_mem (h : q.delim ∈ stream.take maxSize) :
    split maxSize stream (q :: qs) loop
      = .ok (q.piece stream) :: split maxSize (q.rest stream) qs loop := by
  simp only [split, serve, if_pos h, List.cons_append]

/-- A request whose delimiter does not come in time fails, and the next one begins where it
began. -/
theorem split_cons_of_not_mem (h : q.delim ∉ stream.take maxSize) :
    split maxSize stream (q :: qs) loop
      = .error (readUntilError maxSize stream) :: split maxSize stream qs loop := by
  simp only [split, serve, if_neg h, List.cons_append]

/-- No request ends with a failed assertion: what the read reports is what the handler finds. -/
theorem assertionFailed_not_mem_split (condition : String) :
    .error (.assertionFailed condition) ∉ split maxSize stream qs loop := by
  have hloop : ∀ q stream, .error (.assertionFailed condition) ∉ serveLoop maxSize q stream := by
    intro q stream
    induction stream using serveLoop.induct maxSize q with
    | case1 stream h ih =>
      rw [serveLoop, if_pos h]
      simpa using ih
    | case2 stream h =>
      rw [serveLoop, if_neg h]
      simp [readUntilError]
  induction qs generalizing stream with
  | nil =>
    cases loop with
    | none => simp [split, serve]
    | some q => exact hloop q stream
  | cons q qs ih =>
    by_cases h : q.delim ∈ stream.take maxSize
    · rw [split_cons_of_mem h]
      simpa using ih
    · rw [split_cons_of_not_mem h]
      simpa [readUntilError] using ih

end Split

/-! ## What a buffer says about the stream -/

section Buffer

variable {maxSize : Nat} {q : DelimRequest} {buffer : Bytes}

/-- The first delimiter of the buffer is the first delimiter of the stream. -/
theorem DelimRequest.of_mem_buffer (h : q.delim ∈ buffer.take maxSize) (incoming : Bytes) :
    q.delim ∈ (buffer ++ incoming).take maxSize ∧ q.piece (buffer ++ incoming) = q.piece buffer ∧
      q.rest (buffer ++ incoming) = q.rest buffer ++ incoming := by
  have hmem : q.delim ∈ buffer := List.mem_of_mem_take h
  have hidx : (buffer ++ incoming).idxOf q.delim = buffer.idxOf q.delim :=
    List.idxOf_append_of_mem hmem
  have hlt : buffer.idxOf q.delim < buffer.length := List.idxOf_lt_length_of_mem hmem
  refine ⟨?_, ?_, ?_⟩
  · rw [List.take_append]
    exact List.mem_append_left _ h
  · simp only [piece, hidx]
    apply List.take_append_of_le_length
    split <;> omega
  · simp only [rest, hidx]
    exact List.drop_append_of_le_length hlt

end Buffer

/-! ## The system -/

/-- A reader whose requests are answered from a stream, `incoming` of which has not arrived. The
requests are made one after the other, and the last of them may be one that repeats itself. -/
structure DelimitedRead where
  reader : AsyncReader Unit Unit
  incoming : Bytes
  /-- The requests that have not been made. -/
  requests : List DelimRequest
  loop : Option DelimRequest
  /-- The strings that have been delivered and the exceptions that have left a handler. -/
  outcomes : List (Except Failure Bytes) := []

/-- What the program and the stream do. -/
inductive DelimitedRead.Event where
  /-- The program makes its next request. -/
  | request
  | stream (event : StreamEvent)
  deriving DecidableEq, Repr

namespace DelimitedRead

/-- A reader that has been asked for nothing yet. -/
def start (maxSize : Nat) (stream : Bytes) (requests : List DelimRequest)
    (loop : Option DelimRequest) : DelimitedRead :=
  { reader := { maxBufferSize := maxSize }, incoming := stream, requests, loop }

/-- The next request, or the loop when there are no others. It is made on whatever state the reader
has. -/
def request (s : DelimitedRead) : Option DelimitedRead :=
  match s.requests, s.loop with
  | q :: qs, _ =>
    some { s with
      reader := s.reader.readAsyncUntilDelim () q.delim q.discardDelim
      requests := qs }
  | [], some q =>
    some { s with
      reader := s.reader.readAsyncUntilDelimInfOccupy () q.delim q.discardDelim
      loop := none }
  | [], none => none

/-- After a handler: the callback stores what it is given, and an exception is stored in its
place. -/
def afterHandler (s : DelimitedRead) (res : HandlerResult Unit Unit) : DelimitedRead :=
  match res.exit with
  | .returned => { s with reader := res.reader }
  | .threw f => { s with reader := res.reader, outcomes := s.outcomes ++ [.error f] }
  | .calls _ data _ =>
    { s with reader := res.afterCallback, outcomes := s.outcomes ++ [.ok data] }

/-- One event. A request is made when the one before it has ended; it may be made from the
callback, which runs after everything else the handler does. -/
def step (s : DelimitedRead) : Event → Option DelimitedRead
  | .request => if s.reader.outstanding = [] then s.request else none
  | .stream event =>
    (event.read s.incoming).bind fun e =>
      (s.reader.onEvent {} e.1).map fun res => { s with incoming := e.2 }.afterHandler res

/-! ## The invariant -/

/-- What is left of the stream: the bytes the reader holds and those that are to come. What has
arrived and what has not makes no difference to the outcomes. -/
def remaining (s : DelimitedRead) : Bytes :=
  s.reader.readBuffer ++ s.incoming

/-- The request that waits, by the handler it has scheduled, and what is still to come: its own
outcome and the ones after it. -/
inductive Pending (maxSize : Nat) (s : DelimitedRead) (q : DelimRequest) :
    ReadHandler → List (Except Failure Bytes) → Prop
  | once : Pending maxSize s q (.handleReadUntilFinished q.delim q.discardDelim)
      (split maxSize s.remaining (q :: s.requests) s.loop)
  | loop (hrequests : s.requests = []) (hloop : s.loop = none) :
      Pending maxSize s q (.handleReadUntilInfNoUnlockLoopstep q.delim q.discardDelim)
        (serveLoop maxSize q s.remaining)

/-- What the reader is doing, and what is still to come of the requests that have not ended. -/
inductive Phase (maxSize : Nat) (s : DelimitedRead) : List (Except Failure Bytes) → Prop
  | idle (hlock : s.reader.readInProgress = false) (hout : s.reader.outstanding = []) :
      Phase maxSize s (split maxSize s.remaining s.requests s.loop)
  | waiting {q : DelimRequest} {transferred : Nat} {handler : ReadHandler}
      {future : List (Except Failure Bytes)} (hcallback : s.reader.callback = some ())
      (hout : s.reader.outstanding = [⟨⟨.delim q.delim, maxSize, transferred⟩, handler⟩])
      (hpending : Pending maxSize s q handler future) : Phase maxSize s future

/-- What has become of the requests and what is still to come make up `all`, which is what the
splitter says of them. -/
structure Inv (maxSize : Nat) (all : List (Except Failure Bytes)) (s : DelimitedRead) : Prop where
  maxBufferSize_eq : s.reader.maxBufferSize = maxSize
  phase : ∃ future, Phase maxSize s future ∧ all = s.outcomes ++ future

/-- How many events are possible at most. -/
def measure (s : DelimitedRead) : Nat :=
  2 * s.requests.length + 2 * s.loop.toList.length + s.reader.outstanding.length +
    2 * s.incoming.length + s.reader.readBuffer.length

variable {maxSize : Nat} {all : List (Except Failure Bytes)} {s s' : DelimitedRead}

theorem inv_start (maxSize : Nat) (stream : Bytes) (requests : List DelimRequest) (loop : Option DelimRequest) :
    Inv maxSize (split maxSize stream requests loop) (start maxSize stream requests loop) :=
  ⟨rfl, _, .idle rfl rfl, rfl⟩

/-- A request that is made is the next one the splitter serves. -/
theorem inv_request (hinv : Inv maxSize all s) (hstep : s.step .request = some s') :
    Inv maxSize all s' ∧ measure s' < measure s := by
  obtain ⟨hmax, future, hphase, hall⟩ := hinv
  simp only [step] at hstep
  split at hstep
  · next hidle =>
    cases hphase with
    | waiting _ hout => rw [hidle] at hout; cases hout
    | idle hlock hout =>
      simp only [request] at hstep
      split at hstep
      · next q qs hrequests =>
        obtain rfl := Option.some.inj hstep
        simp only [readAsyncUntilDelim, tryLockReading, hlock, Bool.false_eq_true, if_false,
          doReadUntil, initiate, hout, List.nil_append]
        refine ⟨⟨hmax, _, .waiting (q := q) rfl (by rw [hmax]) .once, ?_⟩,
          ?_⟩
        · rw [hall, hrequests]
          rfl
        · simp only [measure, hrequests, hout, List.length_cons, List.length_nil]
          omega
      · next q hrequests hloop =>
        obtain rfl := Option.some.inj hstep
        simp only [readAsyncUntilDelimInfOccupy, tryLockReading, hlock, Bool.false_eq_true,
          if_false, doReadUntilInfinitelyNoUnlock, initiate, hout, List.nil_append]
        refine ⟨⟨hmax, _, .waiting (q := q) rfl (by rw [hmax])
          (.loop hrequests rfl), ?_⟩, ?_⟩
        · rw [hall, hrequests, hloop]
          rfl
        · simp only [measure, hloop, hout, Option.toList_some, Option.toList_none,
            List.length_cons, List.length_nil]
          omega
      · cases hstep
  · cases hstep

/-- What is still to come depends on the stream that remains and on the requests that remain, and
not on how much of the stream has arrived. -/
theorem Pending.congr {q : DelimRequest} {handler : ReadHandler}
    {future : List (Except Failure Bytes)} (h : Pending maxSize s q handler future)
    (hremaining : s'.remaining = s.remaining) (hrequests : s'.requests = s.requests)
    (hloop : s'.loop = s.loop) : Pending maxSize s' q handler future := by
  cases h with
  | once =>
    rw [← hremaining, ← hrequests, ← hloop]
    exact .once
  | loop hr hl =>
    rw [← hremaining]
    exact .loop (hrequests.trans hr) (hloop.trans hl)

/-- A request whose delimiter does not come in time fails, and the requests after it see the same
stream. -/
theorem Pending.of_not_mem {q : DelimRequest} {handler : ReadHandler}
    {future : List (Except Failure Bytes)} (h : Pending maxSize s q handler future)
    (hmem : q.delim ∉ s.remaining.take maxSize) :
    future = .error (readUntilError maxSize s.remaining) ::
      split maxSize s.remaining s.requests s.loop := by
  cases h with
  | once => rw [split_cons_of_not_mem hmem]
  | loop hrequests hloop =>
    rw [serveLoop, if_neg hmem, hrequests, hloop]
    rfl

/-- Bytes that arrive do not change what remains, and they use up the events of the stream. -/
theorem inv_received {piece rest : Bytes} {res : HandlerResult Unit Unit}
    (hinv : Inv maxSize all s) (hpiece : piece ≠ []) (hincoming : s.incoming = piece ++ rest)
    (hres : s.reader.onEvent {} (.received piece) = some res) :
    Inv maxSize all ({ s with incoming := rest }.afterHandler res) ∧
      measure ({ s with incoming := rest }.afterHandler res) < measure s := by
  obtain ⟨hmax, future, hphase, hall⟩ := hinv
  have hpos : 0 < piece.length := List.length_pos_iff.mpr hpiece
  cases hphase with
  | idle _ hout =>
    rw [onEvent_of_outstanding_nil hout] at hres
    cases hres
  | @waiting q transferred handler _ hcallback hout hpending =>
    obtain ⟨-, -, -, rfl⟩ := (onEvent_received_iff hout).mp hres
    constructor
    · refine ⟨hmax, future, .waiting hcallback rfl
        (hpending.congr ?_ rfl rfl), hall⟩
      simp only [remaining, afterHandler, hincoming, List.append_assoc]
    · simp only [measure, afterHandler, hincoming, hout, List.length_append, List.length_cons]
      omega

/-- The next outcome is the error the reader throws; the lock is given back. -/
theorem inv_error {q : DelimRequest} {handler : ReadHandler} {transferred : Nat}
    {future : List (Except Failure Bytes)} (hmax : s.reader.maxBufferSize = maxSize)
    (hall : all = s.outcomes ++ future)
    (hout : s.reader.outstanding = [⟨⟨.delim q.delim, maxSize, transferred⟩, handler⟩])
    (hpending : Pending maxSize s q handler future) (hmem : q.delim ∉ s.remaining.take maxSize) :
    let s' := s.afterHandler ⟨.threw (readUntilError maxSize s.remaining),
      { s.reader with outstanding := [], readInProgress := false }, {}⟩
    Inv maxSize all s' ∧ measure s' < measure s := by
  intro s'
  constructor
  · refine ⟨hmax, _, .idle rfl rfl, ?_⟩
    rw [hall, hpending.of_not_mem hmem]
    simp [s', afterHandler, remaining]
  · simp only [s', measure, afterHandler, hout, List.length_cons, List.length_nil]
    omega

/-- The next outcome is the string up to the first delimiter of the buffer. A single request gives
the lock back, the loop schedules its next read. -/
theorem inv_found {q : DelimRequest} {handler : ReadHandler} {transferred : Nat}
    {future : List (Except Failure Bytes)} (hmax : s.reader.maxBufferSize = maxSize)
    (hall : all = s.outcomes ++ future) (hcallback : s.reader.callback = some ())
    (hout : s.reader.outstanding = [⟨⟨.delim q.delim, maxSize, transferred⟩, handler⟩])
    (hpending : Pending maxSize s q handler future)
    (hmem : q.delim ∈ s.reader.readBuffer.take maxSize) :
    let s' := s.afterHandler ({ s.reader with outstanding := [] }.runHandler {} handler none
      (s.reader.readBuffer.idxOf q.delim + 1))
    Inv maxSize all s' ∧ measure s' < measure s := by
  intro s'
  obtain ⟨hmem', hpiece, hrest⟩ := DelimRequest.of_mem_buffer hmem s.incoming
  have hbuf : q.delim ∈ s.reader.readBuffer := List.mem_of_mem_take hmem
  have hpos := List.length_pos_of_mem hbuf
  cases hpending with
  -- one string: the lock is free and the splitter has one request less
  | once =>
    have hs' : s' = s.afterHandler _ := congrArg s.afterHandler
      (readUntilFinished_ok (r := { s.reader with outstanding := [] }) (p := {}) hcallback hbuf
        q.discardDelim)
    rw [hs']
    constructor
    · refine ⟨hmax, _, .idle rfl rfl, ?_⟩
      rw [hall, remaining, split_cons_of_mem hmem', hpiece, hrest]
      simp [afterHandler, HandlerResult.afterCallback, remaining, DelimRequest.piece,
        DelimRequest.rest]
    · simp only [measure, afterHandler, HandlerResult.afterCallback, hout, List.length_cons,
        List.length_nil, List.length_drop]
      omega
  -- the loop has started its next read, on the rest of the buffer
  | loop hrequests hloop =>
    have hs' : s' = s.afterHandler _ := congrArg s.afterHandler
      (readUntilInfLoopstep_ok (r := { s.reader with outstanding := [] }) (p := {}) hcallback hbuf
        q.discardDelim)
    rw [hs']
    constructor
    · refine ⟨hmax, _, .waiting (q := q) hcallback (by rw [← hmax]; rfl)
        (.loop hrequests hloop), ?_⟩
      rw [hall, serveLoop, remaining, if_pos hmem', hpiece, hrest]
      simp [afterHandler, HandlerResult.afterCallback, remaining, DelimRequest.piece,
        DelimRequest.rest, initiate]
    · simp only [measure, afterHandler, HandlerResult.afterCallback, initiate, hout,
        List.length_cons, List.length_nil, List.length_drop, List.nil_append]
      omega

/-- **Every event keeps the invariant, and brings the end nearer.** So every run ends, and the
outcomes of all runs are those of the splitter. -/
theorem inv_step {event : Event} (hinv : Inv maxSize all s) (hstep : s.step event = some s') :
    Inv maxSize all s' ∧ measure s' < measure s := by
  cases event with
  | request => exact inv_request hinv hstep
  | stream event =>
    simp only [step] at hstep
    obtain ⟨e, he, h⟩ := Option.bind_eq_some_iff.mp hstep
    obtain ⟨res, hres, rfl⟩ := Option.map_eq_some_iff.mp h
    obtain ⟨hmax, future, hphase, hall⟩ := hinv
    cases hphase with
    | idle _ hout =>
      rw [onEvent_of_outstanding_nil hout] at hres
      cases hres
    -- bytes arrive, or the read ends: with the delimiter, with a full buffer or at the end of the
    -- stream
    | @waiting q transferred handler _ hcallback hout hpending =>
      rcases StreamEvent.read_cases he hres with ⟨piece, rest, hpiece, hincoming, rfl⟩ | rfl |
        ⟨hincoming, rfl⟩
      · exact inv_received ⟨hmax, future, .waiting hcallback hout hpending, hall⟩ hpiece
          hincoming hres
      · rcases onEvent_completed_delim hout hres with ⟨hmem, rfl⟩ | ⟨hmem, hfull, rfl⟩
        · exact inv_found hmax hall hcallback hout hpending hmem
        · have htake : s.remaining.take maxSize = s.reader.readBuffer.take maxSize :=
            List.take_append_of_le_length hfull
          have herror : readUntilError maxSize s.remaining = .systemError .notFound := by
            rw [readUntilError, remaining, List.length_append, if_pos (by omega)]
          have hinv := inv_error hmax hall hout hpending (by rw [htake]; exact hmem)
          rw [herror] at hinv
          exact hinv
      · obtain ⟨hresult, rfl⟩ := (onEvent_failed_iff hout).mp hres
        obtain ⟨hmem, hshort⟩ := Asio.ReadOp.result_delim_eq_none.mp hresult
        have hremaining : s.remaining = s.reader.readBuffer := by
          rw [remaining, hincoming, List.append_nil]
        have herror : readUntilError maxSize s.remaining = .systemError .eof := by
          rw [readUntilError, hremaining, if_neg (Nat.not_le_of_lt hshort)]
        have hinv := inv_error hmax hall hout hpending (by rw [hremaining]; exact hmem)
        rw [herror] at hinv
        rw [← hincoming]
        exact hinv

/-- An event that is possible for the reader is possible for the system, while a request waits. -/
theorem step_stream_eq {event : StreamEvent} {e : ReadEvent} {rest : Bytes}
    {res : HandlerResult Unit Unit} (hread : event.read s.incoming = some (e, rest))
    (hres : s.reader.onEvent {} e = some res) :
    s.step (.stream event) = some ({ s with incoming := rest }.afterHandler res) := by
  simp only [step, hread, Option.bind_some, hres, Option.map_some]

/-- An event of the stream makes no request and ends at most one. -/
theorem step_stream_cases {event : StreamEvent} (hstep : s.step (.stream event) = some s') :
    s'.requests = s.requests ∧ s'.loop = s.loop ∧
      ∃ outcome : Option (Except Failure Bytes), s'.outcomes = s.outcomes ++ outcome.toList := by
  obtain ⟨e, -, h⟩ := Option.bind_eq_some_iff.mp hstep
  obtain ⟨res, -, rfl⟩ := Option.map_eq_some_iff.mp h
  simp only [afterHandler]
  cases res.exit with
  | returned => exact ⟨rfl, rfl, none, (List.append_nil _).symm⟩
  | threw f => exact ⟨rfl, rfl, some (.error f), rfl⟩
  | calls callback data once => exact ⟨rfl, rfl, some (.ok data), rfl⟩

/-- **A request that waits can go on, and the next one can be made when none waits.** So a run that
has come to a stop has served them all. -/
theorem Inv.progress (hinv : Inv maxSize all s) :
    (∃ event s', s.step event = some s') ∨ s.outcomes = all := by
  obtain ⟨hmax, future, hphase, hall⟩ := hinv
  cases hphase with
  -- nothing is outstanding: the next request can be made, or all have been served
  | idle hlock hout =>
    cases hnext : s.request with
    | some s' =>
      refine Or.inl ⟨.request, s', ?_⟩
      simp only [step, hout, if_true, hnext]
    | none =>
      refine Or.inr ?_
      simp only [request] at hnext
      split at hnext
      · cases hnext
      · cases hnext
      · next hrequests hloop =>
        rw [hall, hrequests, hloop]
        simp [split, serve]
  -- a read is outstanding: it can complete, get a byte or meet the end
  | waiting hcallback hout hpending =>
    refine Or.inl ?_
    cases hresult : Asio.ReadOp.result _ s.reader.readBuffer with
    | some result =>
      have hres := (onEvent_completed_iff (p := {}) hout).mpr ⟨result.1, result.2, hresult, rfl⟩
      exact ⟨.stream .complete, _, step_stream_eq rfl hres⟩
    | none =>
      cases hincoming : s.incoming with
      | nil =>
        have hres := (onEvent_failed_iff (p := {}) (e := .eof) hout).mpr ⟨hresult, rfl⟩
        exact ⟨.stream .eof, _, step_stream_eq (if_pos hincoming) hres⟩
      | cons b rest =>
        have hroom := Asio.ReadOp.room_pos_of_result_none hresult
        have hres : s.reader.onEvent {} (.received [b]) = some _ := (onEvent_received_iff hout).mpr
          ⟨hresult, by simp, hroom, rfl⟩
        have hread : StreamEvent.read s.incoming (.receive 1) = some (.received [b], rest) := by
          simp [StreamEvent.read, hincoming]
        exact ⟨.stream (.receive 1), _, step_stream_eq hread hres⟩

end DelimitedRead

/-! ## The refinement -/

/-- **Delimited reading refines the batch splitter.** However the stream is cut and whenever the
requests are made, what has become of the requests is at every moment the first part of what
`split` says of them. While it is not all of it something can go on, and no run goes on forever;
no handler fails an assertion. -/
theorem delimitedRead_refines_split (maxSize : Nat) (stream : Bytes)
    (requests : List DelimRequest) (loop : Option DelimRequest) {es : List DelimitedRead.Event}
    {s : DelimitedRead}
    (hrun : Runs.run DelimitedRead.step (DelimitedRead.start maxSize stream requests loop) es
      = some s) :
    s.outcomes <+: split maxSize stream requests loop ∧
    ((∃ event s', s.step event = some s') ∨ s.outcomes = split maxSize stream requests loop) ∧
    (∀ condition, .error (.assertionFailed condition) ∉ s.outcomes) ∧
    es.length ≤ 2 * requests.length + 2 * loop.toList.length + 2 * stream.length := by
  have hstart := DelimitedRead.inv_start maxSize stream requests loop
  have hinv := Runs.run_invariant (fun _ _ _ h hs => (DelimitedRead.inv_step h hs).1) hstart hrun
  have hlen := Runs.run_length_le DelimitedRead.measure
    (fun _ _ _ h hs => DelimitedRead.inv_step h hs) hstart hrun
  have hpart : s.outcomes <+: split maxSize stream requests loop := by
    obtain ⟨-, future, -, hall⟩ := hinv
    exact ⟨future, hall.symm⟩
  refine ⟨hpart, hinv.progress, ?_, ?_⟩
  · exact fun condition hmem =>
      assertionFailed_not_mem_split condition (hpart.subset hmem)
  · simp only [DelimitedRead.measure, DelimitedRead.start, List.length_nil] at hlen
    omega

/-- A buffer of four bytes and the stream `a,b.cdef,g`: the first read takes a byte beyond its
delimiter, the second delimiter is kept, the third one comes too late, and the loop finds the
buffer full. -/
theorem delimitedRead_refines_split_run :
    let stream : Bytes := [97, 44, 98, 46, 99, 100, 101, 102, 44, 103]
    let requests : List DelimRequest := [⟨44, true⟩, ⟨46, false⟩, ⟨33, true⟩]
    let events : List DelimitedRead.Event := [.request, .stream (.receive 3), .stream .complete,
      .request, .stream (.receive 1), .stream .complete, .request, .stream (.receive 4),
      .stream .complete, .request, .stream .complete]
    ∃ s, Runs.run DelimitedRead.step (DelimitedRead.start 4 stream requests (some ⟨44, true⟩))
        events = some s ∧
      s.outcomes <+: split 4 stream requests (some ⟨44, true⟩) ∧
      s.outcomes = [.ok [97], .ok [98, 46], .error (.systemError .notFound),
        .error (.systemError .notFound)] := by
  intro stream requests events
  have hresult : (Runs.run DelimitedRead.step
      (DelimitedRead.start 4 stream requests (some ⟨44, true⟩)) events).map (·.outcomes)
      = some [.ok [97], .ok [98, 46], .error (.systemError .notFound),
        .error (.systemError .notFound)] := by
    decide
  obtain ⟨s, hrun, hs⟩ := Option.map_eq_some_iff.mp hresult
  exact ⟨s, hrun, (delimitedRead_refines_split 4 stream requests _ hrun).1, hs⟩

end Acs
