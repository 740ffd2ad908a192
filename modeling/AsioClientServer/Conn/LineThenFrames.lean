import AsioClientServer.Conn.DelimitedRead
import AsioClientServer.Conn.FramedRead

/-!
# A line and then frames

One reader first reads up to a delimiter and then, from the callback or later, runs the framed loop.
The delimited read takes what the socket gives it, so bytes of the frames may already be in the
buffer when the loop starts. `async_read` does not count them: it reports the bytes it has newly
read, and the prefix handler asserts that these are a whole prefix.

* `BeforeFrames`: the line is being read, or it has been delivered and the bytes of the frames that
  were read with it are in the buffer.
* `ReadingFrames`: the framed loop reads the frames as if it had been started on them.
* `lineThenFrames_iff`: the frames are delivered after the line exactly when the delimited read has
  left nothing in the buffer.
-/

namespace Acs

open AsyncReader

/-! ## The system -/

/-- A reader that is asked for a line and then for frames. Its callback stores what it is given.
This is how a program would use the reader for a text header with binary frames behind it. -/
structure LineThenFrames where
  read : FramedRead (List Bytes)
  /-- The framed loop has been requested. -/
  framed : Bool := false
  deriving DecidableEq, Repr

/-- What the stream and the program do. -/
inductive LineThenFrames.Event where
  | stream (event : StreamEvent)
  /-- The program calls `readAsyncProtoInfOccupy`, from the callback of the line or after it. -/
  | readProto
  deriving DecidableEq, Repr

/-- The callback of both requests: it does not throw. -/
def store (_ : Protocol) (data : Bytes) (user : List Bytes) : Option Failure × List Bytes :=
  (none, user ++ [data])

namespace LineThenFrames

/-- The line has been asked for. -/
def start (maxSize : Nat) (stream : Bytes) (q : DelimRequest) : LineThenFrames :=
  let reader : AsyncReader Unit Unit := { maxBufferSize := maxSize }
  { read := {
      reader := reader.readAsyncUntilDelim () q.delim q.discardDelim
      incoming := stream
      user := [] } }

/-- The next state. The frames are asked for once, and not before the line has been delivered. The
reader may hold bytes of the frames already at that moment, as the delimited read takes what is
there. -/
def step (s : LineThenFrames) : Event → Option LineThenFrames
  | .stream event => (FramedRead.step store s.read event).map fun read => { s with read }
  | .readProto =>
    if s.framed = false ∧ s.read.user ≠ [] ∧ s.read.stopped = none then
      let started := s.read.reader.readAsyncProtoInfOccupy () () s.read.protocol
      some {
        read := { s.read with reader := started.2, stopped := started.1 }
        framed := true }
    else none

/-- What is delivered for a line, with its delimiter or without. -/
def lineOf (q : DelimRequest) (line : Bytes) : Bytes :=
  line ++ if q.discardDelim then [] else [q.delim]

/-- No assertion has failed, what has been delivered is the first part of `all`, and it is all of it
when no byte is left to arrive and no handler to run. -/
def Correct (all : List Bytes) (s : LineThenFrames) : Prop :=
  (∀ condition, s.read.stopped ≠ some (.assertionFailed condition)) ∧ s.read.user <+: all ∧
    (s.step (.stream .complete) = none → s.step (.stream (.receive 1)) = none →
      s.read.user = all)

/-! ## The invariant -/

/-- What is delivered after some frames: the line, and their payloads. -/
def delivered (q : DelimRequest) (line : Bytes) (frames : List Frame) : List Bytes :=
  lineOf q line :: frames.map Frame.payload

/-- The line is being read, or it has been delivered and what has been read of the frames is in the
buffer. -/
inductive BeforeFrames (maxSize : Nat) (q : DelimRequest) (line bytes : Bytes)
    (s : LineThenFrames) : Prop
  | reading {transferred : Nat} (hstopped : s.read.stopped = none) (huser : s.read.user = [])
      (hmax : s.read.reader.maxBufferSize = maxSize) (hcallback : s.read.reader.callback = some ())
      (hout : s.read.reader.outstanding = [⟨⟨.delim q.delim, maxSize, transferred⟩,
        .handleReadUntilFinished q.delim q.discardDelim⟩])
      (hstream : line ++ q.delim :: bytes = s.read.reader.readBuffer ++ s.read.incoming)
  | done (hstopped : s.read.stopped = none) (huser : s.read.user = [lineOf q line])
      (hmax : s.read.reader.maxBufferSize = maxSize) (hlock : s.read.reader.readInProgress = false)
      (hout : s.read.reader.outstanding = [])
      (hstream : bytes = s.read.reader.readBuffer ++ s.read.incoming)

variable {maxSize : Nat} {q : DelimRequest} {line bytes : Bytes} {s s' : LineThenFrames}

theorem beforeFrames_start (maxSize : Nat) (q : DelimRequest) (line bytes : Bytes) :
    BeforeFrames maxSize q line bytes (start maxSize (line ++ q.delim :: bytes) q) :=
  .reading rfl rfl rfl rfl rfl rfl

/-- The first delimiter of what has been read is the one after the line. -/
theorem idxOf_of_mem (hline : q.delim ∉ line) {buffer incoming : Bytes}
    (hstream : line ++ q.delim :: bytes = buffer ++ incoming) (hmem : q.delim ∈ buffer) :
    buffer.idxOf q.delim = line.length ∧ ∃ rest, buffer = line ++ q.delim :: rest ∧
      bytes = rest ++ incoming := by
  have hidx : (line ++ q.delim :: bytes).idxOf q.delim = line.length := by
    rw [List.idxOf_append_of_notMem hline, List.idxOf_cons_self, Nat.add_zero]
  have hbuffer : buffer.idxOf q.delim = line.length := by
    rw [← hidx, hstream, List.idxOf_append_of_mem hmem]
  have hlt : line.length < buffer.length := hbuffer ▸ List.idxOf_lt_length_of_mem hmem
  refine ⟨hbuffer, ?_⟩
  -- the buffer is the first part of the stream, and longer than the line
  rw [← List.singleton_append, ← List.append_assoc] at hstream
  obtain ⟨rest, hrest⟩ : line ++ [q.delim] <+: buffer := by
    refine List.prefix_of_prefix_length_le (List.prefix_append _ bytes) ?_ ?_
    · rw [hstream]
      exact List.prefix_append _ _
    · rw [List.length_append, List.length_singleton]
      exact hlt
  refine ⟨rest, ?_, ?_⟩
  · rw [← hrest, List.append_assoc, List.singleton_append]
  · rw [← hrest, List.append_assoc (line ++ [q.delim])] at hstream
    exact List.append_cancel_left hstream

/-- The buffer is full only when the delimiter is in it. -/
theorem mem_take_of_length_le (hlen : line.length < maxSize) {buffer incoming : Bytes}
    (hstream : line ++ q.delim :: bytes = buffer ++ incoming)
    (hfull : maxSize ≤ buffer.length ∨ incoming = []) : q.delim ∈ buffer.take maxSize := by
  have htake : (line ++ q.delim :: bytes).take maxSize = buffer.take maxSize := by
    rcases hfull with hfull | hnil
    · rw [hstream, List.take_append_of_le_length hfull]
    · rw [hstream, hnil, List.append_nil]
  rw [← htake, List.take_append, List.mem_append]
  refine Or.inr ?_
  obtain ⟨n, hn⟩ : ∃ n, maxSize - line.length = n + 1 := ⟨maxSize - line.length - 1, by omega⟩
  rw [hn, List.take_succ_cons]
  exact List.mem_cons_self

/-- An event of the stream is a step of the reader, with whatever the program has asked for so
far. -/
theorem step_stream {event : StreamEvent} (h : s.step (.stream event) = some s') :
    ∃ read, FramedRead.step store s.read event = some read ∧ s' = { s with read } := by
  obtain ⟨read, hread, heq⟩ := Option.map_eq_some_iff.mp h
  exact ⟨read, hread, heq.symm⟩

/-- An event that the stream offers and the reader takes is a step. -/
theorem step_stream_eq {event : StreamEvent} {e : ReadEvent} {rest : Bytes}
    {res : HandlerResult Unit Unit} (hstopped : s.read.stopped = none)
    (hread : event.read s.read.incoming = some (e, rest))
    (hres : s.read.reader.onEvent s.read.protocol e = some res) :
    s.step (.stream event) = some { s with
      read := FramedRead.afterHandler store { s.read with incoming := rest } res } := by
  simp only [step, FramedRead.step_eq hstopped hread hres, Option.map_some]

/-- **What the stream does before the frames are asked for.** The line is delivered, and no read
fails. -/
theorem BeforeFrames.step (hline : q.delim ∉ line) (hlen : line.length < maxSize)
    {event : StreamEvent} (h : BeforeFrames maxSize q line bytes s)
    (hstep : s.step (.stream event) = some s') :
    BeforeFrames maxSize q line bytes s' ∧ s'.framed = s.framed := by
  obtain ⟨read, hread, rfl⟩ := step_stream hstep
  refine ⟨?_, rfl⟩
  obtain ⟨-, hcases⟩ := FramedRead.step_cases hread
  cases h with
  | done _ _ _ _ hout =>
    -- nothing is outstanding
    rcases hcases with ⟨_, _, res, _, _, hres, _⟩ | ⟨res, hres, _⟩ | ⟨res, _, hres, _⟩ <;>
      rw [onEvent_of_outstanding_nil hout] at hres <;> cases hres
  | reading hstopped huser hmax hcallback hout hstream =>
    rcases hcases with ⟨piece, rest, res, -, hincoming, hres, rfl⟩ | ⟨res, hres, rfl⟩ |
      ⟨res, hincoming, hres, -⟩
    · obtain ⟨-, -, -, rfl⟩ := (onEvent_received_iff hout).mp hres
      refine .reading hstopped huser hmax hcallback rfl ?_
      rw [hstream, hincoming]
      simp [FramedRead.afterHandler]
    · rcases onEvent_completed_delim hout hres with ⟨hmem, rfl⟩ | ⟨hmem, hfull, -⟩
      · have hbuf := List.mem_of_mem_take hmem
        obtain ⟨hidx, rest, hbuffer, hbytes⟩ := idxOf_of_mem hline hstream hbuf
        have hfinished := readUntilFinished_ok (r := { s.read.reader with outstanding := [] })
          (p := s.read.protocol) hcallback hbuf q.discardDelim
        simp only [runHandler, hfinished, FramedRead.afterHandler, store]
        refine .done hstopped ?_ hmax rfl rfl ?_
        · rw [huser, hidx, hbuffer, lineOf, List.nil_append, List.take_length_add_append]
          cases q.discardDelim <;> rfl
        · rw [hidx, hbuffer, hbytes]
          simp [HandlerResult.afterCallback, List.drop_length_add_append]
      · exact absurd (mem_take_of_length_le hlen hstream (Or.inl hfull)) hmem
    · obtain ⟨hresult, -⟩ := (onEvent_failed_iff hout).mp hres
      exact absurd (mem_take_of_length_le hlen hstream (Or.inr hincoming))
        (Asio.ReadOp.result_delim_eq_none.mp hresult).1

/-- **Every run before the frames are asked for** reads the line. Induction on the run. The buffer
then holds what has arrived behind the line. -/
theorem beforeFrames_of_run (hline : q.delim ∉ line) (hlen : line.length < maxSize)
    {es : List Event}
    (hrun : Runs.run step (start maxSize (line ++ q.delim :: bytes) q) es = some s)
    (hframed : s.framed = false) : BeforeFrames maxSize q line bytes s := by
  -- once the frames have been asked for, that stays so
  have hinv : s.framed = true ∨ BeforeFrames maxSize q line bytes s := by
    refine Runs.run_invariant (P := fun s => s.framed = true ∨ BeforeFrames maxSize q line bytes s)
      ?_ (Or.inr (beforeFrames_start maxSize q line bytes)) hrun
    rintro s (event | _) s' hs hstep
    · rcases hs with hs | hs
      · obtain ⟨read, -, rfl⟩ := step_stream hstep
        exact Or.inl hs
      · exact Or.inr (hs.step hline hlen hstep).1
    · simp only [step] at hstep
      split at hstep
      · obtain rfl := Option.some.inj hstep
        exact Or.inl rfl
      · cases hstep
  exact hinv.resolve_left (by simp [hframed])

/-- What has been delivered so far is right: nothing, or the line. -/
theorem BeforeFrames.correct (hlen : line.length < maxSize)
    (h : BeforeFrames maxSize q line bytes s) : Correct [lineOf q line] s := by
  cases h with
  | done hstopped huser =>
    refine ⟨?_, ?_, fun _ _ => huser⟩
    · simp [hstopped]
    · exact huser ▸ List.prefix_rfl
  | reading hstopped huser hmax hcallback hout hstream =>
    refine ⟨?_, ?_, fun hcomplete hreceive => absurd hreceive ?_⟩
    · simp [hstopped]
    · rw [huser]
      exact List.nil_prefix
    · -- the read of the line can go on
      cases hresult : Asio.ReadOp.result _ s.read.reader.readBuffer with
      | some result =>
        have hres := (onEvent_completed_iff (p := s.read.protocol) hout).mpr
          ⟨result.1, result.2, hresult, rfl⟩
        have hread : StreamEvent.read s.read.incoming .complete
            = some (.completed, s.read.incoming) := rfl
        rw [step_stream_eq hstopped hread hres] at hcomplete
        cases hcomplete
      | none =>
        cases hincoming : s.read.incoming with
        | nil =>
          exact absurd (mem_take_of_length_le hlen hstream (Or.inr hincoming))
            (Asio.ReadOp.result_delim_eq_none.mp hresult).1
        | cons b rest =>
          have hroom := Asio.ReadOp.room_pos_of_result_none hresult
          have hres : s.read.reader.onEvent s.read.protocol (.received [b]) = some _ :=
            (onEvent_received_iff hout).mpr ⟨hresult, by simp, hroom, rfl⟩
          have hread : StreamEvent.read s.read.incoming (.receive 1)
              = some (.received [b], rest) := by
            simp [StreamEvent.read, hincoming]
          rw [step_stream_eq hstopped hread hres]
          exact Option.some_ne_none _

/-! ## The frames -/

/-- The framed loop reads what is left of the stream, as if it had been started on it. This is the
good case, where no byte of a frame had arrived with the line. -/
structure ReadingFrames (maxSize : Nat) (q : DelimRequest) (line bytes : Bytes)
    (s : LineThenFrames) : Prop where
  framed : s.framed = true
  inv : FramedRead.Inv maxSize bytes (fun frames user => user = delivered q line frames) s.read

/-- The callback does not throw on any frame. -/
theorem store_handles (q : DelimRequest) (line : Bytes) (all : List Frame) :
    FramedRead.Handles store all (fun frames user => user = delivered q line frames) := by
  intro frames frame user p _ huser _
  refine ⟨_, rfl, ?_⟩
  simp only [huser, delivered, List.map_append, List.cons_append, List.map_cons, List.map_nil]

/-- The framed loop goes on as a loop that was started on the frames. -/
theorem ReadingFrames.step (hM : 10 ≤ maxSize) {event : Event}
    (h : ReadingFrames maxSize q line bytes s) (hstep : s.step event = some s') :
    ReadingFrames maxSize q line bytes s' := by
  cases event with
  | stream event =>
    obtain ⟨read, hread, rfl⟩ := step_stream hstep
    exact ⟨h.framed, (FramedRead.inv_step hM (store_handles q line _) h.inv hread).1⟩
  | readProto => simp [LineThenFrames.step, h.framed] at hstep

/-- What has been delivered is the line and the first of the payloads, and nothing has been thrown
but for the end of the stream. -/
theorem ReadingFrames.correct {frames : List Frame} (hframes : FramesOf maxSize bytes frames)
    (h : ReadingFrames maxSize q line bytes s) : Correct (delivered q line frames) s := by
  have hparse := parseFrames_of_framesOf hframes
  refine ⟨?_, ?_, ?_⟩
  · intro condition hcondition
    cases h.inv with
    | reading hstopped => rw [hcondition] at hstopped; cases hstopped
    | stopped hstopped =>
      rw [hcondition, hparse] at hstopped
      cases hstopped
  · cases h.inv with
    | reading _ hstream hphase huser =>
      have hpart := hphase.prefix_parseFrames hstream
      rw [hparse] at hpart
      simp only [huser, delivered, List.prefix_cons_inj]
      exact hpart.map _
    | stopped _ huser =>
      have hall : s.read.user = delivered q line frames := by rw [huser, hparse]
      exact hall ▸ List.prefix_rfl
  · intro hcomplete hreceive
    simp only [LineThenFrames.step, Option.map_eq_none_iff] at hcomplete hreceive
    rw [h.inv.finished hcomplete hreceive, hparse]

/-- With an empty buffer the framed loop starts at the first frame. -/
theorem readingFrames_start (hM : 10 ≤ maxSize) (h : BeforeFrames maxSize q line bytes s)
    (hempty : s.read.reader.readBuffer = []) (hstep : s.step .readProto = some s') :
    ReadingFrames maxSize q line bytes s' := by
  simp only [LineThenFrames.step] at hstep
  split at hstep
  · next hcan =>
    obtain rfl := Option.some.inj hstep
    cases h with
    | reading _ huser => exact absurd huser hcan.2.1
    | done hstopped huser hmax hlock hout hstream =>
      obtain ⟨reader, hstart, hphase, -⟩ := readAsyncProtoInfOccupy_phase hempty hlock hout
        (by rw [hmax]; exact hM) () () s.read.protocol
      rw [hstart]
      rw [hmax] at hphase
      rw [hempty] at hstream
      exact ⟨rfl, .reading rfl hstream hphase huser⟩
  · cases hstep

/-! ## Bytes left in the buffer -/

/-- Bytes that are frames have a whole prefix at least. -/
theorem length_of_framesOf {frames : List Frame} (h : FramesOf maxSize bytes frames)
    (hne : bytes ≠ []) : 10 ≤ bytes.length := by
  cases h with
  | nil => exact absurd rfl hne
  | snoc _ hpre =>
    simp only [List.length_append]
    omega

/-- The read of a prefix is outstanding, and has been given `n` bytes. -/
structure AtPrefix (s : LineThenFrames) (n : Nat) : Prop where
  stopped : s.read.stopped = none
  outstanding : s.read.reader.outstanding = [⟨⟨.full, 10, n⟩,
    .handleReadProtoFramePrefixFinished true⟩]

/-- The loop starts with the read of a prefix into the bytes that are in the buffer. -/
theorem BeforeFrames.readProto (hM : 10 ≤ maxSize) (h : BeforeFrames maxSize q line bytes s)
    (hframed : s.framed = false) (huser : s.read.user ≠ []) :
    ∃ s', s.step .readProto = some s' ∧ AtPrefix s' 0 ∧
      s'.read.reader.readBuffer = s.read.reader.readBuffer ∧
      bytes = s.read.reader.readBuffer ++ s'.read.incoming := by
  cases h with
  | reading _ hnil => exact absurd hnil huser
  | done hstopped _ hmax hlock hout hstream =>
    have hstart := readAsyncProtoInfOccupy_eq hlock (hmax ▸ hM) () () s.read.protocol
    refine ⟨_, if_pos ⟨hframed, huser, hstopped⟩, ⟨?_, ?_⟩, ?_, hstream⟩
    · rw [hstart]
    · rw [hstart]
      simp only [initiate, hout, List.nil_append]
    · rw [hstart]
      rfl

/-- Bytes that are missing from the prefix arrive. -/
theorem AtPrefix.receive {n k : Nat} (h : AtPrefix s n) (hpos : 0 < k)
    (hk : s.read.reader.readBuffer.length + k ≤ 10) (hincoming : k ≤ s.read.incoming.length) :
    ∃ s', s.step (.stream (.receive k)) = some s' ∧ AtPrefix s' (n + k) ∧
      s'.read.reader.readBuffer.length = s.read.reader.readBuffer.length + k := by
  have htake : (s.read.incoming.take k).length = k := List.length_take_of_le hincoming
  have hres := (onEvent_received_iff (p := s.read.protocol) h.outstanding).mpr
    ⟨Asio.ReadOp.result_full_eq_none.mpr (by omega), htake.symm ▸ hpos,
      by simp only [Asio.ReadOp.room]; omega, rfl⟩
  refine ⟨_, step_stream_eq h.stopped (if_pos hincoming) hres, ⟨h.stopped, ?_⟩, ?_⟩
  · simp only [FramedRead.afterHandler, htake, Asio.ReadOp.advance]
  · simp only [FramedRead.afterHandler, List.length_append, htake]

/-- The prefix handler when some bytes of the prefix were in the buffer before the read. The number
of bytes that is reported is short by those that were there before, and the handler insists on
ten. -/
theorem AtPrefix.complete {n : Nat} (h : AtPrefix s n)
    (hlen : 10 ≤ s.read.reader.readBuffer.length) (hn : n ≠ 10) :
    ∃ s', s.step (.stream .complete) = some s' ∧ s'.read.stopped
      = some (.assertionFailed "bytesTransferred == _protocol->getFramePrefixSize()") := by
  have hresult : (Asio.ReadOp.mk .full 10 n).result s.read.reader.readBuffer = some (none, n) := by
    rw [Asio.ReadOp.result_full, if_pos hlen]
  have hres := (onEvent_completed_iff (p := s.read.protocol) h.outstanding).mpr
    ⟨none, n, hresult, rfl⟩
  have hread : StreamEvent.read s.read.incoming .complete
      = some (.completed, s.read.incoming) := rfl
  refine ⟨_, step_stream_eq h.stopped hread hres, ?_⟩
  simp only [runHandler, handleReadProtoFramePrefixFinished, checkError_none,
    Protocol.getFramePrefixSize_eq, if_neg hn, FramedRead.afterHandler]

/-- **Bytes left in the buffer end the program.** The read of the first prefix does not count them:
it reports fewer than ten bytes. -/
theorem fails_of_leftover (hM : 10 ≤ maxSize) {frames : List Frame}
    (hframes : FramesOf maxSize bytes frames) (h : BeforeFrames maxSize q line bytes s)
    (hframed : s.framed = false) (huser : s.read.user ≠ [])
    (hbuffer : s.read.reader.readBuffer ≠ []) :
    ∃ es t condition, Runs.run step s (.readProto :: es) = some t ∧
      t.read.stopped = some (.assertionFailed condition) := by
  obtain ⟨s₁, hs₁, hat₁, hbuffer₁, hbytes⟩ := h.readProto hM hframed huser
  have hpos := List.length_pos_iff.mpr hbuffer
  by_cases hlen : 10 ≤ s.read.reader.readBuffer.length
  · -- nothing is read
    obtain ⟨t, ht, hstop⟩ := hat₁.complete (by rw [hbuffer₁]; exact hlen) (by decide)
    exact ⟨[.stream .complete], t, _,
      (Runs.run_cons_of_step _ hs₁).trans (Runs.run_cons_of_step _ ht), hstop⟩
  · -- the bytes that are missing arrive first
    have hten := length_of_framesOf hframes (by rw [hbytes]; simp [hbuffer])
    rw [hbytes, List.length_append] at hten
    obtain ⟨s₂, hs₂, hat₂, hbuffer₂⟩ := hat₁.receive
      (k := 10 - s.read.reader.readBuffer.length) (by omega) (by rw [hbuffer₁]; omega) (by omega)
    obtain ⟨t, ht, hstop⟩ := hat₂.complete (by rw [hbuffer₂, hbuffer₁]; omega) (by omega)
    exact ⟨[.stream (.receive _), .stream .complete], t, _,
      (Runs.run_cons_of_step _ hs₁).trans ((Runs.run_cons_of_step _ hs₂).trans
        (Runs.run_cons_of_step _ ht)), hstop⟩

end LineThenFrames

/-! ## The exact condition -/

open LineThenFrames in
/-- **Frames after a line.** However the stream is cut, the line is delivered. The loop that is
started then delivers the frames, whatever happens next, exactly when the delimited read has left no
byte in the buffer. -/
theorem lineThenFrames_iff {maxSize : Nat} (hM : 10 ≤ maxSize) {q : DelimRequest}
    {line bytes : Bytes} {frames : List Frame} (hline : q.delim ∉ line)
    (hlen : line.length < maxSize) (hframes : FramesOf maxSize bytes frames) {es : List Event}
    {s : LineThenFrames}
    (hrun : Runs.run step (start maxSize (line ++ q.delim :: bytes) q) es = some s)
    (hframed : s.framed = false) :
    Correct [lineOf q line] s ∧
    (s.read.user ≠ [] →
      ((∀ es' t, Runs.run step s (.readProto :: es') = some t →
          Correct (delivered q line frames) t) ↔ s.read.reader.readBuffer = [])) := by
  have hbefore := beforeFrames_of_run hline hlen hrun hframed
  refine ⟨hbefore.correct hlen, fun huser => ⟨fun hall => ?_, fun hempty es' t hrun' => ?_⟩⟩
  · by_contra hbuffer
    obtain ⟨es', t, condition, hrun', hstop⟩ :=
      fails_of_leftover hM hframes hbefore hframed huser hbuffer
    exact (hall _ _ hrun').1 condition hstop
  · obtain ⟨s', hs', hrun'⟩ := Runs.run_cons_eq_some.mp hrun'
    have hinv := Runs.run_invariant (fun _ _ _ h hs => ReadingFrames.step hM h hs)
      (readingFrames_start hM hbefore hempty hs') hrun'
    exact hinv.correct hframes

/-- One message as the stream after the line, for the runs below. -/
theorem LineThenFrames.framesOf_one :
    FramesOf 10 [13, 2, 0, 0, 0, 29, 1, 0, 0, 0, 8, 1] [frameOf (chatMessage 1 [] 0)] := by
  have hpre : [13, 2, 0, 0, 0, 29, 1, 0, 0, 0].length = 10 := rfl
  have hparse : FramePrefix.parseFromArray [13, 2, 0, 0, 0, 29, 1, 0, 0, 0]
      = some (framePrefixOf (.chatMessage (chatMessage 1 [] 0))) := by decide
  have hsize : [8, 1].length = (framePrefixOf (.chatMessage (chatMessage 1 [] 0))).size.toNat := rfl
  have hmax : (framePrefixOf (.chatMessage (chatMessage 1 [] 0))).size.toNat ≤ 10 := by decide
  exact .snoc .nil hpre hparse hsize hmax

open LineThenFrames in
/-- The delimited read is given the line and its delimiter, and the frames are asked for with an
empty buffer. -/
theorem lineThenFrames_iff_run :
    let bytes : Bytes := [13, 2, 0, 0, 0, 29, 1, 0, 0, 0, 8, 1]
    ∃ s t, Runs.run step (start 10 ([104, 105] ++ 10 :: bytes) {})
        [.stream (.receive 3), .stream .complete] = some s ∧
      Runs.run step s [.readProto, .stream (.receive 10), .stream .complete,
        .stream (.receive 2), .stream .complete] = some t ∧
      Correct [[104, 105], [8, 1]] t ∧ t.read.user = [[104, 105], [8, 1]] := by
  intro bytes
  have hresult : (Runs.run step (start 10 ([104, 105] ++ 10 :: bytes) {})
      [.stream (.receive 3), .stream .complete]).map
        (fun s => (s.framed, s.read.user, s.read.reader.readBuffer,
          (Runs.run step s [.readProto, .stream (.receive 10), .stream .complete,
            .stream (.receive 2), .stream .complete]).map (·.read.user)))
      = some (false, [[104, 105]], [], some [[104, 105], [8, 1]]) := by
    decide +kernel
  obtain ⟨s, hrun, hs⟩ := Option.map_eq_some_iff.mp hresult
  simp only [Prod.mk.injEq] at hs
  obtain ⟨hframed, huser, hbuffer, ht⟩ := hs
  obtain ⟨t, hrun', ht⟩ := Option.map_eq_some_iff.mp ht
  have hline : ({} : DelimRequest).delim ∉ ([104, 105] : Bytes) := by decide
  have hiff := (lineThenFrames_iff (by decide) hline (by decide) framesOf_one hrun hframed).2
    (by simp [huser])
  exact ⟨s, t, hrun, hrun', hiff.mpr hbuffer _ _ hrun', ht⟩

open LineThenFrames in
/-- The delimited read is given the first seven bytes of the frame too. The read of the prefix is
given the other three, and the prefix handler fails its assertion. -/
theorem lineThenFrames_leftover :
    let bytes : Bytes := [13, 2, 0, 0, 0, 29, 1, 0, 0, 0, 8, 1]
    FramesOf 10 bytes [frameOf (chatMessage 1 [] 0)] ∧
    ∃ t, Runs.run step (start 10 ([104, 105] ++ 10 :: bytes) {})
        [.stream (.receive 10), .stream .complete, .readProto, .stream (.receive 3),
          .stream .complete] = some t ∧
      t.read.stopped
        = some (.assertionFailed "bytesTransferred == _protocol->getFramePrefixSize()") ∧
      ¬ Correct (delivered {} [104, 105] [frameOf (chatMessage 1 [] 0)]) t := by
  intro bytes
  refine ⟨framesOf_one, ?_⟩
  have hresult : (Runs.run step (start 10 ([104, 105] ++ 10 :: bytes) {})
      [.stream (.receive 10), .stream .complete, .readProto, .stream (.receive 3),
        .stream .complete]).map (·.read.stopped)
      = some (some (.assertionFailed "bytesTransferred == _protocol->getFramePrefixSize()")) := by
    decide +kernel
  obtain ⟨t, hrun, hstop⟩ := Option.map_eq_some_iff.mp hresult
  exact ⟨t, hrun, hstop, fun hcorrect => hcorrect.1 _ hstop⟩

end Acs
