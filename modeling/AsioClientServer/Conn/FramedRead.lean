import AsioClientServer.Conn.Framing
import AsioClientServer.Lib.Runs

/-!
# Framed reading to the end of a stream

One reader runs `readAsyncProtoInfOccupy` on a stream that ends; its callback is a function of the
user. The stream is cut into pieces by the run: each event moves some bytes, runs a handler, or
signals the end.

* `FramedRead.inv_of_run`: what holds after any run, for any callback that does not throw on the
  frames of the stream.
* `framedRead_refines_parseFrames`: with a callback that stores what it is given, the loop
  delivers what `parseFrames` cuts the whole stream into and stops for the same reason.
* `framedRead_roundTrip`: with a callback that deserializes, the messages that were serialized
  come out again.
-/

namespace Acs

open AsyncReader

/-! ## The system -/

/-- A framed read loop on a stream, `incoming` of which has not arrived. What the callback does to
the program is a change of `user`. -/
structure FramedRead (σ : Type) where
  reader : AsyncReader Unit Unit
  protocol : Protocol := {}
  incoming : Bytes
  /-- What the callback keeps. -/
  user : σ
  /-- The exception that has left a handler or the callback. -/
  stopped : Option Failure := none
  deriving DecidableEq, Repr

namespace FramedRead

variable {σ : Type}

/-- The loop has been started on a reader that has read nothing. -/
def start (maxSize : Nat) (stream : Bytes) (user : σ) : FramedRead σ :=
  let reader : AsyncReader Unit Unit := { maxBufferSize := maxSize }
  let started := reader.readAsyncProtoInfOccupy () () {}
  { reader := started.2, incoming := stream, user, stopped := started.1 }

/-- The state after a handler: the callback is called with the cached prefix in place, and what it
throws stops the loop like an exception of the reader. -/
def afterHandler (onData : Protocol → Bytes → σ → Option Failure × σ) (s : FramedRead σ)
    (res : HandlerResult Unit Unit) : FramedRead σ :=
  match res.exit with
  | .returned => { s with reader := res.reader, protocol := res.protocol }
  | .threw f => { s with reader := res.reader, protocol := res.protocol, stopped := some f }
  | .calls _ data _ =>
    match onData res.protocol data s.user with
    | (none, user) => { s with reader := res.afterCallback, protocol := res.protocol, user }
    | (some f, user) =>
      { s with reader := res.reader, protocol := res.protocol, user, stopped := some f }

/-- One event. Nothing happens once an exception has ended the loop. The stream decides how many
bytes arrive at a time, and when a handler runs. -/
def step (onData : Protocol → Bytes → σ → Option Failure × σ) (s : FramedRead σ)
    (event : StreamEvent) : Option (FramedRead σ) :=
  if s.stopped = none then
    (event.read s.incoming).bind fun e =>
      (s.reader.onEvent s.protocol e.1).map fun res =>
        afterHandler onData { s with incoming := e.2 } res
  else none

variable {onData : Protocol → Bytes → σ → Option Failure × σ} {s s' : FramedRead σ}

/-! ## Inversion of a step -/

/-- **What a step can do.** The loop has not stopped, the stream has the event to offer, the reader
takes it, and the callback runs if the handler has called it. -/
theorem step_cases {event : StreamEvent} (h : step onData s event = some s') :
    s.stopped = none ∧
      ((∃ piece rest res, piece ≠ [] ∧ s.incoming = piece ++ rest ∧
          s.reader.onEvent s.protocol (.received piece) = some res ∧
          s' = afterHandler onData { s with incoming := rest } res) ∨
        (∃ res, s.reader.onEvent s.protocol .completed = some res ∧
          s' = afterHandler onData s res) ∨
        (∃ res, s.incoming = [] ∧ s.reader.onEvent s.protocol (.failed .eof) = some res ∧
          s' = afterHandler onData s res)) := by
  rw [step] at h
  split at h
  · next hstopped =>
    refine ⟨hstopped, ?_⟩
    obtain ⟨e, he, h⟩ := Option.bind_eq_some_iff.mp h
    obtain ⟨res, hres, rfl⟩ := Option.map_eq_some_iff.mp h
    rcases StreamEvent.read_cases he hres with ⟨piece, rest, hpiece, hincoming, rfl⟩ | rfl |
      ⟨hincoming, rfl⟩
    · exact Or.inl ⟨piece, rest, res, hpiece, hincoming, hres, rfl⟩
    · exact Or.inr (Or.inl ⟨res, hres, rfl⟩)
    · refine Or.inr (Or.inr ⟨res, hincoming, hres, ?_⟩)
      rw [← hincoming]
  · cases h

/-- The other direction: an event that the stream offers and the reader takes is a step. -/
theorem step_eq {event : StreamEvent} {e : ReadEvent} {rest : Bytes} {res : HandlerResult Unit Unit}
    (hstopped : s.stopped = none) (hread : event.read s.incoming = some (e, rest))
    (hres : s.reader.onEvent s.protocol e = some res) :
    step onData s event = some (afterHandler onData { s with incoming := rest } res) := by
  simp only [step, hstopped, if_true, hread, Option.bind_some, hres, Option.map_some]

/-! ## The invariant -/

/-- The user's data fit the frames delivered so far, a part of the frames of the stream. Once the
loop has stopped, all the frames of the stream have been delivered, and it has stopped with the
reason of the parser. -/
inductive Inv (maxSize : Nat) (stream : Bytes) (UserInv : List Frame → σ → Prop)
    (s : FramedRead σ) : Prop
  | reading {frames : List Frame} {read : Bytes} (hstopped : s.stopped = none)
      (hstream : stream = read ++ s.incoming)
      (hphase : FramedPhase maxSize () () s.reader s.protocol frames read)
      (huser : UserInv frames s.user)
  | stopped (hstopped : s.stopped = some (parseFrames maxSize stream).2)
      (huser : UserInv (parseFrames maxSize stream).1 s.user)

/-- The callback does not throw on a frame of the stream and keeps the user's invariant, when the
cached prefix is the one of that frame. -/
def Handles (onData : Protocol → Bytes → σ → Option Failure × σ) (all : List Frame)
    (UserInv : List Frame → σ → Prop) : Prop :=
  ∀ frames frame user p, frames ++ [frame] <+: all → UserInv frames user →
    p.deserFramePrefixCache = frame.framePrefix →
    ∃ user', onData p frame.payload user = (none, user') ∧ UserInv (frames ++ [frame]) user'

/-- How many events are possible at most: three for each byte that is to come, its arrival and two
handlers, less for those that have arrived. -/
def measure (s : FramedRead σ) : Nat :=
  if s.stopped = none then 3 * s.incoming.length + s.reader.weight + 1 else 0

variable {maxSize : Nat} {stream : Bytes} {UserInv : List Frame → σ → Prop}

/-- The loop starts in its first phase, with nothing delivered and the whole stream to come. -/
theorem inv_start (stream : Bytes) (hM : 10 ≤ maxSize) {user : σ} (huser : UserInv [] user) :
    Inv maxSize stream UserInv (start maxSize stream user) ∧
      measure (start maxSize stream user) = 3 * stream.length + 1 := by
  obtain ⟨reader, hstart, hphase, hweight⟩ := readAsyncProtoInfOccupy_phase
    (r := ({ maxBufferSize := maxSize } : AsyncReader Unit Unit)) rfl rfl rfl hM () () {}
  have heq : start maxSize stream user = { reader, incoming := stream, user } := by
    simp only [start, hstart]
  rw [heq]
  refine ⟨.reading rfl (List.nil_append _).symm hphase huser, ?_⟩
  simp only [measure, if_true, hweight]

/-- Bytes that arrive are read. -/
theorem Inv.received {piece rest : Bytes} {res : HandlerResult Unit Unit}
    (hinv : Inv maxSize stream UserInv s) (hnone : s.stopped = none) (hpiece : piece ≠ [])
    (hincoming : s.incoming = piece ++ rest)
    (hr : s.reader.onEvent s.protocol (.received piece) = some res) :
    Inv maxSize stream UserInv (afterHandler onData { s with incoming := rest } res) ∧
      measure (afterHandler onData { s with incoming := rest } res) < measure s := by
  cases hinv with
  | stopped hstopped => simp [hnone] at hstopped
  | @reading frames read _ hstream hphase huser =>
    obtain ⟨hexit, hprotocol, hphase', hweight⟩ := hphase.received hr
    have hpos : 0 < piece.length := List.length_pos_iff.mpr hpiece
    have heq : afterHandler onData { s with incoming := rest } res
        = { s with reader := res.reader, protocol := s.protocol, incoming := rest } := by
      simp only [afterHandler, hexit, hprotocol]
    rw [heq]
    constructor
    · refine .reading hnone ?_ hphase' huser
      rw [hstream, hincoming, List.append_assoc]
    · -- a byte that has not arrived counts three, a byte in the reader two
      simp only [measure, hnone, if_true, hincoming, List.length_append, hweight]
      omega

/-- The loop has stopped with the reason of the parser, after all its frames. -/
theorem Inv.of_stopped {frames : List Frame} {f : Failure} {res : HandlerResult Unit Unit}
    (hnone : s.stopped = none) (hparsed : parseFrames maxSize stream = (frames, f))
    (hexit : res.exit = .threw f) (huser : UserInv frames s.user) :
    Inv maxSize stream UserInv (afterHandler onData s res) ∧
      measure (afterHandler onData s res) < measure s := by
  simp only [afterHandler, hexit]
  refine ⟨.stopped ?_ ?_, ?_⟩
  · simp only [hparsed]
  · rw [hparsed]
    exact huser
  · simp [measure, hnone]

/-- A handler of the loop schedules a read, hands a frame to the callback, or stops the loop. In the
first two cases the loop goes on, with less to do than before. -/
theorem Inv.completed {res : HandlerResult Unit Unit} (hM : 10 ≤ maxSize)
    (hon : Handles onData (parseFrames maxSize stream).1 UserInv)
    (hinv : Inv maxSize stream UserInv s) (hnone : s.stopped = none)
    (hr : s.reader.onEvent s.protocol .completed = some res) :
    Inv maxSize stream UserInv (afterHandler onData s res) ∧
      measure (afterHandler onData s res) < measure s := by
  cases hinv with
  | stopped hstopped => simp [hnone] at hstopped
  | @reading frames read _ hstream hphase huser =>
    cases hphase.completed hM hr with
    | scheduled _ _ _ hexit hphase' hweight =>
      have heq : afterHandler onData s res
          = { s with reader := res.reader, protocol := res.protocol } := by
        simp only [afterHandler, hexit]
      rw [heq]
      refine ⟨.reading hnone hstream hphase' huser, ?_⟩
      simp only [measure, hnone, if_true]
      omega
    | delivered _ hexit hprotocol _ hphase' hweight =>
      -- the cache still holds the prefix of the payload that is handed out
      obtain ⟨user', hdata, huser'⟩ :=
        hon _ _ s.user s.protocol (hphase'.prefix_parseFrames hstream) huser rfl
      have heq : afterHandler onData s res
          = { s with reader := res.reader, protocol := s.protocol, user := user' } := by
        simp only [afterHandler, hexit, hprotocol, hdata, HandlerResult.afterCallback]
      rw [heq]
      refine ⟨.reading hnone hstream hphase' huser', ?_⟩
      simp only [measure, hnone, if_true]
      omega
    | badPrefix _ hexit hframes hread hpre hparse =>
      refine Inv.of_stopped hnone ?_ hexit huser
      rw [hstream, hread, List.append_assoc, parseFrames_append hframes,
        parseFrames_badPrefix hpre hparse, List.append_nil]
    | tooLong _ hexit hframes hread hpre hparse hmax =>
      refine Inv.of_stopped hnone ?_ hexit huser
      rw [hstream, hread, List.append_assoc, parseFrames_append hframes,
        parseFrames_tooLong hpre hparse hmax, List.append_nil]

/-- **Every event keeps the invariant and brings the end nearer.** The first half gives the strings
that are delivered, the second half that a run cannot go on for ever. -/
theorem inv_step (hM : 10 ≤ maxSize) (hon : Handles onData (parseFrames maxSize stream).1 UserInv)
    {event : StreamEvent} (hinv : Inv maxSize stream UserInv s)
    (hstep : step onData s event = some s') :
    Inv maxSize stream UserInv s' ∧ measure s' < measure s := by
  obtain ⟨hnone, hcases⟩ := step_cases hstep
  rcases hcases with ⟨piece, rest, res, hpiece, hincoming, hr, rfl⟩ | ⟨res, hr, rfl⟩ |
    ⟨res, hincoming, hr, rfl⟩
  · exact hinv.received hnone hpiece hincoming hr
  · exact hinv.completed hM hon hnone hr
  · cases hinv with
    | stopped hstopped => simp [hnone] at hstopped
    | reading _ hstream hphase huser =>
      obtain ⟨hexit, hparsed⟩ := hphase.failed hr
      rw [hincoming, List.append_nil] at hstream
      rw [← hstream] at hparsed
      exact Inv.of_stopped hnone hparsed hexit huser

/-- **Every run keeps the invariant and ends.** -/
theorem inv_of_run (hM : 10 ≤ maxSize)
    (hon : Handles onData (parseFrames maxSize stream).1 UserInv) {user : σ}
    (huser : UserInv [] user) {es : List StreamEvent}
    (hrun : Runs.run (step onData) (start maxSize stream user) es = some s) :
    Inv maxSize stream UserInv s ∧ es.length ≤ 3 * stream.length + 1 := by
  obtain ⟨hinv, hmeasure⟩ := inv_start stream hM huser
  constructor
  · exact Runs.run_invariant (fun _ _ _ h hs => (inv_step hM hon h hs).1) hinv hrun
  · have hle := Runs.run_length_le measure (fun _ _ _ h hs => inv_step hM hon h hs) hinv hrun
    omega

/-- **A loop that has not stopped can go on.** When no handler can run and no byte is left, the
end of the stream can be signalled. -/
theorem Inv.progress (onData : Protocol → Bytes → σ → Option Failure × σ) (hinv : Inv maxSize stream UserInv s) (hstopped : s.stopped = none) :
    (∃ s', step onData s .complete = some s') ∨
      (∃ s', step onData s (.receive 1) = some s') ∨
        s.incoming = [] ∧ ∃ s', step onData s .eof = some s' := by
  cases hinv with
  | stopped h => simp [hstopped] at h
  | reading _ _ hphase _ =>
    rcases hphase.progress with ⟨res, hres⟩ | ⟨hreceive, hfail⟩
    · exact Or.inl ⟨_, step_eq hstopped rfl hres⟩
    · cases hincoming : s.incoming with
      | nil =>
        obtain ⟨res, hres⟩ := hfail .eof
        exact Or.inr (Or.inr ⟨rfl, _, step_eq hstopped (if_pos hincoming) hres⟩)
      | cons b rest =>
        obtain ⟨res, hres⟩ := hreceive b
        have hread : StreamEvent.read s.incoming (.receive 1) = some (.received [b], rest) := by
          simp [StreamEvent.read, hincoming]
        exact Or.inr (Or.inl ⟨_, step_eq hstopped hread hres⟩)

/-- An exception that has left the loop has ended it. -/
theorem step_of_stopped (h : s.stopped ≠ none) (event : StreamEvent) :
    step onData s event = none :=
  if_neg h

/-- **Some run reaches the end.** While the loop has not stopped, an event is possible that brings
the end nearer. -/
theorem exists_run_stopped (hM : 10 ≤ maxSize)
    (hon : Handles onData (parseFrames maxSize stream).1 UserInv) {user : σ}
    (huser : UserInv [] user) :
    ∃ es t, Runs.run (step onData) (start maxSize stream user) es = some t ∧ t.stopped ≠ none := by
  obtain ⟨hinv, -⟩ := inv_start stream hM huser
  have hstart : (start maxSize stream user).stopped = none := by
    cases hinv with
    | reading hstopped => exact hstopped
    | stopped hstopped =>
      simp only [start, readAsyncProtoInfOccupy_eq (r := { maxBufferSize := maxSize }) rfl hM]
  refine Runs.exists_run (P := fun s => Inv maxSize stream UserInv s ∧ s.stopped = none)
    (Q := fun s => s.stopped ≠ none) measure ?_ ⟨hinv, hstart⟩
  rintro s ⟨hinv, hnone⟩
  obtain ⟨event, s', hs'⟩ : ∃ event s', step onData s event = some s' := by
    rcases hinv.progress onData hnone with ⟨s', h⟩ | ⟨s', h⟩ | ⟨-, s', h⟩
    · exact ⟨_, s', h⟩
    · exact ⟨_, s', h⟩
    · exact ⟨_, s', h⟩
  obtain ⟨hinv', hlt⟩ := inv_step hM hon hinv hs'
  refine ⟨event, s', hs', ?_⟩
  cases hstopped : s'.stopped with
  | none => exact Or.inr ⟨⟨hinv', rfl⟩, hlt⟩
  | some f => exact Or.inl (by simp)

/-- A loop that waits for nothing but the end of the stream has delivered all its frames. A frame
that is still being read would wait for bytes, and not for the end alone. -/
theorem Inv.finished (hinv : Inv maxSize stream UserInv s)
    (hcomplete : step onData s .complete = none) (hreceive : step onData s (.receive 1) = none) :
    UserInv (parseFrames maxSize stream).1 s.user := by
  cases hinv with
  | stopped _ huser => exact huser
  | reading hstopped hstream hphase huser =>
    rcases (Inv.reading hstopped hstream hphase huser).progress onData hstopped with
      ⟨s', h⟩ | ⟨s', h⟩ | ⟨hincoming, s', h⟩
    · rw [hcomplete] at h
      cases h
    · rw [hreceive] at h
      cases h
    · rw [hincoming, List.append_nil] at hstream
      obtain ⟨-, ⟨_, _, res, hpiece, hp, _⟩ | ⟨res, hr, _⟩ | ⟨res, -, hr, -⟩⟩ := step_cases h
      · rw [hincoming] at hp
        exact absurd (List.append_eq_nil_iff.mp hp.symm).1 hpiece
      · rw [step_eq hstopped rfl hr] at hcomplete
        cases hcomplete
      · rw [hstream, (hphase.failed hr).2]
        exact huser

end FramedRead

/-! ## Any callback that does not throw -/

/-- A callback that does not throw, with the list of the strings it has been called with. The list
is a ghost: the callback itself works on the other component. -/
def collect {σ : Type} (callback : Protocol → Bytes → σ → σ) (p : Protocol) (data : Bytes)
    (user : List Bytes × σ) : Option Failure × (List Bytes × σ) :=
  (none, user.1 ++ [data], callback p data user.2)

/-- **The framed read loop refines the batch parser.** Whatever the stream is and however it is
cut, the strings handed to the callback are the payloads `parseFrames` finds, and the loop stops
for the reason it gives; a loop that has not stopped has delivered the first of these payloads and
can go on, and no run goes on forever. -/
theorem framedRead_refines_parseFrames {σ : Type} (callback : Protocol → Bytes → σ → σ) (init : σ)
    {maxSize : Nat} (hM : 10 ≤ maxSize) (stream : Bytes) {es : List StreamEvent}
    {s : FramedRead (List Bytes × σ)}
    (hrun : Runs.run (FramedRead.step (collect callback))
      (FramedRead.start maxSize stream ([], init)) es = some s) :
    (∀ f, s.stopped = some f → f = (parseFrames maxSize stream).2 ∧
      s.user.1 = (parseFrames maxSize stream).1.map Frame.payload) ∧
    (s.stopped = none → s.user.1 <+: (parseFrames maxSize stream).1.map Frame.payload ∧
      ((∃ s', FramedRead.step (collect callback) s .complete = some s') ∨
        (∃ s', FramedRead.step (collect callback) s (.receive 1) = some s') ∨
        s.incoming = [] ∧ ∃ s', FramedRead.step (collect callback) s .eof = some s')) ∧
    (∀ condition, s.stopped ≠ some (.assertionFailed condition)) ∧
    es.length ≤ 3 * stream.length + 1 := by
  -- the callback only appends, so it never throws and keeps the strings in order
  have hon : FramedRead.Handles (collect callback) (parseFrames maxSize stream).1
      (fun frames user => user.1 = frames.map Frame.payload) := by
    intro frames frame user p _ huser _
    refine ⟨_, rfl, ?_⟩
    simp only [List.map_append, ← huser, List.map_cons, List.map_nil]
  obtain ⟨hinv, hlen⟩ := FramedRead.inv_of_run hM hon rfl hrun
  refine ⟨?_, ?_, ?_, hlen⟩
  · intro f hf
    cases hinv with
    | reading hstopped => rw [hf] at hstopped; cases hstopped
    | stopped hstopped huser =>
      rw [hf] at hstopped
      exact ⟨Option.some.inj hstopped, huser⟩
  · intro hnone
    refine ⟨?_, hinv.progress _ hnone⟩
    cases hinv with
    | stopped hstopped => rw [hnone] at hstopped; cases hstopped
    | reading _ hstream hphase huser =>
      rw [huser]
      exact (hphase.prefix_parseFrames hstream).map _
  · intro condition hcondition
    cases hinv with
    | reading hstopped => rw [hcondition] at hstopped; cases hstopped
    | stopped hstopped =>
      rw [hcondition] at hstopped
      have heq := Option.some.inj hstopped
      rcases parseFrames_reason maxSize stream with h | h | h <;> rw [h] at heq <;> cases heq

/-- A frame of two bytes, a frame of none and four bytes of a prefix, with a limit of ten bytes:
two strings are delivered and the loop stops at the end of the stream. -/
theorem framedRead_refines_parseFrames_run :
    let stream : Bytes := [13, 2, 0, 0, 0, 29, 1, 0, 0, 0, 7, 8] ++
      [13, 0, 0, 0, 0, 29, 0, 0, 0, 0] ++ [13, 1, 0, 0]
    let events : List StreamEvent := [.receive 4, .receive 6, .complete, .receive 2, .complete,
      .receive 10, .complete, .complete, .receive 3, .receive 1, .eof]
    ∃ s, Runs.run (FramedRead.step (collect fun _ _ n => n + 1))
        (FramedRead.start 10 stream ([], 0)) events = some s ∧
      s.stopped = some (parseFrames 10 stream).2 ∧
      s.user.1 = (parseFrames 10 stream).1.map Frame.payload ∧ s.user = ([[7, 8], []], 2) := by
  intro stream events
  have hresult : (Runs.run (FramedRead.step (collect fun _ _ n => n + 1))
      (FramedRead.start 10 stream ([], 0)) events).map (fun s => (s.stopped, s.user))
      = some (some (.systemError .eof), ([[7, 8], []], 2)) := by
    decide +kernel
  obtain ⟨s, hrun, hs⟩ := Option.map_eq_some_iff.mp hresult
  obtain ⟨hstopped, huser⟩ := Prod.mk.inj hs
  obtain ⟨hreason, hpayloads⟩ := (framedRead_refines_parseFrames (fun _ _ n => n + 1) 0
    (by decide) stream hrun).1 _ hstopped
  exact ⟨s, hrun, hreason ▸ hstopped, hpayloads, huser⟩

/-! ## Messages -/

/-- The callback of a program that decodes what it receives, as `_handleRead` does. -/
def decodeEach (p : Protocol) (data : Bytes) (messages : List MessageLite) :
    Option Failure × List MessageLite :=
  match p.deserialize data with
  | .error f => (some f, messages)
  | .ok message => (none, messages ++ [message])

/-- A message a program can build that the reader of another program accepts. A size of at least 1
and at most the limit is what the frame needs; UTF-8 is what the parser needs. -/
structure ChatMessage.Deliverable (m : ChatMessage) : Prop where
  unknownFields_eq : m.unknownFields = []
  text_utf8 : ValidUtf8 m.text
  size_pos : 0 < (MessageLite.chatMessage m).byteSizeLong
  size_le : (MessageLite.chatMessage m).byteSizeLong ≤ maxReadBufferSizeBytes

/-- What the reader accepts can be framed, for its limit is far below that of the encoding. -/
theorem ChatMessage.Deliverable.framable {m : ChatMessage} (h : m.Deliverable) :
    (MessageLite.chatMessage m).Framable := by
  have hle := h.size_le
  simp only [maxReadBufferSizeBytes] at hle
  refine ⟨h.size_pos, ?_⟩
  simp only [Wire.maxLength]
  omega

/-- A deliverable message comes back from its payload, with its own prefix in the cache. -/
theorem ChatMessage.Deliverable.deserialize {m : ChatMessage} (h : m.Deliverable) {p : Protocol}
    (hcache : p.deserFramePrefixCache = framePrefixOf (.chatMessage m)) :
    p.deserialize (MessageLite.chatMessage m).encode = .ok (.chatMessage m) :=
  Protocol.deserialize_encode h.unknownFields_eq (m.text_length_le.trans h.framable.2) h.text_utf8
    hcache

/-- A stream of deliverable messages is cut into their frames. -/
theorem parseFrames_deliverable {ms : List ChatMessage} (h : ∀ m ∈ ms, m.Deliverable) :
    parseFrames maxReadBufferSizeBytes (ms.flatMap fun m => frame (.chatMessage m))
      = (ms.map frameOf, .systemError .eof) := by
  have hframes := parseFrames_serialized
    (fun m (hm : m ∈ ms) => ⟨(h m hm).framable, (h m hm).size_le⟩) []
  rw [List.append_nil, parseFrames_of_lt (by simp : ([] : Bytes).length < 10),
    List.append_nil] at hframes
  exact hframes

/-- After some frames of the stream, as many messages have been decoded, the same in the same
order. -/
theorem decodeEach_handles {ms : List ChatMessage} (hms : ∀ m ∈ ms, m.Deliverable) :
    FramedRead.Handles decodeEach (ms.map frameOf)
      (fun frames user => user = (ms.take frames.length).map .chatMessage) := by
  rintro frames frame user p ⟨rest, hrest⟩ huser hcache
  have hlen : frames.length < ms.length := by
    have := congrArg List.length hrest
    simp only [List.length_append, List.length_map, List.length_cons, List.length_nil] at this
    omega
  -- the frame that is handed out is the one of the next message
  have hframe : frame = frameOf ms[frames.length] := by
    have := congrArg (·[frames.length]?) hrest
    simpa [hlen] using this
  have hm := hms _ (List.getElem_mem hlen)
  subst hframe
  refine ⟨(ms.take (frames.length + 1)).map .chatMessage, ?_, by simp⟩
  simp only [decodeEach, frameOf, hm.deserialize hcache, huser]
  rw [List.take_add_one, List.map_append, List.getElem?_eq_getElem hlen]
  rfl

/-- Some run on a stream of deliverable messages reaches the end. It shows that the results about
all runs are about some. -/
theorem exists_run_deliverable {ms : List ChatMessage} (hms : ∀ m ∈ ms, m.Deliverable) :
    ∃ es s, Runs.run (FramedRead.step decodeEach) (FramedRead.start maxReadBufferSizeBytes
      (ms.flatMap fun m => frame (.chatMessage m)) []) es = some s ∧ s.stopped ≠ none := by
  have hon := decodeEach_handles hms
  rw [show ms.map frameOf = (parseFrames maxReadBufferSizeBytes
    (ms.flatMap fun m => frame (.chatMessage m))).1 by rw [parseFrames_deliverable hms]] at hon
  exact FramedRead.exists_run_stopped (by decide) hon rfl

/-- **Framed stream round trip.** Deliverable messages are serialized, and however the stream is
cut, the callback decodes them again, each once and in order: what has been decoded is always the
first part of what was serialized, and it is everything as soon as no byte is left to arrive and
no handler to run, which is after finitely many events. -/
theorem framedRead_roundTrip (p : Protocol) {ms : List ChatMessage}
    (hms : ∀ m ∈ ms, m.Deliverable) :
    ∃ stream, p.serializeAll ms = .ok stream ∧
      ∀ es s, Runs.run (FramedRead.step decodeEach)
          (FramedRead.start maxReadBufferSizeBytes stream []) es = some s →
        s.user <+: ms.map .chatMessage ∧
        (s.stopped = none ∨ s.stopped = some (.systemError .eof)) ∧
        (FramedRead.step decodeEach s .complete = none →
          FramedRead.step decodeEach s (.receive 1) = none → s.user = ms.map .chatMessage) ∧
        es.length ≤ 3 * stream.length + 1 := by
  refine ⟨_, p.serializeAll_eq fun m hm => (hms m hm).framable, ?_⟩
  intro es s hrun
  have hparse := parseFrames_deliverable hms
  have hon := decodeEach_handles hms
  have hframes : ms.map frameOf = (parseFrames maxReadBufferSizeBytes
      (ms.flatMap fun m => frame (.chatMessage m))).1 := by
    rw [hparse]
  rw [hframes] at hon
  obtain ⟨hinv, hlen⟩ := FramedRead.inv_of_run (by decide) hon rfl hrun
  -- the number of frames the parser finds is the number of messages
  have hall : ∀ user : List MessageLite,
      user = (ms.take (parseFrames maxReadBufferSizeBytes
        (ms.flatMap fun m => frame (.chatMessage m))).1.length).map .chatMessage →
      user = ms.map .chatMessage := by
    intro user huser
    rw [huser, hparse]
    simp
  refine ⟨?_, ?_, fun hcomplete hreceive => hall _ (hinv.finished hcomplete hreceive), hlen⟩
  · cases hinv with
    | reading _ _ _ huser =>
      rw [huser]
      exact (List.take_prefix _ _).map _
    | stopped _ huser =>
      exact (hall _ huser).symm ▸ List.prefix_rfl
  · cases hinv with
    | reading hstopped => exact Or.inl hstopped
    | stopped hstopped =>
      rw [hparse] at hstopped
      exact Or.inr hstopped

/-- Two messages; the prefix and the payload of the second one arrive in two pieces each. -/
theorem framedRead_roundTrip_two :
    let ms := [chatMessage 1 [104, 105] 4, chatMessage 300 [] (-1)]
    let events : List StreamEvent := [.receive 10, .complete, .receive 8, .complete,
      .receive 3, .receive 7, .complete, .receive 10, .receive 4, .complete]
    ∃ stream s, ({} : Protocol).serializeAll ms = .ok stream ∧
      Runs.run (FramedRead.step decodeEach)
        (FramedRead.start maxReadBufferSizeBytes stream []) events = some s ∧
      s.stopped = none ∧ s.user = ms.map .chatMessage := by
  intro ms events
  have hms : ∀ m ∈ ms, m.Deliverable := by
    rintro m hm
    rcases List.mem_pair.mp hm with rfl | rfl
    · exact ⟨rfl, by decide +kernel, by decide +kernel, by decide +kernel⟩
    · exact ⟨rfl, by decide +kernel, by decide +kernel, by decide +kernel⟩
  obtain ⟨stream, hser, hround⟩ := framedRead_roundTrip {} hms
  have hstream : stream = ms.flatMap fun m => frame (.chatMessage m) := by
    rw [Protocol.serializeAll_eq _ fun m hm => (hms m hm).framable] at hser
    exact (Except.ok.inj hser).symm
  -- the bytes arrive in pieces that do not respect the frames
  have hresult : (Runs.run (FramedRead.step decodeEach)
      (FramedRead.start maxReadBufferSizeBytes (ms.flatMap fun m => frame (.chatMessage m)) [])
      events).map (fun s => (s.stopped, s.step decodeEach .complete, s.step decodeEach (.receive 1)))
      = some (none, none, none) := by
    decide +kernel
  obtain ⟨s, hrun, hs⟩ := Option.map_eq_some_iff.mp hresult
  simp only [Prod.mk.injEq] at hs
  rw [← hstream] at hrun
  obtain ⟨-, -, hall, -⟩ := hround _ _ hrun
  exact ⟨stream, s, hser, hrun, hs.1, hall hs.2.1 hs.2.2⟩

end Acs
