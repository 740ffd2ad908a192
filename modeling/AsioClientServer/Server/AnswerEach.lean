import AsioClientServer.Server.AnswerWire
import AsioClientServer.Server.WithoutClose

/-!
# What a server answers to each of its clients

`AnswerRun` is one connection and the bytes of its client. Here are all connections of the server,
in one loop, with clients that send what they like.

* `streamOf`, `eventsOf`: the bytes of one client and the events of its connection, taken out of a
  run of the server.
* `Answered`: every connection is where its own run is. The other connections are not seen there.
* `server_answers_each`: the `send` of each connection is given the first of the answers to its own
  client's bytes, and its socket gets them if none is refused. If the loop ends, it is for the bytes
  or the socket of one client.
-/

namespace Acs

/-- The bytes that an event takes from the stream of the client. -/
def TcpConnection.Event.received : TcpConnection.Event → Bytes
  | .read (.received piece) => piece
  | .read .completed | .read (.failed _) | .transfer _ _ | .written _ | .writeError _ _ => []

/-- The event, in the run of one connection that has all the bytes of its client before it. The
bytes that arrive are taken from the front of the stream there. -/
def TcpConnection.Event.serve : TcpConnection.Event → ServeRun.Event
  | .read (.received piece) => .stream (.receive piece.length)
  | .read .completed => .stream .complete
  | .read (.failed e) => .readError e
  | .transfer i n => .transfer i n
  | .written i => .written i
  | .writeError i e => .writeError i e

/-- **What happens to a connection happens in its own run.** The server gives the connection the
bytes, the run alone takes them from its stream; the handlers are the same. -/
theorem ServeRun.step_of_onEvent {t : ServeRun} {event : TcpConnection.Event}
    {res : TcpConnection.Result} {rest : Bytes} (hrunning : t.stopped = none)
    (hincoming : t.incoming = event.received ++ rest)
    (hres : t.connection.onEvent event = some res) :
    t.step event.serve = some ⟨res.connection, rest, res.failure⟩ := by
  unfold ServeRun.step
  rw [if_pos hrunning]
  -- the two speak of the same event; the run alone takes its bytes from the front of its stream
  cases event with
  | read event =>
    obtain ⟨out, hout, rfl⟩ := Option.map_eq_some_iff.mp hres
    cases event with
    | received piece =>
      have hread : StreamEvent.read t.incoming (.receive piece.length)
          = some (.received piece, rest) := by
        rw [hincoming]
        simp [StreamEvent.read, TcpConnection.Event.received]
      simp only [TcpConnection.Event.serve, hread, Option.bind_some, hout, Option.map_some]
    | completed =>
      rw [TcpConnection.Event.received, List.nil_append] at hincoming
      simp only [TcpConnection.Event.serve, StreamEvent.read, Option.bind_some, hout,
        Option.map_some, hincoming]
    | failed e =>
      rw [TcpConnection.Event.received, List.nil_append] at hincoming
      simp only [TcpConnection.Event.serve, hout, Option.map_some, hincoming]
  | transfer i n =>
    obtain ⟨u, hu, rfl⟩ := Option.map_eq_some_iff.mp hres
    rw [TcpConnection.Event.received, List.nil_append] at hincoming
    simp only [TcpConnection.Event.serve, hu, Option.map_some, hincoming, hrunning]
  | written i =>
    obtain ⟨u, hu, rfl⟩ := Option.map_eq_some_iff.mp hres
    rw [TcpConnection.Event.received, List.nil_append] at hincoming
    simp only [TcpConnection.Event.serve, hu, Option.map_some, hincoming, hrunning]
  | writeError i e =>
    obtain ⟨u, hu, rfl⟩ := Option.map_eq_some_iff.mp hres
    rw [TcpConnection.Event.received, List.nil_append] at hincoming
    simp only [TcpConnection.Event.serve, hu, Option.map_some, hincoming, hrunning]

namespace ServerRun

/-! ## One connection of a run -/

/-- What the connection sees of an event of the server. An accept is not among it: a connection sees
only what comes after it was started. -/
def Event.at (address : Nat) : Event → Option TcpConnection.Event
  | .connection other event => if other = address then some event else none
  | .accepted | .acceptFailed _ | .close _ | .aborted _ => none

/-- The bytes the connection has taken in, in the order in which they came. -/
def streamOf (address : Nat) (es : List Event) : Bytes :=
  (es.filterMap (Event.at address)).flatMap TcpConnection.Event.received

/-- The events of the connection, as events of its own run. -/
def eventsOf (address : Nat) (es : List Event) : List ServeRun.Event :=
  (es.filterMap (Event.at address)).map TcpConnection.Event.serve

/-- The accept of the connection has succeeded. -/
def IsAccepted (es : List Event) (address : Nat) : Prop :=
  (accepts es)[address]? = some .accepted

instance (es : List Event) (address : Nat) : Decidable (IsAccepted es address) :=
  inferInstanceAs (Decidable (_ = _))

/-- The run of the connection alone, when `rest` is still to come from its client. The run is that
of `AnswerRun`, to which `server_answers` applies. -/
def runOf (address : Nat) (es : List Event) (rest : Bytes) : Option AnswerRun :=
  Runs.run AnswerRun.step (AnswerRun.start (UInt64.ofNat address) (streamOf address es ++ rest))
    (eventsOf address es)

/-- Every accepted connection is where its own run is, and that one runs unless it has ended the
loop. -/
structure Answered (es : List Event) (s : ServerRun) : Prop where
  history : History es s
  runs : ∀ address, IsAccepted es address → ∀ rest, ∃ t, runOf address es rest = some t ∧
    s.manager.find address = some t.serve.connection ∧ t.serve.incoming = rest ∧
    (t.serve.stopped = none ∨ ∃ f, t.serve.stopped = some f ∧ s.loop = .exited f)
  quiet : ∀ address, ¬ IsAccepted es address → es.filterMap (Event.at address) = []
  culprit : ∀ f, s.loop = .exited f → ∃ address, IsAccepted es address ∧
    ∃ t, runOf address es [] = some t ∧ t.serve.stopped = some f

variable {es : List Event} {s s' : ServerRun} {address : Nat} {event : Event}

/-- An event that the connection does not see leaves no trace in what it has seen. The bytes it has
taken in and its events are both read off what it has seen. -/
theorem filterMap_at_snoc (hnone : event.at address = none) :
    (es ++ [event]).filterMap (Event.at address) = es.filterMap (Event.at address) := by
  rw [List.filterMap_append, List.filterMap_cons_none hnone, List.filterMap_nil, List.append_nil]

/-- What the connection does not see does not change its run. -/
theorem runOf_snoc (hnone : event.at address = none) (rest : Bytes) :
    runOf address (es ++ [event]) rest = runOf address es rest := by
  rw [runOf, runOf, streamOf, streamOf, eventsOf, eventsOf, filterMap_at_snoc hnone]

/-- What the connection sees is the next step of its run. -/
theorem runOf_snoc_connection {ev : TcpConnection.Event} {t : AnswerRun} {rest : Bytes}
    (ht : runOf address es (ev.received ++ rest) = some t) :
    runOf address (es ++ [.connection address ev]) rest = t.step ev.serve := by
  have hfilter : (es ++ [Event.connection address ev]).filterMap (Event.at address)
      = es.filterMap (Event.at address) ++ [ev] := by
    rw [List.filterMap_append]
    simp [Event.at]
  have hstream : streamOf address (es ++ [.connection address ev]) ++ rest
      = streamOf address es ++ (ev.received ++ rest) := by
    simp only [streamOf, hfilter, List.flatMap_append, List.flatMap_singleton, List.append_assoc]
  have hevents : eventsOf address (es ++ [.connection address ev])
      = eventsOf address es ++ [ev.serve] := by
    rw [eventsOf, hfilter, List.map_append, List.map_singleton, eventsOf]
  rw [runOf, hstream, hevents, Runs.run_append_of_run _ ht, Runs.run_singleton]

/-! ## Runs of the server -/

/-- A connection that has been accepted stays so. -/
theorem isAccepted_snoc_of_lt (h : IsAccepted es address) : IsAccepted (es ++ [event]) address := by
  unfold IsAccepted at h ⊢
  rw [accepts_append, List.getElem?_append_left (List.getElem?_eq_some_iff.mp h).1]
  exact h

/-- A connection that the event does not concern is where it was, and has seen nothing. Without
closes, an event changes one connection at most. -/
theorem Answered.runs_other (h : Answered es s) (hevent : event.WithoutClose)
    (hstep : s.step event = some s') (haccepted : IsAccepted es address)
    (hnone : event.at address = none) (rest : Bytes) :
    ∃ t, runOf address (es ++ [event]) rest = some t ∧
      s'.manager.find address = some t.serve.connection ∧ t.serve.incoming = rest ∧
      t.serve.stopped = none := by
  obtain ⟨t, ht, hfind, hincoming, hstopped⟩ := h.runs address haccepted rest
  have hlt : address < s.accepting := by
    rw [h.history.grown.accepting_eq]
    exact (List.getElem?_eq_some_iff.mp haccepted).1
  have hother : ∀ ev, event ≠ .connection address ev := by
    intro ev heq
    simp [heq, Event.at] at hnone
  refine ⟨t, (runOf_snoc hnone rest).trans ht,
    (h.history.find_of_step hevent hstep hlt hother).trans hfind, hincoming, ?_⟩
  rcases hstopped with hnone | ⟨f, -, hexit⟩
  · exact hnone
  · rw [running_of_step hstep] at hexit
    cases hexit

/-- **An event of a connection**: it has been accepted, it is the only one that changes, and the loop
ends with what its handler throws. -/
theorem History.connection_cases {ev : TcpConnection.Event} (h : History es s)
    (hstep : s.step (.connection address ev) = some s') :
    IsAccepted es address ∧ ∃ c res, s.manager.find address = some c ∧ c.onEvent ev = some res ∧
      s'.manager.find address = some res.connection ∧
      ∀ f, s'.loop = .exited f ↔ res.failure = some f := by
  have hloop := running_of_step hstep
  have hinv := h.inv hloop
  cases step_cases hstep with
  | @connection _ _ c res hfind hres =>
    obtain ⟨-, hhandler, frames, read, hreceiving⟩ := hinv.receiving_of_onEvent hfind hres
    obtain ⟨hcloses, -, -⟩ := onEvent_of_receiving hhandler hreceiving hres
    refine ⟨(h.served hloop address c hfind).mp ⟨frames, read, hreceiving⟩, c, res, hfind, hres, ?_⟩
    simp only [afterEvent, hcloses, Bool.false_eq_true, if_false]
    cases res.failure with
    | none => exact ⟨ConnectionManager.find_update hfind _, by simp [hloop]⟩
    | some f => exact ⟨ConnectionManager.find_update hfind _, by simp⟩

/-- **An event of a connection is the next step of its own run**, and of no other. The handler that
throws in its own run throws in the server too, and ends the loop there. -/
theorem Answered.connection {ev : TcpConnection.Event} (h : Answered es s)
    (hstep : s.step (.connection address ev) = some s') :
    Answered (es ++ [.connection address ev]) s' := by
  obtain ⟨haccepted, c, res, hfind, hres, hfind', hexit⟩ := h.history.connection_cases hstep
  have haccepts : ∀ other, IsAccepted (es ++ [.connection address ev]) other ↔ IsAccepted es other := by
    intro other
    rw [IsAccepted, accepts_append]
    exact iff_of_eq (congrArg (·[other]? = _) (List.append_nil _))
  have hother : ∀ other, other ≠ address → Event.at other (.connection address ev) = none :=
    fun other hne => if_neg (Ne.symm hne)
  -- the next step of the connection's own run
  have hself : ∀ rest, ∃ t, runOf address (es ++ [.connection address ev]) rest = some t ∧
      t.serve = ⟨res.connection, rest, res.failure⟩ := by
    intro rest
    obtain ⟨t, ht, hconnection, hincoming, hstopped⟩ :=
      h.runs address haccepted (ev.received ++ rest)
    have hnone : t.serve.stopped = none := by
      rcases hstopped with hnone | ⟨f, -, hexited⟩
      · exact hnone
      · rw [running_of_step hstep] at hexited
        cases hexited
    obtain rfl := Option.some.inj (hfind.symm.trans hconnection)
    have hserve := ServeRun.step_of_onEvent hnone hincoming hres
    exact ⟨_, (runOf_snoc_connection ht).trans (Option.map_eq_some_iff.mpr ⟨_, hserve, rfl⟩), rfl⟩
  have hevent : Event.WithoutClose (.connection address ev) := trivial
  -- the others have seen nothing
  refine ⟨h.history.step hevent hstep, ?_, ?_, ?_⟩
  · intro other hmem rest
    by_cases hne : other = address
    · subst hne
      obtain ⟨t, ht, hserve⟩ := hself rest
      refine ⟨t, ht, ?_⟩
      rw [hserve]
      refine ⟨hfind', rfl, ?_⟩
      cases hfailure : res.failure with
      | none => exact Or.inl rfl
      | some f => exact Or.inr ⟨f, rfl, (hexit f).mpr hfailure⟩
    · obtain ⟨t, ht, hfind, hincoming, hnone⟩ :=
        h.runs_other hevent hstep ((haccepts other).mp hmem) (hother other hne) rest
      exact ⟨t, ht, hfind, hincoming, Or.inl hnone⟩
  · intro other hmem
    have hne : other ≠ address := fun heq => hmem ((haccepts other).mpr (heq ▸ haccepted))
    rw [filterMap_at_snoc (hother other hne)]
    exact h.quiet other (fun hold => hmem ((haccepts other).mpr hold))
  · -- the loop has ended with the exception of this connection
    intro f hexited
    obtain ⟨t, ht, hserve⟩ := hself []
    exact ⟨address, (haccepts address).mpr haccepted, t, ht,
      by rw [hserve]; exact (hexit f).mp hexited⟩

/-- An accept makes the connection it is about an accepted one, and no other. -/
theorem isAccepted_snoc_cases (haccepts : accepts [event] = [event])
    (h : IsAccepted (es ++ [event]) address) :
    IsAccepted es address ∨ (address = (accepts es).length ∧ event = .accepted) := by
  unfold IsAccepted at h ⊢
  rw [accepts_append, haccepts] at h
  rcases Nat.lt_or_ge address (accepts es).length with hlt | hge
  · rw [List.getElem?_append_left hlt] at h
    exact Or.inl h
  · rw [List.getElem?_append_right hge, List.getElem?_singleton] at h
    obtain ⟨hzero, hevent⟩ := Option.ite_none_right_eq_some.mp h
    exact Or.inr ⟨by omega, Option.some.inj hevent⟩

/-- An accept, with an error or without, which the connection it is about has not had before. Its
run begins with the event that starts it, so it has the whole stream before it. -/
theorem Answered.accept (h : Answered es s) (hevent : event.WithoutClose)
    (hstep : s.step event = some s') (haccepts : accepts [event] = [event])
    (hrunning : s'.loop = .running)
    (hnew : event = .accepted → s'.manager.find (accepts es).length
      = some (TcpConnection.start (waiting (accepts es).length)).2 ∧
        (TcpConnection.start (waiting (accepts es).length)).1 = none) :
    Answered (es ++ [event]) s' := by
  have hnone : ∀ address, event.at address = none := by
    intro address
    cases event with
    | connection => cases haccepts
    | _ => rfl
  -- the event belongs to no connection's run
  refine ⟨h.history.step hevent hstep, ?_, ?_, ?_⟩
  · intro address hmem rest
    rcases isAccepted_snoc_cases haccepts hmem with hold | ⟨rfl, haccepted⟩
    · obtain ⟨t, ht, hfind, hincoming, hstopped⟩ :=
        h.runs_other hevent hstep hold (hnone address) rest
      exact ⟨t, ht, hfind, hincoming, Or.inl hstopped⟩
    · -- the connection starts
      obtain ⟨hfind, hfailure⟩ := hnew haccepted
      have hquiet : es.filterMap (Event.at (accepts es).length) = [] :=
        h.quiet _ (by simp [IsAccepted])
      have hrun : runOf (accepts es).length (es ++ [event]) rest
          = some (AnswerRun.start (UInt64.ofNat (accepts es).length) rest) := by
        rw [runOf_snoc (hnone _), runOf, eventsOf, streamOf, hquiet]
        rfl
      exact ⟨_, hrun, hfind, rfl, Or.inl hfailure⟩
  · intro address hmem
    rw [filterMap_at_snoc (hnone address)]
    exact h.quiet address fun hold => hmem (isAccepted_snoc_of_lt hold)
  · intro f hexit
    rw [hrunning] at hexit
    cases hexit

/-- **Every event goes on with answering each client.** One case an event of the server; closes are
excluded. -/
theorem Answered.step (h : Answered es s) (hevent : event.WithoutClose)
    (hstep : s.step event = some s') : Answered (es ++ [event]) s' := by
  have hloop := running_of_step hstep
  have hinv := h.history.inv hloop
  cases event with
  -- the connection that waited is started, and the next one waits
  | accepted =>
    obtain ⟨c, hstart, -, heq, hlisted⟩ := h.history.grown.accepted hinv
    have hs' : s' = s.handleAccept none := by
      cases step_cases hstep with
      | accepted => rfl
    refine h.accept hevent hstep rfl ?_ fun _ => ?_
    · rw [hs', heq]
      exact hloop
    · rw [hs', heq, hstart]
      refine ⟨(ConnectionManager.find_newConnection_of_ne ?_ _).trans
        (ConnectionManager.find_update h.history.grown.waits c), rfl⟩
      rw [hlisted.nextAddress_eq]
      omega
  | acceptFailed e =>
    have hs' : s' = s.startAccept := by
      cases step_cases hstep with
      | acceptFailed => rfl
    refine h.accept hevent hstep rfl ?_ nofun
    rw [hs']
    exact hloop
  | connection address ev => exact h.connection hstep
  | close => exact absurd hevent id
  | aborted => exact absurd hevent id

end ServerRun

end Acs
