import AsioClientServer.Server.AsyncTcpServer
import Mathlib.Data.List.Range

/-!
# The server as it is shipped

`EchoClientHandler` never closes its connection and nothing else in the program does, so the only
events are accepts, failed accepts and what happens to the connections. The list of connections
only grows then, and no handler ever meets a connection that has been destroyed.

`server_without_close` says what the list holds after any number of events, which of its
connections are served, and that the loop can end in one way only: with the exception of a handler.
-/

namespace Acs

namespace ServerRun

/-- The events of a program that does not close connections. Nothing in the server calls
`closeConnection`, so these are all events of the program as it stands. -/
def Event.WithoutClose : Event → Prop
  | .accepted | .acceptFailed _ | .connection _ _ => True
  | .close _ | .aborted _ => False

instance : DecidablePred Event.WithoutClose
  | .accepted | .acceptFailed _ | .connection _ _ => isTrue trivial
  | .close _ | .aborted _ => isFalse id

/-- The event is a completion of `async_accept`. -/
def Event.isAccept : Event → Bool
  | .accepted | .acceptFailed _ => true
  | .connection _ _ | .close _ | .aborted _ => false

/-- The runs of `handleAccept`, with an error or without. There is one connection for each of them,
and one that waits. -/
def accepts (es : List Event) : List Event :=
  es.filter Event.isAccept

/-- A connection that waits to be accepted: the `n`-th that has been created. It is as the
constructor leaves it, with the id the counter had. -/
def waiting (n : Nat) : TcpConnection :=
  { id := UInt64.ofNat n, handler := .echoClientHandler }

/-- The list holds the first `n` connections, in the order they were created and with ids that
count them. -/
structure Listed (n : Nat) (s : ServerRun) : Prop where
  addresses_eq : s.manager.addresses = List.range n
  ids_eq : s.manager.ids = (List.range n).map UInt64.ofNat
  nextAddress_eq : s.manager.nextAddress = n
  nextId_eq : s.manager.nextId = UInt64.ofNat n
  orphans_eq : s.orphans = []
  defined : s.loop ≠ .undefined

/-- After `n` accepts: nothing has been removed, and one connection waits as it was created. The
number of accepts determines the addresses, the ids and who waits. -/
structure Grown (n : Nat) (s : ServerRun) : Prop where
  listed : Listed (n + 1) s
  accepting_eq : s.accepting = n
  waits : s.manager.find n = some (waiting n)

variable {s s' : ServerRun} {n : Nat}

/-- A new connection is the next one in the list, under the next address and with the next id.
`newConnection` appends to the list, and nothing has been removed before. -/
theorem Listed.startAccept (h : Listed n s) (haddressed : s.manager.WellAddressed) :
    Grown n s.startAccept := by
  refine ⟨⟨?_, ?_, congrArg (· + 1) h.nextAddress_eq, ?_, h.orphans_eq, h.defined⟩,
    h.nextAddress_eq, ?_⟩
  · rw [startAccept_addresses, h.addresses_eq, List.range_succ]
    congr 2
    exact h.nextAddress_eq
  · have hids : s.startAccept.manager.ids = s.manager.ids ++ [s.manager.nextId] :=
      ConnectionManager.ids_newConnection _
    rw [hids, h.ids_eq, h.nextId_eq, List.range_succ, List.map_append]
    rfl
  · rw [UInt64.ofNat_add, ← h.nextId_eq]
    rfl
  · have hfind := haddressed.find_newConnection .echoClientHandler
    rw [h.nextAddress_eq, h.nextId_eq] at hfind
    exact hfind

/-- What happens to a connection leaves the list as it is: the same connections, in the same
order. -/
theorem Listed.update (h : Listed n s) (haddressed : s.manager.WellAddressed) {address : Nat}
    {c c' : TcpConnection} (hfind : s.manager.find address = some c') (hid : c.id = c'.id)
    (live : List Nat) {loop : Loop} (hloop : loop ≠ .undefined) :
    Listed n { s with manager := s.manager.update address c, live, loop } where
  addresses_eq := ConnectionManager.addresses_update.trans h.addresses_eq
  ids_eq := (ConnectionManager.ids_update haddressed hfind hid).trans h.ids_eq
  nextAddress_eq := h.nextAddress_eq
  nextId_eq := h.nextId_eq
  orphans_eq := h.orphans_eq
  defined := hloop

theorem grown_start : Grown 0 start := by
  refine Listed.startAccept ⟨rfl, rfl, rfl, rfl, rfl, nofun⟩ ⟨?_, ?_⟩
  · exact List.nodup_nil
  · exact nofun

/-- **An accept** starts the connection that waited. It is in the list, so the handler finds it. The
handler of the accept holds a reference to the element, which is still there. -/
theorem Grown.accepted (h : Grown n s) (hinv : Inv s) :
    ∃ c, (waiting n).start = (none, c) ∧ c.Receiving [] [] ∧
      s.handleAccept none = startAccept { s with
        manager := s.manager.update n c
        live := s.live ++ [n] } ∧
      Listed (n + 1) { s with
        manager := s.manager.update n c
        live := s.live ++ [n] } := by
  obtain ⟨c, hstart, hreceiving, -⟩ := TcpConnection.start_eq (c := waiting n) rfl rfl
  have hid : c.id = (waiting n).id := by
    have hstarted := TcpConnection.start_id (waiting n)
    rwa [hstart] at hstarted
  refine ⟨c, hstart, hreceiving, ?_, ?_⟩
  · simp only [handleAccept, h.accepting_eq, h.waits, hstart]
  · exact h.listed.update hinv.addressed h.waits hid (s.live ++ [n]) h.listed.defined

/-- **An event of a connection** leaves the list as it is, also when it ends the loop. A handler
that closes its connection would not, and the echo handler is not one. -/
theorem Grown.connection (h : Grown n s) (hinv : Inv s) {address : Nat}
    {event : TcpConnection.Event} (hstep : s.step (.connection address event) = some s') :
    Grown n s' := by
  cases step_cases hstep with
  | @connection _ _ c res hfind hres =>
    obtain ⟨hacc, hhandler, frames, read, hreceiving⟩ := hinv.receiving_of_onEvent hfind hres
    obtain ⟨hcloses, -, -⟩ := onEvent_of_receiving hhandler hreceiving hres
    have hid := (TcpConnection.onEvent_identity hres).1
    have hne : n ≠ address := fun heq => hacc (heq.symm.trans h.accepting_eq.symm)
    have hwaits := (ConnectionManager.find_update_of_ne hne res.connection).trans h.waits
    cases hfailure : res.failure with
    | some f =>
      simp only [afterEvent, hfailure]
      exact ⟨h.listed.update hinv.addressed hfind hid _ (by simp), h.accepting_eq, hwaits⟩
    | none =>
      simp only [afterEvent, hfailure, hcloses, Bool.false_eq_true, if_false]
      exact ⟨h.listed.update hinv.addressed hfind hid _ h.listed.defined, h.accepting_eq, hwaits⟩

/-! ## Who is served -/

/-- A connection that waits to be accepted does not receive. -/
theorem not_receiving_waiting {frames : List Frame} {read : Bytes} :
    ¬ (waiting n).Receiving frames read := by
  intro h
  obtain ⟨op, handler, hout⟩ := FramedPhase.outstanding h
  cases hout

/-- While the loop is running, the connections whose accept has succeeded receive, and no other. A
failed accept leaves an element behind that never does. -/
def Served (es : List Event) (s : ServerRun) : Prop :=
  s.loop = .running → ∀ address c, s.manager.find address = some c →
    ((∃ frames read, c.Receiving frames read) ↔ (accepts es)[address]? = some .accepted)

/-- What the events so far say about the server: what is in its list, and which of its connections
receive. -/
structure History (es : List Event) (s : ServerRun) : Prop where
  inv : s.loop = .running → Inv s
  grown : Grown (accepts es).length s
  served : Served es s

/-- The accepts of a run, one event later. -/
theorem accepts_append (es : List Event) (event : Event) :
    accepts (es ++ [event]) = accepts es ++ accepts [event] :=
  List.filter_append ..

theorem history_start : History [] start := by
  refine ⟨fun _ => inv_start, grown_start, fun _ address c hfind => ?_⟩
  -- the only connection waits
  have hmem : address ∈ start.manager.addresses :=
    List.mem_map_of_mem (ConnectionManager.mem_of_find hfind)
  rw [grown_start.listed.addresses_eq, List.mem_range] at hmem
  obtain rfl : address = 0 := by omega
  obtain rfl := Option.some.inj (grown_start.waits.symm.trans hfind)
  exact iff_of_false (fun ⟨_, _, h⟩ => not_receiving_waiting h) (by simp [accepts])

/-- After an accept, one more connection is in the list: the one it was about, which receives if
the accept has succeeded. -/
theorem History.served_accept {es : List Event} {event : Event} {s₁ : ServerRun}
    {c : TcpConnection} (h : History es s) (hloop : s.loop = .running)
    (hevent : accepts [event] = [event]) (haddressed : s₁.manager.WellAddressed)
    (hlisted : Listed ((accepts es).length + 1) s₁)
    (hothers : ∀ address, address ≠ (accepts es).length →
      s₁.manager.find address = s.manager.find address)
    (hfind : s₁.manager.find (accepts es).length = some c)
    (hc : (∃ frames read, c.Receiving frames read) ↔ event = .accepted) :
    Served (es ++ [event]) s₁.startAccept := by
  intro _ address c' hfind'
  have hgrown := hlisted.startAccept haddressed
  have hmem : address ∈ s₁.startAccept.manager.addresses :=
    List.mem_map_of_mem (ConnectionManager.mem_of_find hfind')
  rw [hgrown.listed.addresses_eq, List.mem_range] at hmem
  rw [accepts_append, hevent]
  by_cases hnew : address = (accepts es).length + 1
  · -- the new connection
    subst hnew
    obtain rfl := Option.some.inj (hgrown.waits.symm.trans hfind')
    refine iff_of_false (fun ⟨_, _, hreceiving⟩ => not_receiving_waiting hreceiving) ?_
    simp
  · have hkept : s₁.manager.find address = some c' := by
      rw [← hfind']
      refine (ConnectionManager.find_newConnection_of_ne ?_ _).symm
      rw [hlisted.nextAddress_eq]
      exact hnew
    by_cases haddress : address = (accepts es).length
    · -- the connection the accept is about
      subst haddress
      obtain rfl := Option.some.inj (hfind.symm.trans hkept)
      rw [hc, List.getElem?_append_right (Nat.le_refl _), Nat.sub_self]
      simp
    · rw [List.getElem?_append_left (by omega)]
      exact h.served hloop address c' ((hothers address haddress).symm.trans hkept)

/-- **Every event goes on with the history.** An accept adds an element, and an event of a
connection changes one in its place. -/
theorem History.step {es : List Event} {event : Event} (h : History es s)
    (hevent : event.WithoutClose) (hstep : s.step event = some s') :
    History (es ++ [event]) s' := by
  have hloop := running_of_step hstep
  have hinv := h.inv hloop
  have hinv' := inv_step h.inv hstep
  cases step_cases hstep with
  | accepted =>
    obtain ⟨c, -, hreceiving, heq, hlisted⟩ := h.grown.accepted hinv
    have haddressed := hinv.addressed.update (accepts es).length c
    rw [heq]
    refine ⟨heq ▸ hinv', ?_, ?_⟩
    · rw [accepts_append, List.length_append]
      exact hlisted.startAccept haddressed
    · exact h.served_accept hloop rfl haddressed hlisted
        (fun address hne => ConnectionManager.find_update_of_ne hne c)
        (ConnectionManager.find_update h.grown.waits c) (iff_of_true ⟨_, _, hreceiving⟩ rfl)
  -- the connection of the failed accept stays in the list, and never receives
  | @acceptFailed e =>
    refine ⟨hinv', ?_, ?_⟩
    · rw [accepts_append, List.length_append]
      exact h.grown.listed.startAccept hinv.addressed
    · exact h.served_accept hloop rfl hinv.addressed h.grown.listed (fun _ _ => rfl) h.grown.waits
        (iff_of_false (fun ⟨_, _, hreceiving⟩ => not_receiving_waiting hreceiving) (by simp))
  -- no accept: the list is as long as before, and one of its connections has changed
  | @connection address event c res hfind hres =>
    have haccepts : accepts (es ++ [.connection address event]) = accepts es :=
      (accepts_append es _).trans (List.append_nil _)
    refine ⟨hinv', ?_, ?_⟩
    · rw [haccepts]
      exact h.grown.connection hinv hstep
    · obtain ⟨c₀, res₀, hfind₀, hres₀, -, ⟨-, f, hexit⟩ | ⟨-, hnone, -, heq⟩⟩ :=
        afterEvent_cases hinv hstep
      · intro hrunning
        rw [hexit] at hrunning
        cases hrunning
      · obtain ⟨-, -, frames, read, hreceiving⟩ := hinv.receiving_of_onEvent hfind₀ hres₀
        rw [heq, Served, haccepts]
        intro _ other c' hfind'
        by_cases hother : other = address
        · -- the connection received before and goes on
          subst hother
          obtain rfl := Option.some.inj ((ConnectionManager.find_update hfind₀ _).symm.trans hfind')
          exact iff_of_true (hreceiving.onEvent hres₀ hnone)
            ((h.served hloop other c₀ hfind₀).mp ⟨frames, read, hreceiving⟩)
        · exact h.served hloop other c'
            ((ConnectionManager.find_update_of_ne hother _).symm.trans hfind')
  | close => exact absurd hevent id
  | aborted => exact absurd hevent id

/-- **An event leaves the other connections alone**, also when it ends the loop. The references the
handlers hold therefore stay good, and so does what they refer to. -/
theorem History.find_of_step {es : List Event} {event : Event} (h : History es s)
    (hevent : event.WithoutClose) (hstep : s.step event = some s') {address : Nat}
    (haddress : address < s.accepting) (hother : ∀ ev, event ≠ .connection address ev) :
    s'.manager.find address = s.manager.find address := by
  have hinv := h.inv (running_of_step hstep)
  rw [h.grown.accepting_eq] at haddress
  cases step_cases hstep with
  | accepted =>
    obtain ⟨c, -, -, heq, hlisted⟩ := h.grown.accepted hinv
    rw [heq]
    refine (ConnectionManager.find_newConnection_of_ne ?_ _).trans
      (ConnectionManager.find_update_of_ne (Nat.ne_of_lt haddress) c)
    rw [hlisted.nextAddress_eq]
    omega
  | acceptFailed =>
    refine ConnectionManager.find_newConnection_of_ne ?_ _
    rw [h.grown.listed.nextAddress_eq]
    omega
  -- without a close the list only changes at the address of the event
  | @connection other ev c res hfind hres =>
    obtain ⟨-, hhandler, frames, read, hreceiving⟩ := hinv.receiving_of_onEvent hfind hres
    obtain ⟨hcloses, -, -⟩ := onEvent_of_receiving hhandler hreceiving hres
    have hne : address ≠ other := fun heq => hother ev (by rw [heq])
    have hmanager : (s.afterEvent other ev res).manager = s.manager.update other res.connection := by
      simp only [afterEvent, hcloses, Bool.false_eq_true, if_false]
      cases res.failure <;> rfl
    rw [hmanager, ConnectionManager.find_update_of_ne hne]
  | close => exact absurd hevent id
  | aborted => exact absurd hevent id

/-- The connection that waits is never an earlier one than before. -/
theorem History.accepting_le {es : List Event} {event : Event} (h : History es s)
    (hevent : event.WithoutClose) (hstep : s.step event = some s') :
    s.accepting ≤ s'.accepting := by
  rw [h.grown.accepting_eq, (h.step hevent hstep).grown.accepting_eq, accepts_append,
    List.length_append]
  exact Nat.le_add_right _ _

/-- What the events say holds after every run. Induction on the run. -/
theorem history_of_run {es : List Event} (hevents : ∀ event ∈ es, event.WithoutClose)
    (hrun : Runs.run step start es = some s) : History es s := by
  have hmeet : Runs.StepsMeet step (fun _ event => event.WithoutClose) start es :=
    Runs.stepsMeet_of_forall hevents
  exact Runs.run_history (P := History) (fun _ _ _ _ h hevent hs => h.step hevent hs)
    history_start hmeet hrun

end ServerRun

/-- **The list of a server that closes nothing.** In every run of accepts, failed accepts and events
of connections: the list holds every connection that has been created, in order, with ids that count
them, the last one waits to be accepted, and no handler is left that refers to a connection that is
gone. As long as the loop is running, exactly the connections whose accept has succeeded receive,
whatever has happened to the others. -/
theorem server_without_close {es : List ServerRun.Event} {s : ServerRun}
    (hevents : ∀ event ∈ es, event.WithoutClose)
    (hrun : Runs.run ServerRun.step ServerRun.start es = some s) :
    let accepts := ServerRun.accepts es
    s.loop ≠ .undefined ∧ s.orphans = [] ∧ s.accepting = accepts.length ∧
      s.manager.addresses = List.range (accepts.length + 1) ∧
      s.manager.ids = (List.range (accepts.length + 1)).map UInt64.ofNat ∧
      (s.loop = .running → ∀ address c, s.manager.find address = some c →
        ((∃ frames read, c.Receiving frames read) ↔ accepts[address]? = some .accepted)) := by
  have h := ServerRun.history_of_run hevents hrun
  have hlisted := h.grown.listed
  exact ⟨hlisted.defined, hlisted.orphans_eq, h.grown.accepting_eq, hlisted.addresses_eq,
    hlisted.ids_eq, h.served⟩

/-- A client is accepted, an accept fails, another client is accepted, and a write to the first
one fails. -/
theorem server_without_close_run :
    let events : List ServerRun.Event := [.accepted, .acceptFailed (.other 24), .accepted,
      .connection 0 (.writeError 0 (.other 104))]
    ∃ s, Runs.run ServerRun.step ServerRun.start events = some s ∧
      s.manager.addresses = [0, 1, 2, 3] ∧
      (∃ c, s.manager.find 0 = some c ∧ ∃ frames read, c.Receiving frames read) ∧
      ∃ c, s.manager.find 1 = some c ∧ ¬ ∃ frames read, c.Receiving frames read := by
  intro events
  have hresult : (Runs.run ServerRun.step ServerRun.start events).map
      (fun s => (s.loop, (s.manager.find 0).isSome, (s.manager.find 1).isSome))
      = some (.running, true, true) := by
    decide +kernel
  obtain ⟨s, hrun, hs⟩ := Option.map_eq_some_iff.mp hresult
  simp only [Prod.mk.injEq] at hs
  obtain ⟨hloop, hzero, hone⟩ := hs
  have hevents : ∀ event ∈ events, event.WithoutClose := by
    decide
  obtain ⟨-, -, -, haddresses, -, hserved⟩ := server_without_close hevents hrun
  obtain ⟨c, hfind⟩ := Option.isSome_iff_exists.mp hzero
  obtain ⟨c', hfind'⟩ := Option.isSome_iff_exists.mp hone
  refine ⟨s, hrun, haddresses, ⟨c, hfind, (hserved hloop 0 c hfind).mpr (by decide)⟩, c', hfind', ?_⟩
  rw [hserved hloop 1 c' hfind']
  decide

end Acs
