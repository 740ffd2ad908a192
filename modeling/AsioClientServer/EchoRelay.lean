import AsioClientServer.EchoDelivery
import AsioClientServer.Lib.Relay

/-!
# What the echo service is

The two ends, their buffers and the bytes between them serve one purpose, and a user who does not
look at the bytes sees a `Relay`: commands wait to be handled, replies wait to be displayed, and
either end may leave out what it is asked to send.

* `EchoSystem.relay`: the messages behind a state of the system.
* `amounts_step`: an event in scope amounts to one event of the relay, or to none.
* `echo_refines_relay`: a run of the system is a run of the relay, and obeys its law.
-/

namespace Acs

namespace EchoSystem

/-- The commands the server has not handled yet, the replies the client has not displayed yet, and
what it has displayed. The bytes and the buffers are forgotten, and so is which of them a message is
in. -/
def relay (s : EchoSystem) : Relay (UInt32 × Bytes) where
  requests := s.entered.sent.drop s.handled.length
  replies := ((welcome.id, welcome.text) :: s.handled.sent).drop s.received.length
  shown := s.received

/-- The step from `s` to `s'` is the event of the relay, or nothing that the relay knows of: bytes
that move, a read that is scheduled, a write that ends. -/
structure Amounts (s s' : EchoSystem) (event : Option (Relay.Event (UInt32 × Bytes))) : Prop where
  run : Runs.run Relay.step s.relay event.toList = some s'.relay
  entered_eq : s'.entered = s.entered ++ (event.bind Relay.Event.asked).toList
  handled_eq : s'.handled.map Prod.snd
    = s.handled.map Prod.snd ++ (event.bind Relay.Event.taken).toList

variable {s s' : EchoSystem}

theorem relay_start : start.relay = { replies := [(welcome.id, welcome.text)] } := rfl

/-- An event that touches none of the three lists is not one of the relay. -/
theorem amounts_none (hentered : s'.entered = s.entered) (hhandled : s'.handled = s.handled)
    (hreceived : s'.received = s.received) : Amounts s s' none := by
  refine ⟨?_, ?_, ?_⟩
  · rw [relay, relay, hentered, hhandled, hreceived]
    rfl
  · rw [hentered, Option.bind_none, Option.toList_none, List.append_nil]
  · rw [hhandled, Option.bind_none, Option.toList_none, List.append_nil]

theorem drop_of_getElem? {α : Type*} {l : List α} {n : Nat} {a : α} (h : l[n]? = some a) :
    l.drop n = a :: l.drop (n + 1) := by
  obtain ⟨hlt, rfl⟩ := List.getElem?_eq_some_iff.mp h
  exact List.drop_eq_getElem_cons hlt

/-- **A command is sent, or left out.** -/
theorem Inv.amounts_enter (h : Inv s) (text : Bytes) :
    ∃ event, Amounts s (s.enter text) (some event) := by
  have hle : s.handled.length ≤ s.entered.sent.length := by
    simpa using h.handled_prefix.length_le
  by_cases hidle : s.client.writer.outstanding = []
  · refine ⟨.send (s.echoCommandId.toUInt32, text), ?_, ?_, ?_⟩
    · rw [Option.toList_some, Runs.run_singleton, Relay.step]
      simp only [relay, EchoSystem.enter, hidle, decide_true, SendLog.sent_append_sent,
        List.drop_append_of_le_length hle]
    · simp only [EchoSystem.enter, hidle, decide_true]
      rfl
    · simp only [EchoSystem.enter, Option.bind_some, Relay.Event.taken, Option.toList_none, List.append_nil]
  · refine ⟨.leaveOut (s.echoCommandId.toUInt32, text), ?_, ?_, ?_⟩
    · rw [Option.toList_some, Runs.run_singleton, Relay.step]
      simp only [relay, EchoSystem.enter, hidle, decide_false, SendLog.sent_append_refused]
    · simp only [EchoSystem.enter, hidle, decide_false]
      rfl
    · simp only [EchoSystem.enter, Option.bind_some, Relay.Event.taken, Option.toList_none, List.append_nil]

/-- **A read that completes at the server takes the oldest command**, or schedules a read. -/
theorem Inv.amounts_serverComplete (h : Inv s) (hstep : s.handle .serverComplete = some s') :
    ∃ event, Amounts s s' event := by
  rcases h.serverComplete_cases hstep with
    ⟨-, reader, protocol, rfl, -⟩ | ⟨command, reader, protocol, -, hcommand, rfl, -, -, -⟩
  · exact ⟨none, amounts_none rfl rfl rfl⟩
  · -- the request is the oldest one; whether it is answered depends on the write of the server
    have hrequests : s.relay.requests
        = command :: s.entered.sent.drop (s.handled.length + 1) := drop_of_getElem? hcommand
    have hle : s.received.length ≤ ((welcome.id, welcome.text) :: s.handled.sent).length :=
      h.received_prefix.length_le
    by_cases hidle : s.server.writes = []
    · refine ⟨some .answer, ?_, ?_, ?_⟩
      · rw [Option.toList_some, Runs.run_singleton, Relay.step_answer hrequests]
        simp only [relay, hidle, decide_true, SendLog.sent_append_sent, List.length_append,
          List.length_singleton, ← List.cons_append, List.drop_append_of_le_length hle]
      · exact (List.append_nil _).symm
      · simp only [hidle, decide_true, List.map_append]
        rfl
    · refine ⟨some .drop, ?_, ?_, ?_⟩
      · rw [Option.toList_some, Runs.run_singleton, Relay.step_drop hrequests]
        simp only [relay, hidle, decide_false, SendLog.sent_append_refused, List.length_append,
          List.length_singleton]
      · exact (List.append_nil _).symm
      · simp only [hidle, decide_false, List.map_append]
        rfl

/-- **A read that completes at the client displays the oldest reply**, or schedules a read. -/
theorem Inv.amounts_clientComplete (h : Inv s) (hstep : s.handle .clientComplete = some s') :
    ∃ event, Amounts s s' event := by
  have hreceived := Inv.received_prefix (h.clientComplete hstep)
  obtain ⟨reader, protocol, shown, rfl, -⟩ := h.clientComplete_cases hstep
  cases shown with
  | none => exact ⟨none, amounts_none rfl rfl (List.append_nil _)⟩
  | some reply =>
    simp only [Option.toList_some] at hreceived ⊢
    obtain ⟨rest, hrest⟩ := hreceived
    rw [List.append_assoc, List.singleton_append] at hrest
    have hreplies : s.relay.replies = reply :: rest := by
      rw [relay, ← hrest, List.drop_left]
    refine ⟨some .display, ?_, (List.append_nil _).symm, (List.append_nil _).symm⟩
    rw [Option.toList_some, Runs.run_singleton, Relay.step_display hreplies]
    simp only [relay, ← hrest, List.length_append, List.length_singleton,
      ← List.drop_drop, List.drop_left, List.drop_succ_cons, List.drop_zero]

/-- **An event in scope amounts to one event of the relay, or to none.** -/
theorem amounts_step {event : Event} (h : Inv s) (hstep : s.step event = some s') :
    ∃ relayEvent, Amounts s s' relayEvent := by
  rw [step, if_pos h.running] at hstep
  cases event with
  | command line =>
    obtain rfl := Option.some.inj hstep
    cases dispatchCommand line with
    | none => exact ⟨none, amounts_none rfl rfl rfl⟩
    | some text =>
      obtain ⟨relayEvent, hamounts⟩ := h.amounts_enter text
      exact ⟨some relayEvent, hamounts⟩
  | clientTransfer | clientWritten | serverTransfer | serverWritten =>
    obtain ⟨t, -, rfl⟩ := Option.map_eq_some_iff.mp hstep
    exact ⟨none, amounts_none rfl rfl rfl⟩
  | serverReceive n =>
    obtain ⟨reader, rfl, -⟩ := h.serverReceive_cases hstep
    exact ⟨none, amounts_none rfl rfl rfl⟩
  | serverComplete => exact h.amounts_serverComplete hstep
  | clientReceive n =>
    obtain ⟨reader, rfl, -⟩ := h.clientReceive_cases hstep
    exact ⟨none, amounts_none rfl rfl rfl⟩
  | clientComplete => exact h.amounts_clientComplete hstep

/-! ## Runs -/

/-- `trace` is what the run of `events` to `s` amounts to. -/
structure Refined (events : List Event) (s : EchoSystem)
    (trace : List (Relay.Event (UInt32 × Bytes))) : Prop where
  /-- The trace is a run of the relay, to the messages behind the state. -/
  run : Runs.run Relay.step start.relay trace = some s.relay
  /-- No event amounts to more than one. -/
  length_le : trace.length ≤ events.length
  /-- The relay is asked for what has been entered. -/
  asked_eq : trace.filterMap Relay.Event.asked = s.entered
  /-- The far end of the relay takes or leaves out what the server does. -/
  taken_eq : trace.filterMap Relay.Event.taken = s.handled.map Prod.snd

theorem filterMap_append_toList {α β : Type*} (f : α → Option β) (l : List α) (o : Option α) :
    (l ++ o.toList).filterMap f = l.filterMap f ++ (o.bind f).toList := by
  cases o with
  | none => simp
  | some a => exact filterMap_concat f l a

/-- A step adds to the trace what it amounts to. Both runs are extended at their ends. -/
theorem Refined.snoc {events : List Event} {trace : List (Relay.Event (UInt32 × Bytes))}
    (h : Refined events s trace) {event : Event}
    {relayEvent : Option (Relay.Event (UInt32 × Bytes))} (hstep : Amounts s s' relayEvent) :
    Refined (events ++ [event]) s' (trace ++ relayEvent.toList) := by
  refine ⟨?_, ?_, ?_, ?_⟩
  · rw [Runs.run_append_of_run _ h.run]
    exact hstep.run
  · have hle := h.length_le
    have hone : relayEvent.toList.length ≤ 1 := by cases relayEvent <;> simp
    rw [List.length_append, List.length_append, List.length_singleton]
    omega
  · rw [filterMap_append_toList, h.asked_eq, hstep.entered_eq]
  · rw [filterMap_append_toList, h.taken_eq, hstep.handled_eq]

theorem refined_of_run {events : List Event} (hscope : Runs.StepsMeet step InScope start events)
    (hrun : Runs.run step start events = some s) : ∃ trace, Refined events s trace := by
  have hall : Inv s ∧ ∃ trace, Refined events s trace := by
    have hstart : Inv start ∧ ∃ trace, Refined [] start trace :=
      ⟨inv_start, [], rfl, Nat.le_refl _, rfl, rfl⟩
    refine Runs.run_history (P := fun events s => Inv s ∧ ∃ trace, Refined events s trace) ?_
      hstart hscope hrun
    rintro events s event s' ⟨h, trace, htrace⟩ hok hs
    obtain ⟨relayEvent, hamounts⟩ := amounts_step h hs
    exact ⟨inv_step h hok hs, _, htrace.snoc hamounts⟩
  exact hall.2

/-- What the near end of the relay sends is what it is asked to send and does. -/
theorem sent_of_asked (trace : List (Relay.Event (UInt32 × Bytes))) :
    trace.filterMap Relay.Event.sent = SendLog.sent (trace.filterMap Relay.Event.asked) := by
  induction trace with
  | nil => rfl
  | cons event trace ih =>
    cases event <;>
      simp [List.filterMap_cons, Relay.Event.sent, Relay.Event.asked, SendLog.sent, ih]

end EchoSystem

/-- **The echo service is a relay.** In every run in scope, in whatever order the handlers of the
two ends run and however the bytes are cut, the system does at most one step of the relay with
each event: the commands that are entered are those the relay is asked to send, with the same ones
left out, the server answers and drops as the relay does, and the client displays what it shows. So
what the client has displayed, what waits for it and what waits for the server are the greeting and
the commands that were sent, in order; as many of them are missing as the server has dropped. -/
theorem echo_refines_relay {events : List EchoSystem.Event} {s : EchoSystem}
    (hscope : Runs.StepsMeet EchoSystem.step EchoSystem.InScope EchoSystem.start events)
    (hrun : Runs.run EchoSystem.step EchoSystem.start events = some s) :
    (∃ trace : List (Relay.Event (UInt32 × Bytes)),
      Runs.run Relay.step { replies := [(welcome.id, welcome.text)] } trace = some s.relay ∧
      trace.length ≤ events.length ∧
      trace.filterMap Relay.Event.asked = s.entered ∧
      trace.filterMap Relay.Event.taken = s.handled.map Prod.snd) ∧
    s.relay.content.Sublist ((welcome.id, welcome.text) :: s.entered.sent) ∧
    s.relay.content.length + (s.handled.map Prod.snd).count false = 1 + s.entered.sent.length := by
  obtain ⟨trace, hrefined⟩ := EchoSystem.refined_of_run hscope hrun
  obtain ⟨hsub, hlen⟩ := Relay.run_content hrefined.run
  rw [EchoSystem.sent_of_asked, hrefined.asked_eq] at hsub hlen
  rw [hrefined.taken_eq] at hlen
  have hrelay := hrefined.run
  rw [EchoSystem.relay_start] at hrelay
  exact ⟨⟨trace, hrelay, hrefined.length_le, hrefined.asked_eq, hrefined.taken_eq⟩, hsub, hlen⟩

/-- Of three commands the client leaves out the second, and the server drops the first. -/
theorem echo_refines_relay_run :
    let events : List EchoSystem.Event := [.command (echoCmdPrefix ++ [97]),
      .command (echoCmdPrefix ++ [98]), .clientTransfer 0 15, .clientWritten 0, .serverReceive 10,
      .serverComplete, .serverReceive 5, .serverTransfer 0 60, .serverComplete, .serverWritten 0,
      .command (echoCmdPrefix ++ [99]), .clientTransfer 0 17, .clientWritten 0, .clientReceive 10,
      .clientComplete, .clientReceive 50, .clientComplete]
    ∃ s trace, Runs.run EchoSystem.step EchoSystem.start events = some s ∧
      Runs.run Relay.step { replies := [(welcome.id, welcome.text)] } trace = some s.relay ∧
      s.relay = { requests := [(2, [99])], shown := [(welcome.id, welcome.text)] } ∧
      trace.filterMap Relay.Event.asked
        = [((0, [97]), true), ((1, [98]), false), ((2, [99]), true)] ∧
      trace.filterMap Relay.Event.taken = [false] := by
  intro events
  have hscope : Runs.StepsMeet EchoSystem.step EchoSystem.InScope EchoSystem.start events := by
    decide +kernel
  have hrelay : (Runs.run EchoSystem.step EchoSystem.start events).map EchoSystem.relay
      = some { requests := [(2, [99])], shown := [(welcome.id, welcome.text)] } := by
    decide +kernel
  have hentered : (Runs.run EchoSystem.step EchoSystem.start events).map EchoSystem.entered
      = some [((0, [97]), true), ((1, [98]), false), ((2, [99]), true)] := by
    decide +kernel
  have hhandled : (Runs.run EchoSystem.step EchoSystem.start events).map EchoSystem.handled
      = some [((0, [97]), false)] := by
    decide +kernel
  obtain ⟨s, hs, hrelay⟩ := Option.map_eq_some_iff.mp hrelay
  rw [hs, Option.map_some] at hentered hhandled
  obtain ⟨⟨trace, htrace, -, hasked, htaken⟩, -, -⟩ := echo_refines_relay hscope hs
  exact ⟨s, trace, hs, htrace, hrelay, hasked.trans (Option.some.inj hentered),
    htaken.trans (congrArg (List.map Prod.snd) (Option.some.inj hhandled))⟩

end Acs
