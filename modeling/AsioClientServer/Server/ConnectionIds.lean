import AsioClientServer.Server.ConnectionLifetime

/-!
# The ids of the connections

Connections are compared by id, and `_purgeConnection` removes every element of the list that
compares equal to the one that is closed. The ids come from a static counter of `std::size_t`:
every connection of the program draws one from it, and after 2^64 of them it starts again.

* `ManagerRun`: one list of connections and what can happen to it. Connections outside the list
  are created in between, and those in it change.
* `closeConnection_removes_one`: as long as the counter has not started again, the ids in the list
  are distinct, and closing a connection removes its entry and nothing else.
* `managerRun_of_run`: the runs of a server are runs of its list, so its connections have distinct
  ids as well; `keepsListExact_close` and `closesIdle_close_iff` are what follows for a close.
-/

namespace Acs

/-! ## The system -/

/-- A list of connections, and how many have drawn an id from the counter. -/
structure ManagerRun where
  manager : ConnectionManager := {}
  /-- The connections created so far, in the list or outside it. -/
  created : Nat := 0
  deriving DecidableEq, Repr

/-- What can happen to the list and to the counter. -/
inductive ManagerRun.Event where
  | newConnection (handler : ClientHandler)
  /-- `closeConnection` for a connection in the list. -/
  | closeConnection (address : Nat)
  /-- Something happens to a connection in the list; no member of `TcpConnection` writes `_id`. -/
  | changed (address : Nat) (c : TcpConnection)
  /-- A connection that is not in the list is created. -/
  | createdElsewhere
  deriving DecidableEq, Repr

namespace ManagerRun

/-- The next state, `none` where the connection is not in the list or would change its id. -/
def step (s : ManagerRun) : Event → Option ManagerRun
  | .newConnection handler =>
    some { manager := (s.manager.newConnection handler).2, created := s.created + 1 }
  | .closeConnection address =>
    (s.manager.find address).map fun c => { s with manager := s.manager.closeConnection c }
  | .changed address c' =>
    (s.manager.find address).bind fun c =>
      if c'.id = c.id then some { s with manager := s.manager.update address c' } else none
  | .createdElsewhere =>
    some { manager := s.manager.generateConnId.2, created := s.created + 1 }

/-! ## The invariant of all runs -/

/-- The ids in the list have been drawn from the counter, in the order of the list. So they increase
along it, and the next one is greater than all of them. -/
structure FreshIds (s : ManagerRun) : Prop where
  increasing : s.manager.ids.Pairwise (· < ·)
  drawn : ∀ id ∈ s.manager.ids, id.toNat < s.created

/-- The counter is where it should be, and until it starts again the ids are fresh. The counter
wraps around after 2^64 connections. -/
structure Inv (s : ManagerRun) : Prop where
  addressed : s.manager.WellAddressed
  nextId : s.manager.nextId = UInt64.ofNat s.created
  fresh : s.created ≤ 2 ^ 64 → FreshIds s

variable {s s' : ManagerRun}

/-- Any number of the ids stay fresh when more have been drawn. -/
theorem FreshIds.sublist {t : ManagerRun} (h : FreshIds s)
    (hids : t.manager.ids.Sublist s.manager.ids) (hcreated : s.created ≤ t.created) :
    FreshIds t :=
  ⟨h.increasing.sublist hids,
    fun id hid => lt_of_lt_of_le (h.drawn id (hids.subset hid)) hcreated⟩

/-- **The next id is greater than all in the list**, unless the counter starts again. -/
theorem FreshIds.newConnection (h : FreshIds s) (hnext : s.manager.nextId.toNat = s.created)
    (handler : ClientHandler) :
    FreshIds { manager := (s.manager.newConnection handler).2, created := s.created + 1 } := by
  constructor
  · rw [ConnectionManager.ids_newConnection]
    refine List.pairwise_append.mpr ⟨h.increasing, List.pairwise_singleton _ _, ?_⟩
    intro id hid next hmem
    rw [List.mem_singleton.mp hmem, UInt64.lt_iff_toNat_lt, hnext]
    exact h.drawn id hid
  · intro id hid
    rw [ConnectionManager.ids_newConnection, List.mem_append, List.mem_singleton] at hid
    rcases hid with hid | rfl
    · have hlt := h.drawn id hid
      show id.toNat < s.created + 1
      omega
    · show s.manager.nextId.toNat < s.created + 1
      omega

/-- The counter goes up with the number of connections, wrapping around as it does. -/
theorem Inv.nextId_succ (h : Inv s) : s.manager.nextId + 1 = UInt64.ofNat (s.created + 1) := by
  rw [h.nextId, UInt64.ofNat_add]
  rfl

/-- Until it wraps around, the counter is the number of connections. -/
theorem Inv.nextId_toNat (h : Inv s) (hcreated : s.created < 2 ^ 64) :
    s.manager.nextId.toNat = s.created := by
  rw [h.nextId, UInt64.toNat_ofNat']
  exact Nat.mod_eq_of_lt hcreated

/-- **Every creation, close and change keeps the invariant.** -/
theorem inv_step {event : Event} (h : Inv s) (hstep : s.step event = some s') : Inv s' := by
  cases event with
  | newConnection handler =>
    obtain rfl := Option.some.inj hstep
    refine ⟨h.addressed.newConnection handler, h.nextId_succ, fun hle => ?_⟩
    have hlt : s.created < 2 ^ 64 := Nat.lt_of_succ_le hle
    exact (h.fresh hlt.le).newConnection (h.nextId_toNat hlt) handler
  | closeConnection address =>
    obtain ⟨c, -, rfl⟩ := Option.map_eq_some_iff.mp hstep
    exact ⟨h.addressed.closeConnection c, h.nextId,
      fun hle => (h.fresh hle).sublist (ConnectionManager.ids_closeConnection c) le_rfl⟩
  -- what a connection does leaves its id alone, so the ids of the list stay the same
  | changed address c' =>
    obtain ⟨c, hfind, hstep⟩ := Option.bind_eq_some_iff.mp hstep
    split at hstep
    · next hid =>
      obtain rfl := Option.some.inj hstep
      have hids : (s.manager.update address c').ids = s.manager.ids :=
        ConnectionManager.ids_update h.addressed hfind hid
      exact ⟨h.addressed.update address c', h.nextId,
        fun hle => (h.fresh hle).sublist (by rw [hids]) le_rfl⟩
    · cases hstep
  -- the counter goes on, and the ids in the list stay behind it
  | createdElsewhere =>
    obtain rfl := Option.some.inj hstep
    refine ⟨⟨h.addressed.nodup, h.addressed.fresh⟩, h.nextId_succ, fun hle => ?_⟩
    have hlt : s.created < 2 ^ 64 := Nat.lt_of_succ_le hle
    exact (h.fresh hlt.le).sublist (List.Sublist.refl _) (Nat.le_succ _)

theorem inv_initial : Inv {} :=
  ⟨⟨List.nodup_nil, by simp [ConnectionManager.addresses]⟩, rfl,
    fun _ => ⟨List.Pairwise.nil, by simp [ConnectionManager.ids]⟩⟩

theorem inv_of_run {es : List Event} (hrun : Runs.run step {} es = some s) : Inv s :=
  Runs.run_invariant (fun _ _ _ h hs => inv_step h hs) inv_initial hrun

/-- **The ids in the list are distinct** until the counter starts again. -/
theorem Inv.ids_nodup (h : Inv s) (hcreated : s.created ≤ 2 ^ 64) : s.manager.ids.Nodup :=
  (h.fresh hcreated).increasing.imp UInt64.ne_of_lt

end ManagerRun

/-- **Closing removes exactly one connection.** In every run of creations and closes, while
connections of the list change and others are created elsewhere: as long as fewer than 2^64
connections have been created, the ids in the list are distinct, and closing the connection of an
entry removes this entry and leaves all others as they are, in their order. -/
theorem closeConnection_removes_one {es : List ManagerRun.Event} {s : ManagerRun}
    (hrun : Runs.run ManagerRun.step {} es = some s) (hcreated : s.created < 2 ^ 64) :
    s.manager.ids.Nodup ∧
      ∀ before node after, s.manager.connections = before ++ node :: after →
        s.step (.closeConnection node.address) =
          some { s with manager := { s.manager with connections := before ++ after } } := by
  have hinv := ManagerRun.inv_of_run hrun
  have hids := hinv.ids_nodup hcreated.le
  refine ⟨hids, fun before node after hsplit => ?_⟩
  have hmem : node ∈ s.manager.connections := by
    rw [hsplit]
    exact List.mem_append_right _ List.mem_cons_self
  have hfind := ConnectionManager.find_of_mem hinv.addressed hmem
  simp only [ManagerRun.step, hfind, Option.map_some,
    ConnectionManager.closeConnection_eq hids hsplit]

/-- Three connections are created in the list and one outside it, the second one is closed and
another one is created. The one with the id 2 is then between two others, and closing it leaves
these. -/
theorem closeConnection_removes_one_between :
    ∃ s, Runs.run ManagerRun.step {} [.newConnection .echoClientHandler,
        .newConnection .testClientHandler, .newConnection .echoClientHandler, .createdElsewhere,
        .closeConnection 1, .newConnection .testClientHandler] = some s ∧
      s.manager.ids = [0, 2, 4] ∧ s.manager.ids.Nodup ∧
      s.step (.closeConnection 2) = some { s with manager := { s.manager with connections :=
        [⟨0, { id := 0, handler := .echoClientHandler }⟩,
          ⟨3, { id := 4, handler := .testClientHandler }⟩] } } := by
  have hresult : (Runs.run ManagerRun.step {} [.newConnection .echoClientHandler,
      .newConnection .testClientHandler, .newConnection .echoClientHandler, .createdElsewhere,
      .closeConnection 1, .newConnection .testClientHandler]).map
      (fun s => (s.manager.connections, s.created))
      = some ([⟨0, { id := 0, handler := .echoClientHandler }⟩] ++
          ⟨2, { id := 2, handler := .echoClientHandler }⟩ ::
          [⟨3, { id := 4, handler := .testClientHandler }⟩], 5) := by
    decide +kernel
  obtain ⟨s, hrun, hs⟩ := Option.map_eq_some_iff.mp hresult
  obtain ⟨hsplit, hcreated⟩ := Prod.mk.inj hs
  have hlt : s.created < 2 ^ 64 := by
    rw [hcreated]
    decide
  obtain ⟨hids, hclose⟩ := closeConnection_removes_one hrun hlt
  refine ⟨s, hrun, ?_, hids, hclose _ _ _ hsplit⟩
  rw [ConnectionManager.ids, hsplit]
  rfl

/-! ## The connections of a server

Everything a server does to its list is a creation, a close or a change of a connection in it. -/

namespace ManagerRun

/-- A list that all connections created so far have been in. -/
def ofManager (m : ConnectionManager) : ManagerRun :=
  { manager := m, created := m.nextAddress }

variable {m : ConnectionManager}

/-- A creation by the server is one of the list. -/
theorem run_newConnection (handler : ClientHandler) :
    Runs.run step (ofManager m) [.newConnection handler]
      = some (ofManager (m.newConnection handler).2) := rfl

/-- A handler of a connection changes that connection, which keeps its id. -/
theorem run_changed {address : Nat} {c c' : TcpConnection} (hfind : m.find address = some c)
    (hid : c'.id = c.id) : Runs.run step (ofManager m) [.changed address c']
      = some (ofManager (m.update address c')) := by
  simp only [Runs.run_cons, step, ofManager, hfind, Option.bind_some, if_pos hid, Runs.run_nil,
    ConnectionManager.nextAddress_update]

/-- A close by the server is one of the list. -/
theorem run_closeConnection {address : Nat} {c : TcpConnection} (hfind : m.find address = some c) :
    Runs.run step (ofManager m) [.closeConnection address]
      = some (ofManager (m.closeConnection c)) := by
  simp only [Runs.run_cons, step, ofManager, hfind, Option.map_some, Option.bind_some,
    Runs.run_nil]
  rfl

/-- An accept starts the connection that waited and creates the next one. -/
theorem run_handleAccept (s : ServerRun) (error : Option Asio.ErrorCode) :
    ∃ es, Runs.run step (ofManager s.manager) es
      = some (ofManager (s.handleAccept error).manager) := by
  cases error with
  | some e => exact ⟨_, run_newConnection .echoClientHandler⟩
  | none =>
    simp only [ServerRun.handleAccept]
    split
    · exact ⟨[], rfl⟩
    · next c hfind =>
      have hchanged := run_changed hfind c.start_id
      split
      · exact ⟨_, hchanged⟩
      · exact ⟨_, (Runs.run_append_of_run _ hchanged).trans
          (run_newConnection .echoClientHandler)⟩

end ManagerRun

namespace LifetimeRun

open ManagerRun

variable {s s' : LifetimeRun}

/-- **Every step of a server is a run of its list.** -/
theorem managerRun_step {event : Event} (hstep : s.step event = some s') :
    ∃ es, Runs.run ManagerRun.step (ofManager s.manager) es = some (ofManager s'.manager) := by
  cases step_cases hstep with
  | accepted => exact run_handleAccept s.server none
  | @acceptFailed e => exact run_handleAccept s.server (some e)
  | @newConnection handler => exact ⟨_, run_newConnection handler⟩
  | @start address c hfind => exact ⟨_, run_changed hfind c.start_id⟩
  | @send address message c hfind => exact ⟨_, run_changed hfind (c.send_id message)⟩
  | @connection address event c res hfind hres =>
    have hchanged := run_changed hfind (TcpConnection.onEvent_identity hres).1
    unfold afterEvent
    dsimp only
    split
    · exact ⟨_, hchanged⟩
    · split
      · -- the handler closes its connection after the event has changed it
        have hfind' := ConnectionManager.find_update hfind res.connection
        exact ⟨_, (Runs.run_append_of_run _ hchanged).trans (run_closeConnection hfind')⟩
      · exact ⟨_, hchanged⟩
  | close hfind => exact ⟨_, run_closeConnection hfind⟩
  | aborted => exact ⟨[], rfl⟩

/-- **Every run of a server is a run of its list.** -/
theorem managerRun_of_run {es : List Event} (hrun : Runs.run step initial es = some s) :
    ∃ es', Runs.run ManagerRun.step {} es' = some (ofManager s.manager) := by
  have hrefined : ∃ es' t, Runs.run ManagerRun.step (ofManager initial.manager) es' = some t ∧
      t = ofManager s.manager := by
    refine Runs.run_refined (R := fun s t => t = ofManager s.manager) ?_ rfl hrun
    rintro s _ event s' rfl hstep
    obtain ⟨es', hes'⟩ := managerRun_step hstep
    exact ⟨es', _, hes', rfl⟩
  obtain ⟨es', _, hrun', rfl⟩ := hrefined
  exact ⟨.newConnection .echoClientHandler :: es', (Runs.run_cons_of_step _ rfl).trans hrun'⟩

/-- The connections of a server have distinct ids until the counter starts again. -/
theorem ids_nodup_of_run {es : List Event} (hrun : Runs.run step initial es = some s)
    (hcreated : s.manager.nextAddress ≤ 2 ^ 64) : s.manager.ids.Nodup := by
  obtain ⟨es', hrun'⟩ := managerRun_of_run hrun
  exact (ManagerRun.inv_of_run hrun').ids_nodup hcreated

/-- Until the counter starts again, a close leaves no operation behind exactly when its connection
has none. -/
theorem closesIdle_close_iff {es : List Event} (hrun : Runs.run step initial es = some s)
    (hcreated : s.manager.nextAddress ≤ 2 ^ 64) {address : Nat} {c : TcpConnection}
    (hfind : s.manager.find address = some c) :
    ClosesIdle s (.close address) ↔ c.pending = [] := by
  have hmem := ConnectionManager.mem_of_find hfind
  simp only [ClosesIdle, hfind, Option.some.injEq, forall_eq']
  constructor
  · intro hidle
    exact hidle _ hmem rfl
  · intro hpending node hnode hid
    have heq : node = ⟨address, c⟩ :=
      List.inj_on_of_nodup_map (ids_nodup_of_run hrun hcreated) hnode hmem hid
    rw [heq]
    exact hpending

end LifetimeRun

namespace ServerRun

/-- **A close keeps the list of open connections exact** until the counter starts again: only an
accept or a write that fails does not. -/
theorem keepsListExact_close {es : List Event} {s : ServerRun}
    (hrun : Runs.run step start es = some s) (hcreated : s.manager.nextAddress ≤ 2 ^ 64)
    (address : Nat) : KeepsListExact s (.close address) := by
  obtain ⟨t, hrun', hagrees⟩ := LifetimeRun.agrees_of_run hrun
  rw [← hagrees.manager] at hcreated
  have hids := LifetimeRun.ids_nodup_of_run hrun' hcreated
  rw [hagrees.manager] at hids
  intro c hfind node hnode hid
  have heq : node = ⟨address, c⟩ :=
    List.inj_on_of_nodup_map hids hnode (ConnectionManager.mem_of_find hfind) hid
  rw [heq]

end ServerRun

end Acs
