import AsioClientServer.Lib.Keyed
import AsioClientServer.Server.TcpConnection

/-!
# `acs::conn::ConnectionManager`

The list of connections the server owns (`ConnectionManager.hpp`). Its elements do not move, and
the handlers of the sockets hold references to them: a reference is an `address` here, and no two
connections ever have the same one. Their ids come from a counter of `std::size_t`, and they are
compared by id.
-/

namespace Acs

/-- A connection at its place in memory. -/
structure ConnectionNode where
  /-- What a reference to the connection refers to. It is never used for another connection. -/
  address : Nat
  connection : TcpConnection
  deriving DecidableEq, Repr

/-- `class ConnectionManager`, with the counter of `TcpConnection::_generateConnId`. The counter is
static, so it belongs to no connection. -/
structure ConnectionManager where
  /-- `_connections`, in the order in which they were created. -/
  connections : List ConnectionNode := []
  /-- The counter the ids are drawn from. -/
  nextId : UInt64 := 0
  /-- The number of connections created so far. -/
  nextAddress : Nat := 0
  deriving DecidableEq, Repr

/-- An operation that `asio` has been given and that has not called its handler. -/
inductive PendingOperation where
  | read (op : OutstandingRead)
  | write (op : Asio.WriteOp)
  deriving DecidableEq, Repr

/-- The operations of one connection. Their handlers hold a reference to it. -/
def TcpConnection.pending (c : TcpConnection) : List PendingOperation :=
  c.reader.outstanding.map .read ++ c.writes.map .write

namespace ConnectionManager

/-- `TcpConnection::_generateConnId`: `return nextId++`. -/
def generateConnId (m : ConnectionManager) : UInt64 × ConnectionManager :=
  (m.nextId, { m with nextId := m.nextId + 1 })

/-- `newConnection`: a connection is constructed at the end of the list, and its constructor takes
its id from the counter. The result is a reference to it. -/
def newConnection (m : ConnectionManager) (handler : ClientHandler) :
    Nat × ConnectionManager :=
  let generated := m.generateConnId
  (m.nextAddress,
    { generated.2 with
      connections := m.connections ++ [⟨m.nextAddress, { id := generated.1, handler }⟩]
      nextAddress := m.nextAddress + 1 })

/-- The connection a reference refers to, `none` when it has been destroyed. In the program, using
the reference is undefined behaviour then. -/
def find (m : ConnectionManager) (address : Nat) : Option TcpConnection :=
  (m.connections.find? (·.address = address)).map (·.connection)

/-- What a reference refers to has changed. -/
def update (m : ConnectionManager) (address : Nat) (c : TcpConnection) : ConnectionManager :=
  { m with connections := m.connections.map fun node =>
      if node.address = address then { node with connection := c } else node }

/-- `_purgeConnection`: `std::list::remove` removes every element that compares equal, and
connections are compared by id. -/
def purgeConnection (m : ConnectionManager) (c : TcpConnection) : ConnectionManager :=
  { m with connections := m.connections.filter fun node => node.connection.id ≠ c.id }

/-- `connectionClosed`, the observer: the connection is destroyed at once. -/
def connectionClosed (m : ConnectionManager) (c : TcpConnection) : ConnectionManager :=
  m.purgeConnection c

/-- `closeConnection`: `TcpConnection::close` tells its handler and then its observer. -/
def closeConnection (m : ConnectionManager) (c : TcpConnection) : ConnectionManager :=
  m.connectionClosed c

/-- The operations of the connections `purgeConnection` destroys. Their handlers will still run. -/
def pendingOfPurged (m : ConnectionManager) (c : TcpConnection) : List PendingOperation :=
  (m.connections.filter fun node => node.connection.id = c.id).flatMap (·.connection.pending)

/-! ## Addresses -/

/-- The references that are still good, in the order of the list. -/
def addresses (m : ConnectionManager) : List Nat :=
  m.connections.map (·.address)

variable {m : ConnectionManager} {address : Nat} {c : TcpConnection}

theorem mem_of_find (h : m.find address = some c) : ⟨address, c⟩ ∈ m.connections := by
  obtain ⟨node, hnode, rfl⟩ := Option.map_eq_some_iff.mp h
  have haddress : node.address = address := by simpa using List.find?_some hnode
  rw [← haddress]
  exact List.mem_of_find?_eq_some hnode

@[simp] theorem addresses_update : (m.update address c).addresses = m.addresses :=
  Keyed.map_replace fun _ _ _ => rfl

@[simp] theorem nextAddress_update : (m.update address c).nextAddress = m.nextAddress := rfl

/-- The other connections stay as they are when one changes. -/
theorem filter_update : (m.update address c).connections.filter (·.address ≠ address)
    = m.connections.filter (·.address ≠ address) :=
  Keyed.filter_replace fun _ haddress => haddress

/-- The list after a change: the connection that has changed, and the others. -/
theorem mem_update {node : ConnectionNode} (h : node ∈ (m.update address c).connections) :
    (node.address = address ∧ node.connection = c) ∨
      (node.address ≠ address ∧ node ∈ m.connections) := by
  simp only [update, List.mem_map] at h
  obtain ⟨node', hmem, rfl⟩ := h
  by_cases haddress : node'.address = address
  · rw [if_pos haddress]
    exact Or.inl ⟨haddress, rfl⟩
  · rw [if_neg haddress]
    exact Or.inr ⟨haddress, hmem⟩

/-- The connection that has changed is in the list, if it was there before. -/
theorem mem_update_self {c' : TcpConnection} (h : m.find address = some c') (c : TcpConnection) :
    ⟨address, c⟩ ∈ (m.update address c).connections :=
  List.mem_map.mpr ⟨_, mem_of_find h, if_pos rfl⟩

/-- The other connections are still in the list. -/
theorem mem_update_of_ne {node : ConnectionNode} (h : node ∈ m.connections)
    (hne : node.address ≠ address) (c : TcpConnection) :
    node ∈ (m.update address c).connections :=
  List.mem_map.mpr ⟨node, h, if_neg hne⟩

/-- No two connections have one address, and the next connection gets another one. It is what makes
a reference a reference. -/
structure WellAddressed (m : ConnectionManager) : Prop where
  nodup : m.addresses.Nodup
  fresh : ∀ address ∈ m.addresses, address < m.nextAddress

/-- A new connection comes to the end of the list, under the next address. -/
theorem addresses_newConnection (handler : ClientHandler) :
    (m.newConnection handler).2.addresses = m.addresses ++ [m.nextAddress] := by
  simp only [newConnection, addresses, List.map_append, List.map_cons, List.map_nil]

/-- The address of a new connection is a new one. -/
theorem WellAddressed.newConnection (h : m.WellAddressed) (handler : ClientHandler) :
    (m.newConnection handler).2.WellAddressed := by
  have hnext : (m.newConnection handler).2.nextAddress = m.nextAddress + 1 := rfl
  constructor
  · rw [addresses_newConnection]
    refine List.nodup_append.mpr ⟨h.nodup, List.nodup_singleton _, ?_⟩
    intro a ha b hb
    have hlt := h.fresh a ha
    rw [List.mem_singleton.mp hb]
    omega
  · intro a ha
    rw [addresses_newConnection, List.mem_append, List.mem_singleton] at ha
    rw [hnext]
    rcases ha with ha | rfl
    · have hlt := h.fresh a ha
      omega
    · omega

/-- A change of a connection changes no address. -/
theorem WellAddressed.update (h : m.WellAddressed) (address : Nat) (c : TcpConnection) :
    (m.update address c).WellAddressed :=
  ⟨by simpa using h.nodup, by simpa using h.fresh⟩

/-- Closing gives no address away. -/
theorem WellAddressed.closeConnection (h : m.WellAddressed) (c : TcpConnection) :
    (m.closeConnection c).WellAddressed := by
  have hsub : (m.closeConnection c).addresses.Sublist m.addresses := List.filter_sublist.map _
  exact ⟨h.nodup.sublist hsub, fun a ha => h.fresh a (hsub.subset ha)⟩

/-- What is in the list is found under its address. -/
theorem find_of_mem {node : ConnectionNode} (h : m.WellAddressed) (hmem : node ∈ m.connections) :
    m.find node.address = some node.connection := by
  rw [find, Keyed.find?_key_eq h.nodup hmem, Option.map_some]

/-- A reference to a connection that has changed refers to what it has become. -/
theorem find_update {c' : TcpConnection} (hfind : m.find address = some c') (c : TcpConnection) :
    (m.update address c).find address = some c := by
  obtain ⟨node, hnode, -⟩ := Option.map_eq_some_iff.mp hfind
  have haddress : node.address = address := by simpa using List.find?_some hnode
  have hreplaced := Keyed.find?_replace (l := m.connections) (p := (·.address = address))
    (f := fun node => { node with connection := c }) fun _ haddress => haddress
  simp only [find, update]
  rw [hreplaced, hnode, Option.map_some, Option.map_some, if_pos haddress]

/-- The references to the other connections refer to what they did. -/
theorem find_update_of_ne {other : Nat} (hne : other ≠ address) (c : TcpConnection) :
    (m.update address c).find other = m.find other := by
  have hreplaced := Keyed.find?_replace_of_disjoint (l := m.connections)
    (p := (·.address = address)) (q := (·.address = other))
    (f := fun node => { node with connection := c })
    fun _ haddress => ⟨fun h => hne (h.symm.trans haddress), fun h => hne (h.symm.trans haddress)⟩
  simp only [find, update]
  rw [hreplaced]

/-- The references to the connections that are there refer to what they did, when another one is
created. -/
theorem find_newConnection_of_ne {other : Nat} (hne : other ≠ m.nextAddress)
    (handler : ClientHandler) : (m.newConnection handler).2.find other = m.find other := by
  have hnew : ¬ m.nextAddress = other := fun h => hne h.symm
  simp only [find, newConnection, List.find?_append]
  rw [List.find?_cons_of_neg (by simpa using hnew), List.find?_nil, Option.or_none]

/-- The new connection is found under its address. -/
theorem WellAddressed.find_newConnection (h : m.WellAddressed) (handler : ClientHandler) :
    (m.newConnection handler).2.find m.nextAddress = some { id := m.nextId, handler } := by
  have hmem : ⟨m.nextAddress, { id := m.nextId, handler }⟩
      ∈ (m.newConnection handler).2.connections :=
    List.mem_append_right _ (List.mem_singleton_self _)
  exact find_of_mem (h.newConnection handler) hmem

/-- **Where no other connection has its id, closing a connection takes its reference away**, and
leaves all the others. -/
theorem addresses_closeConnection (hnodup : m.addresses.Nodup)
    (hmem : ⟨address, c⟩ ∈ m.connections)
    (hid : ∀ node ∈ m.connections, node.connection.id = c.id → node.address = address) :
    (m.closeConnection c).addresses = m.addresses.erase address := by
  rw [List.Nodup.erase_eq_filter hnodup]
  simp only [closeConnection, connectionClosed, purgeConnection, addresses, List.filter_map]
  congr 1
  apply List.filter_congr
  intro node hnode
  have hiff : node.connection.id = c.id ↔ node.address = address := by
    refine ⟨hid node hnode, fun haddress => ?_⟩
    have heq : node = ⟨address, c⟩ := List.inj_on_of_nodup_map hnodup hnode hmem haddress
    rw [heq]
  by_cases haddress : node.address = address <;> simp [hiff, haddress]

/-! ## Ids -/

/-- The ids of the connections, in the order of the list. -/
def ids (m : ConnectionManager) : List UInt64 :=
  m.connections.map (·.connection.id)

/-- A new connection has the next id of the counter. -/
theorem ids_newConnection (handler : ClientHandler) :
    (m.newConnection handler).2.ids = m.ids ++ [m.nextId] := by
  simp only [newConnection, generateConnId, ids, List.map_append, List.map_cons, List.map_nil]

/-- What happens to a connection leaves the ids in the list as they are, for it keeps its own. -/
theorem ids_update {c' : TcpConnection} (h : m.WellAddressed) (hfind : m.find address = some c')
    (hid : c.id = c'.id) : (m.update address c).ids = m.ids := by
  apply Keyed.map_replace
  intro node hnode haddress
  have heq : m.find address = some node.connection := haddress ▸ find_of_mem h hnode
  rw [Option.some.inj (heq.symm.trans hfind)]
  exact hid

/-- Closing takes ids away, and leaves the others in their order. -/
theorem ids_closeConnection (c : TcpConnection) :
    (m.closeConnection c).ids.Sublist m.ids :=
  List.filter_sublist.map _

/-- **Where the ids are distinct, closing a connection removes its entry** and no other, as if the
list were searched by address. -/
theorem closeConnection_eq {before after : List ConnectionNode} {node : ConnectionNode}
    (hids : m.ids.Nodup) (hsplit : m.connections = before ++ node :: after) :
    m.closeConnection node.connection = { m with connections := before ++ after } := by
  rw [ids, hsplit] at hids
  simp only [closeConnection, connectionClosed, purgeConnection, hsplit]
  rw [Keyed.filter_key_ne hids]

end ConnectionManager

end Acs
