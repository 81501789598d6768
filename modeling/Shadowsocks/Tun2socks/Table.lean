import Shadowsocks.Lib.Recent
import Shadowsocks.Tun2socks.UdpGwClient

/-!
# The table of connections

`connections_tree`, `connections_list` and the counter are one table, of the pairs that
have been used most recently. `connection_init` comes between two packets of the device,
so that also the first packet of a connection goes to its own pair.

`Holds` ties the three to a list of pairs with their handles, the least recently used first, and
`Placed` lists what `SocksUdpGwClient_SubmitPacket` does to it: the pair is known, the oldest
connection is given to it, a new one is made, or making one has failed.
-/

namespace Shadowsocks.Tun2socks
set_option autoImplicit false
open Lib

/-- The connections in the order of the list, each with its pair. -/
def State.table (s : State) : List (ConAddr × Nat) :=
  s.connectionsList.filterMap fun id => (s.heap.cell id).map fun con => (con.conaddr, id)

/-- What holds between two events. -/
structure Consistent (C : Config) (s : State) : Prop where
  tree : s.connectionsTree.nodes.Perm s.table
  list : s.connectionsList = s.table.map Prod.snd
  once : s.connectionsList.Nodup
  distinct : (s.table.map Prod.fst).Nodup
  number : s.numConnections = s.connectionsList.length
  bound : s.numConnections ≤ C.maxConnections
  order : s.table.map Prod.fst = recent C.limit s.used
  queued : ∀ q ∈ s.queued, q.1 = q.2.request.pair

/-- What becomes of the table when a packet of a pair is submitted. -/
inductive Submitted (C : Config) (s : State) (pair : ConAddr) (fails : Option InitStep) (s' : State) : Prop where
  | known (as bs : List (ConAddr × Nat)) (id : Nat) (split : s.table = as ++ (pair, id) :: bs)
      (table : s'.table = as ++ bs ++ [(pair, id)]) (attempts : s'.attempts = s.attempts)
  | reused (old : ConAddr) (id : Nat) (rest : List (ConAddr × Nat)) (absent : pair ∉ s.table.map Prod.fst)
      (full : s.table.length = C.limit) (split : s.table = (old, id) :: rest) (table : s'.table = rest ++ [(pair, id)])
      (attempts : s'.attempts = s.attempts)
  | created (absent : pair ∉ s.table.map Prod.fst) (room : s.table.length < C.limit) (works : fails = none) (id : Nat)
      (table : s'.table = s.table ++ [(pair, id)]) (attempts : s'.attempts = s.attempts + 1)
  | failed (absent : pair ∉ s.table.map Prod.fst) (room : s.table.length < C.limit) (step : InitStep)
      (failing : fails = some step) (tree : s'.connectionsTree = s.connectionsTree)
      (list : s'.connectionsList = s.connectionsList) (number : s'.numConnections = s.numConnections)
      (attempts : s'.attempts = s.attempts + 1)

/-- The tree, the list, the counter and the connections are the table `es`. -/
structure Holds (C : Config) (s : State) (es : List (ConAddr × Nat)) : Prop where
  tree : s.connectionsTree.nodes.Perm es
  list : s.connectionsList = es.map Prod.snd
  pairs : (es.map Prod.fst).Nodup
  ids : (es.map Prod.snd).Nodup
  number : s.numConnections = es.length
  order : es.map Prod.fst = recent C.limit s.used
  cells : ∀ e ∈ es, ∃ con, s.heap.cell e.2 = some con ∧ con.conaddr = e.1
  listed : ∀ id con, s.heap.cell id = some con → (con.conaddr, id) ∈ es
  bounded : s.heap.Bounded
  queued : ∀ q ∈ s.queued, q.1 = q.2.request.pair

section
variable {C : Config} {s s' : State} {es : List (ConAddr × Nat)} {id : Nat} {con : Connection} {pair : ConAddr}

theorem Config.limit_pos (C : Config) : ∃ n, C.limit = n + 1 := by
  have positive := C.positive
  unfold limit
  split
  · exact ⟨2 ^ 16 - 1, rfl⟩
  · exact ⟨C.maxConnections - 1, by omega⟩

/-- No table is larger than the setting. -/
theorem Config.limit_le (C : Config) : C.limit ≤ C.maxConnections := by
  unfold limit
  split <;> omega

/-- The list and the tree have the same entries. -/
theorem Holds.table (holds : Holds C s es) : s.table = es := by
  have all : ∀ l : List (ConAddr × Nat), (∀ e ∈ l, ∃ con, s.heap.cell e.2 = some con ∧ con.conaddr = e.1) →
      (l.map Prod.snd).filterMap (fun id => (s.heap.cell id).map fun con => (con.conaddr, id)) = l := by
    intro l cells
    induction l with
    | nil => rfl
    | cons e l ih =>
      obtain ⟨con, here, own⟩ := cells e List.mem_cons_self
      rw [List.map_cons, List.filterMap_cons, here, Option.map_some, own, ih fun e mem => cells e (List.mem_cons_of_mem _ mem)]
  rw [State.table, holds.list]
  exact all es holds.cells

theorem Holds.size (holds : Holds C s es) : es.length ≤ C.limit := by
  rw [← List.length_map (f := Prod.fst), holds.order]
  exact length_recent_le

/-- A state that holds a list is consistent. -/
theorem Holds.consistent (holds : Holds C s es) : Consistent C s where
  tree := by rw [holds.table]; exact holds.tree
  list := by rw [holds.table]; exact holds.list
  once := by rw [holds.list]; exact holds.ids
  distinct := by rw [holds.table]; exact holds.pairs
  number := by rw [holds.list, List.length_map]; exact holds.number
  bound := by rw [holds.number]; exact Nat.le_trans holds.size C.limit_le
  order := by rw [holds.table]; exact holds.order
  queued := holds.queued

/-- The jobs, the buffer of the device and the other ghosts do not matter here. -/
theorem Holds.around (holds : Holds C s es) {jobs : List Job} {deviceBuf : Option Request} {attempts : Nat}
    {submitted : List Request} {delivered : List Delivery} :
    Holds C { s with jobs, deviceBuf, attempts, submitted, delivered } es := { holds with }

theorem Holds.read (holds : Holds C s es) (request : Request) : Holds C (s.deviceRead request) es := { holds with }

theorem State.deref_eq_ok : s.deref id = .ok con ↔ s.heap.cell id = some con := by
  rw [State.deref]
  cases s.heap.cell id <;> simp

/-- A pair that is in the list is found in the tree. -/
theorem Holds.findConnection_some (holds : Holds C s es) (here : (pair, id) ∈ es) : s.findConnection pair = some id :=
  Lib.Tree.lookupExact_some conaddrComparator_eq_zero holds.tree holds.pairs here

theorem Holds.findConnection_none (holds : Holds C s es) (absent : pair ∉ es.map Prod.fst) : s.findConnection pair = none :=
  Lib.Tree.lookupExact_none conaddrComparator_eq_zero holds.tree absent

/-- A connection keeps its pair. -/
theorem Holds.modify (holds : Holds C s es) {f : Connection → Connection} (same : ∀ con, (f con).conaddr = con.conaddr)
    {queued : List (ConAddr × Packet)} (own : ∀ q ∈ queued, q.1 = q.2.request.pair) :
    Holds C { s with heap := s.heap.modify id f, queued } es where
  tree := holds.tree
  list := holds.list
  pairs := holds.pairs
  ids := holds.ids
  number := holds.number
  order := holds.order
  cells e mem := by
    obtain ⟨con, here, own⟩ := holds.cells e mem
    by_cases this : e.2 = id
    · subst this
      exact ⟨f con, by rw [Heap.cell_modify_self, here]; rfl, (same con).trans own⟩
    · exact ⟨con, (Heap.cell_modify_of_ne this).trans here, own⟩
  listed j con there := by
    by_cases this : j = id
    · subst this
      rw [Heap.cell_modify_self] at there
      obtain ⟨old, here, rfl⟩ := Option.map_eq_some_iff.mp there
      rw [same]
      exact holds.listed j old here
    · exact holds.listed j con ((Heap.cell_modify_of_ne this).symm.trans there)
  bounded := holds.bounded.modify
  queued := own

/-- A used connection goes to the end of the list. -/
def State.touched (s : State) (id : Nat) (pair : ConAddr) : State :=
  { s with connectionsList := s.connectionsList.erase id ++ [id], used := s.used ++ [pair] }

/-- A connection gets another pair. -/
def State.readdressed (s : State) (id : Nat) (pair : ConAddr) : State :=
  { s with
    connectionsTree := (s.connectionsTree.remove id).insert conaddrComparator pair id
    heap := s.heap.modify id fun con => { con with conaddr := pair } }

/-- A new connection, whose first job is pending. -/
def State.opened (s : State) (pair : ConAddr) : State :=
  { s with
    attempts := s.attempts + 1
    heap := s.heap.new { conaddr := pair }
    jobs := .firstJob s.heap.next :: s.jobs
    connectionsTree := s.connectionsTree.insert conaddrComparator pair s.heap.next
    connectionsList := s.connectionsList ++ [s.heap.next]
    numConnections := s.numConnections + 1
    used := s.used ++ [pair] }

/-- An entry is there once. -/
theorem erase_split {α : Type} [DecidableEq α] {as bs : List α} {x : α} (once : (as ++ x :: bs).Nodup) :
    (as ++ x :: bs).erase x = as ++ bs := by
  have before : x ∉ as := fun mem => (List.nodup_append.mp once).2.2 x mem x List.mem_cons_self rfl
  rw [List.erase_append_right _ before, List.erase_cons_head]

/-- A connection that is used moves to the end of the list. -/
theorem Holds.touched {as bs : List (ConAddr × Nat)} (holds : Holds C s (as ++ (pair, id) :: bs)) :
    Holds C (s.touched id pair) (as ++ bs ++ [(pair, id)]) := by
  have perm : (as ++ (pair, id) :: bs).Perm (as ++ bs ++ [(pair, id)]) :=
    List.perm_middle.trans (List.perm_append_singleton _ _).symm
  exact {
    tree := holds.tree.trans perm
    list := by
      have once := holds.ids
      rw [List.map_append, List.map_cons] at once
      rw [State.touched]
      dsimp only
      rw [holds.list, List.map_append, List.map_cons, erase_split once, List.map_append, List.map_append, List.map_singleton]
    pairs := (perm.map _).nodup_iff.mp holds.pairs
    ids := (perm.map _).nodup_iff.mp holds.ids
    number := holds.number.trans perm.length_eq
    order := by
      obtain ⟨n, limit⟩ := C.limit_pos
      have order := holds.order
      have once := holds.pairs
      rw [limit, List.map_append, List.map_cons] at order
      rw [List.map_append, List.map_cons] at once
      have hit : pair ∈ recent (n + 1) s.used := by
        rw [← order]
        exact List.mem_append_right _ List.mem_cons_self
      rw [limit, State.touched, recent_hit hit, ← order, erase_split once, List.map_append, List.map_append, List.map_singleton]
    cells := fun e mem => holds.cells e (perm.mem_iff.mpr mem)
    listed := fun j con here => perm.mem_iff.mp (holds.listed j con here)
    bounded := holds.bounded
    queued := holds.queued }

/-- The least recently used connection of a full table, given to another pair. The old pair leaves
the tree before the new one enters it. With the table full, one more pair among the recent ones
drops the oldest, which is `old`. -/
theorem Holds.reused {old : ConAddr} {rest : List (ConAddr × Nat)} (holds : Holds C s ((old, id) :: rest))
    (absent : pair ∉ ((old, id) :: rest).map Prod.fst) (full : ((old, id) :: rest).length = C.limit) :
    Holds C ((s.readdressed id pair).touched id pair) (rest ++ [(pair, id)]) := by
  have ids := holds.ids
  have pairs := holds.pairs
  rw [List.map_cons, List.nodup_cons] at ids pairs
  have absent' : pair ∉ rest.map Prod.fst := fun mem => absent (List.mem_cons_of_mem _ mem)
  have apart : ∀ e ∈ rest, e.2 ≠ id := fun e mem same => ids.1 (List.mem_map.mpr ⟨e, mem, same⟩)
  exact {
    tree := by
      have removed : (s.connectionsTree.remove id).nodes.Perm ([] ++ rest) := Lib.Tree.remove_nodes holds.tree holds.ids
      exact Lib.Tree.insert_nodes conaddrComparator_eq_zero removed absent'
    list := by
      change s.connectionsList.erase id ++ [id] = _
      rw [holds.list, List.map_cons, List.erase_cons_head, List.map_append, List.map_singleton]
    pairs := by
      rw [List.map_append, List.map_singleton, List.nodup_append]
      exact ⟨pairs.2, List.nodup_singleton _, fun p mem p' last => by
        rw [List.mem_singleton.mp last]
        rintro rfl
        exact absent' mem⟩
    ids := by
      rw [List.map_append, List.map_singleton]
      exact (List.perm_append_singleton _ _).nodup_iff.mpr (List.nodup_cons.mpr ids)
    number := by
      rw [List.length_append, List.length_singleton]
      exact holds.number
    order := by
      obtain ⟨n, limit⟩ := C.limit_pos
      have order := holds.order
      rw [limit] at order full
      have miss : pair ∉ recent (n + 1) s.used := order ▸ absent
      have size : (rest.map Prod.fst ++ [pair]).length = n + 1 := by
        rw [List.length_append, List.length_map]
        exact full
      have last : ([old] ++ (rest.map Prod.fst ++ [pair])).rtake (n + 1) = rest.map Prod.fst ++ [pair] :=
        (rtake_append (.inl (Nat.le_of_eq size.symm))).trans (rtake_of_length_le (Nat.le_of_eq size))
      change _ = recent C.limit (s.used ++ [pair])
      rw [limit, recent_miss miss, ← order, List.map_append, List.map_singleton]
      exact last.symm
    cells := by
      intro e mem
      rcases List.mem_append.mp mem with mem | last
      · obtain ⟨con, here, own⟩ := holds.cells e (List.mem_cons_of_mem _ mem)
        exact ⟨con, (Heap.cell_modify_of_ne (apart e mem)).trans here, own⟩
      · rw [List.mem_singleton.mp last]
        obtain ⟨con, here, -⟩ := holds.cells (old, id) List.mem_cons_self
        exact ⟨{ con with conaddr := pair }, by rw [State.touched, State.readdressed, Heap.cell_modify_self, here]; rfl, rfl⟩
    listed := by
      intro j con there
      change (s.heap.modify id _).cell j = some con at there
      by_cases same : j = id
      · subst same
        rw [Heap.cell_modify_self] at there
        obtain ⟨_, -, rfl⟩ := Option.map_eq_some_iff.mp there
        exact List.mem_append_right _ (List.mem_singleton.mpr rfl)
      · rw [Heap.cell_modify_of_ne same] at there
        rcases List.mem_cons.mp (holds.listed j con there) with this | mem
        · exact absurd (Prod.mk.inj this).2 same
        · exact List.mem_append_left _ mem
    bounded := holds.bounded.modify
    queued := holds.queued }

/-- A new connection is put at the end. -/
theorem Holds.opened (holds : Holds C s es) (absent : pair ∉ es.map Prod.fst) (room : es.length < C.limit) :
    Holds C (s.opened pair) (es ++ [(pair, s.heap.next)]) where
  tree := Lib.Tree.insert_nodes conaddrComparator_eq_zero holds.tree absent
  list := by
    rw [State.opened, holds.list, List.map_append, List.map_singleton]
  pairs := by
    rw [List.map_append, List.map_singleton, List.nodup_append]
    exact ⟨holds.pairs, List.nodup_singleton _, fun p mem p' last => by
      rw [List.mem_singleton.mp last]
      rintro rfl
      exact absent mem⟩
  ids := by
    rw [List.map_append, List.map_singleton, List.nodup_append]
    refine ⟨holds.ids, List.nodup_singleton _, fun i mem i' last => ?_⟩
    obtain ⟨e, here, rfl⟩ := List.mem_map.mp mem
    obtain ⟨con, cell, -⟩ := holds.cells e here
    rw [List.mem_singleton.mp last]
    exact holds.bounded.ne_next cell
  number := by
    rw [List.length_append, List.length_singleton, ← holds.number]
    rfl
  order := by
    obtain ⟨n, limit⟩ := C.limit_pos
    have order := holds.order
    rw [limit] at order room
    have miss : pair ∉ recent (n + 1) s.used := order ▸ absent
    change _ = recent C.limit (s.used ++ [pair])
    rw [limit, recent_miss miss, ← order, rtake_of_length_le, List.map_append, List.map_singleton]
    rw [List.length_append, List.length_map]
    exact room
  cells e mem := by
    rcases List.mem_append.mp mem with mem | last
    · obtain ⟨con, here, own⟩ := holds.cells e mem
      exact ⟨con, (Heap.cell_new_of_ne (holds.bounded.ne_next here)).trans here, own⟩
    · rw [List.mem_singleton.mp last]
      exact ⟨{ conaddr := pair }, Heap.cell_new_self, rfl⟩
  listed j con there := by
    change (s.heap.new _).cell j = some con at there
    by_cases same : j = s.heap.next
    · subst same
      rw [Heap.cell_new_self] at there
      cases there
      exact List.mem_append_right _ (List.mem_singleton.mpr rfl)
    · rw [Heap.cell_new_of_ne same] at there
      exact List.mem_append_left _ (holds.listed j con there)
  bounded := holds.bounded.new
  queued := holds.queued

/-- What `connection_send` does: nothing, where there is no room, or the packet is queued. -/
theorem connectionSend_cases {request : Request} {room : Option Nat} (done : s.connectionSend id request room = .ok s') :
    ∃ con, s.heap.cell id = some con ∧ (s' = s ∨ ∃ bytes, bytes = socksUdpHeader con.conaddr.remoteAddr ++ request.data ∧
      s' = { s with
        heap := s.heap.modify id fun con => { con with queue := con.queue ++ [⟨request, bytes⟩] }
        queued := s.queued ++ [(con.conaddr, ⟨request, bytes⟩)] }) := by
  obtain ⟨con, here, done⟩ := bind_eq_ok.mp done
  refine ⟨con, State.deref_eq_ok.mp here, ?_⟩
  cases room with
  | none =>
    cases done
    exact .inl rfl
  | some avail =>
    cases done
    exact .inr ⟨_, rfl, rfl⟩

/-- It never fails for a connection, however long the packet is. -/
theorem connectionSend_total (request : Request) (room : Option Nat) (here : s.heap.cell id = some con) :
    ∃ s', s.connectionSend id request room = .ok s' := by
  rw [State.connectionSend, State.deref_eq_ok.mpr here, ok_bind]
  cases room with
  | none => exact ⟨_, rfl⟩
  | some avail => exact ⟨_, rfl⟩

/-- A packet of the pair that the connection has may be queued on it. -/
theorem Holds.send (holds : Holds C s es) {request : Request} {room : Option Nat} (mem : (request.pair, id) ∈ es)
    (done : s.connectionSend id request room = .ok s') : Holds C s' es := by
  obtain ⟨con, here, same | ⟨bytes, -, same⟩⟩ := connectionSend_cases done
  · rw [same]
    exact holds
  · obtain ⟨con', here', own⟩ := holds.cells _ mem
    cases here.symm.trans here'
    rw [same]
    refine holds.modify (fun _ => by rfl) fun q queued => ?_
    rcases List.mem_append.mp queued with old | last
    · exact holds.queued q old
    · rw [List.mem_singleton.mp last]
      exact own

/-! ## Submitting a packet -/

/-- The states that `SocksUdpGwClient_SubmitPacket` leads to where the table is `es`. -/
inductive Placed (C : Config) (s : State) (es : List (ConAddr × Nat)) (request : Request) (fails : Option InitStep)
    (room : Option Nat) : State → Prop where
  | known {s' : State} (id : Nat) (mem : (request.pair, id) ∈ es)
      (done : (s.touched id request.pair).connectionSend id request room = .ok s') : Placed C s es request fails room s'
  | reused {s' : State} (old : ConAddr) (id : Nat) (rest : List (ConAddr × Nat)) (absent : request.pair ∉ es.map Prod.fst)
      (full : es.length = C.limit) (split : es = (old, id) :: rest)
      (done : ((s.readdressed id request.pair).touched id request.pair).connectionSend id request room = .ok s') :
      Placed C s es request fails room s'
  | created (absent : request.pair ∉ es.map Prod.fst) (space : es.length < C.limit) (works : fails = none) :
      Placed C s es request fails room (s.opened request.pair)
  | failed (absent : request.pair ∉ es.map Prod.fst) (space : es.length < C.limit) (step : InitStep)
      (failing : fails = some step) (next : Nat) (later : s.heap.next ≤ next) :
      Placed C s es request fails room { s with attempts := s.attempts + 1, heap := { cell := s.heap.cell, next } }

/-- `SocksUdpGwClient_SubmitPacket` never fails, whatever the packet is. -/
theorem Holds.placed (holds : Holds C s es) (request : Request) (fails : Option InitStep) (room : Option Nat) :
    ∃ s', s.submitPacket C request fails room = .ok s' ∧ Placed C s es request fails room s' := by
  unfold State.submitPacket State.oldConnection
  by_cases known : request.pair ∈ es.map Prod.fst
  · obtain ⟨⟨_, id⟩, mem, rfl⟩ := List.mem_map.mp known
    obtain ⟨con, here, -⟩ := holds.cells _ mem
    obtain ⟨s', done⟩ := connectionSend_total (s := s.touched id request.pair) request room here
    rw [holds.findConnection_some mem, ok_bind]
    exact ⟨s', done, .known id mem done⟩
  · simp only [holds.findConnection_none known]
    by_cases full : s.numConnections = C.limit
    · -- the table is full, so its list has a first connection
      rw [holds.number] at full
      obtain ⟨n, limit⟩ := C.limit_pos
      obtain ⟨⟨old, id⟩, rest, split⟩ := List.exists_cons_of_length_pos (show 0 < es.length by omega)
      obtain ⟨con, here, -⟩ := holds.cells (old, id) (by rw [split]; exact List.mem_cons_self)
      have first : s.connectionsList.head? = some id := by rw [holds.list, split]; rfl
      have reuse : s.reuseConnection request.pair = .ok (id, s.readdressed id request.pair) := by
        rw [State.reuseConnection, first, deref_some, ok_bind, State.deref_eq_ok.mpr here]
        rfl
      have there : ((s.readdressed id request.pair).touched id request.pair).heap.cell id = some { con with conaddr := request.pair } := by
        rw [State.touched, State.readdressed, Heap.cell_modify_self, here]
        rfl
      obtain ⟨s', done⟩ := connectionSend_total request room there
      rw [if_pos (holds.number.trans full), reuse]
      exact ⟨s', done, .reused old id rest known full split done⟩
    · rw [if_neg full, ok_bind]
      have space : es.length < C.limit := by
        have size := holds.size
        rw [holds.number] at full
        omega
      unfold State.connectionInit
      by_cases memory : fails = some .malloc
      · rw [if_pos memory]
        exact ⟨_, rfl, .failed known space _ memory s.heap.next (Nat.le_refl _)⟩
      · rw [if_neg memory]
        cases fails with
        | none => exact ⟨_, rfl, .created known space rfl⟩
        | some step =>
          simp only [Heap.free_new_self holds.bounded, List.erase_cons_head]
          exact ⟨_, rfl, .failed known space step rfl _ (Nat.le_succ _)⟩

/-- The table after a packet has been submitted, and the jobs. -/
theorem Placed.holds {request : Request} {fails : Option InitStep} {room : Option Nat}
    (placed : Placed C s es request fails room s') (holds : Holds C s es) :
    ∃ es', Holds C s' es' ∧ Submitted C s request.pair fails s' ∧ s'.deviceBuf = s.deviceBuf ∧
      (s'.jobs = s.jobs ∨ ∃ id, s'.jobs = .firstJob id :: s.jobs ∧ (request.pair, id) ∈ es') := by
  have table := holds.table
  cases placed with
  | known id mem done =>
    obtain ⟨as, bs, rfl⟩ := List.append_of_mem mem
    have after := holds.touched.send (List.mem_append_right _ (List.mem_singleton.mpr rfl)) done
    obtain ⟨con, -, rest⟩ := connectionSend_cases done
    refine ⟨_, after, .known as bs id table after.table ?_, ?_, .inl ?_⟩ <;>
      rcases rest with rfl | ⟨bytes, -, rfl⟩ <;> rfl
  | reused old id rest absent full split done =>
    subst split
    have after := (holds.reused absent full).send (List.mem_append_right _ (List.mem_singleton.mpr rfl)) done
    obtain ⟨con, -, sent⟩ := connectionSend_cases done
    refine ⟨_, after, .reused old id rest (table ▸ absent) (table ▸ full) table after.table ?_, ?_, .inl ?_⟩ <;>
      rcases sent with rfl | ⟨bytes, -, rfl⟩ <;> rfl
  | created absent space works =>
    have after := holds.opened absent space
    refine ⟨_, after, .created (table ▸ absent) (table ▸ space) works s.heap.next ?_ rfl, rfl, .inr ⟨_, rfl, ?_⟩⟩
    · rw [after.table, table]
    · exact List.mem_append_right _ (List.mem_singleton.mpr rfl)
  | failed absent space step fails next later =>
    refine ⟨es, { holds with bounded := ?_ }, .failed (table ▸ absent) (table ▸ space) step fails rfl rfl rfl rfl, rfl, .inl rfl⟩
    intro i above
    exact holds.bounded i (Nat.le_trans later above)

/-! ## Whole runs -/

/-- Nothing is pending while the device may give a packet. Otherwise the first job of a new
connection may be pending; the packet that made the connection is still in the buffer. -/
inductive Scheduled (s : State) (es : List (ConAddr × Nat)) : Prop where
  | idle (jobs : s.jobs = [])
  | done (jobs : s.jobs = [.deviceDone])
  | first (id : Nat) (request : Request) (jobs : s.jobs = [.firstJob id, .deviceDone])
      (deviceBuf : s.deviceBuf = some request) (own : (request.pair, id) ∈ es)

/-- The invariant of every run. -/
def Sound (C : Config) (s : State) : Prop := ∃ es, Holds C s es ∧ Scheduled s es

/-- The client has no connection yet. -/
theorem sound_start (C : Config) : Sound C {} := by
  refine ⟨[], ?_, .idle rfl⟩
  exact {
    tree := .refl _
    list := rfl
    pairs := List.nodup_nil
    ids := List.nodup_nil
    number := rfl
    order := (recent_nil).symm
    cells := nofun
    listed := nofun
    bounded := fun _ _ => rfl
    queued := nofun }

/-- A packet is read only while no job is waiting. -/
theorem Sound.idle (sound : Sound C s) {request : Request} {fails : Option InitStep} {room : Option Nat}
    (on : (machine C).enabled s (.packet request fails room) = true) : s.jobs = [] := by
  obtain ⟨es, -, scheduled⟩ := sound
  have free : Job.deviceDone ∉ s.jobs := of_decide_eq_true (Bool.and_eq_true_iff.mp on).1
  cases scheduled with
  | idle jobs => exact jobs
  | done jobs => exact absurd (by rw [jobs]; simp) free
  | first _ _ jobs => exact absurd (by rw [jobs]; simp) free

/-- A packet is submitted, and keeps the invariant. -/
theorem Sound.packet (sound : Sound C s) {request : Request} {fails : Option InitStep} {room : Option Nat}
    (on : (machine C).enabled s (.packet request fails room) = true) :
    ∃ s', (machine C).fire s (.packet request fails room) = .ok s' ∧ Sound C s' ∧ Submitted C s request.pair fails s' := by
  have none_ := sound.idle on
  obtain ⟨es, holds, -⟩ := sound
  obtain ⟨s', fired, placed⟩ := (holds.read request).placed request fails room
  obtain ⟨es', holds', submitted, deviceBuf, jobs⟩ := placed.holds (holds.read request)
  rw [State.deviceRead, none_] at jobs
  refine ⟨s', fired, ⟨es', holds', ?_⟩, ?_⟩
  · rcases jobs with jobs | ⟨id, jobs, own⟩
    · exact .done jobs
    · exact .first id request jobs deviceBuf own
  · cases submitted with
    | known as bs id split table attempts => exact .known as bs id split table attempts
    | reused old id rest absent full split table attempts => exact .reused old id rest absent full split table attempts
    | created absent room works id table attempts => exact .created absent room works id table attempts
    | failed absent room step failing tree list number attempts =>
      exact .failed absent room step failing tree list number attempts

/-- A job runs: the end of the device's packet, or the first packet of a new connection is sent. -/
theorem Sound.job (sound : Sound C s) (room : Option Nat) (some_ : s.jobs ≠ []) : ∃ s', s.executeJob room = .ok s' ∧ Sound C s' := by
  obtain ⟨es, holds, scheduled⟩ := sound
  cases scheduled with
  | idle jobs => exact absurd jobs some_
  | done jobs =>
    rw [State.executeJob, jobs]
    exact ⟨_, rfl, es, holds.around, .idle rfl⟩
  | first id request jobs deviceBuf own =>
    obtain ⟨con, here, -⟩ := holds.cells _ own
    obtain ⟨s', fired⟩ := connectionSend_total (s := { s with jobs := [.deviceDone] }) request room here
    refine ⟨s', ?_, es, holds.around.send own fired, .done ?_⟩
    · rw [State.executeJob, jobs]
      dsimp only
      rw [State.connectionFirstJobHandler, show Lib.deref s.deviceBuf = .ok request by rw [deviceBuf]; rfl, ok_bind]
      exact fired
    · obtain ⟨con, -, rfl | ⟨bytes, -, rfl⟩⟩ := connectionSend_cases fired <;> rfl

theorem Scheduled.congr (scheduled : Scheduled s es) (jobs : s'.jobs = s.jobs) (deviceBuf : s'.deviceBuf = s.deviceBuf) :
    Scheduled s' es := by
  cases scheduled with
  | idle none_ => exact .idle (jobs.trans none_)
  | done last => exact .done (jobs.trans last)
  | first id request both buffered own => exact .first id request (jobs.trans both) (deviceBuf.trans buffered) own

/-- What the sockets do changes no entry. -/
theorem Sound.send (sound : Sound C s) (ok : Bool) (here : s.heap.cell id = some con) :
    ∃ s', s.sendFirst id ok = .ok s' ∧ Sound C s' := by
  obtain ⟨es, holds, scheduled⟩ := sound
  rw [State.sendFirst, State.deref_eq_ok.mpr here, ok_bind]
  cases con.queue with
  | nil => exact ⟨s, rfl, es, holds, scheduled⟩
  | cons packet queue => exact ⟨_, rfl, es, holds.modify (fun _ => by rfl) holds.queued, scheduled.congr rfl rfl⟩

/-- A datagram from ss-local is dropped or delivered. -/
theorem arrive_total (i : Nat) (reply : Bytes) (here : s.heap.cell id = some con) :
    ∃ delivered, s.arrive C id i reply = .ok { s with delivered } := by
  rw [State.arrive, State.deref_eq_ok.mpr here, ok_bind]
  split
  · exact ⟨_, rfl⟩
  · dsimp only [State.dgramHandlerReceived]
    rw [State.deref_eq_ok.mpr here, ok_bind]
    repeat' split
    all_goals exact ⟨_, rfl⟩

theorem Sound.arrive (sound : Sound C s) (i : Nat) (reply : Bytes) (here : s.heap.cell id = some con) :
    ∃ s', s.arrive C id i reply = .ok s' ∧ Sound C s' := by
  obtain ⟨es, holds, scheduled⟩ := sound
  obtain ⟨delivered, fired⟩ := arrive_total i reply here
  exact ⟨_, fired, es, holds.around, scheduled.congr rfl rfl⟩

/-- Nothing that can happen fails, and all of it keeps the invariant. -/
theorem Sound.step (sound : Sound C s) {e : Event} (on : (machine C).enabled s e = true) :
    ∃ s', (machine C).fire s e = .ok s' ∧ Sound C s' := by
  cases e with
  | packet request fails room =>
    obtain ⟨s', fired, sound', -⟩ := sound.packet on
    exact ⟨s', fired, sound'⟩
  | job room => exact sound.job room (of_decide_eq_true (Bool.and_eq_true_iff.mp on).1)
  | send id ok =>
    obtain ⟨con, here, -⟩ := (Option.any_eq_true _ _).mp on
    exact sound.send ok here
  | arrive id i reply =>
    obtain ⟨con, here, -⟩ := (Option.any_eq_true _ _).mp on
    exact sound.arrive i reply here

/-- Whatever happens, the client stays sound. -/
theorem Sound.fire (sound : Sound C s) {e : Event} (on : (machine C).enabled s e = true)
    (fired : (machine C).fire s e = .ok s') : Sound C s' := by
  obtain ⟨s'', done, sound'⟩ := sound.step on
  cases done.symm.trans fired
  exact sound'

theorem reach_sound {allowed : State → Event → Prop} (run : (machine C).Reach allowed {} s) : Sound C s :=
  run.invariant (Sound C) (sound_start C) fun _ _ _ sound on _ fired => sound.fire on fired

/-- In every reachable state the tree, the list and the counter are one table of the pairs
used last, and each packet has been queued for its own pair. Whatever packet the device gives,
however long it is, it is submitted as the table requires, and nothing that can happen fails. -/
theorem table_consistent (C : Config) {s : State} (run : (machine C).Reach (fun _ _ => True) {} s) :
    Consistent C s ∧
    (∀ request fails room, (machine C).enabled s (.packet request fails room) = true →
      ∃ s', (machine C).fire s (.packet request fails room) = .ok s' ∧ Submitted C s request.pair fails s') ∧
    ∀ e, (machine C).enabled s e = true → ∃ s', (machine C).fire s e = .ok s' := by
  have sound := reach_sound run
  refine ⟨?_, fun request fails room on => ?_, fun e on => ?_⟩
  · obtain ⟨es, holds, -⟩ := sound
    exact holds.consistent
  · obtain ⟨s', fired, -, submitted⟩ := sound.packet on
    exact ⟨s', fired, submitted⟩
  · obtain ⟨s', fired, -⟩ := sound.step on
    exact ⟨s', fired⟩

end

/-! ## A table of one connection -/

def demo : Config where
  udpMtu := 64
  maxConnections := 1
  positive := Nat.one_pos

/-- The port `n` of 10.0.0.1 sends a byte to 8.8.8.8, port 7. -/
def demoRequest (n : UInt16) : Request where
  pair := { localAddr := .ipv4 ⟨0x0A000001, n⟩, remoteAddr := .ipv4 ⟨0x08080808, 7⟩ }
  data := [1]

/-- The packet of one port, and the jobs after it. -/
def demoPackets (n : UInt16) (fails : Option InitStep) : List Event :=
  [.packet (demoRequest n) fails (some 64), .job (some 64), .job none]

/-- `connection_init` fails once. Then a second port takes the connection of the first, for a packet that is longer than `udp_mtu`. -/
theorem table_consistent_one : ∃ s : State, s.used = [(demoRequest 1).pair, (demoRequest 2).pair] ∧ s.attempts = 2 ∧
    (s.queued.map fun q => q.2.bytes.length) = [11, 70] ∧ Consistent demo s := by
  obtain ⟨s, run, twice⟩ := Machine.exists_of_leadsTo (show (machine demo).leadsTo {}
    ([.packet (demoRequest 1) (some .sendBuffer) (some 64), .job none] ++ demoPackets 1 none ++
      [.packet { demoRequest 2 with data := List.replicate 60 1 } none (some 64), .job none])
    (fun s => decide (s.used = [(demoRequest 1).pair, (demoRequest 2).pair] ∧ s.attempts = 2 ∧
      (s.queued.map fun q => q.2.bytes.length) = [11, 70])) = true by decide +kernel)
  obtain ⟨used, attempts, lengths⟩ := of_decide_eq_true twice
  exact ⟨s, used, attempts, lengths, (table_consistent demo (.of_run .refl (fun _ _ _ => trivial) run)).1⟩

end Shadowsocks.Tun2socks
