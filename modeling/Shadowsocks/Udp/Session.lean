import Shadowsocks.Cache
import Shadowsocks.Lib.Heap
import Shadowsocks.Udp.Header

/-!
# The sessions of a UDP relay

A session is a `remote_ctx_t`: a socket for one client (and, in ss-server, one address
family) with an idle timer. `conn_cache` maps the keys of the clients to the sessions
and frees a session when its entry is removed or makes room for another one. Following
a pointer to a freed session is the fault `useAfterFree`.
-/

namespace Shadowsocks.Udp
set_option autoImplicit false
open Lib

/-- `remote_ctx_t`. `started` says that its io watcher and its timer are. The last field is
a ghost: the header whose destination `dst_addr` is. -/
structure RemoteCtx where
  af : UInt16 := afUnspec
  addrHeader : Bytes
  srcAddr : Sockaddr
  dstAddr : Sockaddr := .zero
  started : Bool := false
  answered : Bytes := []

/-- A call of `sendto` in `remote_recv_cb`: a packet for the client of a session. `src` is the address that ss-redir has
bound the socket to; the other relays send on the socket that they listen on. -/
structure Replied where
  packet : Bytes
  dst : Sockaddr
  src : Option Sockaddr := none

/-- The key under which the session is in `conn_cache`. -/
def RemoteCtx.key (r : RemoteCtx) : Bytes := hashKey r.af r.srcAddr

/-- `ev_io_start` and `ev_timer_start`. -/
def RemoteCtx.start (r : RemoteCtx) : RemoteCtx := { r with started := true }

/-- `conn_cache` and the sessions that exist. -/
structure Sessions where
  cache : Cache Nat
  heap : Heap RemoteCtx

namespace Sessions

/-- `init_udprelay`. -/
def init (maxUdpConnNum : Nat) : Sessions where
  cache := cacheCreate Nat maxUdpConnNum
  heap := {}

def deref (s : Sessions) (id : Nat) : Except Fault RemoteCtx :=
  match s.heap.cell id with
  | some r => .ok r
  | none => .error .useAfterFree

/-- `new_remote`: the session is at `s.heap.next`. -/
def newRemote (s : Sessions) (r : RemoteCtx) : Sessions := { s with heap := s.heap.new r }

def modify (s : Sessions) (id : Nat) (f : RemoteCtx → RemoteCtx) : Sessions := { s with heap := s.heap.modify id f }

/-- `close_and_free_remote`. -/
def closeAndFreeRemote (s : Sessions) (id : Nat) : Except Fault Sessions := do
  let _ ← s.deref id
  pure { s with heap := s.heap.free id }

/-- `free_cb`, called unless the data is null. -/
def freeCb (s : Sessions) (data : Option Nat) : Except Fault Sessions :=
  match data with
  | some id => s.closeAndFreeRemote id
  | none => pure s

/-- `cache_lookup`. -/
def lookup (s : Sessions) (key : Bytes) : Option Nat × Sessions :=
  let (found, cache) := cacheLookup s.cache key
  (found, { s with cache })

/-- The lookup in `server_recv_cb`, with the check that the session is of this client. -/
def lookupClient (s : Sessions) (af : UInt16) (src : Sockaddr) : Except Fault (Option Nat × Sessions) :=
  let (found, s) := s.lookup (hashKey af src)
  match found with
  | some id => do
    let r ← s.deref id
    pure (if sockaddrCmp src r.srcAddr 128 then none else some id, s)
  | none => pure (none, s)

/-- `cache_insert` and the start of the watchers. -/
def insertAndStart (s : Sessions) (id : Nat) (key : Bytes) : Except Fault Sessions := do
  let (cache, evicted) := cacheInsert s.cache key (some id)
  let s ← { s with cache }.freeCb evicted
  let _ ← s.deref id
  pure (s.modify id RemoteCtx.start)

/-- `remote_timeout_cb`. -/
def remoteTimeoutCb (s : Sessions) (id : Nat) : Except Fault Sessions := do
  let r ← s.deref id
  let (cache, removed) := cacheRemove s.cache r.key
  { s with cache }.freeCb removed

/-- The watchers of the session are on. -/
def watched (s : Sessions) (id : Nat) : Bool := (s.heap.cell id).any RemoteCtx.started

/-- The sessions in the cache. -/
def data (s : Sessions) : List (Option Nat) := s.cache.entries.map Prod.snd

/-- The session that makes room for the next one if the cache is full. -/
def oldest (s : Sessions) : Option Nat := s.cache.entries.head?.bind Prod.snd

/-! ## The cache and the live sessions -/

/-- `conn_cache` and the live sessions are the same set, of fewer than `n`. -/
structure Live (n : Nat) (s : Sessions) : Prop where
  owned : ∀ id, some id ∈ s.data ↔ ∃ r, s.heap.cell id = some r ∧ r.started = true
  keyed : ∀ e ∈ s.cache.entries, ∃ id r, e.2 = some id ∧ s.heap.cell id = some r ∧ e.1 = hashKey r.af r.srcAddr
  once : s.cache.keys.Nodup
  bound : s.cache.entries.length ≤ n - 1

/-- What holds between two callbacks: each session that exists has an entry, and each entry
a session that is running. -/
structure Sound (n : Nat) (s : Sessions) : Prop where
  listed : ∀ id r, s.heap.cell id = some r → (r.key, some id) ∈ s.cache.entries
  keyed : ∀ e ∈ s.cache.entries, ∃ id r, e = (r.key, some id) ∧ s.heap.cell id = some r ∧ r.started = true
  once : s.cache.keys.Nodup
  bound : s.cache.entries.length ≤ n - 1
  capacity : s.cache.maxEntries = n
  bounded : s.heap.Bounded

/-- The sessions are as before; only the order of the entries may have changed. -/
structure Kept (n : Nat) (s s' : Sessions) : Prop where
  sound : s'.Sound n
  cell : s'.heap.cell = s.heap.cell
  next : s.heap.next ≤ s'.heap.next

/-- A new session is there; in a full cache it has taken the place of the oldest one. -/
inductive Entered (n : Nat) (s : Sessions) (r : RemoteCtx) (s' : Sessions) : Prop where
  | room (sound : s'.Sound n) (size : s.cache.entries.length + 1 < n) (heap : s'.heap = s.heap.new r.start)
  | full (sound : s'.Sound n) (size : s.cache.entries.length + 1 = n) (old : Nat) (oldest : s.oldest = some old)
      (here : (s.heap.cell old).isSome = true) (heap : s'.heap = (s.heap.free old).new r.start)

section
variable {n : Nat} {s s' : Sessions} {id : Nat} {r : RemoteCtx}

theorem Entered.sound (entered : Entered n s r s') : s'.Sound n := by
  cases entered <;> assumption

/-- Nothing but the new session is new. -/
theorem Entered.cell {ctx : RemoteCtx} (entered : Entered n s r s') (here : s'.heap.cell id = some ctx) :
    s.heap.cell id = some ctx ∨ id = s.heap.next ∧ ctx = r.start := by
  have new : ∀ h : Heap RemoteCtx, h.next = s.heap.next → (∀ j c, h.cell j = some c → s.heap.cell j = some c) →
      (h.new r.start).cell id = some ctx → s.heap.cell id = some ctx ∨ id = s.heap.next ∧ ctx = r.start := by
    intro h next older there
    by_cases same : id = h.next
    · subst same
      rw [Heap.cell_new_self] at there
      exact .inr ⟨next, (Option.some.inj there).symm⟩
    · rw [Heap.cell_new_of_ne same] at there
      exact .inl (older _ _ there)
  cases entered with
  | room _ _ heap => exact new s.heap rfl (fun _ _ there => there) (heap ▸ here)
  | full _ _ old _ _ heap =>
    refine new (s.heap.free old) rfl (fun j c there => ?_) (heap ▸ here)
    by_cases same : j = old
    · rw [same, Heap.cell_free_self] at there
      cases there
    · rwa [Heap.cell_free_of_ne same] at there

/-- The new session is at the next address. -/
theorem Entered.here (entered : Entered n s r s') : s'.heap.cell s.heap.next = some r.start := by
  cases entered with
  | room _ _ heap =>
    rw [heap]
    exact Heap.cell_new_self
  | full _ _ old _ _ heap =>
    rw [heap]
    exact Heap.cell_new_self

/-- Addresses are given out once. -/
theorem Entered.next (entered : Entered n s r s') : s'.heap.next = s.heap.next + 1 := by
  cases entered with
  | room _ _ heap => rw [heap]; rfl
  | full _ _ old _ _ heap => rw [heap]; rfl

theorem Kept.isSome (kept : Kept n s s') (here : (s.heap.cell id).isSome = true) : (s'.heap.cell id).isSome = true := by
  rw [kept.cell]
  exact here

theorem Sound.kept (sound : s.Sound n) : Kept n s s := ⟨sound, rfl, Nat.le_refl _⟩

theorem sound_init (n : Nat) : Sound n (init n) where
  listed id r here := by cases here
  keyed e mem := by cases mem
  once := List.nodup_nil
  bound := Nat.zero_le _
  capacity := rfl
  bounded _ _ := rfl

theorem deref_ok (here : s.heap.cell id = some r) : s.deref id = .ok r := by
  rw [deref, here]

theorem deref_eq_ok : s.deref id = .ok r ↔ s.heap.cell id = some r := by
  rw [deref]
  cases s.heap.cell id <;> simp

theorem watched_iff : s.watched id = true ↔ ∃ r, s.heap.cell id = some r ∧ r.started = true := by
  rw [watched]
  cases s.heap.cell id <;> simp

theorem closeAndFreeRemote_ok (here : s.heap.cell id = some r) :
    s.closeAndFreeRemote id = .ok { s with heap := s.heap.free id } := by
  rw [closeAndFreeRemote, deref_ok here]
  rfl

theorem Sound.started (sound : s.Sound n) (here : s.heap.cell id = some r) : r.started = true := by
  obtain ⟨id', r', same, here', on⟩ := sound.keyed _ (sound.listed id r here)
  cases (Prod.mk.inj same).2
  cases here.symm.trans here'
  exact on

theorem Sound.live (sound : s.Sound n) : s.Live n where
  owned id := by
    constructor
    · intro listed
      obtain ⟨e, mem, data⟩ := List.mem_map.mp listed
      obtain ⟨id', r, rfl, here, on⟩ := sound.keyed e mem
      cases data
      exact ⟨r, here, on⟩
    · rintro ⟨r, here, -⟩
      exact List.mem_map_of_mem (sound.listed id r here)
  keyed e mem := by
    obtain ⟨id, r, rfl, here, -⟩ := sound.keyed e mem
    exact ⟨id, r, rfl, here, rfl⟩
  once := sound.once
  bound := sound.bound

/-- Sessions with one key are the same. -/
theorem Sound.unique (sound : s.Sound n) {id' : Nat} {r' : RemoteCtx} (here : s.heap.cell id = some r)
    (here' : s.heap.cell id' = some r') (same : r.key = r'.key) : id = id' := by
  have found := Cache.find_of_mem sound.once (sound.listed id r here)
  have found' := Cache.find_of_mem sound.once (sound.listed id' r' here')
  rw [same, found'] at found
  exact Option.some.inj (Prod.mk.inj (Option.some.inj found)).2.symm

/-- A session that is not the oldest of a full cache stays when another one comes. -/
theorem Entered.isSome (entered : Entered n s r s') (sound : s.Sound n) (here : (s.heap.cell id).isSome = true)
    (stays : s.cache.entries.length + 1 = n → s.oldest ≠ some id) : (s'.heap.cell id).isSome = true := by
  obtain ⟨ctx, at_⟩ := Option.isSome_iff_exists.mp here
  have ne := sound.bounded.ne_next at_
  cases entered with
  | room _ _ heap =>
    rw [heap, Heap.cell_new_of_ne ne]
    exact here
  | full _ size old oldest _ heap =>
    have apart : id ≠ old := by
      rintro rfl
      exact stays size oldest
    rw [heap, Heap.cell_new_of_ne (show id ≠ (s.heap.free old).next from ne), Heap.cell_free_of_ne apart]
    exact here

/-- A lookup changes nothing but the order of the entries, and finds the session with the
key if there is one. -/
theorem Sound.lookup (sound : s.Sound n) (key : Bytes) :
    Kept n s (s.lookup key).2 ∧
      (∀ id, (s.lookup key).1 = some id → ∃ r, s.heap.cell id = some r ∧ r.key = key) ∧
      ((s.lookup key).1 = none → key ∉ s.cache.keys ∧ (s.lookup key).2 = s) := by
  obtain ⟨perm, capacity⟩ := cacheLookup_perm s.cache key
  -- the data of an entry is never null
  have hit : key ∈ s.cache.keys → ∃ id r, (s.lookup key).1 = some id ∧ s.heap.cell id = some r ∧ r.key = key := by
    intro hit
    obtain ⟨e, mem, rfl⟩ := List.mem_map.mp hit
    obtain ⟨id, r, rfl, here, -⟩ := sound.keyed e mem
    exact ⟨id, r, cacheLookup_hit sound.once mem, here, rfl⟩
  refine ⟨⟨?_, rfl, Nat.le_refl _⟩, ?_, ?_⟩
  · exact {
      listed := fun id r here => perm.mem_iff.mpr (sound.listed id r here)
      keyed := fun e mem => sound.keyed e (perm.mem_iff.mp mem)
      once := ((perm.map Prod.fst).nodup_iff).mpr sound.once
      bound := perm.length_eq ▸ sound.bound
      capacity := capacity.trans sound.capacity
      bounded := sound.bounded }
  · intro id found
    by_cases known : key ∈ s.cache.keys
    · obtain ⟨id', r, data, here, same⟩ := hit known
      rw [found] at data
      cases data
      exact ⟨r, here, same⟩
    · rw [Sessions.lookup, cacheLookup_miss known] at found
      cases found
  · intro none_
    have miss : key ∉ s.cache.keys := by
      intro known
      obtain ⟨id', r, data, -, -⟩ := hit known
      rw [none_] at data
      cases data
    exact ⟨miss, by rw [Sessions.lookup, cacheLookup_miss miss]⟩

/-- What is found is never of another client. -/
theorem Sound.lookupClient (sound : s.Sound n) (af : UInt16) (src : Sockaddr) :
    s.lookupClient af src = .ok (s.lookup (hashKey af src)) := by
  obtain ⟨kept, hit, -⟩ := sound.lookup (hashKey af src)
  rw [Sessions.lookupClient]
  cases looked : s.lookup (hashKey af src) with
  | mk found s' =>
    rw [looked] at hit kept
    cases found with
    | none => rfl
    | some id =>
      obtain ⟨r, here, key⟩ := hit id rfl
      obtain ⟨-, same⟩ := hashKey_injective key
      dsimp only
      rw [deref_ok (by rw [kept.cell, here]), ok_bind]
      simp [same]

/-- Other fields of a session may change. -/
theorem Sound.modify (sound : s.Sound n) (id : Nat) {f : RemoteCtx → RemoteCtx} (key : ∀ r, (f r).key = r.key)
    (run : ∀ r, (f r).started = r.started) : (s.modify id f).Sound n where
  listed j r' here' := by
    by_cases same : j = id
    · subst same
      obtain ⟨r, here, rfl⟩ := Option.map_eq_some_iff.mp (Heap.cell_modify_self.symm.trans here')
      rw [key]
      exact sound.listed j r here
    · exact sound.listed j r' ((Heap.cell_modify_of_ne same).symm.trans here')
  keyed e mem := by
    obtain ⟨j, r, rfl, here, on⟩ := sound.keyed e mem
    by_cases same : j = id
    · subst same
      exact ⟨j, f r, by rw [key], Heap.cell_modify_self.trans (by rw [here]; rfl), (run r).trans on⟩
    · exact ⟨j, r, rfl, (Heap.cell_modify_of_ne same).trans here, on⟩
  once := sound.once
  bound := sound.bound
  capacity := sound.capacity
  bounded := sound.bounded.modify

/-- A session that was created and freed again leaves nothing behind. -/
theorem Sound.dropped (sound : s.Sound n) (r : RemoteCtx) :
    ∃ s', (s.newRemote r).closeAndFreeRemote s.heap.next = .ok s' ∧ Kept n s s' := by
  have cell : ((s.heap.new r).free s.heap.next).cell = s.heap.cell := by
    funext j
    by_cases same : j = s.heap.next
    · rw [same, Heap.cell_free_self, sound.bounded _ (Nat.le_refl _)]
    · rw [Heap.cell_free_of_ne same, Heap.cell_new_of_ne same]
  refine ⟨{ s with heap := (s.heap.new r).free s.heap.next }, closeAndFreeRemote_ok Heap.cell_new_self, ?_, cell,
    Nat.le_succ _⟩
  exact {
    listed := fun id r here => sound.listed id r (cell ▸ here)
    keyed := fun e mem => by dsimp only; rw [cell]; exact sound.keyed e mem
    once := sound.once
    bound := sound.bound
    capacity := sound.capacity
    bounded := sound.bounded.new.free }

/-- The entry of another session is not affected when one goes. -/
theorem Sound.free (sound : s.Sound n) (here : s.heap.cell id = some r) {rest : List (Bytes × Option Nat)}
    (perm : ((r.key, some id) :: rest).Perm s.cache.entries) :
    Sound n { cache := { s.cache with entries := rest }, heap := s.heap.free id } where
  listed j r' here' := by
    by_cases same : j = id
    · rw [same, Heap.cell_free_self] at here'
      cases here'
    · rcases List.mem_cons.mp (perm.mem_iff.mpr (sound.listed j r' ((Heap.cell_free_of_ne same).symm.trans here'))) with
        own | other
      · exact absurd (Option.some.inj (Prod.mk.inj own).2) same
      · exact other
  keyed e mem := by
    obtain ⟨j, r', rfl, here', on⟩ := sound.keyed e (perm.mem_iff.mp (List.mem_cons_of_mem _ mem))
    refine ⟨j, r', rfl, (Heap.cell_free_of_ne ?_).trans here', on⟩
    rintro rfl
    -- the key would be there twice
    have keys := (perm.map Prod.fst).nodup_iff.mpr sound.once
    rw [List.map_cons, List.nodup_cons] at keys
    cases here.symm.trans here'
    exact keys.1 (List.mem_map_of_mem mem)
  once := by
    have keys := (perm.map Prod.fst).nodup_iff.mpr sound.once
    rw [List.map_cons, List.nodup_cons] at keys
    exact keys.2
  bound := by
    have size := perm.length_eq
    have bound := sound.bound
    rw [List.length_cons] at size
    dsimp only
    omega
  capacity := sound.capacity
  bounded := sound.bounded.free

/-- The idle timer frees its own session. -/
theorem Sound.timeout (sound : s.Sound n) (here : s.heap.cell id = some r) :
    ∃ s', s.remoteTimeoutCb id = .ok s' ∧ s'.Sound n ∧ s'.heap = s.heap.free id := by
  have found : s.cache.find r.key = some (r.key, some id) := Cache.find_of_mem sound.once (sound.listed id r here)
  refine ⟨{ cache := s.cache.unlink r.key, heap := s.heap.free id }, ?_, sound.free here (Cache.unlink_perm found), rfl⟩
  rw [remoteTimeoutCb, deref_ok here, ok_bind, cacheRemove, found]
  exact closeAndFreeRemote_ok here

theorem Sound.add (sound : s.Sound n) (fresh : r.key ∉ s.cache.keys) (room : s.cache.entries.length + 1 < n) :
    Sound n { cache := { s.cache with entries := s.cache.entries ++ [(r.key, some s.heap.next)] }, heap := s.heap.new r.start } where
  listed j r' here' := by
    by_cases same : j = s.heap.next
    · subst same
      rw [Heap.cell_new_self] at here'
      cases here'
      exact List.mem_append_right _ (List.mem_singleton.mpr rfl)
    · exact List.mem_append_left _ (sound.listed j r' ((Heap.cell_new_of_ne same).symm.trans here'))
  keyed e mem := by
    rcases List.mem_append.mp mem with mem | last
    · obtain ⟨j, r', rfl, here', on⟩ := sound.keyed e mem
      exact ⟨j, r', rfl, (Heap.cell_new_of_ne (sound.bounded.ne_next here')).trans here', on⟩
    · cases List.mem_singleton.mp last
      exact ⟨s.heap.next, r.start, rfl, Heap.cell_new_self, rfl⟩
  once := by
    rw [Cache.keys, List.map_append, List.map_singleton]
    exact List.nodup_append.mpr ⟨sound.once, List.nodup_singleton _, fun key mem key' last => by
      rw [List.mem_singleton.mp last]
      rintro rfl
      exact fresh mem⟩
  bound := by
    rw [List.length_append, List.length_singleton]
    omega
  capacity := sound.capacity
  bounded := sound.bounded.new

/-- A new session takes its place in the cache; in a full cache the place of the oldest. -/
theorem Sound.enter (sound : s.Sound n) (two : 1 < n) (fresh : r.key ∉ s.cache.keys) :
    ∃ s', (s.newRemote r).insertAndStart s.heap.next r.key = .ok s' ∧ Entered n s r s' := by
  have bound := sound.bound
  have capacity := sound.capacity
  by_cases room : s.cache.entries.length + 1 < n
  · refine ⟨_, ?_, .room (sound.add fresh room) room rfl⟩
    rw [insertAndStart, cacheInsert, newRemote]
    simp only [List.length_append, List.length_singleton, capacity, show ¬ n ≤ s.cache.entries.length + 1 by omega, if_false]
    rw [freeCb, pure_eq_ok, ok_bind, deref_ok Heap.cell_new_self, ok_bind]
    exact congrArg (fun h => Except.ok (Sessions.mk _ h)) Heap.modify_new
  · obtain ⟨⟨k, d⟩, rest, entries⟩ := List.exists_cons_of_length_pos (show 0 < s.cache.entries.length by omega)
    obtain ⟨old, r', same, here, on⟩ := sound.keyed (k, d) (by rw [entries]; exact List.mem_cons_self)
    obtain ⟨rfl, rfl⟩ := Prod.mk.inj same
    have ne := sound.bounded.ne_next here
    have size : rest.length + 2 = n := by
      rw [entries, List.length_cons] at bound room
      omega
    have free := sound.free here (show ((r'.key, some old) :: rest).Perm s.cache.entries by rw [entries])
    have fresh' : r.key ∉ (rest.map Prod.fst) := by
      intro mem
      rw [Cache.keys, entries] at fresh
      exact fresh (List.mem_cons_of_mem _ mem)
    refine ⟨_, ?_, .full (free.add fresh' (by dsimp only; omega)) (by omega) old (by rw [oldest, entries]; rfl)
      (by rw [here]; rfl) rfl⟩
    rw [insertAndStart, cacheInsert, newRemote]
    simp only [List.length_append, List.length_singleton, capacity, show n ≤ s.cache.entries.length + 1 by omega, if_true]
    simp only [entries, List.cons_append, List.tail_cons, List.head?_cons, Option.bind_some]
    rw [freeCb, closeAndFreeRemote_ok ((Heap.cell_new_of_ne ne).trans here), ok_bind, Heap.free_new ne]
    rw [deref_ok (s := ⟨_, (s.heap.free old).new r⟩) (show ((s.heap.free old).new r).cell s.heap.next = some r from
      Heap.cell_new_self), ok_bind]
    exact congrArg (fun h => Except.ok (Sessions.mk _ h)) Heap.modify_new

end

end Sessions

end Shadowsocks.Udp
