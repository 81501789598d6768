import Shadowsocks.Cache
import Shadowsocks.Lib.Machine

/-!
# The cache over whole runs

Recency is the order of the hash table: a hit takes its entry out and puts it in again. After
any calls the entries are in the order of their last uses, with the data they were inserted
with; an insertion that would fill the cache drops the entry used longest ago, and `free_cb`
gets the data of exactly the entries that have left.
-/

namespace Shadowsocks
set_option autoImplicit false
open Lib

/-! ## Calls -/

inductive CacheCall (δ : Type) where
  | insert (key : Bytes) (data : Option δ)
  | lookup (key : Bytes)
  | keyExist (key : Bytes)
  | remove (key : Bytes)

/-- The data that a call brings along. -/
def CacheCall.data {δ : Type} : CacheCall δ → Option δ
  | .insert _ data => data
  | .lookup _ | .keyExist _ | .remove _ => none

/-- A cache in use, with its history: `uses` are the keys in the order of their uses, `inserted`
all entries there have been and `freed` what `free_cb` was called with. -/
structure CacheRun (δ : Type) where
  cache : Cache δ
  uses : List Bytes := []
  inserted : List (Bytes × Option δ) := []
  freed : List δ := []
  removed : Bool := false

namespace CacheRun
variable {δ : Type}

def start (δ : Type) (capacity : Nat) : CacheRun δ where
  cache := cacheCreate δ capacity

/-- What the call hands to `free_cb`. -/
def frees (s : CacheRun δ) : CacheCall δ → Option δ
  | .insert key data => (cacheInsert s.cache key data).2
  | .remove key => (cacheRemove s.cache key).2
  | .lookup _ | .keyExist _ => none

/-- After a test for `key` that left `cache`; a hit is a use. -/
def tested (s : CacheRun δ) (key : Bytes) (cache : Cache δ) : CacheRun δ :=
  { s with cache, uses := if key ∈ s.cache.keys then s.uses ++ [key] else s.uses }

def call (s : CacheRun δ) : CacheCall δ → CacheRun δ
  | .insert key data =>
    { s with
      cache := (cacheInsert s.cache key data).1
      uses := s.uses ++ [key]
      inserted := s.inserted ++ [(key, data)]
      freed := s.freed ++ (cacheInsert s.cache key data).2.toList }
  | .lookup key => s.tested key (cacheLookup s.cache key).2
  | .keyExist key => s.tested key (cacheKeyExist s.cache key).2
  | .remove key =>
    { s with
      cache := (cacheRemove s.cache key).1
      freed := s.freed ++ (cacheRemove s.cache key).2.toList
      removed := true }

/-- The data of the entries, where it is not `NULL`. -/
def live (s : CacheRun δ) : List δ := s.cache.entries.filterMap Prod.snd

/-- A key that is inserted is not in the cache. -/
def Fresh (s : CacheRun δ) : CacheCall δ → Prop
  | .insert key _ => key ∉ s.cache.keys
  | .lookup _ | .keyExist _ | .remove _ => True

instance (s : CacheRun δ) (call : CacheCall δ) : Decidable (s.Fresh call) :=
  match call with
  | .insert key _ => inferInstanceAs (Decidable (key ∉ s.cache.keys))
  | .lookup _ | .keyExist _ | .remove _ => .isTrue trivial

/-- Nor is the data. -/
def FreshData (s : CacheRun δ) (call : CacheCall δ) : Prop :=
  s.Fresh call ∧ ∀ p ∈ call.data, p ∉ s.live

end CacheRun

/-- The calls one after the other. -/
def cacheMachine (δ : Type) : Machine (CacheRun δ) (CacheCall δ) Empty where
  enabled _ _ := true
  fire s call := .ok (s.call call)

/-! ## What the history says of the entries -/

/-- Entries in the order of their last uses, with the data of their last insertions. -/
structure Ordered {δ : Type} (uses : List Bytes) (inserted entries : List (Bytes × Option δ)) : Prop where
  distinct : (entries.map Prod.fst).Nodup
  used : ∀ key ∈ entries.map Prod.fst, key ∈ uses
  order : (entries.map Prod.fst).Pairwise (UsedBefore uses)
  data : ∀ e ∈ entries, LastInserted inserted e

section
variable {δ : Type} {uses : List Bytes} {inserted entries : List (Bytes × Option δ)}

theorem Ordered.sublist (ordered : Ordered uses inserted entries) {entries' : List (Bytes × Option δ)}
    (sub : entries'.Sublist entries) : Ordered uses inserted entries' where
  distinct := ordered.distinct.sublist (sub.map _)
  used key mem := ordered.used key ((sub.map _).mem mem)
  order := ordered.order.sublist (sub.map _)
  data e mem := ordered.data e (sub.mem mem)

theorem Ordered.insert (ordered : Ordered uses inserted entries) {key : Bytes} (fresh : key ∉ entries.map Prod.fst)
    (data : Option δ) : Ordered (uses ++ [key]) (inserted ++ [(key, data)]) (entries ++ [(key, data)]) := by
  have keys : (entries ++ [(key, data)]).map Prod.fst = entries.map Prod.fst ++ [key] := List.map_append
  constructor
  · rw [keys]
    exact List.nodup_append.mpr ⟨ordered.distinct, List.nodup_singleton _, fun k mem k' last same =>
      fresh (List.mem_singleton.mp last ▸ same ▸ mem)⟩
  · rw [keys]
    intro k mem
    exact List.mem_append.mpr ((List.mem_append.mp mem).imp_left (ordered.used k))
  · rw [keys]
    exact pairwise_usedBefore_concat ordered.order ordered.used fresh
  · intro e mem
    rcases List.mem_append.mp mem with mem | last
    · exact (ordered.data e mem).concat fun (same : key = e.1) => fresh (same ▸ List.mem_map_of_mem mem)
    · rw [List.mem_singleton.mp last]
      exact lastInserted_concat _ _

/-- The entry of `key` goes to the end. -/
theorem Ordered.moved (ordered : Ordered uses inserted entries) {key : Bytes} {entries' : List (Bytes × Option δ)}
    (keys : entries'.map Prod.fst = (entries.map Prod.fst).erase key ++ [key])
    (same : entries'.Perm entries) : Ordered (uses ++ [key]) inserted entries' := by
  have gone : key ∉ (entries.map Prod.fst).erase key := fun mem => (ordered.distinct.mem_erase_iff.mp mem).1 rfl
  constructor
  · exact (same.map Prod.fst).nodup_iff.mpr ordered.distinct
  · intro k mem
    exact List.mem_append_left _ (ordered.used k ((same.map Prod.fst).mem_iff.mp mem))
  · rw [keys]
    exact pairwise_usedBefore_concat (ordered.order.sublist List.erase_sublist)
      (fun other mem => ordered.used other (List.mem_of_mem_erase mem)) gone
  · exact fun e mem => ordered.data e (same.mem_iff.mp mem)

end

/-! ## The data -/

section
variable {δ : Type}

theorem cacheLookup_snd (c : Cache δ) (key : Bytes) : (cacheLookup c key).2 = (cacheKeyExist c key).2 := by
  rw [cacheLookup, cacheKeyExist]
  cases c.find key <;> rfl

theorem cacheKeyExist_perm (c : Cache δ) (key : Bytes) : (cacheKeyExist c key).2.entries.Perm c.entries := by
  rw [← cacheLookup_snd]
  exact (cacheLookup_perm c key).1

/-- The data of one entry in front of the others. -/
theorem filterMap_snd_cons (e : Bytes × Option δ) (entries : List (Bytes × Option δ)) :
    (e :: entries).filterMap Prod.snd = e.2.toList ++ entries.filterMap Prod.snd := by
  rw [List.filterMap_cons]
  cases e.2 <;> rfl

/-- What was in the cache or is brought along is in the cache afterwards or is freed. -/
theorem CacheRun.settles (s : CacheRun δ) (call : CacheCall δ) :
    ((s.frees call).toList ++ (s.call call).live).Perm (s.live ++ call.data.toList) := by
  cases call with
  | insert key data =>
    have all : (s.cache.entries ++ [(key, data)]).filterMap Prod.snd = s.live ++ data.toList := by
      rw [List.filterMap_append, filterMap_snd_cons, List.filterMap_nil, List.append_nil]
      rfl
    refine .trans (.of_eq ?_) (.of_eq all)
    simp only [CacheRun.call, frees, live, cacheInsert]
    split
    · cases s.cache.entries ++ [(key, data)] with
      | nil => rfl
      | cons oldest rest => exact (filterMap_snd_cons oldest rest).symm
    · rfl
  | lookup key =>
    change ((cacheLookup s.cache key).2.entries.filterMap Prod.snd).Perm (s.live ++ [])
    rw [List.append_nil]
    exact (cacheLookup_perm s.cache key).1.filterMap _
  | keyExist key =>
    change ((cacheKeyExist s.cache key).2.entries.filterMap Prod.snd).Perm (s.live ++ [])
    rw [List.append_nil]
    exact (cacheKeyExist_perm s.cache key).filterMap _
  | remove key =>
    change (_ ++ _ : List δ).Perm (s.live ++ [])
    rw [List.append_nil]
    simp only [CacheRun.call, frees, live, cacheRemove]
    cases found : s.cache.find key with
    | none => exact .refl _
    | some e =>
      dsimp only
      rw [← filterMap_snd_cons]
      exact (Cache.unlink_perm found).filterMap _

theorem CacheRun.freed_call (s : CacheRun δ) (call : CacheCall δ) : (s.call call).freed = s.freed ++ (s.frees call).toList := by
  cases call with
  | insert | remove => rfl
  | lookup | keyExist => exact (List.append_nil _).symm

theorem CacheRun.inserted_call (s : CacheRun δ) (call : CacheCall δ) :
    (s.call call).inserted.filterMap Prod.snd = s.inserted.filterMap Prod.snd ++ call.data.toList := by
  cases call with
  | insert key data =>
    change (s.inserted ++ [(key, data)]).filterMap Prod.snd = _
    rw [List.filterMap_append, filterMap_snd_cons, List.filterMap_nil, List.append_nil]
    rfl
  | lookup | keyExist | remove => exact (List.append_nil _).symm

/-- All data that was inserted is in the cache or was freed. -/
theorem CacheRun.ledger_call {s : CacheRun δ} (call : CacheCall δ)
    (ledger : (s.inserted.filterMap Prod.snd).Perm (s.freed ++ s.live)) :
    ((s.call call).inserted.filterMap Prod.snd).Perm ((s.call call).freed ++ (s.call call).live) := by
  rw [inserted_call, freed_call, List.append_assoc]
  refine (ledger.append_right _).trans ?_
  rw [List.append_assoc]
  exact (s.settles call).symm.append_left _

end

/-- The cache after a history: without calls of `cache_remove` its keys are the `n` used last. All
data that was inserted is in the cache or was freed. -/
structure CacheRun.Exact {δ : Type} (n : Nat) (s : CacheRun δ) : Prop where
  capacity : s.cache.maxEntries = n + 1
  bounded : s.cache.entries.length ≤ n
  ordered : Ordered s.uses s.inserted s.cache.entries
  ledger : (s.inserted.filterMap Prod.snd).Perm (s.freed ++ s.live)
  latest : s.removed = false → s.cache.keys = recent n s.uses

section
variable {δ : Type} {n : Nat} {s : CacheRun δ} {key : Bytes}

theorem CacheRun.start_exact {c : Nat} (two : 2 ≤ c) : (CacheRun.start δ c).Exact (c - 1) where
  capacity := by
    change c = c - 1 + 1
    omega
  bounded := Nat.zero_le _
  ordered := ⟨.nil, nofun, .nil, nofun⟩
  ledger := .refl _
  latest _ := recent_nil.symm

/-! ## The calls -/

theorem CacheRun.tested_miss (miss : key ∉ s.cache.keys) : s.tested key (cacheKeyExist s.cache key).2 = s := by
  rw [cacheKeyExist_fresh miss, CacheRun.tested, if_neg miss]

theorem CacheRun.Exact.tested (exact_ : s.Exact (n + 1)) (key : Bytes) :
    (s.tested key (cacheKeyExist s.cache key).2).Exact (n + 1) := by
  by_cases hit : key ∈ s.cache.keys
  · obtain ⟨capacity, moved⟩ := cacheKeyExist_keys hit
    have perm := cacheKeyExist_perm s.cache key
    have uses : (s.tested key (cacheKeyExist s.cache key).2).uses = s.uses ++ [key] := if_pos hit
    constructor
    · exact capacity.trans exact_.capacity
    · exact Nat.le_trans (Nat.le_of_eq perm.length_eq) exact_.bounded
    · rw [uses]
      exact exact_.ordered.moved moved perm
    · exact CacheRun.ledger_call (.keyExist key) exact_.ledger
    · intro none_
      rw [uses]
      have keys := exact_.latest none_
      refine moved.trans ?_
      rw [keys] at hit ⊢
      convert (recent_hit hit).symm
  · rwa [CacheRun.tested_miss hit]

/-- An insertion with room to spare. -/
theorem cacheInsert_room {c : Cache δ} (capacity : c.maxEntries = n + 1) (room : c.entries.length < n) (key : Bytes)
    (data : Option δ) : cacheInsert c key data = ({ c with entries := c.entries ++ [(key, data)] }, none) := by
  rw [cacheInsert, if_neg]
  rw [capacity, List.length_append, List.length_singleton]
  omega

/-- An insertion that fills the cache. -/
theorem cacheInsert_full {c : Cache δ} (capacity : c.maxEntries = n + 1) (full : c.entries.length = n) (some_ : 1 ≤ n)
    (key : Bytes) (data : Option δ) : ∃ oldest rest, c.entries = oldest :: rest ∧
      cacheInsert c key data = ({ c with entries := rest ++ [(key, data)] }, oldest.2) := by
  cases all : c.entries with
  | nil =>
    rw [all, List.length_nil] at full
    omega
  | cons oldest rest =>
    refine ⟨oldest, rest, rfl, ?_⟩
    rw [cacheInsert, if_pos]
    · rw [all]
      rfl
    · rw [capacity, List.length_append, List.length_singleton]
      omega

open CacheRun in
theorem CacheRun.Exact.insert (exact_ : s.Exact (n + 1)) (fresh : key ∉ s.cache.keys) (data : Option δ) :
    (s.call (.insert key data)).Exact (n + 1) := by
  have ordered := exact_.ordered.insert fresh data
  have keys := cacheInsert_keys key exact_.capacity (by rw [Cache.keys, List.length_map]; exact exact_.bounded) data
  have last : s.removed = false → (cacheInsert s.cache key data).1.keys = recent (n + 1) (s.uses ++ [key]) := by
    intro none_
    have held := exact_.latest none_
    rw [keys.2]
    rw [held] at fresh ⊢
    convert (recent_miss fresh).symm
  rcases Nat.lt_or_eq_of_le exact_.bounded with room | full
  · have inserted := cacheInsert_room exact_.capacity room key data
    constructor
    · exact keys.1.trans exact_.capacity
    · simp only [call, inserted, List.length_append, List.length_singleton]
      exact room
    · simp only [call, inserted]
      exact ordered
    · exact ledger_call (.insert key data) exact_.ledger
    · exact last
  · obtain ⟨oldest, rest, all, inserted⟩ := cacheInsert_full exact_.capacity full (Nat.succ_pos n) key data
    constructor
    · exact keys.1.trans exact_.capacity
    · rw [all, List.length_cons] at full
      simp only [call, inserted, List.length_append, List.length_singleton]
      exact Nat.le_of_eq full
    · simp only [call, inserted]
      rw [all] at ordered
      exact ordered.sublist (List.sublist_cons_self _ _)
    · exact ledger_call (.insert key data) exact_.ledger
    · exact last

theorem cacheRemove_miss {c : Cache δ} (miss : key ∉ c.keys) : cacheRemove c key = (c, none) := by
  rw [cacheRemove, Cache.find_eq_none miss]

theorem cacheRemove_hit {c : Cache δ} {e : Bytes × Option δ} (once : c.keys.Nodup) (mem : e ∈ c.entries) :
    cacheRemove c e.1 = (c.unlink e.1, e.2) := by
  rw [cacheRemove, Cache.find_of_mem once mem]

open CacheRun in
theorem CacheRun.Exact.remove (exact_ : s.Exact n) (key : Bytes) : (s.call (.remove key)).Exact n := by
  by_cases hit : key ∈ s.cache.keys
  · obtain ⟨e, mem, rfl⟩ := List.mem_map.mp hit
    have removed := cacheRemove_hit exact_.ordered.distinct mem
    have sub : (s.cache.unlink e.1).entries.Sublist s.cache.entries := List.eraseP_sublist
    constructor
    · simp only [call, removed]
      exact exact_.capacity
    · simp only [call, removed]
      exact Nat.le_trans sub.length_le exact_.bounded
    · simp only [call, removed]
      exact exact_.ordered.sublist sub
    · exact ledger_call (.remove e.1) exact_.ledger
    · exact nofun
  · have removed := cacheRemove_miss hit
    constructor
    · simp only [call, removed]
      exact exact_.capacity
    · simp only [call, removed]
      exact exact_.bounded
    · simp only [call, removed]
      exact exact_.ordered
    · exact ledger_call (.remove key) exact_.ledger
    · exact nofun

/-- Every call keeps it. -/
theorem CacheRun.Exact.call (exact_ : s.Exact (n + 1)) {call : CacheCall δ} (fresh : s.Fresh call) :
    (s.call call).Exact (n + 1) := by
  cases call with
  | insert key data => exact exact_.insert fresh data
  | lookup key =>
    have tested := exact_.tested key
    rwa [← cacheLookup_snd] at tested
  | keyExist key => exact exact_.tested key
  | remove key => exact exact_.remove key

/-! ## What the next call does -/

/-- A test finds exactly the keys in the cache, and their data; an insertion drops nothing or, at
the bound, the entry used longest ago; a removal drops its entry. What is dropped is freed. -/
structure CacheRun.Behaves (n : Nat) (s : CacheRun δ) : Prop where
  hit : ∀ e ∈ s.cache.entries, (cacheLookup s.cache e.1).1 = e.2 ∧ (cacheKeyExist s.cache e.1).1 = true
  miss : ∀ key, key ∉ s.cache.keys → (cacheLookup s.cache key).1 = none ∧ (cacheKeyExist s.cache key).1 = false ∧
    (cacheLookup s.cache key).2 = s.cache ∧ (cacheKeyExist s.cache key).2 = s.cache
  room : ∀ key data, key ∉ s.cache.keys → s.cache.entries.length < n →
    (s.call (.insert key data)).cache.entries = s.cache.entries ++ [(key, data)] ∧ s.frees (.insert key data) = none
  full : ∀ key data, key ∉ s.cache.keys → s.cache.entries.length = n → ∃ oldest rest, s.cache.entries = oldest :: rest ∧
    (∀ e ∈ rest, UsedBefore s.uses oldest.1 e.1) ∧
    (s.call (.insert key data)).cache.entries = rest ++ [(key, data)] ∧ s.frees (.insert key data) = oldest.2
  remove : ∀ e ∈ s.cache.entries, (e :: (s.call (.remove e.1)).cache.entries).Perm s.cache.entries ∧ s.frees (.remove e.1) = e.2
  absent : ∀ key, key ∉ s.cache.keys → (s.call (.remove key)).cache = s.cache ∧ s.frees (.remove key) = none

theorem CacheRun.Exact.behaves (exact_ : s.Exact (n + 1)) : s.Behaves (n + 1) where
  hit e mem := ⟨cacheLookup_hit exact_.ordered.distinct mem, cacheKeyExist_iff.mpr (List.mem_map_of_mem mem)⟩
  miss key miss := by
    rw [cacheLookup_miss miss, cacheKeyExist_fresh miss]
    exact ⟨rfl, rfl, rfl, rfl⟩
  room key data _ room := by
    have inserted := cacheInsert_room exact_.capacity room key data
    simp only [CacheRun.call, frees, inserted, and_self]
  full key data _ full := by
    obtain ⟨oldest, rest, all, inserted⟩ := cacheInsert_full exact_.capacity full (Nat.succ_pos n) key data
    have order := exact_.ordered.order
    rw [all, List.map_cons, List.pairwise_cons] at order
    refine ⟨oldest, rest, all, fun e mem => order.1 _ (List.mem_map_of_mem mem), ?_⟩
    simp only [CacheRun.call, frees, inserted, and_self]
  remove e mem := by
    have removed := cacheRemove_hit exact_.ordered.distinct mem
    simp only [CacheRun.call, frees, removed, and_true]
    exact Cache.unlink_perm (Cache.find_of_mem exact_.ordered.distinct mem)
  absent key miss := by
    have removed := cacheRemove_miss miss
    simp only [CacheRun.call, frees, removed, and_self]

/-- Where no two entries share their data, and none gets it twice, what is freed is not in the cache. -/
theorem CacheRun.frees_apart (distinct : s.live.Nodup) {call : CacheCall δ} (fresh : s.FreshData call) :
    (s.call call).live.Nodup ∧ ∀ p ∈ s.frees call, p ∉ (s.call call).live := by
  have before : (s.live ++ call.data.toList).Nodup := by
    refine List.nodup_append.mpr ⟨distinct, ?_, fun p mem q new same => ?_⟩
    · cases call.data with
      | none => exact .nil
      | some p => exact List.nodup_singleton p
    · exact fresh.2 q (Option.mem_toList.mp new) (same ▸ mem)
  obtain ⟨-, kept, apart⟩ := List.nodup_append.mp ((s.settles call).nodup_iff.mpr before)
  exact ⟨kept, fun p mem still => apart p (Option.mem_toList.mpr mem) p still rfl⟩

/-- The cache is an exact LRU. Over every run of calls that insert keys that are not there, the entries
are in the order of their last uses, at most `c - 1`, with the data of their insertions; the next call
drops what an LRU drops; and what was inserted is there or was freed. If the data that is inserted is
not there either, no call frees data that is still there. -/
theorem cache_exact_lru {c : Nat} (two : 2 ≤ c) :
    (∀ s, (cacheMachine δ).Reach CacheRun.Fresh (.start δ c) s → s.Exact (c - 1) ∧ s.Behaves (c - 1)) ∧
    ∀ s, (cacheMachine δ).Reach CacheRun.FreshData (.start δ c) s →
      ∀ call, s.FreshData call → ∀ p ∈ s.frees call, p ∉ (s.call call).live := by
  obtain ⟨n, rfl⟩ := Nat.exists_eq_add_of_le' two
  constructor
  · intro s reached
    have exact_ : s.Exact (n + 1) := by
      refine reached.invariant (CacheRun.Exact (n + 1)) (CacheRun.start_exact two) fun s call s' inv _ fresh fired => ?_
      cases fired
      exact inv.call fresh
    exact ⟨exact_, exact_.behaves⟩
  · intro s reached call fresh
    have distinct : s.live.Nodup := by
      refine reached.invariant (fun s => s.live.Nodup) .nil fun s call s' inv _ fresh fired => ?_
      cases fired
      exact (CacheRun.frees_apart inv fresh).1
    exact (CacheRun.frees_apart distinct fresh).2

/-- Two entries fill a cache of three. The third key drops the second one, since the first was looked up. -/
theorem cache_exact_lru_three : ∃ s, (cacheMachine Nat).Reach CacheRun.Fresh (.start Nat 3) s ∧
    s.cache.keys = [[1], [3]] ∧ s.freed = [20] ∧ s.Exact 2 ∧ s.Behaves 2 := by
  have ran : ((cacheMachine Nat).restrict fun s call => decide (s.Fresh call)).leadsTo (.start Nat 3)
      [.insert [1] (some 10), .insert [2] (some 20), .lookup [1], .insert [3] none]
      (fun s => s.cache.keys = [[1], [3]] && s.freed = [20]) = true := by
    decide
  obtain ⟨s, run, ends⟩ := Machine.exists_of_leadsTo ran
  obtain ⟨keys, freed⟩ := Bool.and_eq_true_iff.mp ends
  have reached : (cacheMachine Nat).Reach CacheRun.Fresh (.start Nat 3) s :=
    Machine.Reach.of_restrict (fun _ _ => of_decide_eq_true) .refl run
  obtain ⟨exact_, behaves⟩ := (cache_exact_lru (show 2 ≤ 3 by decide)).1 s reached
  exact ⟨s, reached, of_decide_eq_true keys, of_decide_eq_true freed, exact_, behaves⟩

end

end Shadowsocks
