import Shadowsocks.Udp.Local
import Shadowsocks.Udp.Plain

/-!
# The cache and the live sessions

In every run of either relay `conn_cache` and the sessions that are live are the same set
(`sessions_live`). A session is freed by its own timer, or as the oldest one of a full
cache when another one enters; nothing else takes one away.
-/

namespace Shadowsocks.Udp
set_option autoImplicit false
open Lib

namespace Sessions

/-- The session is there before, and not behind. -/
def Frees (s s' : Sessions) (id : Nat) : Prop := (s.heap.cell id).isSome = true ∧ s'.heap.cell id = none

/-- Exactly the session `old` of a full cache is freed, and the one that was created takes
its place. -/
structure Evicts (n : Nat) (s s' : Sessions) (old : Nat) : Prop where
  full : s.cache.entries.length + 1 = n
  cached : some old ∈ s.data
  only : ∀ id, Frees s s' id ↔ id = old
  created : s.heap.cell s.heap.next = none ∧ some s.heap.next ∈ s'.data
  apart : old ≠ s.heap.next

/-- The session ends, and no other one. -/
structure Ends (s s' : Sessions) (id : Nat) : Prop where
  cached : some id ∈ s.data
  only : ∀ j, Frees s s' j ↔ j = id

section
variable {n : Nat} {s s' : Sessions} {id : Nat} {r : RemoteCtx}

theorem Sound.cached (sound : s.Sound n) (here : s.heap.cell id = some r) : some id ∈ s.data :=
  List.mem_map_of_mem (sound.listed id r here)

/-- What is freed by itself. -/
theorem frees_free (here : s.heap.cell id = some r) (heap : s'.heap = s.heap.free id) (j : Nat) : Frees s s' j ↔ j = id := by
  rw [Frees, heap]
  constructor
  · rintro ⟨there, gone⟩
    by_contra other
    rw [Heap.cell_free_of_ne other] at gone
    rw [gone] at there
    cases there
  · rintro rfl
    exact ⟨by rw [here]; rfl, Heap.cell_free_self⟩

theorem Kept.spares (kept : Kept n s s') (id : Nat) : ¬ Frees s s' id := by
  rintro ⟨there, gone⟩
  rw [kept.cell] at gone
  rw [gone] at there
  cases there

theorem Kept.spares_modify (kept : Kept n s s') (f : RemoteCtx → RemoteCtx) (id j : Nat) : ¬ Frees s (s'.modify id f) j := by
  rintro ⟨there, gone⟩
  have isSome := Heap.isSome_cell_modify (h := s'.heap) (f := f) (i := id) (j := j)
  rw [kept.cell, there] at isSome
  rw [Sessions.modify] at gone
  dsimp only at gone
  rw [gone] at isSome
  cases isSome

/-- A session that enters frees none, or evicts one. -/
theorem Entered.evicts (entered : Entered n s r s') (sound : s.Sound n) :
    (∀ id, ¬ Frees s s' id) ∨ ∃ old, Evicts n s s' old := by
  have unused := sound.bounded _ (Nat.le_refl s.heap.next)
  cases entered with
  | room _ _ heap =>
    refine .inl fun id frees => ?_
    obtain ⟨there, gone⟩ := frees
    obtain ⟨r', here⟩ := Option.isSome_iff_exists.mp there
    rw [heap, Heap.cell_new_of_ne (sound.bounded.ne_next here), here] at gone
    cases gone
  | full sound' size old oldest there heap =>
    obtain ⟨r', here⟩ := Option.isSome_iff_exists.mp there
    have ne := sound.bounded.ne_next here
    have created : s'.heap.cell s.heap.next = some r.start := by
      rw [heap]
      exact Heap.cell_new_self (h := s.heap.free old)
    refine .inr ⟨old, size, sound.cached here, fun id => ⟨?_, ?_⟩, ⟨unused, sound'.cached created⟩, ne⟩
    · rintro ⟨there, gone⟩
      obtain ⟨r'', here'⟩ := Option.isSome_iff_exists.mp there
      by_contra other
      rw [heap, Heap.cell_new_of_ne (show id ≠ (s.heap.free old).next from sound.bounded.ne_next here'),
        Heap.cell_free_of_ne other, here'] at gone
      cases gone
    · rintro rfl
      refine ⟨there, ?_⟩
      rw [heap, Heap.cell_new_of_ne (show id ≠ (s.heap.free id).next from ne), Heap.cell_free_self]

end

end Sessions

/-- What the claims of a relay on its sessions come to in one state: they are in the cache;
the timer of one ends it; and any other event ends none, or evicts one. -/
structure Keeper {σ ε : Type} (M : Machine σ ε Fault) (sessions : σ → Sessions) (timeout : Nat → ε) (n : Nat) (s : σ) : Prop where
  live : (sessions s).Live n
  ends : ∀ id, M.enabled s (timeout id) = true →
    ∃ s', M.fire s (timeout id) = .ok s' ∧ (sessions s).Ends (sessions s') id
  others : ∀ e s', M.enabled s e = true → (∀ id, e ≠ timeout id) → M.fire s e = .ok s' →
    (∀ id, ¬ (sessions s).Frees (sessions s') id) ∨ ∃ old, (sessions s).Evicts n (sessions s') old

namespace Remote
variable {P : Platform} {C : Config P} {s : State}

theorem Routed.evicts {src : Sockaddr} {r : Request} {io : Io} {s' : State} (routed : Routed s src r io s')
    (sound : s.sessions.Sound maxUdpConnNum) :
    (∀ id, ¬ s.sessions.Frees s'.sessions id) ∨ ∃ old, s.sessions.Evicts maxUdpConnNum s'.sessions old := by
  cases routed with
  | literal _ _ _ kept => exact .inl kept.spares
  | asks _ _ _ kept =>
    unfold State.ask
    split
    · exact .inl kept.spares
    · exact .inl kept.spares
  | again _ _ _ kept => exact .inl kept.spares
  | noSocket => exact .inl sound.kept.spares
  | opened _ _ _ _ entered => exact entered.evicts sound
  | unsent _ _ kept => exact .inl kept.spares
  | queries =>
    unfold State.ask
    split
    · exact .inl sound.kept.spares
    · exact .inl sound.kept.spares

theorem Resolved.evicts {q : Query} {addr : Sockaddr} {io : Io} {s' : State} (resolved : Resolved s q addr io s')
    (sound : s.sessions.Sound maxUdpConnNum) :
    (∀ id, ¬ s.sessions.Frees s'.sessions id) ∨ ∃ old, s.sessions.Evicts maxUdpConnNum s'.sessions old := by
  cases resolved with
  | updated id _ _ kept => exact .inl (kept.spares_modify _ id)
  | noSocket => exact .inl sound.kept.spares
  | opened _ _ _ entered => exact entered.evicts sound
  | unsent _ kept => exact .inl kept.spares

theorem keeper (sound : s.sessions.Sound maxUdpConnNum) :
    Keeper (machine C) State.sessions Event.remoteTimeout maxUdpConnNum s where
  live := sound.live
  ends id on := by
    obtain ⟨ctx, here, -⟩ := Sessions.watched_iff.mp on
    obtain ⟨sessions, expired, -, heap⟩ := sound.timeout here
    refine ⟨{ s with sessions }, ?_, sound.cached here, Sessions.frees_free here heap⟩
    exact bind_eq_ok.mpr ⟨sessions, expired, rfl⟩
  others e s' on other done := by
    have fired := fire_cases sound on done
    cases fired with
    | dropped => exact .inl sound.kept.spares
    | routed _ _ _ _ _ _ _ _ _ outcome => exact outcome.evicts sound
    | unanswered => exact .inl sound.kept.spares
    | answered _ _ _ _ _ outcome => exact outcome.evicts sound
    | replied => exact .inl sound.kept.spares
    | expired id => exact absurd rfl (other id)

end Remote

namespace Local
variable {P : Platform} {C : Config P} {s : State}

theorem keeper (sound : s.sessions.Sound maxUdpConnNum) :
    Keeper (machine C) State.sessions Event.remoteTimeout maxUdpConnNum s where
  live := sound.live
  ends id on := by
    obtain ⟨ctx, here, -⟩ := Sessions.watched_iff.mp on
    obtain ⟨sessions, expired, -, heap⟩ := sound.timeout here
    refine ⟨{ s with sessions }, ?_, sound.cached here, Sessions.frees_free here heap⟩
    exact bind_eq_ok.mpr ⟨sessions, expired, rfl⟩
  others e s' on other done := by
    have fired := fire_cases sound on done
    cases fired with
    | dropped => exact .inl sound.kept.spares
    | ignored _ _ _ _ _ _ _ _ _ _ kept => exact .inl kept.spares
    | relayed _ _ _ _ _ _ _ _ _ _ _ moved =>
      rcases moved with kept | ⟨ctx, entered⟩
      · exact .inl kept.spares
      · exact entered.evicts sound
    | answered => exact .inl sound.kept.spares
    | expired id => exact absurd rfl (other id)

end Local

/-- Between two callbacks of a relay its cache holds the live sessions, under their keys
and each once, and there are fewer than `MAX_UDP_CONN_NUM`; a timer frees its own session,
and an eviction the oldest one of a full cache, never the one that was just inserted. -/
theorem sessions_live {P : Platform} (C : Remote.Config P) (L : Local.Config P) :
    (∀ s, (Remote.machine C).Reach (fun _ _ => True) (Remote.start C) s →
      Keeper (Remote.machine C) Remote.State.sessions Remote.Event.remoteTimeout Remote.maxUdpConnNum s) ∧
    (∀ s, (Local.machine L).Reach (fun _ _ => True) (Local.start L) s →
      Keeper (Local.machine L) Local.State.sessions Local.Event.remoteTimeout Local.maxUdpConnNum s) :=
  ⟨fun _ run => Remote.keeper (Remote.reach_sound run), fun _ run => Local.keeper (Local.reach_sound run)⟩

/-- One client of ss-server has a session. -/
theorem sessions_live_one : ∃ s : Remote.State, s.sessions.data = [some 0] ∧
    Keeper (Remote.machine Remote.demo) Remote.State.sessions Remote.Event.remoteTimeout Remote.maxUdpConnNum s := by
  obtain ⟨s, run, data⟩ := Machine.exists_of_leadsTo (show (Remote.plainMachine Remote.demo fun _ _ => true).leadsTo
      (Remote.start Remote.demo) [Remote.askFor 97, .queryResolve 0 true {}] (fun s => s.sessions.data == [some 0]) = true by
    decide +kernel)
  have local_ : Local.Config rc4Platform := ⟨Remote.demo.E, Remote.demo.text, false, .socks, afInet⟩
  exact ⟨s, eq_of_beq data, (sessions_live Remote.demo local_).1 s
    (Remote.plain_reach rc4_lawful rfl rfl (fun _ _ _ => trivial) run)⟩

end Shadowsocks.Udp
