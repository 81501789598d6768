import Shadowsocks.Udp.Plain

/-!
# Queries under way and the sessions they refer to

A query for a client that has a session keeps a pointer to that session. Nothing stops
the idle timer, or a new client in a full cache, from freeing the session meanwhile.
`pending_live` says that this is the only way in which the pointer can dangle.
-/

namespace Shadowsocks.Udp.Remote
set_option autoImplicit false
open Lib

section
variable {P : Platform}

/-- A query under way refers to the session. -/
def Referred (s : State) (id : Nat) : Prop := ∃ q ∈ s.pending, q.remoteCtx = some id

/-- The event brings a new session into the cache. -/
def Opens (C : Config P) (s : State) : Event → Prop
  | .serverRecv src datagram stale io =>
    io.socket = true ∧ io.sendto = true ∧ ∃ auth decTmp r, receive C s.auth s.decTmp stale datagram = .ok (auth, decTmp, some r) ∧
      r.dst.IsInet ∧ hashKey r.dst.family src ∉ s.sessions.cache.keys
  | .queryResolve i found io =>
    found = true ∧ io.socket = true ∧ io.sendto = true ∧ ∃ q, s.pending[i]? = some q ∧ q.remoteCtx = none ∧
      hashKey afUnspec q.srcAddr ∉ s.sessions.cache.keys
  | _ => False

/-- The event takes the session `id` out of the cache: it has been idle, or it is the
oldest one in a full cache and another one comes. -/
def Takes (C : Config P) (s : State) (e : Event) (id : Nat) : Prop :=
  match e with
  | .remoteTimeout id' => id = id'
  | e => Opens C s e ∧ s.sessions.cache.entries.length + 1 = maxUdpConnNum ∧ s.sessions.oldest = some id

/-- No query under way loses its session. -/
def sparesReferred (C : Config P) (s : State) (e : Event) : Prop := ∀ id, Takes C s e id → ¬ Referred s id

section
variable {C : Config P} {s s' : State} {e : Event} {id : Nat}

/-- A session that is not taken stays. -/
theorem Fired.isSome (fired : Fired C s e s') (sound : s.sessions.Sound maxUdpConnNum)
    (here : (s.sessions.heap.cell id).isSome = true) (stays : ¬ Takes C s e id) : (s'.sessions.heap.cell id).isSome = true := by
  cases fired with
  | dropped => exact here
  | routed src datagram stale io auth decTmp r received s' outcome =>
    cases outcome with
    | literal _ _ _ kept => exact kept.isSome here
    | asks _ _ sessions kept =>
      unfold State.ask
      split
      · exact kept.isSome here
      · exact kept.isSome here
    | again _ _ _ kept => exact kept.isSome here
    | noSocket => exact here
    | opened sessions inet fresh ready entered =>
      refine entered.isSome sound here fun size oldest => ?_
      exact stays ⟨⟨ready.1, ready.2, auth, decTmp, r, received, inet, fresh⟩, size, oldest⟩
    | unsent _ _ kept => exact kept.isSome here
    | queries =>
      unfold State.ask
      split
      · exact here
      · exact here
  | unanswered => exact here
  | answered i io q pending s' outcome =>
    cases outcome with
    | updated _ _ _ kept =>
      dsimp only [State.send, Sessions.modify]
      rw [Heap.isSome_cell_modify]
      exact kept.isSome here
    | noSocket => exact here
    | opened sessions fresh ready entered =>
      refine entered.isSome sound here fun size oldest => ?_
      exact stays ⟨⟨rfl, ready.1, ready.2, q, pending, fresh⟩, size, oldest⟩
    | unsent _ kept => exact kept.isSome here
  | replied => exact here
  | expired id' _ _ _ _ heap =>
    dsimp only
    rw [heap, Heap.cell_free_of_ne stays]
    exact here

theorem State.ask_referred {src : Sockaddr} {r : Request} {remoteCtx : Option Nat} {io : Io}
    (referred : Referred (s.ask src r remoteCtx io) id) : Referred s id ∨ remoteCtx = some id := by
  unfold State.ask at referred
  split at referred
  · obtain ⟨q, mem, refers⟩ := referred
    rcases List.mem_append.mp mem with old | new
    · exact .inl ⟨q, old, refers⟩
    · cases List.mem_singleton.mp new
      exact .inr refers
  · exact .inl referred

/-- A query refers to a session that was there when it was made. -/
theorem Fired.referred (fired : Fired C s e s') (referred : Referred s' id) :
    Referred s id ∨ (s.sessions.heap.cell id).isSome = true ∧ ¬ Takes C s e id := by
  cases fired with
  | dropped => exact .inl referred
  | routed src datagram stale io auth decTmp r received s' outcome =>
    cases outcome with
    | asks id' ctx sessions kept here key other name =>
      rcases State.ask_referred referred with old | new
      · exact .inl old
      · cases new
        refine .inr ⟨by rw [show s.sessions.heap.cell id = some ctx from here]; rfl, ?_⟩
        -- a literal destination is asked for by nobody
        rintro ⟨⟨-, -, auth', decTmp', r', received', inet, -⟩, -⟩
        rw [received] at received'
        cases received'
        exact name inet
    | queries =>
      rcases State.ask_referred referred with old | new
      · exact .inl old
      · cases new
    | literal => exact .inl referred
    | again => exact .inl referred
    | noSocket => exact .inl referred
    | opened => exact .inl referred
    | unsent => exact .inl referred
  | unanswered i io q pending =>
    obtain ⟨q', mem, refers⟩ := referred
    exact .inl ⟨q', List.mem_of_mem_eraseIdx mem, refers⟩
  | answered i io q pending s' outcome =>
    have same : s'.pending = s.pending.eraseIdx i := by cases outcome <;> rfl
    obtain ⟨q', mem, refers⟩ := referred
    rw [same] at mem
    exact .inl ⟨q', List.mem_of_mem_eraseIdx mem, refers⟩
  | replied => exact .inl referred
  | expired => exact .inl referred

/-- While no referred session is taken, whenever `query_resolve_cb` runs its session is
null or in `conn_cache`. -/
theorem pending_live (C : Config P) {s : State} (run : (machine C).Reach (sparesReferred C) (start C) s) {i : Nat}
    {found : Bool} {io : Io} (on : (machine C).enabled s (.queryResolve i found io) = true) :
    ∃ q, s.pending[i]? = some q ∧ (q.remoteCtx = none ∨
      ∃ id ctx, q.remoteCtx = some id ∧ s.sessions.heap.cell id = some ctx ∧ ctx.started = true ∧ some id ∈ s.sessions.data) := by
  have sound := reach_sound run
  have live : ∀ id, Referred s id → (s.sessions.heap.cell id).isSome = true := by
    refine (run.invariant (fun s => s.sessions.Sound maxUdpConnNum ∧
      ∀ id, Referred s id → (s.sessions.heap.cell id).isSome = true) ⟨Sessions.sound_init _, ?_⟩ ?_).2
    · rintro id ⟨q, mem, -⟩
      cases mem
    · rintro s e s' ⟨sound, live⟩ on spares done
      have fired := fire_cases sound on done
      refine ⟨fired.sound sound, fun id referred => ?_⟩
      rcases fired.referred referred with old | ⟨here, stays⟩
      · exact fired.isSome sound (live id old) fun takes => spares id takes old
      · exact fired.isSome sound here stays
  have within : i < s.pending.length := of_decide_eq_true on
  refine ⟨s.pending[i], List.getElem?_eq_getElem within, ?_⟩
  cases refers : s.pending[i].remoteCtx with
  | none => exact .inl rfl
  | some id =>
    obtain ⟨ctx, here⟩ := Option.isSome_iff_exists.mp (live id ⟨_, List.getElem_mem within, refers⟩)
    exact .inr ⟨id, ctx, rfl, here, sound.started here, List.mem_map_of_mem (sound.listed id ctx here)⟩

end

end

/-- A client with a session asks for a second name. -/
theorem pending_live_second :
    ∃ s : State, s.pending.length = 1 ∧ ∃ q, s.pending[0]? = some q ∧ (q.remoteCtx = none ∨
      ∃ id ctx, q.remoteCtx = some id ∧ s.sessions.heap.cell id = some ctx ∧ ctx.started = true ∧ some id ∈ s.sessions.data) := by
  obtain ⟨s, run, asked⟩ := Machine.exists_of_leadsTo (show (plainMachine demo fun s e =>
      !e.isTimeout && decide (s.sessions.cache.entries.length + 1 ≠ maxUdpConnNum)).leadsTo (start demo)
      [askFor 97, .queryResolve 0 true {}, askFor 98] (fun s => decide (s.pending.length = 1)) = true by decide +kernel)
  have asked : s.pending.length = 1 := of_decide_eq_true asked
  have reach : (machine demo).Reach (sparesReferred demo) (start demo) s := by
    refine plain_reach rc4_lawful rfl rfl (fun s e fine id takes => ?_) run
    obtain ⟨busy, room⟩ := Bool.and_eq_true_iff.mp fine
    cases e with
    | recv => exact absurd takes.2.1 (of_decide_eq_true room)
    | queryResolve => exact absurd takes.2.1 (of_decide_eq_true room)
    | remoteTimeout => cases busy
  have on : (machine demo).enabled s (.queryResolve 0 true {}) = true := decide_eq_true (asked ▸ Nat.zero_lt_one)
  exact ⟨s, asked, pending_live demo reach on⟩

/-- The session of a query under way times out before the answer comes. -/
theorem pending_dangles :
    ¬ ∀ s, (machine demo).Reach (fun _ _ => True) (start demo) s → ∀ i found io,
      (machine demo).enabled s (.queryResolve i found io) = true →
      ∃ q, s.pending[i]? = some q ∧ (q.remoteCtx = none ∨
        ∃ id ctx, q.remoteCtx = some id ∧ s.sessions.heap.cell id = some ctx ∧ ctx.started = true ∧ some id ∈ s.sessions.data) := by
  intro claim
  obtain ⟨s, run, bad⟩ := Machine.exists_of_leadsTo (show (plainMachine demo fun _ _ => true).leadsTo (start demo)
      [askFor 97, .queryResolve 0 true {}, askFor 98, .remoteTimeout 0]
      (fun s => s.pending.map Query.remoteCtx == [some 0] && (s.sessions.heap.cell 0).isNone) = true by decide +kernel)
  obtain ⟨refers, gone⟩ := Bool.and_eq_true_iff.mp bad
  have refers : s.pending.map Query.remoteCtx = [some 0] := eq_of_beq refers
  have one : s.pending.length = 1 := (List.length_map _).symm.trans (congrArg List.length refers)
  have reach : (machine demo).Reach (fun _ _ => True) (start demo) s :=
    plain_reach rc4_lawful rfl rfl (fun _ _ _ => trivial) run
  obtain ⟨q, first, live⟩ := claim s reach 0 true {} (decide_eq_true (one ▸ Nat.zero_lt_one))
  have at_ := congrArg (fun l => l[0]?) refers
  simp only [List.getElem?_map, first] at at_
  have own : q.remoteCtx = some 0 := Option.some.inj at_
  rcases live with none_ | ⟨id, ctx, same, here, -⟩
  · rw [own] at none_
    cases none_
  · rw [own] at same
    cases same
    rw [here] at gone
    cases gone

end Shadowsocks.Udp.Remote
