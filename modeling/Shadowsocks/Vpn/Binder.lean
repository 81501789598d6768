import Shadowsocks.Lib.Machine
import Shadowsocks.Vpn.Settling

/-!
# Calls of the binder

`BaseService` admits a call by its field `state`, which is assigned only when the main
looper delivers what `changeState` has posted. A call comes on a thread of its own: it
reads the field twice and then begins the body, and other calls and deliveries come
between. So the guard can let in two calls at once, and a call while the last message is
still queued; where neither happens it does serialise the bodies.
-/

namespace Shadowsocks.Vpn
open Lib
set_option autoImplicit false

/-! ## What the bodies post -/

/-- Posts are only added. -/
theorem posts_bind {α β : Type} {m : Java α} {k : α → Java β} {s : Service} (first : s.posted <+: (left (m s)).posted)
    (rest : ∀ a s', m s = .ok a s' → s'.posted <+: (left (k a s')).posted) : s.posted <+: (left ((m >>= k) s)).posted := by
  cases ran : m s with
  | ok a s' =>
    rw [ran] at first
    rw [java_bind_ok ran]
    exact first.trans (rest a s' ran)
  | error e s' =>
    rw [ran] at first
    rwa [java_bind_error ran]

/-- The parts of `startRunner` post in their order. -/
theorem conclude_posts (env : Env) (handled : Bool) (s : Service) : s.posted <+: (left (conclude env handled s)).posted := by
  cases handled with
  | true => exact ⟨[.connected], rfl⟩
  | false =>
    show s.posted <+: ((s.post .stopped).afterStop env).posted
    exact ⟨[.stopped, .stopping, .stopped], by simp [Service.afterStop, Service.post]⟩

theorem startVpn_posts (env : Env) {s : Service} (held : s.config.isSome) : s.posted <+: (left (startVpn env s)).posted := by
  rw [startVpn_run env held]
  refine (List.prefix_append s.posted [.connecting]).trans ?_
  show (s.post .connecting).posted <+: _
  unfold vpnResult
  split
  · exact List.prefix_rfl
  · split
    · exact List.prefix_rfl
    · exact ⟨[.stopping, .stopped], by simp [left, Service.afterStop, Service.post]⟩
    · exact ⟨[.stopped, .stopping, .stopped], by simp [left, Service.afterStop, Service.post]⟩
    · split
      · exact List.prefix_rfl
      · exact List.prefix_rfl

theorem resolveServer_posts (env : Env) {s : Service} (held : s.config.isSome) :
    s.posted <+: (left (resolveServer env s)).posted := by
  rw [resolveServer_run env held]
  split
  · exact List.prefix_rfl
  · exact List.prefix_rfl

theorem handleConnection_posts (res : Resources) (env : Env) {s : Service} (held : s.config.isSome) :
    s.posted <+: (left (handleConnection res env s)).posted := by
  have split_ : handleConnection res env =
      (do startShadowsocksDaemon res env; startDnsDaemon res env; startDnsTunnel env) >>= fun _ =>
        startVpn env >>= fun fd => pure (sendFd env fd) := by
    simp only [handleConnection, bind_assoc]
  have quiet := (daemons_ended res env held).quiet
  rw [split_]
  refine posts_bind ⟨[], by rw [quiet.posted, List.append_nil]⟩ fun _ s' ran => ?_
  refine posts_bind (startVpn_posts env ?_) fun _ _ _ => List.prefix_rfl
  rw [ran] at quiet
  rwa [← quiet.config] at held

theorem resolveServer_config {env : Env} {s t : Service} {resolved : Bool} (held : s.config.isSome)
    (ran : resolveServer env s = .ok resolved t) : t.config = s.config := by
  rw [resolveServer_run env held] at ran
  split at ran
  · cases ran
  · cases ran
    rfl

/-- `startRunner` posts CONNECTING first, and more after it. -/
theorem startRunner_posts (res : Resources) (env : Env) (c : Option Nat) (s : Service) :
    ∃ rest, (left (startRunner res env c s)).posted = s.posted ++ .connecting :: rest := by
  have begins : s.posted ++ [.connecting] <+: (left (startRunner res env c s)).posted := by
    cases c with
    | none => exact List.prefix_rfl
    | some ref =>
      rw [startRunner_run]
      show (s.begun (some ref)).posted <+: _
      refine posts_bind (resolveServer_posts env rfl) fun resolved t ran => ?_
      split
      · refine posts_bind (handleConnection_posts res env ?_) fun handled _ _ => conclude_posts env handled _
        rw [resolveServer_config rfl ran]
        rfl
      · exact conclude_posts env false t
  obtain ⟨rest, posted⟩ := begins
  exact ⟨rest, by rw [← posted, List.append_assoc, List.singleton_append]⟩

/-- `stopRunner` posts STOPPING, then STOPPED. -/
theorem stopRunner_posts (env : Env) (s : Service) : (left (stopRunner env s)).posted = s.posted ++ [.stopping, .stopped] := by
  rw [stopRunner_run]
  simp [left, Service.afterStop, Service.post]

/-! ## Calls, bodies and deliveries -/

/-- The statuses in which `start` and `stop` do nothing. -/
def Status.busy : Status → Bool
  | .connecting | .stopping => true
  | .init | .connected | .stopped => false

/-- Where a call stands: before `state != CONNECTING` is evaluated, before `state != STOPPING` is, before the body is begun, in
the body, or back. -/
inductive Phase where
  | called | tested | admitted | running | returned
  deriving DecidableEq, Repr

/-- A call of `start` or `stop`. `posts` is what its body has still to post. -/
structure Base.Call where
  phase : Phase := .called
  posts : List Status
  deriving DecidableEq, Repr

/-- The call has been let in and is not back. -/
def Base.Call.inside (c : Base.Call) : Bool := c.phase == .admitted || c.phase == .running

/-- `BaseService`, the main looper, and the calls there have been. -/
structure Base where
  state : Status := .init
  queue : List Status := []
  calls : List Base.Call := []
  /-- A ghost: the argument of the last `changeState`. -/
  posted : Status := .init
  deriving DecidableEq, Repr

namespace Base

/-- What happens next, on any of the threads of the binder or on the main one. -/
inductive Event where
  /-- The binder's `start`: its body will post CONNECTING and then `rest`. -/
  | start (rest : List Status)
  /-- The binder's `stop`: its body will post `posts`. -/
  | stop (posts : List Status)
  /-- A call reads `state`, and compares it. -/
  | test (call : Nat)
  | enter (call : Nat)
  /-- A body goes on to its next `changeState`. -/
  | post (call : Nat)
  | finish (call : Nat)
  | deliver
  deriving DecidableEq, Repr

/-- A call comes. -/
def call (b : Base) (posts : List Status) : Base := { b with calls := b.calls ++ [{ posts }] }

def phase (b : Base) (i : Nat) : Option Phase := b.calls[i]?.map Call.phase

/-- A call goes on to a phase. -/
def move (b : Base) (i : Nat) (phase : Phase) : Base := { b with calls := b.calls.modify i fun c => { c with phase } }

/-- One of the two comparisons of a call, which is back if it fails. -/
def test (b : Base) (i : Nat) : Base :=
  match b.phase i with
  | some .called => b.move i (if b.state = .connecting then .returned else .tested)
  | some .tested => b.move i (if b.state = .stopping then .returned else .admitted)
  | _ => b

/-- `changeState`, called by the body of a call. -/
def post (b : Base) (i : Nat) : Base :=
  match (b.calls[i]?.map Call.posts).bind List.head? with
  | some status => { b with
      calls := b.calls.modify i fun c => { c with posts := c.posts.tail }, queue := b.queue ++ [status], posted := status }
  | none => b

/-- The looper runs the first message. -/
def deliver (b : Base) : Base :=
  match b.queue with
  | status :: rest => { b with state := status, queue := rest }
  | [] => b

/-- A call is tested twice, begins, posts and finishes; other calls come between any two of these.
-/
def machine : Machine Base Event Empty where
  enabled b
    | .start _ | .stop _ => true
    | .test i => b.phase i == some .called || b.phase i == some .tested
    | .enter i => b.phase i == some .admitted
    | .post i => b.phase i == some .running && b.calls[i]?.any fun c => !c.posts.isEmpty
    | .finish i => b.phase i == some .running && b.calls[i]?.any fun c => c.posts.isEmpty
    | .deliver => !b.queue.isEmpty
  fire b
    | .start rest => .ok (b.call (.connecting :: rest))
    | .stop posts => .ok (b.call posts)
    | .test i => .ok (b.test i)
    | .enter i => .ok (b.move i .running)
    | .post i => .ok (b.post i)
    | .finish i => .ok (b.move i .returned)
    | .deliver => .ok b.deliver

/-- A body is begun only when none is in progress and the status posted last is a settled one. -/
def Serial (b : Base) : Event → Prop
  | .enter _ => (∀ c ∈ b.calls, c.phase ≠ .running) ∧ b.posted.busy = false
  | _ => True

/-- A call is let in only when no other one is inside and the queue does not end with a message that will close the gate;
and the last message of the queue does not close it while a call is between its two comparisons. -/
def Patient (b : Base) : Event → Prop
  | .test i => b.phase i = some .tested → b.state ≠ .stopping →
      (∀ c ∈ b.calls, c.inside = false) ∧ ∀ last ∈ b.queue.getLast?, last.busy = false
  | .deliver => b.queue = [.connecting] → ∀ c ∈ b.calls, c.phase ≠ .tested
  | _ => True

instance (b : Base) (e : Event) : Decidable (Serial b e) :=
  match e with
  | .enter _ => inferInstanceAs (Decidable (_ ∧ _))
  | .start _ | .stop _ | .test _ | .post _ | .finish _ | .deliver => inferInstanceAs (Decidable True)

instance (b : Base) (e : Event) : Decidable (Patient b e) :=
  match e with
  | .test i => inferInstanceAs (Decidable (b.phase i = some .tested → b.state ≠ .stopping → _ ∧ ∀ last ∈ b.queue.getLast?, _))
  | .deliver => inferInstanceAs (Decidable (b.queue = [.connecting] → ∀ c ∈ b.calls, c.phase ≠ .tested))
  | .start _ | .stop _ | .enter _ | .post _ | .finish _ => inferInstanceAs (Decidable True)

section
variable {b b' : Base} {i j : Nat} {p p' : Phase}

/-! ## What a step does to the phases -/

/-- Each call has its own thread. -/
theorem phase_move : (b.move i p).phase j = if i = j then (b.phase j).map fun _ => p else b.phase j := by
  rw [phase, move, phase, List.getElem?_modify]
  split
  · cases b.calls[j]? <;> rfl
  · cases b.calls[j]? <;> rfl

theorem phase_move_self (here : b.phase i = some p') : (b.move i p).phase i = some p := by
  rw [phase_move, if_pos rfl, here]
  rfl

theorem phase_move_of_ne (other : i ≠ j) : (b.move i p).phase j = b.phase j := by
  rw [phase_move, if_neg other]

theorem phase_post : (b.post i).phase j = b.phase j := by
  unfold post
  split
  · rw [phase, phase, List.getElem?_modify]
    split
    · cases b.calls[j]? <;> rfl
    · cases b.calls[j]? <;> rfl
  · rfl

theorem phase_deliver : b.deliver.phase j = b.phase j := by
  unfold deliver
  split <;> rfl

/-- A call that has gone on is an old one. -/
theorem phase_call {posts : List Status} (here : (b.call posts).phase j = some p) (later : p ≠ .called) : b.phase j = some p := by
  rw [phase, call] at here
  dsimp only at here
  rw [List.getElem?_append] at here
  split at here
  · exact here
  · cases at_ : j - b.calls.length with
    | zero =>
      rw [at_] at here
      exact absurd (Option.some.inj here).symm later
    | succ n =>
      rw [at_] at here
      cases here

/-- A phase is that of some call. -/
theorem mem_of_phase (here : b.phase i = some p) : ∃ c ∈ b.calls, c.phase = p := by
  obtain ⟨c, there, own⟩ := Option.map_eq_some_iff.mp here
  exact ⟨c, List.mem_of_getElem? there, own⟩

theorem phase_of_mem {c : Call} (mem : c ∈ b.calls) : ∃ i, b.phase i = some c.phase := by
  obtain ⟨i, there⟩ := List.mem_iff_getElem?.mp mem
  exact ⟨i, by rw [phase, there]; rfl⟩

/-! ## What the guard keeps -/

/-- The invariant of a run of patient steps. -/
structure Guarded (b : Base) : Prop where
  lags : b.queue.getLast?.getD b.state = b.posted
  /-- What the first comparison of a call has found is still so, unless there are messages. -/
  open_ : b.queue = [] → ∀ i, b.phase i = some .tested → b.state ≠ .connecting
  alone : ∀ i j p p', b.phase i = some p → b.phase j = some p' → p = .admitted ∨ p = .running → p' = .admitted ∨ p' = .running → i = j
  settled : ∀ i, b.phase i = some .admitted → b.posted.busy = false

/-- Nothing has been called. -/
theorem guarded_start : Guarded {} where
  lags := rfl
  open_ _ i here := by simp [phase] at here
  alone i j p p' here := by simp [phase] at here
  settled i here := by simp [phase] at here

/-- A step that lets nobody in, leaves the messages alone and moves a call only where that is no matter. -/
theorem Guarded.of_phases (guarded : b.Guarded) (state : b'.state = b.state) (queue : b'.queue = b.queue) (posted : b'.posted = b.posted)
    (tested : ∀ i, b'.phase i = some .tested → b.queue = [] → b.state ≠ .connecting)
    (inside : ∀ i p, b'.phase i = some p → p = .admitted ∨ p = .running →
      ∃ p', b.phase i = some p' ∧ (p' = .admitted ∨ p' = .running) ∧ (p = .admitted → p' = .admitted)) : b'.Guarded where
  lags := by rw [queue, state, posted]; exact guarded.lags
  open_ empty i here := by rw [state]; exact tested i here (queue ▸ empty)
  alone i j p p' here there in_ in' := by
    obtain ⟨q, old, kind, -⟩ := inside i p here in_
    obtain ⟨q', old', kind', -⟩ := inside j p' there in'
    exact guarded.alone i j q q' old old' kind kind'
  settled i here := by
    obtain ⟨q, old, -, same⟩ := inside i .admitted here (.inl rfl)
    rw [posted]
    exact guarded.settled i (same rfl ▸ old)

/-- A call goes on to a phase in which it is not let in. -/
theorem Guarded.move (guarded : b.Guarded) (here : b.phase i = some p') (tested : p = .tested → b.queue = [] → b.state ≠ .connecting)
    (admitted : p ≠ .admitted) (running : p = .running → p' = .admitted ∨ p' = .running) : (b.move i p).Guarded := by
  refine guarded.of_phases rfl rfl rfl (fun j at_ empty => ?_) fun j q at_ in_ => ?_
  · by_cases same : i = j
    · subst same
      rw [phase_move_self here] at at_
      exact tested (Option.some.inj at_) empty
    · rw [phase_move_of_ne same] at at_
      exact guarded.open_ empty j at_
  · by_cases same : i = j
    · subst same
      rw [phase_move_self here] at at_
      obtain rfl := Option.some.inj at_
      rcases in_ with rfl | rfl
      · exact absurd rfl admitted
      · exact ⟨p', here, running rfl, nofun⟩
    · rw [phase_move_of_ne same] at at_
      exact ⟨q, at_, in_, id⟩

theorem Status.busy_eq_false {s : Status} (connecting : s ≠ .connecting) (stopping : s ≠ .stopping) : s.busy = false := by
  cases s <;> first | rfl | contradiction

/-- The state in which a call is let in: the status posted last is queued last, or it is the state that the call has compared. -/
theorem Guarded.posted_settled (guarded : b.Guarded) (here : b.phase i = some .tested) (open_ : b.state ≠ .stopping)
    (last : ∀ last ∈ b.queue.getLast?, last.busy = false) : b.posted.busy = false := by
  rw [← guarded.lags]
  cases queue : b.queue.getLast? with
  | none => exact Status.busy_eq_false (guarded.open_ (List.getLast?_eq_none_iff.mp queue) i here) open_
  | some status => exact last status queue

/-- Under `Patient` a call is let in only where no other one is inside. -/
theorem Guarded.test (guarded : b.Guarded) (patient : b.Patient (.test i)) : (b.test i).Guarded := by
  unfold Base.test
  split
  next here =>
    split
    · exact guarded.move here nofun nofun nofun
    next open_ => exact guarded.move here (fun _ _ => open_) nofun nofun
  next here =>
    split
    · exact guarded.move here nofun nofun nofun
    next open_ =>
      obtain ⟨nobody, last⟩ := patient here open_
      have outside : ∀ j q, b.phase j = some q → ¬ (q = .admitted ∨ q = .running) := by
        intro j q at_ in_
        obtain ⟨c, mem, rfl⟩ := mem_of_phase at_
        have no := nobody c mem
        rcases in_ with same | same <;> simp [Call.inside, same] at no
      have only : ∀ j q, (b.move i .admitted).phase j = some q → q = .admitted ∨ q = .running → i = j := by
        intro j q at_ in_
        by_contra other
        rw [phase_move_of_ne other] at at_
        exact outside j q at_ in_
      exact {
        lags := guarded.lags
        open_ := fun empty j at_ => guarded.open_ empty i here
        alone := fun j j' q q' at_ at' in_ in' => (only j q at_ in_).symm.trans (only j' q' at' in')
        settled := fun j _ => guarded.posted_settled here open_ last }
  · exact guarded

/-- A body posts while it is the only one inside. -/
theorem Guarded.post (guarded : b.Guarded) (running : b.phase i = some .running) : (b.post i).Guarded := by
  cases next_ : (b.calls[i]?.map Call.posts).bind List.head? with
  | none =>
    rw [Base.post, next_]
    exact guarded
  | some status =>
    have posted : b.post i = { b with
        calls := (b.post i).calls, queue := b.queue ++ [status], posted := status } := by
      rw [Base.post, next_]
    have phases : ∀ j, (b.post i).phase j = b.phase j := fun j => phase_post
    rw [posted] at phases ⊢
    exact {
      lags := by simp
      open_ := fun empty => by simp at empty
      alone := fun j j' q q' at_ at' => guarded.alone j j' q q' (phases j ▸ at_) (phases j' ▸ at')
      settled := fun j at_ => by
        have same := guarded.alone i j _ _ running (phases j ▸ at_) (.inr rfl) (.inl rfl)
        subst same
        cases running.symm.trans (phases i ▸ at_) }

/-- A delivery keeps the gate, if it does not close it on a call between its comparisons. -/
theorem Guarded.deliver (guarded : b.Guarded) (patient : b.Patient .deliver) : b.deliver.Guarded := by
  have phases : ∀ j, b.deliver.phase j = b.phase j := fun j => phase_deliver
  cases queue : b.queue with
  | nil =>
    rw [Base.deliver, queue]
    exact guarded
  | cons status rest =>
    have delivered : b.deliver = { b with state := status, queue := rest } := by rw [Base.deliver, queue]
    rw [delivered] at phases ⊢
    exact {
      lags := by
        have lags := guarded.lags
        rw [queue, List.getLast?_cons] at lags
        simpa using lags
      open_ := by
        rintro (rfl : rest = []) i here (rfl : status = .connecting)
        obtain ⟨c, mem, own⟩ := mem_of_phase (phases i ▸ here)
        exact patient queue c mem own
      alone := fun j j' q q' at_ at' => guarded.alone j j' q q' (phases j ▸ at_) (phases j' ▸ at')
      settled := fun j at_ => guarded.settled j (phases j ▸ at_) }

/-- Each event keeps the gate. -/
theorem Guarded.fire {e : Event} (guarded : b.Guarded) (on : machine.enabled b e = true) (patient : b.Patient e)
    (fired : machine.fire b e = .ok b') : b'.Guarded := by
  have comes (posts : List Status) : (b.call posts).Guarded :=
    guarded.of_phases rfl rfl rfl (fun i at_ empty => guarded.open_ empty i (phase_call at_ nofun))
      fun i q at_ in_ => ⟨q, phase_call at_ (by rintro rfl; simp at in_), in_, id⟩
  cases e with
  | start rest =>
    cases fired
    exact comes _
  | stop posts =>
    cases fired
    exact comes posts
  | test i =>
    cases fired
    exact guarded.test patient
  | enter i =>
    cases fired
    exact guarded.move (beq_iff_eq.mp on) nofun nofun fun _ => .inl rfl
  | post i =>
    cases fired
    exact guarded.post (beq_iff_eq.mp (Bool.and_eq_true_iff.mp on).1)
  | finish i =>
    cases fired
    exact guarded.move (beq_iff_eq.mp (Bool.and_eq_true_iff.mp on).1) nofun nofun nofun
  | deliver =>
    cases fired
    exact guarded.deliver patient

/-- A body begins alone, and behind a settled status. -/
theorem Guarded.serial {e : Event} (guarded : b.Guarded) (on : machine.enabled b e = true) : b.Serial e := by
  cases e with
  | enter i =>
    have here : b.phase i = some .admitted := beq_iff_eq.mp on
    refine ⟨fun c mem running => ?_, guarded.settled i here⟩
    obtain ⟨j, there⟩ := phase_of_mem mem
    rw [running] at there
    have same := guarded.alone i j _ _ here there (.inl rfl) (.inr rfl)
    subst same
    cases here.symm.trans there
  | _ => trivial

/-! ## What a step that is not patient leads to -/

/-- A call that is let in while another one is inside, or before a message that closes the gate, can begin its body too soon. -/
theorem Guarded.test_impatient (guarded : b.Guarded) (on : machine.enabled b (.test i) = true) (impatient : ¬ b.Patient (.test i)) :
    ∃ es, ¬ machine.Throughout Serial b (.test i :: es) := by
  obtain ⟨here, rest⟩ := Classical.not_imp.mp impatient
  obtain ⟨open_, crowded⟩ := Classical.not_imp.mp rest
  have admitted : machine.fire b (.test i) = .ok (b.move i .admitted) := by
    simp only [machine, Base.test, here, if_neg open_]
  have at_ : (b.move i .admitted).phase i = some .admitted := phase_move_self here
  have enters : machine.enabled (b.move i .admitted) (.enter i) = true := beq_iff_eq.mpr at_
  by_cases nobody : ∀ c ∈ b.calls, c.inside = false
  · -- the last message is CONNECTING or STOPPING
    refine ⟨[.enter i], fun all => crowded ⟨nobody, fun last there => ?_⟩⟩
    have serial : b.posted.busy = false := ((all.rest on admitted).first enters).2
    rw [← guarded.lags, Option.mem_def.mp there] at serial
    exact serial
  · obtain ⟨c, mem, inside⟩ : ∃ c ∈ b.calls, c.inside = true := by simpa using nobody
    obtain ⟨j, there⟩ := phase_of_mem mem
    simp only [Call.inside, Bool.or_eq_true, beq_iff_eq] at inside
    have other : i ≠ j := by
      rintro rfl
      have tested := Option.some.inj (there.symm.trans here)
      rcases inside with same | same <;> cases tested.symm.trans same
    have stays : (b.move i .admitted).phase j = some c.phase := (phase_move_of_ne other).trans there
    rcases inside with waits | runs
    · -- the other call begins its body first
      rw [waits] at stays
      have begun : ((b.move i .admitted).move j .running).phase j = some .running := phase_move_self stays
      have still : ((b.move i .admitted).move j .running).phase i = some .admitted := (phase_move_of_ne (Ne.symm other)).trans at_
      refine ⟨[.enter j, .enter i], fun all => ?_⟩
      obtain ⟨c', mem', own⟩ := mem_of_phase begun
      exact (((all.rest on admitted).rest (beq_iff_eq.mpr stays) rfl).first (beq_iff_eq.mpr still)).1 c' mem' own
    · rw [runs] at stays
      obtain ⟨c', mem', own⟩ := mem_of_phase stays
      exact ⟨[.enter i], fun all => ((all.rest on admitted).first enters).1 c' mem' own⟩

/-- A call between whose comparisons CONNECTING is delivered is let in nevertheless. -/
theorem Guarded.deliver_impatient (guarded : b.Guarded) (on : machine.enabled b .deliver = true) (impatient : ¬ b.Patient .deliver) :
    ∃ es, ¬ machine.Throughout Serial b (.deliver :: es) := by
  obtain ⟨queue, rest⟩ := Classical.not_imp.mp impatient
  obtain ⟨c, mem, own⟩ : ∃ c ∈ b.calls, c.phase = .tested := by simpa using rest
  obtain ⟨i, here⟩ := phase_of_mem mem
  rw [own] at here
  have delivered : b.deliver = { b with state := .connecting, queue := [] } := by rw [Base.deliver, queue]
  have tested : b.deliver.phase i = some .tested := phase_deliver.trans here
  have admitted : b.deliver.test i = b.deliver.move i .admitted := by
    rw [Base.test, tested]
    dsimp only
    rw [if_neg (by rw [delivered]; nofun)]
  refine ⟨[.test i, .enter i], fun all => ?_⟩
  have later : machine.Throughout Serial (b.deliver.move i .admitted) [.enter i] := (all.rest on rfl).rest
    (Bool.or_eq_true_iff.mpr (.inr (beq_iff_eq.mpr tested))) (congrArg Except.ok admitted)
  have serial : b.deliver.posted.busy = false := (later.first (beq_iff_eq.mpr (phase_move_self tested))).2
  have lags := guarded.lags
  rw [queue] at lags
  rw [delivered] at serial
  rw [show b.posted = .connecting from lags.symm] at serial
  cases serial

/-- While calls are let in with `Patient`, none begins its body before the others have ended and a settled status has been posted
last. From each state where a step would break that condition, it can happen. -/
theorem serialised (run : machine.Reach Patient {} b) {e : Event} (on : machine.enabled b e = true) :
    b.Serial e ∧ (¬ b.Patient e → ∃ es, ¬ machine.Throughout Serial b (e :: es)) := by
  have guarded : b.Guarded := run.invariant Guarded guarded_start fun _ _ _ guarded on patient fired => guarded.fire on patient fired
  refine ⟨guarded.serial on, fun impatient => ?_⟩
  cases e with
  | test i => exact guarded.test_impatient on impatient
  | deliver => exact guarded.deliver_impatient on impatient
  | start | stop | enter | post | finish => exact absurd trivial impatient

end

/-- A start that connects; while CONNECTING is delivered another one is turned away, and then a stop is let in. -/
theorem serialised_example : ∃ b : Base, b.state = .connected ∧ (b.calls.map Call.phase) = [.returned, .returned, .admitted] ∧
    b.Serial (.enter 2) := by
  obtain ⟨b, run, there⟩ := Machine.exists_of_leadsTo (show (machine.restrict fun b e => decide (b.Patient e)).leadsTo {}
    [.start [.connecting, .connected], .test 0, .test 0, .enter 0, .post 0, .post 0, .deliver, .start [], .test 1, .post 0, .finish 0,
      .deliver, .deliver, .stop [.stopping, .stopped], .test 2, .test 2]
    (fun b => decide (b.state = .connected ∧ (b.calls.map Call.phase) = [.returned, .returned, .admitted] ∧
      machine.enabled b (.enter 2) = true)) = true by decide +kernel)
  obtain ⟨state, phases, on⟩ := of_decide_eq_true there
  exact ⟨b, state, phases, (serialised (.of_restrict (fun _ _ => of_decide_eq_true) .refl run) on).1⟩

/-- A start without a config has posted CONNECTING and ended; a second one comes before the delivery. -/
theorem secondStart_admitted : ¬ ∀ b, machine.Reach (fun _ _ => True) {} b → ∀ e, machine.enabled b e = true → b.Serial e := by
  intro claim
  obtain ⟨b, run, there⟩ := Machine.exists_of_leadsTo (show machine.leadsTo {}
    [.start [], .test 0, .test 0, .enter 0, .post 0, .finish 0, .start [], .test 1, .test 1]
    (fun b => decide (machine.enabled b (.enter 1) = true ∧ ¬ b.Serial (.enter 1))) = true by decide +kernel)
  obtain ⟨on, twice⟩ := of_decide_eq_true there
  exact twice (claim b (.of_run .refl (fun _ _ _ => trivial) run) _ on)

/-- Two calls read the field one after the other before either begins its body. -/
example : machine.leadsTo {} [.start [], .stop [.stopping, .stopped], .test 0, .test 0, .test 1, .test 1, .enter 0]
    (fun b => decide (machine.enabled b (.enter 1) = true ∧ ¬ b.Serial (.enter 1))) = true := by decide +kernel

/-! ## The bodies of `ShadowsocksVpnService` -/

/-- A body posts one status after the other. -/
theorem posts_run (posts queue : List Status) (posted : Status) :
    ∃ posted', machine.run { queue, calls := [⟨.running, posts⟩], posted } (posts.map (fun _ => .post 0) ++ [.finish 0]) =
      some (.ok { queue := queue ++ posts, calls := [⟨.returned, []⟩], posted := posted' }) := by
  induction posts generalizing queue posted with
  | nil => exact ⟨posted, by rw [List.append_nil]; rfl⟩
  | cons status rest ih =>
    obtain ⟨posted', ran⟩ := ih (queue ++ [status]) status
    refine ⟨posted', ?_⟩
    rw [List.append_assoc, List.singleton_append] at ran
    exact ran

/-- The events of a call that is alone. -/
def alone (posts : List Status) : List Event := [.test 0, .test 0, .enter 0] ++ (posts.map (fun _ => .post 0) ++ [.finish 0])

/-- What `startRunner` posts is what a call of `start` queues. -/
theorem startRunner_queues (res : Resources) (env : Env) (c : Option Nat) (s : Service) :
    ∃ rest b, machine.run {} (.start rest :: alone (.connecting :: rest)) = some (.ok b) ∧
      (left (startRunner res env c s)).posted = s.posted ++ b.queue := by
  obtain ⟨rest, posted⟩ := startRunner_posts res env c s
  obtain ⟨posted', ran⟩ := posts_run (.connecting :: rest) [] .init
  exact ⟨rest, _, ran, posted⟩

/-- What `stopRunner` posts is what a call of `stop` queues. -/
theorem stopRunner_queues (env : Env) (s : Service) :
    ∃ b, machine.run {} (.stop [.stopping, .stopped] :: alone [.stopping, .stopped]) = some (.ok b) ∧
      (left (stopRunner env s)).posted = s.posted ++ b.queue := by
  obtain ⟨posted', ran⟩ := posts_run [.stopping, .stopped] [] .init
  exact ⟨_, ran, stopRunner_posts env s⟩

end Base
end Shadowsocks.Vpn
