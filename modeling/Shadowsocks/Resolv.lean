import Shadowsocks.Lib.Machine
import Shadowsocks.Lib.Memory
import Mathlib.Logic.Function.Basic

/-!
# Name resolution

`resolv.c` asks for the A and the AAAA records of a name at once and calls its client when
both requests are done. A request udns could not submit and one that has been answered
look the same to it: the pointer in `queries` is NULL.

The client is a callback with user data. It is called once for each request that is not
cancelled, never after a cancel, and with the address that the order of preference says
(`resolv_reports_once`).
-/

namespace Shadowsocks.Resolv
set_option autoImplicit false
open Lib

inductive Mode where
  | ipv4Only
  | ipv6Only
  | ipv4First
  | ipv6First
  deriving DecidableEq, Repr

/-- The mode `resolv_init` sets. -/
def resolvInit (ipv6first : Bool) : Mode := if ipv6first then .ipv6First else .ipv4First

/-- `AF_INET` and `AF_INET6`; also the indices of `queries`. -/
inductive Family where
  | inet
  | inet6
  deriving DecidableEq, Repr

def Family.other : Family → Family
  | .inet => .inet6
  | .inet6 => .inet

structure Sockaddr where
  family : Family
  port : UInt16
  addr : Bytes
  deriving DecidableEq, Repr

/-- `struct ResolvQuery`, of `client_free_cb` whether there is one. -/
structure ResolvQuery where
  clientFreeCb : Bool
  queries : Family → Bool
  responses : List Sockaddr
  port : UInt16

inductive Output where
  | clientCb (address : Option Sockaddr)
  | clientFreeCb
  deriving DecidableEq, Repr

/-- The query, freed at its end, the requests udns will still answer, whether the client may
still cancel, and the calls it got. -/
structure State where
  query : Option ResolvQuery
  active : Family → Bool
  handle : Bool
  log : List Output

/-- What `client_cb` is called with. -/
def Output.address : Output → Option (Option Sockaddr)
  | .clientCb address => some address
  | .clientFreeCb => none

def State.calls (s : State) : List (Option Sockaddr) := s.log.filterMap Output.address

/-- `all_queries_are_null`. -/
def allQueriesAreNull (q : ResolvQuery) : Bool := !q.queries .inet && !q.queries .inet6

/-- `choose_any`. -/
def chooseAny (q : ResolvQuery) : Option Sockaddr := q.responses.head?

/-- `choose_ipv4_first` and `choose_ipv6_first`. -/
def chooseFirst (family : Family) (q : ResolvQuery) : Option Sockaddr :=
  match q.responses.find? (·.family = family) with
  | some address => some address
  | none => chooseAny q

/-- Frees the query; the client's handle is worth nothing from now on. -/
def State.close (s : State) (q : ResolvQuery) (calls : List Output) : State :=
  { s with query := none, handle := false, log := s.log ++ calls ++ if q.clientFreeCb then [.clientFreeCb] else [] }

/-- `process_client_callback`. -/
def processClientCallback (mode : Mode) (q : ResolvQuery) (s : State) : State :=
  let best := match mode with
    | .ipv4First => chooseFirst .inet q
    | .ipv6First => chooseFirst .inet6 q
    | _ => chooseAny q
  s.close q [.clientCb best]

/-- The addresses of a result become responses; an error comes without one. -/
def ResolvQuery.add (q : ResolvQuery) (family : Family) (result : Option (List Bytes)) : ResolvQuery :=
  { q with
    responses := q.responses ++ (result.getD []).map fun addr => { family, port := q.port, addr }
    queries := Function.update q.queries family false }

/-- `dns_query_v4_cb` and `dns_query_v6_cb`. -/
def dnsQueryCb (family : Family) (mode : Mode) (result : Option (List Bytes)) (s : State) : Except Fault State :=
  match s.query with
  | none => .error .useAfterFree
  | some q =>
    let q := q.add family result
    .ok (if allQueriesAreNull q then processClientCallback mode q s else { s with query := some q })

def dnsQueryV4Cb : Mode → Option (List Bytes) → State → Except Fault State := dnsQueryCb .inet

def dnsQueryV6Cb : Mode → Option (List Bytes) → State → Except Fault State := dnsQueryCb .inet6

/-- `resolv_query` where `dns_submit_a4` and `dns_submit_a6` succeed as `submit` tells. -/
def resolvQuery (mode : Mode) (submit : Family → Bool) (clientFreeCb : Bool) (port : UInt16) : State :=
  let queries : Family → Bool
    | .inet => mode ≠ .ipv6Only && submit .inet
    | .inet6 => mode ≠ .ipv4Only && submit .inet6
  let q := { clientFreeCb, queries, responses := [], port }
  let s := { query := some q, active := queries, handle := true, log := [] }
  if allQueriesAreNull q then s.close q [] else s

/-- `resolv_cancel`. -/
def resolvCancel (s : State) : Except Fault State :=
  match s.query with
  | none => .error .useAfterFree
  | some q => .ok { s.close q [] with active := fun family => s.active family && !q.queries family }

/-! ## Runs -/

inductive Event where
  | answer (family : Family) (result : Option (List Bytes))
  | cancel
  deriving DecidableEq, Repr

/-- udns answers each request it has once, unless it is cancelled. -/
def resolver (mode : Mode) : Machine State Event Fault where
  enabled s
    | .answer family _ => s.active family
    | .cancel => s.handle
  fire s
    | .answer .inet result => dnsQueryV4Cb mode result { s with active := Function.update s.active .inet false }
    | .answer .inet6 result => dnsQueryV6Cb mode result { s with active := Function.update s.active .inet6 false }
    | .cancel => resolvCancel s

def Event.answerTo (family : Family) : Event → Option (Option (List Bytes))
  | .answer f result => if f = family then some result else none
  | .cancel => none

/-- The answer to the request for one family, if the events hold one. -/
def answered (es : List Event) (family : Family) : Option (Option (List Bytes)) := es.findSome? (Event.answerTo family)

/-- The addresses of one family that the events bring: none by an error. -/
def answers (es : List Event) (family : Family) : List Bytes := ((answered es family).bind id).getD []

def preferred : Mode → Family
  | .ipv4Only | .ipv4First => .inet
  | .ipv6Only | .ipv6First => .inet6

def firstAddress (port : UInt16) (addrs : Family → List Bytes) (family : Family) : Option Sockaddr :=
  (addrs family).head?.map fun addr => { family, port, addr }

/-- The first address of the preferred family, else the first one of the other. -/
def bestAddress (mode : Mode) (port : UInt16) (addrs : Family → List Bytes) : Option Sockaddr :=
  (firstAddress port addrs (preferred mode)).or (firstAddress port addrs (preferred mode).other)

/-! ## The choice -/

theorem Family.eq_or_other (f g : Family) : g = f ∨ g = f.other := by
  cases f <;> cases g <;> decide

theorem allQueriesAreNull_iff (q : ResolvQuery) : allQueriesAreNull q = true ↔ ∀ f, q.queries f = false := by
  constructor
  · intro null f
    have both := Bool.and_eq_true_iff.mp null
    cases f with
    | inet => exact Bool.not_eq_true' _ |>.mp both.1
    | inet6 => exact Bool.not_eq_true' _ |>.mp both.2
  · intro null
    rw [allQueriesAreNull, null, null]
    rfl

/-- The responses stand in the order of arrival, but those of one family in the order of their answer. -/
def Holds (q : ResolvQuery) (port : UInt16) (addrs : Family → List Bytes) : Prop :=
  ∀ f, q.responses.filter (·.family = f) = (addrs f).map fun addr => { family := f, port, addr }

theorem Holds.find {q : ResolvQuery} {port : UInt16} {addrs : Family → List Bytes} (holds : Holds q port addrs) (f : Family) :
    q.responses.find? (·.family = f) = firstAddress port addrs f := by
  rw [← List.head?_filter, holds f, List.head?_map]
  rfl

theorem Holds.chooseFirst {q : ResolvQuery} {port : UInt16} {addrs : Family → List Bytes} (holds : Holds q port addrs)
    (f : Family) : chooseFirst f q = (firstAddress port addrs f).or (firstAddress port addrs f.other) := by
  have found := holds.find f
  unfold Resolv.chooseFirst
  cases first : firstAddress port addrs f with
  | some address => rw [found, first, Option.some_or]
  | none =>
    rw [first] at found
    -- no response is of the family, so that the first one is the first of the other
    have all_other : q.responses.filter (·.family = f.other) = q.responses := by
      apply List.filter_eq_self.mpr
      intro address here
      have different := List.find?_eq_none.mp found address here
      rcases f.eq_or_other address.family with same | other
      · exact absurd (decide_eq_true same) different
      · exact decide_eq_true other
    rw [found, Option.none_or, chooseAny, ← holds.find f.other, ← List.head?_filter, all_other]

theorem State.calls_close (s : State) (q : ResolvQuery) (outputs : List Output) :
    (s.close q outputs).calls = s.calls ++ outputs.filterMap Output.address := by
  have freed : (if q.clientFreeCb then [Output.clientFreeCb] else []).filterMap Output.address = [] := by
    cases q.clientFreeCb <;> rfl
  unfold calls close
  rw [List.filterMap_append, List.filterMap_append, freed, List.append_nil]

theorem processClientCallback_calls {q : ResolvQuery} {port : UInt16} {addrs : Family → List Bytes} (holds : Holds q port addrs)
    (ipv6first : Bool) (s : State) : (processClientCallback (resolvInit ipv6first) q s).calls =
      s.calls ++ [bestAddress (resolvInit ipv6first) port addrs] := by
  refine (s.calls_close q _).trans ?_
  cases ipv6first with
  | false => exact congrArg (s.calls ++ [·]) (holds.chooseFirst .inet)
  | true => exact congrArg (s.calls ++ [·]) (holds.chooseFirst .inet6)

/-! ## Histories -/

theorem answered_append (es : List Event) (e : Event) (f : Family) :
    answered (es ++ [e]) f = (answered es f).or (e.answerTo f) := by
  unfold answered
  rw [List.findSome?_append, List.findSome?_singleton]

theorem answered_self {es : List Event} {f : Family} (first : answered es f = none) (result : Option (List Bytes)) :
    answered (es ++ [.answer f result]) f = some result := by
  rw [answered_append, first, Option.none_or, Event.answerTo, if_pos rfl]

theorem answered_other (es : List Event) {f g : Family} (other : f ≠ g) (result : Option (List Bytes)) :
    answered (es ++ [.answer f result]) g = answered es g := by
  rw [answered_append, Event.answerTo, if_neg other, Option.or_none]

/-- The responses an answer adds are those of its family, and there were none of it before. -/
theorem Holds.add {q : ResolvQuery} {es : List Event} (holds : Holds q q.port (answers es)) {f : Family}
    (first : answered es f = none) (result : Option (List Bytes)) :
    Holds (q.add f result) q.port (answers (es ++ [.answer f result])) := by
  intro g
  have before := holds g
  simp only [ResolvQuery.add, List.filter_append, before]
  by_cases same : f = g
  · subst same
    have none_before : answers es f = [] := by rw [answers, first]; rfl
    have now : answers (es ++ [.answer f result]) f = result.getD [] := by rw [answers, answered_self first]; rfl
    rw [none_before, now, List.map_nil, List.nil_append]
    apply List.filter_eq_self.mpr
    intro address here
    obtain ⟨addr, -, rfl⟩ := List.mem_map.mp here
    exact decide_eq_true rfl
  · have now : answers (es ++ [.answer f result]) g = answers es g := by rw [answers, answers, answered_other es same]
    have no_others : ((result.getD []).map fun addr => ({ family := f, port := q.port, addr } : Sockaddr)).filter (·.family = g) = [] := by
      apply List.filter_eq_nil_iff.mpr
      intro address here
      obtain ⟨addr, -, rfl⟩ := List.mem_map.mp here
      simpa using same
    rw [now, no_others, List.append_nil]

/-- How far a query with the history `es` is: its requests are still being answered, or it is
done for because the client has cancelled it or has been called. -/
inductive Follows (mode : Mode) (submit : Family → Bool) (port : UInt16) (es : List Event) (s : State) : Prop where
  | waiting (q : ResolvQuery) (query : s.query = some q) (same : s.active = q.queries) (handle : s.handle = true)
      (slots : ∀ f, q.queries f = (submit f && (answered es f).isNone)) (pending : ∃ f, q.queries f = true)
      (requested : q.port = port) (holds : Holds q port (answers es)) (silent : s.calls = []) (wanted : .cancel ∉ es)
  | cancelled (idle : ∀ f, s.active f = false) (handle : s.handle = false) (silent : s.calls = []) (unwanted : .cancel ∈ es)
  | reported (idle : ∀ f, s.active f = false) (handle : s.handle = false)
      (called : s.calls = [bestAddress mode port (answers es)]) (complete : ∀ f, submit f = true → (answered es f).isSome)
      (wanted : .cancel ∉ es)

theorem follows_start (ipv6first : Bool) {submit : Family → Bool} (submitted : ∃ f, submit f = true) (clientFreeCb : Bool)
    (port : UInt16) : Follows (resolvInit ipv6first) submit port [] (resolvQuery (resolvInit ipv6first) submit clientFreeCb port) := by
  -- both modes that `resolv_init` sets ask for both families
  have asked : resolvQuery (resolvInit ipv6first) submit clientFreeCb port =
      let q : ResolvQuery := { clientFreeCb, queries := submit, responses := [], port }
      { query := some q, active := submit, handle := true, log := [] } := by
    have queries : (fun f => match f with
        | .inet => resolvInit ipv6first ≠ .ipv6Only && submit .inet
        | .inet6 => resolvInit ipv6first ≠ .ipv4Only && submit .inet6 : Family → Bool) = submit := by
      funext f
      cases f <;> cases ipv6first <;> exact Bool.true_and _
    have left : allQueriesAreNull { clientFreeCb, queries := submit, responses := [], port } = false := by
      obtain ⟨f, pending⟩ := submitted
      apply Bool.eq_false_iff.mpr
      intro null
      exact Bool.false_ne_true (((allQueriesAreNull_iff _).mp null f).symm.trans pending)
    unfold resolvQuery
    simp only [queries, left]
    rfl
  rw [asked]
  refine .waiting _ rfl rfl rfl ?_ submitted rfl ?_ rfl List.not_mem_nil
  · intro f
    exact (Bool.and_true _).symm
  · intro f
    rfl

/-- One event: what it does depends on the history alone. A query that is answered becomes null
and the other one stays. If it was the last one, the client is called and the request freed; after
a cancel no query is active any more. -/
theorem follows_fire {ipv6first : Bool} {submit : Family → Bool} {port : UInt16} {es : List Event} {s : State} {e : Event}
    (follows : Follows (resolvInit ipv6first) submit port es s) (on : (resolver (resolvInit ipv6first)).enabled s e = true) :
    ∃ s', (resolver (resolvInit ipv6first)).fire s e = .ok s' ∧
      Follows (resolvInit ipv6first) submit port (es ++ [e]) s' := by
  cases e with
  | answer f result =>
    have pending : s.active f = true := on
    have fires : (resolver (resolvInit ipv6first)).fire s (.answer f result) =
        dnsQueryCb f (resolvInit ipv6first) result { s with active := Function.update s.active f false } := by
      cases f <;> rfl
    cases follows with
    | cancelled idle => rw [idle f] at pending; cases pending
    | reported idle => rw [idle f] at pending; cases pending
    | waiting q query same handle slots left requested holds silent wanted =>
      have first : answered es f = none := by
        rw [same, slots f] at pending
        exact Option.isNone_iff_eq_none.mp (Bool.and_eq_true_iff.mp pending).2
      subst requested
      have still : .cancel ∉ es ++ [.answer f result] := by simpa using wanted
      have slots' : ∀ g, (q.add f result).queries g = (submit g && (answered (es ++ [.answer f result]) g).isNone) := by
        intro g
        change Function.update q.queries f false g = _
        by_cases own : g = f
        · subst own
          rw [Function.update_self, answered_self first, Option.isNone_some, Bool.and_false]
        · rw [Function.update_of_ne own, answered_other es (Ne.symm own), slots g]
      have active' : Function.update s.active f false = (q.add f result).queries := by
        rw [same]
        rfl
      rw [fires, active']
      unfold dnsQueryCb
      simp only [query]
      cases done : allQueriesAreNull (q.add f result) with
      | true =>
        have no_more := (allQueriesAreNull_iff _).mp done
        refine ⟨_, rfl, .reported no_more rfl ?_ ?_ still⟩
        · refine (processClientCallback_calls (holds.add first result) ipv6first _).trans ?_
          exact congrArg (· ++ _) silent
        · intro g submitted
          have null := no_more g
          rw [slots' g, submitted, Bool.true_and] at null
          simpa using null
      | false =>
        refine ⟨_, rfl, .waiting _ rfl rfl handle slots' ?_ rfl (holds.add first result) silent still⟩
        by_contra null
        have all : ∀ g, (q.add f result).queries g = false := by simpa using null
        rw [(allQueriesAreNull_iff _).mpr all] at done
        cases done
  | cancel =>
    have held : s.handle = true := on
    cases follows with
    | cancelled idle handle => rw [handle] at held; cases held
    | reported idle handle => rw [handle] at held; cases held
    | waiting q query same handle slots left requested holds silent wanted =>
      have fires : (resolver (resolvInit ipv6first)).fire s .cancel =
          .ok { s.close q [] with active := fun f => s.active f && !q.queries f } := by
        change resolvCancel s = _
        unfold resolvCancel
        rw [query]
      refine ⟨_, fires, .cancelled ?_ rfl ?_ (by simp)⟩
      · intro f
        rw [same]
        exact Bool.and_not_self _
      · exact (s.calls_close q []).trans (by rw [silent]; rfl)

/-- By induction on the events that are still to come. -/
theorem follows_run {ipv6first : Bool} {submit : Family → Bool} {port : UInt16} {es past : List Event} {s : State}
    (follows : Follows (resolvInit ipv6first) submit port past s) {out : Except Fault State}
    (ran : (resolver (resolvInit ipv6first)).run s es = some out) :
    ∃ s', out = .ok s' ∧ Follows (resolvInit ipv6first) submit port (past ++ es) s' := by
  induction es generalizing past s with
  | nil =>
    cases ran
    exact ⟨s, rfl, by rwa [List.append_nil]⟩
  | cons e es ih =>
    rw [Machine.run] at ran
    split at ran
    next on =>
      obtain ⟨s₁, fired, follows₁⟩ := follows_fire follows on
      rw [fired] at ran
      obtain ⟨s', ended, follows'⟩ := ih follows₁ ran
      rw [List.append_assoc, List.singleton_append] at follows'
      exact ⟨s', ended, follows'⟩
    next => cases ran

/-- Nobody has cancelled, and every request that was submitted has been answered. -/
def Complete (submit : Family → Bool) (es : List Event) : Prop :=
  .cancel ∉ es ∧ ∀ f, submit f = true → (answered es f).isSome

theorem Follows.calls {mode : Mode} {submit : Family → Bool} {port : UInt16} {es : List Event} {s : State}
    (follows : Follows mode submit port es s) :
    (Complete submit es → s.calls = [bestAddress mode port (answers es)]) ∧ (¬ Complete submit es → s.calls = []) := by
  cases follows with
  | waiting q query same handle slots left requested holds silent wanted =>
    obtain ⟨f, pending⟩ := left
    rw [slots f] at pending
    obtain ⟨submitted, open_⟩ := Bool.and_eq_true_iff.mp pending
    refine ⟨fun complete => ?_, fun _ => silent⟩
    have answered_f := complete.2 f submitted
    rw [Option.isNone_iff_eq_none.mp open_] at answered_f
    cases answered_f
  | cancelled idle handle silent unwanted => exact ⟨fun complete => absurd unwanted complete.1, fun _ => silent⟩
  | reported idle handle called complete wanted => exact ⟨fun _ => called, fun not => absurd ⟨wanted, complete⟩ not⟩

/-- The answer to a request that is open can come. -/
theorem Follows.enabled {mode : Mode} {submit : Family → Bool} {port : UInt16} {es : List Event} {s : State}
    (follows : Follows mode submit port es s) (wanted : .cancel ∉ es) {f : Family} (submitted : submit f = true)
    (unanswered : answered es f = none) (result : Option (List Bytes)) :
    (resolver mode).enabled s (.answer f result) = true := by
  change s.active f = true
  cases follows with
  | waiting q query same handle slots => rw [same, slots f, submitted, unanswered, Option.isNone_none, Bool.and_self]
  | cancelled idle handle silent unwanted => exact absurd unwanted wanted
  | reported idle handle called complete =>
    have answered_f := complete f submitted
    rw [unanswered] at answered_f
    cases answered_f

theorem follows_order {ipv6first : Bool} {submit : Family → Bool} {port : UInt16} (results : Family → Option (List Bytes))
    {order : List Family} {past : List Event} {s : State} (follows : Follows (resolvInit ipv6first) submit port past s)
    (wanted : .cancel ∉ past) (once : order.Nodup) (todo : ∀ f ∈ order, submit f = true ∧ answered past f = none) :
    ∃ s', (resolver (resolvInit ipv6first)).run s (order.map fun f => .answer f (results f)) = some (.ok s') ∧
      Follows (resolvInit ipv6first) submit port (past ++ order.map fun f => .answer f (results f)) s' := by
  induction order generalizing past s with
  | nil => exact ⟨s, rfl, by rwa [List.map_nil, List.append_nil]⟩
  | cons f order ih =>
    obtain ⟨submitted, unanswered⟩ := todo f List.mem_cons_self
    obtain ⟨fresh, once'⟩ := List.nodup_cons.mp once
    have on := follows.enabled wanted submitted unanswered (results f)
    obtain ⟨s₁, fired, follows₁⟩ := follows_fire follows on
    obtain ⟨s', ran, follows'⟩ := ih follows₁ (by simpa using wanted) once' (by
      intro g later
      obtain ⟨submitted', unanswered'⟩ := todo g (List.mem_cons_of_mem f later)
      have other : f ≠ g := fun same => fresh (same ▸ later)
      exact ⟨submitted', by rw [answered_other past other, unanswered']⟩)
    refine ⟨s', ?_, ?_⟩
    · rw [List.map_cons, Machine.run_fire _ on fired, ran]
    · rwa [List.append_assoc, List.singleton_append] at follows'

theorem answered_order (results : Family → Option (List Bytes)) (order : List Family) (f : Family) :
    answered (order.map fun f => .answer f (results f)) f = if f ∈ order then some (results f) else none := by
  induction order with
  | nil => rfl
  | cons g order ih =>
    rw [List.map_cons, answered, List.findSome?_cons, Event.answerTo]
    by_cases same : g = f
    · subst same
      rw [if_pos rfl, if_pos List.mem_cons_self]
    · have later : f ∈ g :: order ↔ f ∈ order := by
        rw [List.mem_cons]
        exact or_iff_right (Ne.symm same)
      rw [if_neg same, if_congr later rfl rfl, ← ih]
      rfl

/-- The client is called once, as soon as every submitted request has been answered, and never
after it has cancelled. The address is that of the answers, in whichever order they come. -/
theorem resolv_reports_once (ipv6first : Bool) (submit : Family → Bool) (submitted : ∃ f, submit f = true) (clientFreeCb : Bool)
    (port : UInt16) :
    let mode := resolvInit ipv6first
    let start := resolvQuery mode submit clientFreeCb port
    (∀ es out, (resolver mode).run start es = some out → ∃ s, out = .ok s ∧
      (Complete submit es → s.calls = [bestAddress mode port (answers es)]) ∧ (¬ Complete submit es → s.calls = [])) ∧
    ∀ (results : Family → Option (List Bytes)) (order : List Family), order.Perm ([.inet, .inet6].filter submit) →
      ∃ s, (resolver mode).run start (order.map fun f => .answer f (results f)) = some (.ok s) ∧
        s.calls = [bestAddress mode port fun f => if submit f then (results f).getD [] else []] := by
  have started := follows_start ipv6first submitted clientFreeCb port
  refine ⟨fun es out ran => ?_, fun results order perm => ?_⟩
  · obtain ⟨s, ended, follows⟩ := follows_run started ran
    exact ⟨s, ended, follows.calls⟩
  · have mem : ∀ f, f ∈ order ↔ submit f = true := by
      intro f
      rw [perm.mem_iff, List.mem_filter]
      refine and_iff_right ?_
      cases f <;> decide
    have once : order.Nodup := perm.nodup_iff.mpr (List.filter_sublist.nodup (by decide))
    obtain ⟨s, ran, follows⟩ := follows_order results started List.not_mem_nil once fun f todo => ⟨(mem f).mp todo, rfl⟩
    rw [List.nil_append] at follows
    have complete : Complete submit (order.map fun f => .answer f (results f)) := by
      refine ⟨by simp, fun f asked => ?_⟩
      rw [answered_order, if_pos ((mem f).mpr asked)]
      rfl
    have all : answers (order.map fun f => .answer f (results f)) = fun f => if submit f then (results f).getD [] else [] := by
      funext f
      rw [answers, answered_order]
      by_cases asked : submit f = true
      · rw [if_pos ((mem f).mpr asked), if_pos asked]
        rfl
      · rw [if_neg (fun here => asked ((mem f).mp here)), if_neg asked]
        rfl
    exact ⟨s, ran, by rw [follows.calls.1 complete, all]⟩

/-- The AAAA answer comes first and is empty, the A answer holds two addresses. -/
theorem resolv_reports_once_both : ∃ s : State,
    (resolver .ipv6First).run (resolvQuery .ipv6First (fun _ => true) false 443)
      [.answer .inet6 (some []), .answer .inet (some [[10, 0, 0, 1], [10, 0, 0, 2]])] = some (.ok s) ∧
    s.calls = [some { family := .inet, port := 443, addr := [10, 0, 0, 1] }] :=
  (resolv_reports_once true (fun _ => true) ⟨.inet, rfl⟩ false 443).2
    (fun | .inet => some [[10, 0, 0, 1], [10, 0, 0, 2]] | .inet6 => some []) [.inet6, .inet] (by decide)

end Shadowsocks.Resolv
