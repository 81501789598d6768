import Shadowsocks.Server.Process

/-!
# Servers whose header is not there yet

A server is in stage 0 from `accept_cb` until the segment that makes its header longer than
an IV. All that time it is as `new_server` made it but for the bytes that have arrived, and
neither a remote nor a query points at it, whatever the callbacks of the other objects do.
-/

namespace Shadowsocks.Server.Process
set_option autoImplicit false
open Lib

variable {P : Platform} {C : Config P}

/-- A server that waits for the rest of its header. -/
structure ServerT.Waiting (C : Config P) (server : ServerT P) : Prop where
  short : server.buf.len ≤ C.E.ivLen
  room : server.buf.array.length = bufSize
  index : server.buf.idx = 0
  auth : server.auth = false
  chunk : server.chunk = {}
  dCtx : server.dCtx = newContext C.E false []
  remote : server.remote = none
  query : server.query = none

/-- The servers in stage 0, except `busy`, wait, and nothing points at them. -/
structure Early (C : Config P) (busy : Option Nat) (servers : Pool (ServerT P)) (remotes : Pool RemoteT) (queries : Pool Nat) : Prop where
  bounded : servers.heap.Bounded
  waiting : ∀ w server, servers.cell w = some server → busy ≠ some w → server.stage = 0 → server.Waiting C
  remotes : ∀ r remote w, remotes.cell r = some remote → remote.server = some w →
    w < servers.next ∧ ∀ server, servers.cell w = some server → busy ≠ some w → server.stage ≠ 0
  queries : ∀ q w, queries.cell q = some w →
    w < servers.next ∧ ∀ server, servers.cell w = some server → busy ≠ some w → server.stage ≠ 0
  here : ∀ w, busy = some w → w < servers.next

section
variable {busy : Option Nat} {servers : Pool (ServerT P)} {remotes : Pool RemoteT} {queries : Pool Nat} {w r q : Nat}

theorem lt_next_of_cell (bounded : servers.heap.Bounded) {server : ServerT P} (here : servers.cell w = some server) :
    w < servers.next := by
  by_contra above
  rw [Pool.cell, bounded w (Nat.not_lt.mp above)] at here
  cases here

/-- A callback begins to work for a server. -/
theorem Early.enter (early : Early C none servers remotes queries) (below : w < servers.next) :
    Early C (some w) servers remotes queries where
  bounded := early.bounded
  waiting w' server at_ _ := early.waiting w' server at_ nofun
  remotes r remote w' there points :=
    ⟨(early.remotes r remote w' there points).1, fun server at_ _ => (early.remotes r remote w' there points).2 server at_ nofun⟩
  queries q w' there := ⟨(early.queries q w' there).1, fun server at_ _ => (early.queries q w' there).2 server at_ nofun⟩
  here w' same := by
    cases same
    exact below

/-- The server it worked for is in a later stage, or gone. -/
theorem Early.leave (early : Early C (some w) servers remotes queries)
    (later : ∀ server, servers.cell w = some server → server.stage ≠ 0) : Early C none servers remotes queries where
  bounded := early.bounded
  waiting w' server at_ _ zero := by
    refine early.waiting w' server at_ ?_ zero
    rintro ⟨⟩
    exact later server at_ zero
  remotes r remote w' there points := by
    refine ⟨(early.remotes r remote w' there points).1, fun server at_ _ => ?_⟩
    by_cases same : w = w'
    · exact later server (same ▸ at_)
    · exact (early.remotes r remote w' there points).2 server at_ fun no => same (Option.some.inj no)
  queries q w' there := by
    refine ⟨(early.queries q w' there).1, fun server at_ _ => ?_⟩
    by_cases same : w = w'
    · exact later server (same ▸ at_)
    · exact (early.queries q w' there).2 server at_ fun no => same (Option.some.inj no)
  here := nofun

/-- A server that is not `busy` may only leave stage 0, or stay as it waits. -/
theorem Early.modifyServer (early : Early C busy servers remotes queries) {f : ServerT P → ServerT P}
    (fine : busy ≠ some w → ∀ server, servers.cell w = some server → (f server).stage = 0 →
      server.stage = 0 ∧ (server.Waiting C → (f server).Waiting C)) :
    Early C busy (servers.modify w f) remotes queries where
  bounded := early.bounded.modify
  waiting w' server' at' other zero := by
    obtain ⟨server, at_, ⟨rfl, -⟩ | ⟨rfl, rfl⟩⟩ := Pool.cell_modify at'
    · exact early.waiting w' _ at_ other zero
    · obtain ⟨before, waits⟩ := fine other server at_ zero
      exact waits (early.waiting _ server at_ other before)
  remotes r remote w' there points := by
    refine ⟨(early.remotes r remote w' there points).1, fun server' at' other zero => ?_⟩
    obtain ⟨server, at_, ⟨rfl, -⟩ | ⟨rfl, rfl⟩⟩ := Pool.cell_modify at'
    · exact (early.remotes r remote w' there points).2 _ at_ other zero
    · exact (early.remotes r remote _ there points).2 server at_ other (fine other server at_ zero).1
  queries q w' there := by
    refine ⟨(early.queries q w' there).1, fun server' at' other zero => ?_⟩
    obtain ⟨server, at_, ⟨rfl, -⟩ | ⟨rfl, rfl⟩⟩ := Pool.cell_modify at'
    · exact (early.queries q w' there).2 _ at_ other zero
    · exact (early.queries q _ there).2 server at_ other (fine other server at_ zero).1
  here := early.here

/-- The invariant says nothing about a server that is gone. -/
theorem Early.freeServer (early : Early C busy servers remotes queries) (w : Nat) : Early C busy (servers.free w) remotes queries where
  bounded := early.bounded.free
  waiting w' server at' other zero := early.waiting w' server (Pool.cell_free at').1 other zero
  remotes r remote w' there points :=
    ⟨(early.remotes r remote w' there points).1, fun server at' => (early.remotes r remote w' there points).2 server (Pool.cell_free at').1⟩
  queries q w' there := ⟨(early.queries q w' there).1, fun server at' => (early.queries q w' there).2 server (Pool.cell_free at').1⟩
  here := early.here

/-- A new server waits, and nothing can point at it yet. -/
theorem Early.newServer (early : Early C none servers remotes queries) {server : ServerT P} (waits : server.Waiting C) :
    Early C none (servers.new server) remotes queries where
  bounded := early.bounded.new
  waiting w' server' at' _ zero := by
    rcases Pool.cell_new_iff.mp at' with ⟨-, rfl⟩ | ⟨-, at_⟩
    · exact waits
    · exact early.waiting w' server' at_ nofun zero
  remotes r remote w' there points := by
    obtain ⟨below, later⟩ := early.remotes r remote w' there points
    refine ⟨Nat.lt_succ_of_lt below, fun server' at' _ => ?_⟩
    exact later server' ((Pool.cell_new_of_ne (Nat.ne_of_lt below)).symm.trans at') nofun
  queries q w' there := by
    obtain ⟨below, later⟩ := early.queries q w' there
    refine ⟨Nat.lt_succ_of_lt below, fun server' at' _ => ?_⟩
    exact later server' ((Pool.cell_new_of_ne (Nat.ne_of_lt below)).symm.trans at') nofun
  here := nofun

/-- A remote may be pointed at nothing, or at the server `busy`. -/
theorem Early.modifyRemote (early : Early C busy servers remotes queries) {f : RemoteT → RemoteT}
    (fine : ∀ remote w, (f remote).server = some w → remote.server = some w ∨ busy = some w) :
    Early C busy servers (remotes.modify r f) queries where
  bounded := early.bounded
  waiting := early.waiting
  remotes r' remote' w' here points := by
    obtain ⟨remote, there, ⟨rfl, -⟩ | ⟨rfl, -⟩⟩ := Pool.cell_modify here
    · exact early.remotes r' _ w' there points
    · rcases fine remote w' points with before | mine
      · exact early.remotes r' remote w' there before
      · exact ⟨early.here w' mine, fun _ _ other => absurd mine other⟩
  queries := early.queries
  here := early.here

/-- A new remote belongs to nobody. -/
theorem Early.newRemote (early : Early C busy servers remotes queries) {remote : RemoteT} (free : remote.server = none) :
    Early C busy servers (remotes.new remote) queries where
  bounded := early.bounded
  waiting := early.waiting
  remotes r' remote' w' here points := by
    rcases Pool.cell_new_iff.mp here with ⟨-, rfl⟩ | ⟨-, there⟩
    · rw [free] at points
      cases points
    · exact early.remotes r' remote' w' there points
  queries := early.queries
  here := early.here

theorem Early.freeRemote (early : Early C busy servers remotes queries) (r : Nat) : Early C busy servers (remotes.free r) queries where
  bounded := early.bounded
  waiting := early.waiting
  remotes r' remote w' here := early.remotes r' remote w' (Pool.cell_free here).1
  queries := early.queries
  here := early.here

/-- A new query belongs to the server whose callback is running. -/
theorem Early.newQuery (early : Early C (some w) servers remotes queries) : Early C (some w) servers remotes (queries.new w) where
  bounded := early.bounded
  waiting := early.waiting
  remotes := early.remotes
  queries q' w' here := by
    rcases Pool.cell_new_iff.mp here with ⟨-, rfl⟩ | ⟨-, there⟩
    · exact ⟨early.here w' rfl, fun _ _ other => absurd rfl other⟩
    · exact early.queries q' w' there
  here := early.here

theorem Early.freeQuery (early : Early C busy servers remotes queries) (q : Nat) : Early C busy servers remotes (queries.free q) where
  bounded := early.bounded
  waiting := early.waiting
  remotes := early.remotes
  queries q' w' here := early.queries q' w' (Pool.cell_free here).1
  here := early.here

end

/-! ## The pieces of the callbacks -/

/-- Inside a callback that works for `w`, of which `φ` is known. -/
structure At (C : Config P) (w : Nat) (φ : ServerT P → Prop) (s : State P) : Prop where
  early : Early C (some w) s.servers s.remotes s.queries
  known : ∀ server, s.servers.cell w = some server → φ server

/-- Between two callbacks. -/
def Between (C : Config P) (s : State P) : Prop := Early C none s.servers s.remotes s.queries

/-- The server has left stage 0. -/
def Later (server : ServerT P) : Prop := server.stage ≠ 0

/-- Nothing is known of the server. -/
def Some_ (_ : ServerT P) : Prop := True

/-- What is known of a server depends on its stage alone. -/
def ByStage (φ : ServerT P → Prop) : Prop := ∀ server server', server'.stage = server.stage → φ server → φ server'

section
variable {w r : Nat} {φ ψ : ServerT P → Prop} {α : Type} {pre : State P → Prop}

/-- A callback that ends behind stage 0 ends in order. -/
theorem At.between {s : State P} (at_ : At C w Later s) : Between C s := at_.early.leave at_.known

theorem At.forget {s : State P} (at_ : At C w φ s) : At C w Some_ s := ⟨at_.early, fun _ _ => trivial⟩

/-- What is read is the server that is there. -/
theorem getServer_leads : Leads pre (getServer w) fun server s => pre s ∧ s.servers.cell w = some server := by
  intro s holds server s' done
  cases here : s.servers.cell w with
  | none =>
    have failed : getServer w s = .error .useAfterFree := by
      rw [getServer, bind_run (get_run s), here]
      rfl
    rw [failed] at done
    cases done
  | some server' =>
    have found : getServer w s = .ok (server', s) := by
      rw [getServer, bind_run (get_run s), here]
      rfl
    rw [found] at done
    cases done
    exact ⟨holds, here⟩

/-- The same for a remote. -/
theorem getRemote_leads : Leads pre (getRemote r) fun remote s => pre s ∧ s.remotes.cell r = some remote := by
  intro s holds remote s' done
  cases here : s.remotes.cell r with
  | none =>
    have failed : getRemote r s = .error .useAfterFree := by
      rw [getRemote, bind_run (get_run s), here]
      rfl
    rw [failed] at done
    cases done
  | some remote' =>
    have found : getRemote r s = .ok (remote', s) := by
      rw [getRemote, bind_run (get_run s), here]
      rfl
    rw [found] at done
    cases done
    exact ⟨holds, here⟩

/-- Reading changes nothing. -/
theorem getServer_keeps : Leads pre (getServer w) fun _ => pre := getServer_leads.consequence (fun _ here => here) fun _ _ both => both.1

theorem getRemote_keeps : Leads pre (getRemote r) fun _ => pre := getRemote_leads.consequence (fun _ here => here) fun _ _ both => both.1

/-- Work on data changes no object. -/
theorem data_keeps {x : Except Fault α} : Leads pre (liftM x : Callback P α) fun _ => pre :=
  Leads.lift.consequence (fun _ here => here) fun _ _ both => both.1

theorem get_keeps : Leads pre (get : Callback P (State P)) fun _ => pre :=
  Leads.get.consequence (fun _ here => here) fun _ _ both => both.1

/-- A server is changed in its place. -/
theorem setServer_leads {f : ServerT P → ServerT P} {post : Unit → State P → Prop}
    (changes : ∀ s server, pre s → s.servers.cell w = some server → post () { s with servers := s.servers.modify w f }) :
    Leads pre (setServer w f) post := by
  refine Leads.bind getServer_leads fun server => Leads.modify fun s here => ?_
  exact changes s server here.1 here.2

/-- So what is known of it may change. -/
theorem setServer_at {f : ServerT P → ServerT P} (fine : ∀ server, φ server → ψ (f server)) :
    Leads (At C w φ) (setServer w f) fun _ => At C w ψ := by
  refine setServer_leads fun s server at_ here => ⟨at_.early.modifyServer fun other => absurd rfl other, fun server' here' => ?_⟩
  rw [Pool.cell_modify_self, here] at here'
  cases here'
  exact fine server (at_.known server here)

/-- A remote may be given to the server whose callback is running, and to no other one. -/
theorem setRemote_at {f : RemoteT → RemoteT} (keeps : ∀ remote w', (f remote).server = some w' → remote.server = some w' ∨ w' = w) :
    Leads (At C w φ) (setRemote r f) fun _ => At C w φ := by
  refine Leads.bind getRemote_keeps fun _ => Leads.modify fun s at_ => ⟨at_.early.modifyRemote fun remote w' points => ?_, at_.known⟩
  exact (keeps remote w' points).imp id fun same => congrArg some same.symm

theorem countServers_keeps (n : Int) : Leads (At C w φ) (countServers C n) fun _ => At C w φ := by
  refine Leads.ite (fun _ => ?_) fun _ => Leads.ret fun _ at_ => at_
  exact Leads.modify fun _ at_ => ⟨at_.early, at_.known⟩

theorem countRemotes_keeps (n : Int) : Leads (At C w φ) (countRemotes C n) fun _ => At C w φ := by
  refine Leads.ite (fun _ => ?_) fun _ => Leads.ret fun _ at_ => at_
  exact Leads.modify fun _ at_ => ⟨at_.early, at_.known⟩

theorem newRemote_keeps : Leads (At C w φ) (newRemote C) fun _ => At C w φ := by
  refine Leads.seq (countRemotes_keeps 1) fun _ => Leads.seq get_keeps fun _ => ?_
  refine Leads.bind (?_ : Leads _ _ fun _ => At C w φ) fun _ => Leads.ret fun _ at_ => at_
  exact Leads.modify fun s at_ => ⟨at_.early.newRemote rfl, at_.known⟩

/-- `remote->server` stays as it is in all but two places. -/
theorem setRemote_keeps {f : RemoteT → RemoteT} (keeps : ∀ remote, (f remote).server = remote.server) :
    Leads (At C w φ) (setRemote r f) fun _ => At C w φ :=
  setRemote_at fun remote _ points => .inl ((keeps remote).symm.trans points)

/-- The remote of another server can only go if that server has left stage 0. -/
theorem freeRemote_keeps (stage : ByStage φ) :
    Leads (At C w φ) (freeRemote r) fun _ => At C w φ := by
  refine Leads.bind getRemote_leads fun remote => ?_
  refine Leads.bind (?_ : Leads _ _ fun _ => At C w φ) fun _ => Leads.modify fun s at_ => ⟨at_.early.freeRemote r, at_.known⟩
  unfold detachServer
  cases points : remote.server with
  | none => exact Leads.ret fun _ both => both.1
  | some w' =>
    refine setServer_leads fun s server both here => ⟨both.1.early.modifyServer fun other server' here' zero => ?_, fun server' here' => ?_⟩
    · exact absurd zero ((both.1.early.remotes r remote w' both.2 points).2 server' here' other)
    · obtain ⟨server'', before, ⟨rfl, -⟩ | ⟨rfl, -⟩⟩ := Pool.cell_modify here'
      · exact both.1.known _ before
      · exact stage server'' _ rfl (both.1.known server'' before)

/-- Closing a remote takes it from its server, whose stage stays. -/
theorem closeAndFreeRemote_keeps (stage : ByStage φ) (remote : Option Nat) :
    Leads (At C w φ) (closeAndFreeRemote C remote) fun _ => At C w φ := by
  cases remote with
  | none => exact Leads.ret fun _ at_ => at_
  | some r =>
    refine Leads.seq (setRemote_keeps fun _ => by rfl) fun _ => ?_
    exact Leads.seq (freeRemote_keeps stage) fun _ => countRemotes_keeps (-1)

/-- A query that is cancelled is freed, and so it is not answered. -/
theorem resolvCancel_keeps (server : ServerT P) : Leads (At C w Some_) (resolvCancel w server) fun _ => At C w Some_ := by
  unfold resolvCancel
  cases server.query with
  | none => exact Leads.ret fun _ at_ => at_
  | some q =>
    refine Leads.seq get_keeps fun t => ?_
    cases t.queries.cell q with
    | none => exact Leads.fail
    | some _ =>
      refine Leads.seq (Leads.modify fun s at_ => ⟨at_.early.freeQuery q, at_.known⟩) fun _ => ?_
      exact setServer_at fun _ known => known

/-- A server that is closed is gone. -/
theorem closeAndFreeServer_leads : Leads (At C w φ) (closeAndFreeServer C w) fun _ => At C w ψ := by
  refine Leads.consequence (?_ : Leads (At C w Some_) _ fun _ => At C w ψ) (fun _ at_ => at_.forget) fun _ _ done => done
  refine Leads.seq getServer_keeps fun server => Leads.seq (resolvCancel_keeps server) fun _ => ?_
  refine Leads.seq (setServer_at fun _ known => known) fun _ =>
    Leads.bind (?_ : Leads _ _ fun _ => At C w ψ) fun _ => countServers_keeps (-1)
  refine Leads.seq getServer_keeps fun server => ?_
  refine Leads.seq (Leads.modify fun s at_ => ⟨at_.early, at_.known⟩) fun _ =>
    Leads.bind (?_ : Leads _ _ fun _ => At C w Some_) fun _ => ?_
  · unfold detachRemote
    cases server.remote with
    | none => exact Leads.ret fun _ at_ => at_
    | some r => exact setRemote_at fun _ _ points => by cases points
  · refine Leads.modify fun s at_ => ⟨at_.early.freeServer w, fun server here => ?_⟩
    rw [Pool.cell_free_self] at here
    cases here

/-- Behind `close_and_free_server` nothing is known of the server, since it is gone. -/
theorem closeBoth_leads (stage : ByStage φ) (remote : Option Nat) :
    Leads (At C w φ) (closeBoth C remote w) fun _ => At C w ψ :=
  Leads.seq (closeAndFreeRemote_keeps stage remote) fun _ => closeAndFreeServer_leads

end

/-! ## The callbacks -/

section
variable {w r : Nat} {φ : ServerT P → Prop} {α : Type}

theorem byStage_later : ByStage (P := P) Later := fun _ _ same later zero => later (same.symm.trans zero)

theorem byStage_some : ByStage (P := P) Some_ := fun _ _ _ _ => trivial

/-- A server that has left stage 0 does not come back. -/
theorem setServer_later {f : ServerT P → ServerT P} (keeps : ∀ server, (f server).stage = server.stage ∨ (f server).stage ≠ 0) :
    Leads (At C w Later) (setServer w f) fun _ => At C w Later := by
  refine setServer_at fun server later => ?_
  rcases keeps server with same | other
  · exact fun zero => later (same.symm.trans zero)
  · exact other

/-- A computation that may close the connection instead. -/
theorem orClose_leads {x : Except Stop α} {close : Callback P Unit} {k : α → Callback P Unit} {pre : State P → Prop}
    {post : Unit → State P → Prop} (closes : Leads pre close post) (goes : ∀ a, x = .ok a → Leads pre (k a) post) :
    Leads pre (orClose x close k) post := by
  unfold orClose
  cases x with
  | ok a => exact goes a rfl
  | error e =>
    cases e with
    | closed => exact closes
    | crashed => exact Leads.fail

/-- `remote_send_cb` once the connection is up. -/
theorem sendPending_leads (send : SendResult) : Leads (At C w Later) (sendPending C r w send) fun _ => At C w Later := by
  refine Leads.seq getRemote_keeps fun remote => Leads.ite (fun _ => closeBoth_leads byStage_later _) fun _ => ?_
  refine Leads.seq data_keeps fun _ => ?_
  cases send.on remote.buf.len with
  | error => exact closeBoth_leads byStage_later _
  | again => exact Leads.ret fun _ at_ => at_
  | count n =>
    refine Leads.ite (fun _ => setRemote_keeps fun _ => by rfl) fun _ => ?_
    refine Leads.seq (setRemote_keeps fun _ => by rfl) fun _ => Leads.seq (setServer_later fun _ => .inl rfl) fun _ => ?_
    refine Leads.seq getServer_keeps fun server => Leads.ite (fun _ => ?_) fun _ => Leads.ret fun _ at_ => at_
    refine Leads.seq (setServer_later fun _ => .inr (Nat.succ_ne_zero 4)) fun _ => ?_
    exact setRemote_keeps fun _ => by rfl

/-- From a remote the callbacks come to a server that has left stage 0. -/
theorem Between.remote {s : State P} (between : Between C s) {remote : RemoteT} (there : s.remotes.cell r = some remote)
    (points : remote.server = some w) : At C w Later s where
  early := between.enter (between.remotes r remote w there points).1
  known server here := (between.remotes r remote w there points).2 server here nofun

/-- A callback begins with the server as it stands. -/
theorem Between.server {s : State P} (between : Between C s) {server : ServerT P} (here : s.servers.cell w = some server) :
    At C w (fun known => known = server) s where
  early := between.enter (lt_next_of_cell between.bounded here)
  known _ here' := Option.some.inj (here'.symm.trans here)

/-- A remote that no server owns is closed. -/
theorem closeRemote_between : Leads (Between C) (closeAndFreeRemote C (some r)) fun _ => Between C := by
  have stays : ∀ {f : RemoteT → RemoteT}, (∀ remote, (f remote).server = remote.server) →
      Leads (Between C) (setRemote r f) fun _ => Between C := fun keeps =>
    Leads.seq getRemote_keeps fun _ => Leads.modify fun s between =>
      between.modifyRemote fun remote _ points => .inl ((keeps remote).symm.trans points)
  refine Leads.seq (stays fun _ => by rfl) fun _ => Leads.bind (?_ : Leads _ _ fun _ => Between C) fun _ => ?_
  · refine Leads.bind getRemote_leads fun remote => ?_
    refine Leads.bind (?_ : Leads _ _ fun _ => Between C) fun _ => Leads.modify fun s between => between.freeRemote r
    unfold detachServer
    cases points : remote.server with
    | none => exact Leads.ret fun _ both => both.1
    | some w' =>
      refine setServer_leads fun s server both _ => both.1.modifyServer fun _ other here' zero => ?_
      exact absurd zero ((both.1.remotes r remote w' both.2 points).2 other here' nofun)
  · refine Leads.ite (fun _ => ?_) fun _ => Leads.ret fun _ between => between
    exact Leads.modify fun _ between => between

/-- A callback for a remote works for its server, or closes it. -/
theorem forRemote {k : RemoteT → Callback P Unit} (alone : ∀ remote, remote.server = none → k remote = closeAndFreeRemote C (some r))
    (owned : ∀ remote w, remote.server = some w → Leads (At C w Later) (k remote) fun _ => At C w Later) :
    Leads (Between C) (getRemote r >>= k) fun _ => Between C := by
  refine Leads.bind getRemote_leads fun remote => ?_
  cases points : remote.server with
  | none =>
    rw [alone remote points]
    exact closeRemote_between.consequence (fun _ both => both.1) fun _ _ done => done
  | some w => exact (owned remote w points).consequence (fun _ both => both.1.remote both.2 points) fun _ _ at_ => at_.between

/-- The events of a remote never concern a server in stage 0. -/
theorem remoteSendCb_between (peer : Bool) (send : SendResult) :
    Leads (Between C) (remoteSendCb C r peer send) fun _ => Between C := by
  refine forRemote (fun remote alone => by rw [alone]) fun remote w points => ?_
  rw [points]
  refine Leads.ite (fun _ => sendPending_leads send) fun _ => Leads.ite (fun _ => ?_) fun _ => closeBoth_leads byStage_later _
  refine Leads.seq (setRemote_keeps fun _ => by rfl) fun _ => Leads.ite (fun _ => ?_) fun _ => sendPending_leads send
  refine Leads.seq (setServer_later fun _ => .inr (Nat.succ_ne_zero 4)) fun _ => Leads.seq (setRemote_keeps fun _ => by rfl) fun _ => ?_
  exact Leads.seq (setServer_later fun _ => .inl rfl) fun _ => setRemote_keeps fun _ => by rfl

theorem remoteRecvCb_between (e : RecvEvent) : Leads (Between C) (remoteRecvCb C r e) fun _ => Between C := by
  refine forRemote (fun remote alone => by rw [alone]) fun remote w points => ?_
  rw [points]
  cases e.recv with
  | eof => exact closeBoth_leads byStage_later _
  | failed => exact closeBoth_leads byStage_later _
  | wouldBlock => exact Leads.ret fun _ at_ => at_
  | data segment =>
    refine Leads.seq getServer_keeps fun server => Leads.seq data_keeps fun buf => ?_
    refine orClose_leads (closeBoth_leads byStage_later _) fun out _ => ?_
    refine Leads.seq (setServer_later fun _ => .inl rfl) fun _ => Leads.seq data_keeps fun _ => ?_
    cases e.send.on out.1.len with
    | again =>
      refine Leads.seq (setServer_later fun _ => .inl rfl) fun _ => Leads.seq (setRemote_keeps fun _ => by rfl) fun _ => ?_
      exact setServer_later fun _ => .inl rfl
    | error => exact closeBoth_leads byStage_later _
    | count n =>
      refine Leads.ite (fun _ => ?_) fun _ => setServer_later fun _ => .inl rfl
      refine Leads.seq (setServer_later fun _ => .inl rfl) fun _ => Leads.seq (setRemote_keeps fun _ => by rfl) fun _ => ?_
      exact setServer_later fun _ => .inl rfl

/-! ## Connecting -/

/-- `sendto` with `MSG_FASTOPEN` changes the index of the buffer only. -/
theorem fastOpenSend_keeps (stage : ByStage φ) (d : Dial) : Leads (At C w φ) (fastOpenSend w d) fun _ => At C w φ := by
  refine Leads.seq get_keeps fun s => Leads.ite (fun _ => ?_) fun _ => Leads.ret fun _ at_ => at_
  refine Leads.seq getServer_keeps fun server => Leads.seq data_keeps fun _ => ?_
  cases d.sendto.count server.buf.len with
  | some n => exact setServer_at fun server => stage server _ rfl
  | none =>
    refine Leads.ite (fun _ => ?_) fun _ => Leads.ret fun _ at_ => at_
    exact Leads.modify fun _ at_ => ⟨at_.early, at_.known⟩

/-- A remote that could not be connected is left over, but it belongs to nobody. -/
theorem connectToRemote_keeps (stage : ByStage φ) (d : Dial) : Leads (At C w φ) (connectToRemote C w d) fun _ => At C w φ := by
  refine Leads.ite (fun _ => Leads.ret fun _ at_ => at_) fun _ => ?_
  refine Leads.seq newRemote_keeps fun r => Leads.seq (fastOpenSend_keeps stage d) fun _ => Leads.seq get_keeps fun s => ?_
  refine Leads.ite (fun _ => Leads.ret fun _ at_ => at_) fun _ => ?_
  cases d.connect <;> exact Leads.ret fun _ at_ => at_

/-- The remote that is attached points at the server of the callback. -/
theorem attachRemote_keeps (stage : ByStage φ) (start : Buffer → Nat) :
    Leads (At C w φ) (attachRemote w r start) fun _ => At C w φ := by
  refine Leads.seq (Leads.seq (setServer_at fun server => stage server _ rfl) fun _ => setRemote_at fun _ _ points => ?_) fun _ => ?_
  · exact .inr (Option.some.inj points).symm
  · refine Leads.seq getServer_keeps fun server => Leads.ite (fun _ => ?_) fun _ => Leads.ret fun _ at_ => at_
    refine Leads.seq data_keeps fun data => Leads.seq getRemote_keeps fun remote => Leads.seq data_keeps fun buf => ?_
    exact Leads.seq (setRemote_keeps fun _ => by rfl) fun _ => setServer_at fun server => stage server _ rfl

/-- Behind stage 0 a server may have a remote or a query. -/
theorem setStage_leads {n : Nat} (later : n ≠ 0) :
    Leads (At C w φ) (setServer w fun server => { server with stage := n }) fun _ => At C w Later :=
  setServer_at fun _ _ => later

/-- The end of stage 0 leads out of it. -/
theorem handleRequest_leads (dst : Destination) (d : Dial) (query : Bool) :
    Leads (At C w Some_) (handleRequest C w dst d query) fun _ => Between C := by
  cases dst with
  | query host port =>
    refine Leads.bind (setStage_leads (Nat.succ_ne_zero 3)) fun _ => Leads.seq ?_ fun _ =>
      (setServer_later fun _ => .inl (by rfl)).consequence (fun _ at_ => at_) fun _ _ at_ => at_.between
    refine Leads.ite (fun _ => ?_) fun _ => Leads.ret fun _ at_ => at_
    refine Leads.seq get_keeps fun s => Leads.seq (Leads.modify fun _ at_ => ⟨at_.early.newQuery, at_.known⟩) fun _ => ?_
    exact setServer_later fun _ => .inl rfl
  | sockaddr ip port =>
    refine Leads.seq (connectToRemote_keeps byStage_some d) fun connected => ?_
    cases connected with
    | none =>
      have closed : Leads (At C w Some_) (closeAndFreeServer C w) fun _ => At C w Later := closeAndFreeServer_leads
      exact closed.consequence (fun _ at_ => at_) fun _ _ at_ => at_.between
    | some found =>
      obtain ⟨r, inline⟩ := found
      refine Leads.seq (attachRemote_keeps byStage_some _) fun _ => Leads.bind (setStage_leads (Nat.succ_ne_zero 3)) fun _ => ?_
      cases inline with
      | some results => exact (remoteSendCb_between _ _).consequence (fun _ at_ => at_.between) fun _ _ done => done
      | none =>
        refine Leads.seq (setServer_later fun _ => .inl rfl) fun _ => ?_
        exact (setRemote_keeps fun _ => by rfl).consequence (fun _ at_ => at_) fun _ _ at_ => at_.between

/-! ## The machine -/

/-- What `recv` adds to a buffer. -/
theorem recvInto_cases {buf buf' : Buffer} {len : Nat} {segment : Segment} (received : recvInto buf len segment = .ok buf') :
    buf'.array.length = buf.array.length ∧ buf'.idx = buf.idx ∧ buf'.len ≤ buf'.array.length := by
  obtain ⟨written, wrote, received⟩ := bind_eq_ok.mp received
  cases received
  obtain ⟨room, rfl⟩ := Buffer.write_eq_ok.mp wrote
  have size := length_splice room
  refine ⟨size, rfl, ?_⟩
  dsimp only
  omega

/-- More bytes have come, but not enough. -/
theorem ServerT.Waiting.receive {server : ServerT P} {buf : Buffer} {segment : Segment} (waits : server.Waiting C)
    (received : recvInto server.buf server.buf.len segment = .ok buf) (short : buf.len ≤ C.E.ivLen) :
    ({ server with buf } : ServerT P).Waiting C := by
  obtain ⟨room, index, -⟩ := recvInto_cases received
  exact { waits with
    short := short
    room := room.trans waits.room
    index := index.trans waits.index }

/-- Stage 0 sets the stage before it asks the resolver or attaches a remote. -/
theorem recvHeader_leads (server : ServerT P) (segment : Segment) (e : RecvEvent) (d : Dial) (query : Bool) :
    Leads (fun s => Between C s ∧ s.servers.cell w = some server ∧ server.stage = 0) (recvHeader C w server segment e d query)
      fun _ => Between C := by
  have begins : ∀ s, Between C s ∧ s.servers.cell w = some server ∧ server.stage = 0 → At C w Some_ s :=
    fun s here => (here.1.server here.2.1).forget
  have closes : Leads (At C w Some_) (closeAndFreeServer C w) fun _ => Between C :=
    (closeAndFreeServer_leads (P := P)).consequence (fun _ at_ => at_) fun _ _ at_ => at_.between
  refine Leads.bind Leads.lift fun buf => Leads.of_fact (fun _ both => both.2) fun received => ?_
  refine Leads.consequence ?_ (fun _ both => both.1) fun _ _ done => done
  refine Leads.ite (fun short => ?_) fun _ => Leads.consequence ?_ begins fun _ _ done => done
  · refine setServer_leads fun s _ here _ => here.1.modifyServer fun _ server' here' zero => ⟨zero, fun waits => ?_⟩
    cases here.2.1.symm.trans here'
    exact waits.receive received short
  · refine orClose_leads closes fun plain _ => orClose_leads closes fun request _ => ?_
    exact Leads.seq (setServer_at fun _ _ => trivial) fun _ => handleRequest_leads _ d query

/-- Stage 5 leaves the stage as it is. -/
theorem recvStream_leads (server : ServerT P) (segment : Segment) (e : RecvEvent) :
    Leads (At C w Later) (recvStream C w r server segment e) fun _ => At C w Later := by
  refine Leads.seq getRemote_keeps fun remote => Leads.seq data_keeps fun buf => ?_
  refine orClose_leads (closeBoth_leads byStage_later _) fun plain _ => Leads.ite (fun _ => ?_) fun _ => Leads.fail
  refine orClose_leads ?_ fun checked _ => ?_
  · exact Leads.seq closeAndFreeServer_leads fun _ => closeAndFreeRemote_keeps byStage_later _
  · refine Leads.seq (setServer_later fun _ => .inl (by rfl)) fun _ => Leads.seq data_keeps fun _ => ?_
    cases e.send.on checked.1.len with
    | again =>
      refine Leads.seq (setRemote_keeps fun _ => by rfl) fun _ => Leads.seq (setServer_later fun _ => .inl (by rfl)) fun _ => ?_
      exact setRemote_keeps fun _ => by rfl
    | error => exact closeBoth_leads byStage_later _
    | count n =>
      refine Leads.ite (fun _ => ?_) fun _ => setRemote_keeps fun _ => by rfl
      refine Leads.seq (setRemote_keeps fun _ => by rfl) fun _ => Leads.seq (setServer_later fun _ => .inl (by rfl)) fun _ => ?_
      exact setRemote_keeps fun _ => by rfl

/-- Whatever a server is, it can be closed with its remote. -/
theorem closeBoth_between (server : ServerT P) :
    Leads (fun s => Between C s ∧ s.servers.cell w = some server) (closeBoth C server.remote w) fun _ => Between C := by
  have closed : Leads (At C w Some_) (closeBoth C server.remote w) fun _ => At C w Later := closeBoth_leads byStage_some _
  exact closed.consequence (fun _ both => (both.1.server both.2).forget) fun _ _ at_ => at_.between

/-- A server that goes takes its query with it. -/
theorem closeAndFreeServer_between (server : ServerT P) :
    Leads (fun s => Between C s ∧ s.servers.cell w = some server) (closeAndFreeServer C w) fun _ => Between C := by
  have closed : Leads (At C w Some_) (closeAndFreeServer C w) fun _ => At C w Later := closeAndFreeServer_leads
  exact closed.consequence (fun _ both => (both.1.server both.2).forget) fun _ _ at_ => at_.between

/-- A server with a remote has left stage 0. -/
theorem Between.paired {s : State P} (between : Between C s) {server : ServerT P} (here : s.servers.cell w = some server)
    (own : server.remote = some r) : At C w Later s where
  early := (between.server here).early
  known server' here' := by
    cases here.symm.trans here'
    intro zero
    have waits := between.waiting w server here nofun zero
    rw [waits.remote] at own
    cases own

/-- The three stages of `server_recv_cb`. -/
theorem serverRecvCb_between (e : RecvEvent) (d : Dial) (query : Bool) :
    Leads (Between C) (serverRecvCb C w e d query) fun _ => Between C := by
  refine Leads.bind getServer_leads fun server => Leads.ite (fun zero => ?_) fun later => ?_
  · cases e.recv with
    | eof => exact closeAndFreeServer_between server
    | failed => exact closeAndFreeServer_between server
    | wouldBlock => exact Leads.ret fun _ both => both.1
    | data segment =>
      exact (recvHeader_leads server segment e d query).consequence (fun _ both => ⟨both.1, both.2, zero⟩) fun _ _ done => done
  · refine Leads.consequence (?_ : Leads (At C w Later) _ fun _ => At C w Later) (fun s both => ?_) fun _ _ at_ => at_.between
    · refine Leads.seq data_keeps fun r => ?_
      cases e.recv with
      | eof => exact closeBoth_leads byStage_later _
      | failed => exact closeBoth_leads byStage_later _
      | wouldBlock => exact Leads.ret fun _ at_ => at_
      | data segment => exact recvStream_leads server segment e
    · refine ⟨(both.1.server both.2).early, fun server' here' => ?_⟩
      cases both.2.symm.trans here'
      exact later

theorem serverSendCb_between (send : SendResult) : Leads (Between C) (serverSendCb C w send) fun _ => Between C := by
  refine Leads.bind getServer_leads fun server => ?_
  cases own : server.remote with
  | none => exact closeAndFreeServer_between server
  | some r =>
    refine Leads.consequence (?_ : Leads (At C w Later) _ fun _ => At C w Later) (fun s both => both.1.paired both.2 own)
      fun _ _ at_ => at_.between
    refine Leads.ite (fun _ => closeBoth_leads byStage_later _) fun _ => Leads.seq data_keeps fun _ => ?_
    cases send.on server.buf.len with
    | error => exact closeBoth_leads byStage_later _
    | again => exact Leads.ret fun _ at_ => at_
    | count n =>
      refine Leads.ite (fun _ => setServer_later fun _ => .inl (by rfl)) fun _ => ?_
      exact Leads.seq (setServer_later fun _ => .inl (by rfl)) fun _ => setRemote_keeps fun _ => by rfl

/-- The answer is for a server that waits for it. -/
theorem answerQuery_between (q : Nat) (found : Bool) (d : Dial) : Leads (Between C) (answerQuery C q found d) fun _ => Between C := by
  refine Leads.bind Leads.get fun t => ?_
  cases asking : t.queries.cell q with
  | none => exact Leads.fail
  | some w =>
    refine Leads.consequence (?_ : Leads (At C w Later) _ fun _ => Between C) (fun s both => ?_) fun _ _ done => done
    · refine Leads.seq (Leads.modify fun s at_ => ⟨at_.early.freeQuery q, at_.known⟩) fun _ => ?_
      refine Leads.seq (setServer_later fun _ => .inl (by rfl)) fun _ => Leads.ite (fun _ => ?_) fun _ => ?_
      · refine Leads.seq (connectToRemote_keeps byStage_later d) fun connected => ?_
        cases connected with
        | none => exact closeAndFreeServer_leads.consequence (fun _ at_ => at_) fun _ _ at_ => at_.between
        | some found =>
          obtain ⟨r, inline⟩ := found
          refine Leads.seq (attachRemote_keeps byStage_later _) fun _ => ?_
          cases inline with
          | some results => exact (remoteSendCb_between _ _).consequence (fun _ at_ => at_.between) fun _ _ done => done
          | none => exact (setRemote_keeps fun _ => by rfl).consequence (fun _ at_ => at_) fun _ _ at_ => at_.between
      · exact closeAndFreeServer_leads.consequence (fun _ at_ => at_) fun _ _ at_ => at_.between
    · obtain ⟨between, rfl⟩ := both
      exact ⟨between.enter (between.queries q w asking).1, fun server here => (between.queries q w asking).2 server here nofun⟩

theorem acceptCb_between (admitted : Bool) (iv : Bytes) : Leads (Between C) (acceptCb C admitted iv) fun _ => Between C := by
  have made : ServerT.Waiting C { buf := balloc P.junk bufSize, eCtx := newContext C.E true iv, dCtx := newContext C.E false [] } :=
    { short := Nat.zero_le _, room := length_balloc _ _, index := rfl, auth := rfl, chunk := rfl, dCtx := rfl, remote := rfl, query := rfl }
  refine Leads.ite (fun _ => ?_) fun _ => Leads.ret fun _ between => between
  refine Leads.seq (Leads.seq ?_ fun _ => Leads.seq get_keeps fun s => Leads.seq ?_ fun _ => Leads.ret fun _ between => between) fun w => ?_
  · refine Leads.ite (fun _ => ?_) fun _ => Leads.ret fun _ between => between
    exact Leads.modify fun _ between => between
  · exact Leads.modify fun _ between => between.newServer made
  · refine setServer_leads fun s _ between _ => between.modifyServer fun _ _ _ zero => ⟨zero, fun waits => ?_⟩
    exact { waits with }

/-- At the end all servers are freed. -/
theorem freeConnections_between (ws : List Nat) : Leads (Between C) (freeConnections C ws) fun _ => Between C := by
  induction ws with
  | nil => exact Leads.ret fun _ between => between
  | cons w rest ih =>
    have closed : Leads (At C w Some_) (closeAndFreeServer C w) fun _ => At C w Later := closeAndFreeServer_leads
    refine Leads.bind getServer_leads fun server => Leads.bind (closed.consequence (fun s both => ?_) fun _ _ done => done) fun _ => ?_
    · exact (both.1.server both.2).forget
    · refine Leads.seq (closeAndFreeRemote_keeps byStage_later _) fun _ => ih.consequence (fun _ at_ => at_.between) fun _ _ done => done

/-- Every event keeps the invariant, by the lemma for its callback. -/
theorem callback_between (e : Event) : Leads (Between C) (callback C e) fun _ => Between C := by
  cases e with
  | accept admitted iv => exact acceptCb_between admitted iv
  | serverRecv w e d query => exact serverRecvCb_between e d query
  | serverSend w send => exact serverSendCb_between send
  | remoteRecv r e => exact remoteRecvCb_between e
  | remoteSend r peer send => exact remoteSendCb_between peer send
  | answer q found d => exact answerQuery_between q found d
  | timeout w => exact Leads.bind getServer_leads fun server => closeBoth_between server
  | terminate =>
    refine Leads.seq get_keeps fun s => Leads.seq (freeConnections_between _) fun _ => ?_
    exact Leads.modify fun _ between => between

/-- In every run, a server in stage 0 waits for the rest of its header. -/
theorem between_of_reach {allowed : State P → Event → Prop} {s : State P} (reach : (machine C).Reach allowed (start C) s) :
    Between C s := by
  refine reach.invariant (Between C) ?_ fun s e s' between _ _ fired => ?_
  · exact { bounded := fun _ _ => rfl, waiting := nofun, remotes := nofun, queries := nofun, here := nofun }
  · change Prod.snd <$> callback C e s = .ok s' at fired
    cases done : callback C e s with
    | error f =>
      rw [done] at fired
      cases fired
    | ok r =>
      rw [done] at fired
      cases fired
      exact callback_between e s between r.1 r.2 done

end

end Shadowsocks.Server.Process
