import Shadowsocks.Server.Callbacks

/-!
# Every remote has its server

The callbacks that make objects: a client is accepted, stage 0 or the answer of the resolver
gives a destination, and `connect_to_remote` makes a remote for it. When `connect` fails with
an error, `connect_to_remote` closes the socket and returns `NULL`, but the remote that it has
made stays allocated, and counted. In every run without such a failure each remote belongs to
one server, whatever else fails.
-/

namespace Shadowsocks.Server.Process
set_option autoImplicit false
open Lib

variable {P : Platform} {C : Config P} {loose busy : Option Nat} {w r : Nat} {φ : Bool → Prop}
  {ψ : Option Nat → Option Nat → Nat → Prop} {α : Type}

/-! ## Connecting -/

/-- `connect` fails with an error, and it is called. -/
def Dial.refused (d : Dial) (fastOpen : Bool) : Bool :=
  d.socket && !(fastOpen && decide (d.sendto ≠ .unsupported)) && decide (d.connect = .failed)

variable {d : Dial}

/-- A remote that has just been created has no server yet. -/
theorem newRemote_does : Does (Own C none busy w φ ψ) (newRemote C) fun r => Own C (some r) busy w φ ψ := by
  intro s own
  rw [newRemote, bind_run (countRemotes_run 1)]
  refine ⟨nofun, fun a s' done => ?_⟩
  cases done
  exact { sound := own.sound.newRemote _, staged := own.staged, fast := own.fast, here := own.here }

/-- The state is read for `fast_open`, which is known from then on. -/
theorem get_ends {k : State P → Callback P α} {post : α → State P → Prop}
    (rest : ∀ t : State P, Does (Own C loose busy w (fun fast => φ fast ∧ fast = t.fastOpen) ψ) (k t) post) :
    Does (Own C loose busy w φ ψ) (get >>= k) post := by
  refine Triple.bind Triple.get fun t => (rest t).consequence ?_ fun _ _ done => done
  rintro s ⟨own, rfl⟩
  exact { own with fast := ⟨own.fast, rfl⟩ }

theorem Own.fast_imp {φ' : Bool → Prop} {s : State P} (own : Own C loose busy w φ ψ s) (known : ∀ fast, φ fast → φ' fast) :
    Own C loose busy w φ' ψ s := { own with fast := known _ own.fast }

/-- What is left of `fast_open` after `sendto`. -/
def After (d : Dial) (φ : Bool → Prop) (after : Bool) : Prop := ∃ fast, φ fast ∧ after = (fast && decide (d.sendto ≠ .unsupported))

/-- `fast_open` is turned off where it is not supported. -/
theorem fastOpenSend_does : Does (Own C loose busy w φ ψ) (fastOpenSend w d) fun _ => Own C loose busy w (After d φ) ψ := by
  refine get_ends fun t => ?_
  refine Triple.when (fun on => ?_) fun off s own => own.fast_imp ?_
  · refine Triple.bind getServer_does fun server => ?_
    refine Triple.bind (data_does (Buffer.read_avoids _ _ _)) fun _ => ?_
    cases count : d.sendto.count server.buf.len with
    | some n =>
      refine (setServer_does fun _ => ⟨by rfl, by rfl, by rfl⟩).consequence (fun s both => both.1) fun _ s own => own.fast_imp ?_
      rintro fast ⟨known, rfl⟩
      refine ⟨_, known, ?_⟩
      rw [on]
      cases sent : d.sendto <;> rw [sent] at count <;> first | rfl | cases count
    | none =>
      refine Triple.when (fun unsupported => ?_) fun supported s both => both.1.fast_imp ?_
      · refine Triple.modify ?_
        rintro s ⟨own, -⟩
        exact { sound := ⟨own.sound.servers, own.sound.remotes, own.sound.queries, own.sound.alone, own.sound.owner, own.sound.owned,
                  own.sound.asked, own.sound.asker, own.sound.listed, own.sound.once, own.sound.counted⟩
                staged := own.staged, fast := ⟨_, own.fast.1, by simp [unsupported]⟩, here := own.here }
      · rintro fast ⟨known, rfl⟩
        exact ⟨_, known, by simp [supported]⟩
  · rintro fast ⟨known, rfl⟩
    exact ⟨_, known, by simp [off]⟩

/-- `connect_to_remote` gives a remote that has no server, or there is none. -/
theorem connectToRemote_does (fine : ∀ fast, φ fast → d.refused fast = false) :
    Does (Own C none busy w φ ψ) (connectToRemote C w d) fun dialled => Own C (dialled.map Prod.fst) busy w Any ψ := by
  unfold connectToRemote
  split
  · exact Triple.ret fun s own => own.forget
  · rename_i socket
    refine Triple.bind newRemote_does fun r => ?_
    refine Triple.bind fastOpenSend_does fun _ => ?_
    refine get_ends fun t => ?_
    split
    · exact Triple.ret fun s own => own.forget
    · rename_i off
      cases dialled : d.connect with
      | failed =>
        refine Triple.unreachable fun s own => ?_
        obtain ⟨⟨fast, known, after⟩, same⟩ := own.fast
        have fine := fine fast known
        rw [Dial.refused, ← after, same, dialled] at fine
        simp_all
      | inProgress => exact Triple.ret fun s own => own.forget
      | immediate peer send => exact Triple.ret fun s own => own.forget

variable {χ : Nat → Prop}

/-- A remote that has no server gets one. -/
theorem link_does : Does (Own C (some r) none w φ fun rem q st => rem = none ∧ q = none ∧ χ st) (link w r) fun _ =>
    Own C none (some w) w φ fun rem q st => rem = some r ∧ q = none ∧ χ st := by
  intro s own
  obtain ⟨server, at_, free, quiet, stage⟩ := own.here
  obtain ⟨remote, there, alone⟩ := own.sound.alone r rfl
  rw [link, bind_run (setServer_run at_ _),
    setRemote_run (s := { s with servers := s.servers.modify w fun server => { server with remote := some r } }) there]
  refine ⟨nofun, fun a s' done => ?_⟩
  cases done
  refine ⟨own.sound.attach at_ free, ?_, own.fast, ?_⟩
  · intro w' server' at' other
    rcases (Pool.cell_modify_iff at_).mp at' with ⟨rfl, -⟩ | ⟨-, before⟩
    · exact absurd rfl other
    · exact own.staged w' server' before nofun
  · exact ⟨_, (Pool.cell_modify_iff at_).mpr (.inl ⟨rfl, rfl⟩), rfl, quiet, stage⟩

/-- The loose remote gets the server of the callback. -/
theorem attachRemote_does (start : Buffer → Nat) :
    Does (Own C (some r) none w φ fun rem q st => rem = none ∧ q = none ∧ χ st) (attachRemote w r start) fun _ =>
      Own C none (some w) w φ fun rem q st => rem = some r ∧ q = none ∧ χ st := by
  refine Triple.bind link_does fun _ => ?_
  refine getServer_ends fun server _ => ?_
  refine Triple.when (fun _ => ?_) fun _ _ own => own
  refine Triple.bind (data_does (Buffer.read_avoids _ _ _)) fun data => ?_
  refine getRemote_ends (fun _ _ _ has => has.1) fun remote _ => ?_
  refine Triple.bind (data_does (Buffer.write_avoids _ _ _)) fun buf => ?_
  refine Triple.bind (setRemote_does (fun _ => by rfl) fun _ _ _ has => has.1) fun _ => ?_
  exact setServer_does fun _ => ⟨by rfl, by rfl, by rfl⟩

/-- A server in a later stage that has no query may ask. -/
theorem resolvQuery_does (query : Bool) :
    Does (Own C none none w φ fun rem q st => rem = none ∧ q = none ∧ st ≠ 0) (resolvQuery w query) fun _ =>
      Own C none none w φ (Has none) := by
  refine Triple.when (fun _ => ?_) fun _ s own => own.imp fun _ _ has => has.1
  intro s own
  obtain ⟨server, at_, free, quiet, stage⟩ := own.here
  rw [bind_run (get_run s), bind_run (modify_run _ s), setServer_run (s := { s with queries := s.queries.new w }) at_]
  refine ⟨nofun, fun a s' done => ?_⟩
  cases done
  refine ⟨own.sound.newQuery at_ quiet, ?_, own.fast, ⟨_, (Pool.cell_modify_iff at_).mpr (.inl ⟨rfl, rfl⟩), free⟩⟩
  intro w' server' at' _
  rcases (Pool.cell_modify_iff at_).mp at' with ⟨rfl, rfl⟩ | ⟨-, before⟩
  · exact ⟨fun zero => absurd zero stage, fun _ => free⟩
  · exact own.staged w' server' before nofun

/-! ## The callbacks that connect -/

/-- In stage 0 the destination is known. -/
theorem handleRequest_does (dst : Destination) (query : Bool)
    (fine : ∀ ip port, dst = .sockaddr ip port → ∀ fast, φ fast → d.refused fast = false) :
    Does (Own C none none w φ fun rem q _ => rem = none ∧ q = none) (handleRequest C w dst d query) fun _ => Settled C := by
  cases dst with
  | query host port =>
    have staged : Does (Own C none none w φ fun rem q _ => rem = none ∧ q = none)
        (setServer w fun server => { server with stage := 4 }) fun _ =>
          Own C none none w φ fun rem q st => st = 4 ∧ ∃ _ : Nat, rem = none ∧ q = none :=
      setStage_does (by decide) (.inl rfl) fun _ _ _ both _ => both.1
    have may : Does (Own C none none w φ fun rem q _ => rem = none ∧ q = none)
        (setServer w fun server => { server with stage := 4 }) fun _ =>
          Own C none none w φ fun rem q st => rem = none ∧ q = none ∧ st ≠ 0 := by
      refine staged.consequence (fun _ own => own) fun _ s own => own.imp ?_
      rintro server - ⟨stage, -, free, quiet⟩
      exact ⟨free, quiet, stage ▸ by decide⟩
    refine Triple.bind may fun _ => ?_
    refine Triple.bind (resolvQuery_does query) fun _ => ?_
    exact (setServer_does fun _ => ⟨by rfl, by rfl, by rfl⟩).consequence (fun _ own => own) fun _ _ own => own.settled
  | sockaddr ip port =>
    refine Triple.bind (connectToRemote_does (fine ip port rfl)) fun dialled => ?_
    cases dialled with
    | none => exact closeAndFreeServer_does.consequence (fun _ own => own.imp fun _ _ has => has.1) fun _ _ done => done
    | some remote =>
      obtain ⟨r, inline⟩ := remote
      have attached : Does (Own C (some r) none w Any fun rem q _ => rem = none ∧ q = none) (attachRemote w r fun _ => 0) fun _ =>
          Own C none (some w) w Any fun rem q _ => rem = some r ∧ q = none ∧ True :=
        (attachRemote_does _).consequence (fun _ own => own.imp fun _ _ has => ⟨has.1, has.2, trivial⟩) fun _ _ done => done
      refine Triple.bind attached fun _ => ?_
      have staged : Does (Own C none (some w) w Any fun rem q _ => rem = some r ∧ q = none ∧ True)
          (setServer w fun server => { server with stage := 4 }) fun _ =>
            Own C none none w Any fun rem q st => st = 4 ∧ ∃ _ : Nat, rem = some r ∧ q = none ∧ True :=
        setStage_does (by decide) (.inr rfl) fun _ _ _ both some_ => absurd both.2.1 some_
      have paired : Does (Own C none (some w) w Any fun rem q _ => rem = some r ∧ q = none ∧ True)
          (setServer w fun server => { server with stage := 4 }) fun _ => Paired C w r Any :=
        staged.consequence (fun _ own => own) fun _ _ own => own.imp fun _ _ ⟨_, _, has, _⟩ => has
      refine Triple.bind paired fun _ => ?_
      cases inline with
      | some results => exact remoteSendCb_does results.1 results.2
      | none =>
        refine Triple.bind (setServer_does fun _ => ⟨by rfl, by rfl, by rfl⟩) fun _ => ?_
        exact ends (setRemote_paired fun _ => by rfl)

/-- The destination that stage 0 finds in a segment. -/
def requested (C : Config P) (server : ServerT P) (segment : Segment) (e : RecvEvent) : Except Stop (Option Destination) := do
  let buf ← orCrash (recvInto server.buf server.buf.len segment)
  if buf.len ≤ C.E.ivLen then pure none
  else do
    let (buf, dCtx) ← decryptBuf C.E buf server.dCtx e.tmp e.ivCache
    let (dst, _) ← readRequest C server buf dCtx
    pure (some dst)

/-- Stage 0 leaves no loose remote, unless a connect is refused. -/
theorem recvHeader_does (server : ServerT P) (segment : Segment) (e : RecvEvent) (query : Bool)
    (fine : ∀ ip port, requested C server segment e = .ok (some (.sockaddr ip port)) → ∀ fast, φ fast → d.refused fast = false) :
    Does (Own C none none w φ fun rem q _ => rem = none ∧ q = none) (recvHeader C w server segment e d query) fun _ => Settled C := by
  have closes : Does (Own C none none w φ fun rem q _ => rem = none ∧ q = none) (closeAndFreeServer C w) fun _ => Settled C :=
    closeAndFreeServer_does.consequence (fun _ own => own.imp fun _ _ has => has.1) fun _ _ done => done
  refine Triple.bind (Triple.lift (recvInto_avoids _ _ _)) fun buf => ?_
  refine Triple.of_fact (fun _ both => both.2) fun received => Triple.consequence ?_ (fun _ both => both.1) fun _ _ done => done
  split
  · exact (setServer_does fun _ => ⟨by rfl, by rfl, by rfl⟩).consequence (fun _ own => own) fun _ _ own => own.settled
  · rename_i enough
    refine orClose_does (decryptBuf_avoids _ _ _ _ _) closes fun ⟨plain, dCtx⟩ decrypted => ?_
    refine orClose_does (readRequest_avoids _ _ _) closes fun ⟨dst, rest, auth, chunk⟩ read => ?_
    refine Triple.bind (setServer_does fun _ => ⟨by rfl, by rfl, by rfl⟩) fun _ => ?_
    refine handleRequest_does dst query fun ip port same => fine ip port ?_
    rw [requested, received, ← same]
    simp only [orCrash_ok, ok_bind, if_neg enough, decrypted, read]
    rfl

/-! ## The callbacks for a server -/

/-- A callback does not use what was freed, and it settles. -/
def Settles (C : Config P) (m : Callback P Unit) (s : State P) : Prop :=
  m s ≠ .error .useAfterFree ∧ ∀ a s', m s = .ok (a, s') → Settled C s'

variable {s : State P} {server : ServerT P} {remote : RemoteT}

/-- A callback for a server that exists begins with what is known of it. -/
theorem Settled.own (settled : Settled C s) (here : s.servers.cell w = some server) :
    Own C none none w (fun fast => fast = s.fastOpen) (fun rem q st => rem = server.remote ∧ q = server.query ∧ st = server.stage) s :=
  ⟨settled.sound, fun w' server at_ _ => settled.staged w' server at_, rfl, server, here, rfl, rfl, rfl⟩

/-- Of its remote alone, where that is enough. -/
theorem Settled.has (settled : Settled C s) (here : s.servers.cell w = some server) {remote : Option Nat} (same : server.remote = remote) :
    Own C none none w (fun fast => fast = s.fastOpen) (Has remote) s :=
  (settled.own here).imp fun _ _ has => has.1.trans same

/-- `server_recv_cb`, in each stage. -/
theorem serverRecvCb_settles (settled : Settled C s) (here : s.servers.cell w = some server) (e : RecvEvent) (query : Bool)
    (fine : ∀ segment ip port, server.stage = 0 → e.recv = .data segment →
      requested C server segment e = .ok (some (.sockaddr ip port)) → d.refused s.fastOpen = false) :
    Settles C (serverRecvCb C w e d query) s := by
  rw [Settles, serverRecvCb, bind_run (getServer_run here)]
  split
  · rename_i zero
    obtain ⟨free, quiet⟩ := (settled.staged w server here).1 zero
    cases recv : e.recv with
    | eof => exact closeAndFreeServer_does s (settled.has here free)
    | failed => exact closeAndFreeServer_does s (settled.has here free)
    | wouldBlock => exact Triple.ret (fun _ settled => settled) s settled
    | data segment =>
      refine recvHeader_does server segment e query ?_ s
        ((settled.own here).imp fun _ _ has => ⟨has.1.trans free, has.2.1.trans quiet⟩)
      rintro ip port asked fast rfl
      exact fine segment ip port zero recv asked
  · cases own : server.remote with
    | none => exact ⟨nofun, nofun⟩
    | some r =>
      have paired : Paired C w r (fun fast => fast = s.fastOpen) s := settled.has here own
      rw [bind_run (lift_run (show Lib.deref (some r) = .ok r from rfl) s)]
      cases e.recv with
      | eof => exact closeBoth_does s paired
      | failed => exact closeBoth_does s paired
      | wouldBlock => exact Triple.ret (fun _ settled => settled) s settled
      | data segment => exact recvStream_does server segment e s paired

theorem serverSendCb_settles (settled : Settled C s) (here : s.servers.cell w = some server) (send : SendResult) :
    Settles C (serverSendCb C w send) s := by
  rw [Settles, serverSendCb, bind_run (getServer_run here)]
  cases own : server.remote with
  | none => exact closeAndFreeServer_does s (settled.has here own)
  | some r =>
    have paired : Paired C w r (fun fast => fast = s.fastOpen) s := settled.has here own
    dsimp only
    split
    · exact closeBoth_does s paired
    · refine Triple.bind (data_does (Buffer.read_avoids _ _ _)) (fun _ => ?_) s paired
      split
      · exact closeBoth_does
      · exact Triple.ret fun _ own => own.settled
      · split
        · exact ends (setServer_does fun _ => ⟨by rfl, by rfl, by rfl⟩)
        · refine Triple.bind (setServer_does fun _ => ⟨by rfl, by rfl, by rfl⟩) fun _ => ?_
          exact ends (setRemote_paired fun _ => by rfl)

/-- A server that is idle for too long is closed, with its remote. -/
theorem serverTimeoutCb_settles (settled : Settled C s) (here : s.servers.cell w = some server) :
    Settles C (serverTimeoutCb C w) s := by
  rw [Settles, serverTimeoutCb, bind_run (getServer_run here)]
  exact closeBoth_does s (settled.has here rfl)

/-- The callbacks for a remote work for its server as well. -/
theorem Settled.paired (settled : Settled C s) (here : s.remotes.cell r = some remote) :
    ∃ w, Paired C w r (fun fast => fast = s.fastOpen) s := by
  obtain ⟨w, server, -, at_, own⟩ := settled.sound.owner r remote here nofun
  exact ⟨w, settled.has at_ own⟩

/-- A query is answered. -/
theorem answerQuery_settles {q : Nat} (settled : Settled C s) (asking : s.queries.cell q = some w) (found : Bool)
    (fine : found = true → d.refused s.fastOpen = false) : Settles C (answerQuery C q found d) s := by
  obtain ⟨server, here, query⟩ := settled.sound.asker q w asking
  obtain ⟨zero, single⟩ := settled.staged w server here
  have some_ : server.query ≠ none := by
    rw [query]
    nofun
  have own : Own C none none w (fun fast => fast = s.fastOpen) (fun rem q st => rem = none ∧ q = none ∧ st ≠ 0)
      { s with queries := s.queries.free q, servers := s.servers.modify w fun server => { server with query := none } } := by
    refine ⟨settled.sound.answered asking, ?_, rfl, ⟨_, (Pool.cell_modify_iff here).mpr (.inl ⟨rfl, rfl⟩), single some_, rfl, ?_⟩⟩
    · intro w' server' at' _
      rcases (Pool.cell_modify_iff here).mp at' with ⟨rfl, rfl⟩ | ⟨-, before⟩
      · exact ⟨fun first => ⟨(zero first).1, rfl⟩, fun some_ => absurd rfl some_⟩
      · exact settled.staged w' server' before
    · exact fun first => some_ (zero first).2
  rw [Settles, answerQuery, bind_run (get_run s), asking]
  dsimp only
  rw [bind_run (modify_run _ s), serverResolveCb, bind_run (setServer_run (s := { s with queries := s.queries.free q }) here _)]
  split
  · rename_i there
    refine Triple.bind (connectToRemote_does (by rintro fast rfl; exact fine there)) (fun dialled => ?_) _ own
    cases dialled with
    | none => exact closeAndFreeServer_does.consequence (fun _ own => own.imp fun _ _ has => has.1) fun _ _ done => done
    | some remote =>
      obtain ⟨r, inline⟩ := remote
      -- the stage is not 0 any more
      have attached : Does (Own C (some r) none w Any fun rem q st => rem = none ∧ q = none ∧ st ≠ 0)
          (attachRemote w r Buffer.idx) fun _ => Paired C w r Any := by
        refine (attachRemote_does _).consequence (fun _ own => own) fun _ s own => ?_
        obtain ⟨server, at_, has, quiet, stage⟩ := own.here
        refine ⟨own.sound, fun w' server' at' _ => ?_, trivial, server, at_, has⟩
        by_cases same : w' = w
        · subst same
          cases at_.symm.trans at'
          exact ⟨fun first => absurd first stage, fun some_ => absurd quiet some_⟩
        · exact own.staged w' server' at' fun other => same (Option.some.inj other).symm
      refine Triple.bind attached fun _ => ?_
      cases inline with
      | some results => exact remoteSendCb_does results.1 results.2
      | none => exact ends (setRemote_paired fun _ => by rfl)
  · exact closeAndFreeServer_does _ (own.imp fun _ _ has => has.1)

theorem newServer_does (iv : Bytes) : Does (Settled C) (newServer C iv) fun w => Own C none none w Any (Has none) := by
  intro s settled
  rw [newServer, bind_run (countServers_run 1)]
  refine ⟨nofun, fun w s' done => ?_⟩
  cases done
  refine ⟨settled.sound.newServer rfl rfl, fun w server at' _ => ?_, trivial, _, Pool.cell_new_self, rfl⟩
  rcases Pool.cell_new_iff.mp at' with ⟨-, rfl⟩ | ⟨-, at_⟩
  · exact ⟨fun _ => ⟨rfl, rfl⟩, fun _ => rfl⟩
  · exact settled.staged w server at_

/-- A new server has nothing. -/
theorem acceptCb_does (admitted : Bool) (iv : Bytes) : Does (Settled C) (acceptCb C admitted iv) fun _ => Settled C := by
  refine Triple.when (fun _ => ?_) fun _ _ settled => settled
  refine Triple.bind (newServer_does iv) fun w => ?_
  exact (setServer_does fun _ => ⟨by rfl, by rfl, by rfl⟩).consequence (fun _ own => own) fun _ _ own => own.settled

/-- When the process ends, a server is closed before its remote. -/
theorem closeConnection (settled : Settled C s) (here : s.servers.cell w = some server) :
    ∃ s₁ s₂, closeAndFreeServer C w s = .ok ((), s₁) ∧ closeAndFreeRemote C server.remote s₁ = .ok ((), s₂) ∧
      Settled C s₂ ∧ s₂.connections = s.connections.erase w := by
  have own := settled.has here rfl
  have closed : closeAndFreeServer C w s = .ok ((), s.dropServer C w server) := by
    refine closeAndFreeServer_run here (fun q query => ⟨w, settled.sound.asked w server q here query⟩) fun r has => ?_
    obtain ⟨remote, there, -⟩ := settled.sound.owned w server r here has
    exact ⟨remote, there⟩
  have left := (closeAndFreeServer_leaves s own).2 () _ closed
  cases has : server.remote with
  | none => exact ⟨_, _, closed, rfl, ⟨has ▸ left.1, left.2⟩, rfl⟩
  | some r =>
    rw [has] at left
    obtain ⟨remote, there, alone⟩ := left.1.alone r rfl
    have freed : closeAndFreeRemote C (some r) (s.dropServer C w server) = .ok ((), (s.dropServer C w server).dropRemote C r remote) :=
      closeAndFreeRemote_run there fun w' same => by
        rw [alone] at same
        cases same
    exact ⟨_, _, closed, freed, (closeAndFreeRemote_ends _ left).2 () _ freed, rfl⟩

/-- At the end every server of the list is closed once. -/
theorem freeConnections_settles (ws : List Nat) (settled : Settled C s) (once : ws.Nodup) (listed : ∀ w ∈ ws, w ∈ s.connections) :
    Settles C (freeConnections C ws) s := by
  induction ws generalizing s with
  | nil => exact Triple.ret (fun _ settled => settled) s settled
  | cons w rest ih =>
    obtain ⟨server, here⟩ := (settled.sound.listed w).mp (listed w List.mem_cons_self)
    obtain ⟨s₁, s₂, closed, freed, settled', connections⟩ := closeConnection settled here
    obtain ⟨others, once⟩ := List.nodup_cons.mp once
    rw [Settles, freeConnections, bind_run (getServer_run here), bind_run closed, bind_run freed]
    refine ih settled' once fun w' mem => ?_
    rw [connections]
    exact settled.sound.once.mem_erase_iff.mpr ⟨fun same => others (same ▸ mem), listed w' (List.mem_cons_of_mem w mem)⟩

/-! ## Runs -/

/-- The event makes `connect_to_remote` call `connect`, which fails. -/
def refused (C : Config P) (s : State P) : Event → Bool
  | .serverRecv w e d _ =>
    match s.servers.cell w, e.recv with
    | some server, .data segment =>
      match decide (server.stage = 0), requested C server segment e with
      | true, .ok (some (.sockaddr ..)) => d.refused s.fastOpen
      | _, _ => false
    | _, _ => false
  | .answer _ found d => found && d.refused s.fastOpen
  | _ => false

/-- So the end of the process frees all objects. -/
theorem freeAll_settles (settled : Settled C s) : Settles C (callback C .terminate) s := by
  have all := freeConnections_settles s.connections settled settled.sound.once fun _ mem => mem
  have ended : Does (Settled C) (modify fun s : State P => { s with stopped := true }) fun _ => Settled C := by
    refine Triple.modify fun s settled => ⟨?_, settled.staged⟩
    exact { settled.sound with }
  have after : Does (fun t => t = s) (freeConnections C s.connections) fun _ => Settled C := by
    rintro t rfl
    exact all
  rw [Settles, callback, bind_run (get_run s)]
  exact Triple.bind after (fun _ => ended) s rfl

/-- Every callback settles, unless a connection is refused. -/
theorem callback_settles (settled : Settled C s) {e : Event} (on : enabled s e = true) (fine : refused C s e = false) :
    Settles C (callback C e) s := by
  cases e with
  | accept admitted iv => exact acceptCb_does admitted iv s settled
  | serverRecv w e d query =>
    obtain ⟨server, here, -⟩ := (Option.any_eq_true _ _).mp on
    refine serverRecvCb_settles settled here e query fun segment ip port zero recv asked => ?_
    simpa only [refused, here, recv, decide_eq_true zero, asked] using fine
  | serverSend w send =>
    obtain ⟨server, here, -⟩ := (Option.any_eq_true _ _).mp on
    exact serverSendCb_settles settled here send
  | remoteRecv r e =>
    obtain ⟨remote, here, -⟩ := (Option.any_eq_true _ _).mp on
    obtain ⟨w, paired⟩ := settled.paired here
    exact remoteRecvCb_does e s paired
  | remoteSend r peer send =>
    obtain ⟨remote, here, -⟩ := (Option.any_eq_true _ _).mp on
    obtain ⟨w, paired⟩ := settled.paired here
    exact remoteSendCb_does peer send s paired
  | answer q found d =>
    obtain ⟨w, asking⟩ := Option.isSome_iff_exists.mp on
    refine answerQuery_settles settled asking found fun there => ?_
    simpa only [refused, there, Bool.true_and] using fine
  | timeout w =>
    obtain ⟨server, here⟩ := Option.isSome_iff_exists.mp on
    exact serverTimeoutCb_settles settled here
  | terminate => exact freeAll_settles settled

/-- In every run without a refused connect the objects are in order between the callbacks. -/
theorem settled_of_reach (reach : (machine C).Reach (fun s e => refused C s e = false) (start C) s) : Settled C s := by
  refine reach.invariant (Settled C) ⟨sound_start, fun _ _ at_ => nomatch at_⟩ fun s e s' settled on fine fired => ?_
  obtain ⟨-, after⟩ := callback_settles settled on fine
  change Prod.snd <$> callback C e s = .ok s' at fired
  cases done : callback C e s with
  | error f =>
    rw [done] at fired
    cases fired
  | ok r =>
    rw [done] at fired
    cases fired
    exact after r.1 r.2 done

/-- Every remote is linked with the one server that has it, what is gone was freed once, and
the counters count. -/
structure Owned (C : Config P) (s : State P) : Prop where
  remote : ∀ r remote, s.remotes.cell r = some remote → ∃ w server, s.servers.cell w = some server ∧
    server.remote = some r ∧ remote.server = some w ∧
    ∀ w' server', s.servers.cell w' = some server' → server'.remote = some r → w' = w
  remotes : s.remotes.FreedOnce
  servers : s.servers.FreedOnce
  queries : s.queries.FreedOnce
  counted : C.verbose = true → s.serverConn = s.servers.live ∧ s.remoteConn = s.remotes.live

/-- So every object has its owner. -/
theorem Settled.owned (settled : Settled C s) : Owned C s where
  remote r remote there := by
    obtain ⟨w, server, owner, at_, own⟩ := settled.sound.owner r remote there nofun
    refine ⟨w, server, at_, own, owner, fun w' server' at' own' => ?_⟩
    obtain ⟨remote', there', owner'⟩ := settled.sound.owned w' server' r at' own'
    cases there.symm.trans there'
    exact Option.some.inj (owner'.symm.trans owner)
  remotes := settled.sound.remotes.freed_once
  servers := settled.sound.servers.freed_once
  queries := settled.sound.queries.freed_once
  counted := settled.sound.counted

/-- In every run in which no `connect` of `connect_to_remote` fails with an error, ss-server
owns every remote it has made, and nothing is used or freed after it was freed. -/
theorem remotes_owned (C : Config P) (s : State P) (reach : (machine C).Reach (fun s e => refused C s e = false) (start C) s) :
    Owned C s ∧ ∀ e, (machine C).enabled s e = true → refused C s e = false → (machine C).fire s e ≠ .error .useAfterFree := by
  have settled := settled_of_reach reach
  refine ⟨settled.owned, fun e on fine fired => ?_⟩
  change Prod.snd <$> callback C e s = .error .useAfterFree at fired
  cases done : callback C e s with
  | ok r =>
    rw [done] at fired
    cases fired
  | error f =>
    rw [done] at fired
    cases fired
    exact (callback_settles settled on fine).1 done

/-- ss-server with the method `table` and `verbose`. -/
def tableConfig : Config rc4Platform where
  E := unsortedTable
  text := { ntop4 := id, ntop6 := id, corkIpInit := fun _ => none, pton4 := fun _ => none, pton6 := fun _ => none }
  auth := false
  verbose := true
  fastOpen := false

/-- A client connects and asks for 10.0.0.1:80. -/
def asks (connect : ConnectResult) : List Event :=
  [.accept true [], .serverRecv 0 { recv := .data askForTen } { connect } true]

/-- The remote is connected later, and the client goes away. -/
theorem remotes_owned_closed : ∃ s, (machine tableConfig).Reach (fun s e => refused tableConfig s e = false) (start tableConfig) s ∧
    s.remotes.freed = [0] ∧ Owned tableConfig s := by
  have ran : ((machine tableConfig).restrict fun s e => decide (refused tableConfig s e = false)).leadsTo (start tableConfig)
      (asks .inProgress ++ [.timeout 0]) (fun s => s.remotes.freed = [0]) = true := by decide +kernel
  obtain ⟨s, ran, freed⟩ := Machine.exists_of_leadsTo ran
  have reach : (machine tableConfig).Reach (fun s e => refused tableConfig s e = false) (start tableConfig) s :=
    .of_restrict (fun _ _ => of_decide_eq_true) .refl ran
  exact ⟨s, reach, of_decide_eq_true freed, (remotes_owned tableConfig s reach).1⟩

/-- The remote that `connect` failed for has no server, and it is never freed. -/
theorem remote_leaks : ∃ s, (machine tableConfig).Reach (fun _ _ => True) (start tableConfig) s ∧ ¬ Owned tableConfig s := by
  have ran : (machine tableConfig).leadsTo (start tableConfig) (asks .failed)
      (fun s => (s.remotes.cell 0).any fun remote => remote.server.isNone) = true := by decide +kernel
  obtain ⟨s, ran, alone⟩ := Machine.exists_of_leadsTo ran
  refine ⟨s, .of_run .refl (fun _ _ _ => trivial) ran, fun owned => ?_⟩
  obtain ⟨remote, there, none_⟩ := (Option.any_eq_true _ _).mp alone
  obtain ⟨w, server, -, -, owner, -⟩ := owned.remote 0 remote there
  rw [owner] at none_
  cases none_

end Shadowsocks.Server.Process
