import Shadowsocks.Server.Ownership
import Shadowsocks.Server.Stage

/-!
# What the callbacks do to the objects

Each piece of code that the callbacks are made of gets one specification: what it needs of
the server it works for, and what it leaves. A callback keeps the ownership if each of its
paths does, in the order in which that path frees the objects.
-/

namespace Shadowsocks.Server.Process
set_option autoImplicit false
open Lib

variable {P : Platform} {C : Config P}

/-- In stage 0 there is nothing but the server, and while a query is pending no remote. -/
def ServerT.Staged (server : ServerT P) : Prop :=
  (server.stage = 0 → server.remote = none ∧ server.query = none) ∧ (server.query ≠ none → server.remote = none)

/-- What holds between two callbacks. -/
structure Settled (C : Config P) (s : State P) : Prop where
  sound : Sound C none s
  staged : ∀ w server, s.servers.cell w = some server → server.Staged

/-- What holds inside a callback for the server `w`: `φ` is known of `fast_open`, and `ψ` of
its remote, its query and its stage. The server `busy` is between two stages. -/
structure Own (C : Config P) (loose busy : Option Nat) (w : Nat) (φ : Bool → Prop) (ψ : Option Nat → Option Nat → Nat → Prop)
    (s : State P) : Prop where
  sound : Sound C loose s
  staged : ∀ w' server, s.servers.cell w' = some server → busy ≠ some w' → server.Staged
  fast : φ s.fastOpen
  here : ∃ server, s.servers.cell w = some server ∧ ψ server.remote server.query server.stage

/-- Nothing is known of `fast_open`. -/
def Any (_ : Bool) : Prop := True

/-- The server has this remote. -/
def Has (remote : Option Nat) : Option Nat → Option Nat → Nat → Prop := fun rem _ _ => rem = remote

section
variable {loose busy : Option Nat} {w r : Nat} {φ : Bool → Prop} {ψ ψ' : Option Nat → Option Nat → Nat → Prop} {α : Type}

/-- What a piece of code does. -/
abbrev Does (pre : State P → Prop) (m : Callback P α) (post : α → State P → Prop) : Prop := Triple Fault.useAfterFree pre m post

/-- What is known of the server of a callback may be put in another way. -/
theorem Own.imp {s : State P} (own : Own C loose busy w φ ψ s)
    (known : ∀ server, s.servers.cell w = some server → ψ server.remote server.query server.stage →
      ψ' server.remote server.query server.stage) : Own C loose busy w φ ψ' s := by
  obtain ⟨server, at_, here⟩ := own.here
  exact { own with here := ⟨server, at_, known server at_ here⟩ }

/-- What is known of `fast_open` may be forgotten. -/
theorem Own.forget {s : State P} (own : Own C loose busy w φ ψ s) : Own C loose busy w Any ψ s := { own with fast := trivial }

/-! ## Reading and writing -/

/-- Reading the server of the callback is safe, and gives what is known of it. -/
theorem getServer_does : Does (Own C loose busy w φ ψ) (getServer w) fun server s =>
    Own C loose busy w φ ψ s ∧ ψ server.remote server.query server.stage := by
  intro s own
  obtain ⟨server, at_, known⟩ := own.here
  rw [getServer_run at_]
  refine ⟨nofun, fun a s' done => ?_⟩
  cases done
  exact ⟨own, known⟩

/-- Fields of a server that are neither pointers nor its stage. -/
theorem setServer_does {f : ServerT P → ServerT P}
    (keeps : ∀ server, (f server).remote = server.remote ∧ (f server).query = server.query ∧ (f server).stage = server.stage) :
    Does (Own C loose busy w φ ψ) (setServer w f) fun _ => Own C loose busy w φ ψ := by
  intro s own
  obtain ⟨server, at_, known⟩ := own.here
  rw [setServer_run at_]
  refine ⟨nofun, fun a s' done => ?_⟩
  cases done
  obtain ⟨rem, query, stage⟩ := keeps server
  exact {
    sound := own.sound.modifyServer (fun server => ⟨(keeps server).1, (keeps server).2.1⟩) w
    staged := by
      intro w' server' at' ne
      obtain ⟨server'', before, ⟨rfl, -⟩ | ⟨rfl, -⟩⟩ := Pool.cell_modify at'
      · exact own.staged w' _ before ne
      · obtain ⟨rem, query, stage⟩ := keeps server''
        rw [ServerT.Staged, rem, query, stage]
        exact own.staged w' server'' before ne
    fast := own.fast
    here := ⟨f server, Pool.cell_modify_self.trans (by rw [at_]; rfl), by rw [rem, query, stage]; exact known⟩ }

/-- The server enters a later stage. -/
theorem setStage_does {n : Nat} (later : n ≠ 0) (which : busy = none ∨ busy = some w)
    (single : ∀ rem q st, ψ rem q st → q ≠ none → rem = none) :
    Does (Own C loose busy w φ ψ) (setServer w fun server => { server with stage := n }) fun _ =>
      Own C loose none w φ fun rem q st' => st' = n ∧ ∃ st, ψ rem q st := by
  intro s own
  obtain ⟨server, at_, known⟩ := own.here
  rw [setServer_run at_]
  refine ⟨nofun, fun a s' done => ?_⟩
  cases done
  exact {
    sound := own.sound.modifyServer (f := fun server => { server with stage := n }) (fun _ => ⟨rfl, rfl⟩) w
    staged := by
      intro w' server' at' _
      obtain ⟨server'', before, ⟨rfl, ne⟩ | ⟨rfl, same⟩⟩ := Pool.cell_modify at'
      · refine own.staged w' _ before ?_
        rcases which with rfl | rfl
        · nofun
        · exact fun same => ne (Option.some.inj same).symm
      · subst same
        cases at_.symm.trans before
        exact ⟨fun zero => absurd zero later, single _ _ _ known⟩
    fast := own.fast
    here := ⟨{ server with stage := n }, Pool.cell_modify_self.trans (by rw [at_]; rfl), rfl, server.stage, known⟩ }

/-- So is reading its remote, -/
theorem getRemote_does (own_ : ∀ rem q st, ψ rem q st → rem = some r) :
    Does (Own C loose busy w φ ψ) (getRemote r) fun remote s => Own C loose busy w φ ψ s ∧ remote.server = some w := by
  intro s own
  obtain ⟨server, at_, known⟩ := own.here
  obtain ⟨remote, there, owner⟩ := own.sound.owned w server r at_ (own_ _ _ _ known)
  rw [getRemote_run there]
  refine ⟨nofun, fun a s' done => ?_⟩
  cases done
  exact ⟨own, owner⟩

/-- and changing it, as long as it keeps its server. -/
theorem setRemote_does {f : RemoteT → RemoteT} (keeps : ∀ remote, (f remote).server = remote.server)
    (own_ : ∀ rem q st, ψ rem q st → rem = some r) :
    Does (Own C loose busy w φ ψ) (setRemote r f) fun _ => Own C loose busy w φ ψ := by
  intro s own
  obtain ⟨server, at_, known⟩ := own.here
  obtain ⟨remote, there, owner⟩ := own.sound.owned w server r at_ (own_ _ _ _ known)
  rw [setRemote_run there]
  refine ⟨nofun, fun a s' done => ?_⟩
  cases done
  exact { sound := own.sound.modifyRemote keeps r, staged := own.staged, fast := own.fast, here := own.here }

/-! ## Closing -/

/-- A server goes; its remote is left behind. -/
theorem closeAndFreeServer_leaves {remote : Option Nat} :
    Does (Own C none none w φ (Has remote)) (closeAndFreeServer C w) fun _ s =>
      Sound C remote s ∧ ∀ w server, s.servers.cell w = some server → server.Staged := by
  intro s own
  obtain ⟨server, at_, known⟩ := own.here
  have known : server.remote = remote := known
  rw [closeAndFreeServer_run at_ (fun q query => ⟨w, own.sound.asked w server q at_ query⟩) fun r has => by
    obtain ⟨remote, there, -⟩ := own.sound.owned w server r at_ has
    exact ⟨remote, there⟩]
  refine ⟨nofun, fun a s' done => ?_⟩
  cases done
  refine ⟨known ▸ own.sound.dropServer at_, fun w' server' at' => ?_⟩
  exact own.staged w' server' (Pool.cell_free at').1 nofun

/-- Without a remote nothing is left behind. -/
theorem closeAndFreeServer_does : Does (Own C none none w φ (Has none)) (closeAndFreeServer C w) fun _ => Settled C :=
  closeAndFreeServer_leaves.consequence (fun _ own => own) fun _ _ both => ⟨both.1, both.2⟩

/-- The remote of a server goes. -/
theorem closeAndFreeRemote_does {remote : Option Nat} :
    Does (Own C none none w φ (Has remote)) (closeAndFreeRemote C remote) fun _ => Own C none none w Any (Has none) := by
  cases remote with
  | none => exact Triple.ret fun s own => own.forget
  | some r =>
    intro s own
    obtain ⟨server, at_, known⟩ := own.here
    obtain ⟨remote, there, owner⟩ := own.sound.owned w server r at_ known
    rw [closeAndFreeRemote_run there fun w' same => by cases owner.symm.trans same; exact ⟨server, at_⟩]
    refine ⟨(fun no => by cases no), fun a s' done => ?_⟩
    cases done
    refine ⟨own.sound.dropRemote there (.inl rfl), ?_, trivial, ?_⟩
    · intro w' server' at' _
      rw [State.dropRemote, owner] at at'
      obtain ⟨before, there', ⟨rfl, -⟩ | ⟨rfl, -⟩⟩ := Pool.cell_modify at'
      · exact own.staged w' _ there' fun no => by cases no
      · have staged := own.staged w' before there' fun no => by cases no
        exact ⟨fun zero => ⟨rfl, (staged.1 zero).2⟩, fun _ => rfl⟩
    · refine ⟨{ server with remote := none }, ?_, rfl⟩
      rw [State.dropRemote, owner]
      dsimp only
      rw [Pool.cell_modify_self, at_]
      rfl

/-- A remote goes that has no server any more. -/
theorem closeAndFreeRemote_ends : Does (fun s => Sound C (some r) s ∧ ∀ w server, s.servers.cell w = some server → server.Staged)
    (closeAndFreeRemote C (some r)) fun _ => Settled C := by
  rintro s ⟨sound, staged⟩
  obtain ⟨remote, there, alone⟩ := sound.alone r rfl
  rw [closeAndFreeRemote_run there fun w same => by rw [alone] at same; cases same]
  refine ⟨nofun, fun a s' done => ?_⟩
  cases done
  refine ⟨sound.dropRemote there (.inr rfl), fun w server at_ => staged w server ?_⟩
  rw [State.dropRemote, alone] at at_
  exact at_

/-- Closing the remote and then its server leaves nothing behind. -/
theorem closeBoth_does {remote : Option Nat} : Does (Own C none none w φ (Has remote)) (closeBoth C remote w) fun _ => Settled C :=
  closeAndFreeRemote_does.bind fun _ => closeAndFreeServer_does

/-- The order of the hash error. -/
theorem closeServerFirst_does :
    Does (Own C none none w φ (Has (some r))) (do closeAndFreeServer C w; closeAndFreeRemote C (some r)) fun _ => Settled C :=
  closeAndFreeServer_leaves.bind fun _ => closeAndFreeRemote_ends

/-! ## Data -/

/-- Work on data does not follow pointers between objects. -/
theorem data_does {x : Except Fault α} (safe : Avoids Fault.useAfterFree x) {pre : State P → Prop} :
    Does pre (liftM x) fun _ => pre :=
  (Triple.lift safe).consequence (fun _ here => here) fun _ _ both => both.1

/-- A computation that may close the connection: both ways are followed. -/
theorem orClose_does {x : Except Stop α} {close : Callback P Unit} {k : α → Callback P Unit} {pre : State P → Prop}
    {post : Unit → State P → Prop} (safe : Avoids (.crashed Fault.useAfterFree) x) (closes : Does pre close post)
    (goes : ∀ a, x = .ok a → Does pre (k a) post) : Does pre (orClose x close k) post := by
  unfold orClose
  cases x with
  | ok a => exact goes a rfl
  | error stop =>
    cases stop with
    | closed why => exact closes
    | crashed f => exact Triple.fail fun same => safe (by rw [same])

/-- A `recv` writes to the buffer of an object that exists. -/
theorem recvInto_avoids (buf : Buffer) (len : Nat) (segment : Segment) : Avoids Fault.useAfterFree (recvInto buf len segment) :=
  .bind (Buffer.write_avoids _ _ _) fun _ => avoids_ok _

theorem readRequest_avoids (server : ServerT P) (buf : Buffer) (dCtx : Option (EncCtx P)) :
    Avoids (.crashed Fault.useAfterFree) (readRequest C server buf dCtx) :=
  .bind (readHeader_avoids _ _) fun ⟨_, _, _⟩ => .bind (checkHash_avoids _ _ _ _ _) fun ⟨_, _⟩ => avoids_ok _

/-- A callback that ends with its server in order ends settled. -/
theorem Own.settled {s : State P} (own : Own C none none w φ ψ s) : Settled C s :=
  ⟨own.sound, fun w' server at_ => own.staged w' server at_ nofun⟩

/-- The server is read, and the rest may rely on what is known of it. -/
theorem getServer_ends {k : ServerT P → Callback P Unit} {post : Unit → State P → Prop}
    (rest : ∀ server : ServerT P, ψ server.remote server.query server.stage → Does (Own C loose busy w φ ψ) (k server) post) :
    Does (Own C loose busy w φ ψ) (getServer w >>= k) post :=
  Triple.bind getServer_does fun server => Triple.of_fact (fun _ here => here.2) fun known =>
    (rest server known).consequence (fun _ here => here.1) fun _ _ done => done

/-- The same for its remote. -/
theorem getRemote_ends {k : RemoteT → Callback P Unit} {post : Unit → State P → Prop} (own_ : ∀ rem q st, ψ rem q st → rem = some r)
    (rest : ∀ remote : RemoteT, remote.server = some w → Does (Own C loose busy w φ ψ) (k remote) post) :
    Does (Own C loose busy w φ ψ) (getRemote r >>= k) post :=
  Triple.bind (getRemote_does own_) fun remote => Triple.of_fact (fun _ here => here.2) fun known =>
    (rest remote known).consequence (fun _ here => here.1) fun _ _ done => done

/-! ## The callbacks for a server that has a remote -/

/-- A callback for a server with the remote `r`, when the stages are in order. -/
abbrev Paired (C : Config P) (w r : Nat) (φ : Bool → Prop) : State P → Prop := Own C none none w φ (Has (some r))

/-- In a pair the server is known from its remote. -/
theorem getRemote_paired {k : RemoteT → Callback P Unit} {post : Unit → State P → Prop}
    (rest : ∀ remote : RemoteT, remote.server = some w → Does (Paired C w r φ) (k remote) post) :
    Does (Paired C w r φ) (getRemote r >>= k) post :=
  getRemote_ends (fun _ _ _ has => has) rest

/-- A pair stays one when its remote is changed. -/
theorem setRemote_paired {f : RemoteT → RemoteT} (keeps : ∀ remote, (f remote).server = remote.server) :
    Does (Paired C w r φ) (setRemote r f) fun _ => Paired C w r φ :=
  setRemote_does keeps fun _ _ _ has => has

/-- And when its server goes to a later stage. -/
theorem setStage_paired {n : Nat} (later : n ≠ 0) :
    Does (Paired C w r φ) (setServer w fun server => { server with stage := n }) fun _ => Paired C w r φ := by
  have single : ∀ (rem q : Option Nat) (st : Nat), rem = some r ∧ q = none → q ≠ none → rem = none :=
    fun _ _ _ both some_ => absurd both.2 some_
  have staged : Does (Own C none none w φ fun rem q _ => rem = some r ∧ q = none)
      (setServer w fun server => { server with stage := n }) fun _ =>
        Own C none none w φ fun rem q st' => st' = n ∧ ∃ _ : Nat, rem = some r ∧ q = none :=
    setStage_does later (.inl rfl) single
  refine staged.consequence ?_ ?_
  · -- a server with a remote has no query
    intro s own
    refine own.imp fun server at_ has => ⟨has, ?_⟩
    have has : server.remote = some r := has
    by_contra some_
    have none_ := (own.staged w server at_ nofun).2 some_
    rw [none_] at has
    cases has
  · intro _ s own
    exact own.imp fun _ _ ⟨_, _, has, _⟩ => has

/-- A callback that keeps the pair ends settled. -/
theorem ends {m : Callback P Unit} (does : Does (Paired C w r φ) m fun _ => Paired C w r φ) : Does (Paired C w r φ) m fun _ => Settled C :=
  does.consequence (fun _ own => own) fun _ _ own => own.settled

/-- `remote_send_cb` of a connection that is up: on an error both objects are closed. -/
theorem sendPending_does (send : SendResult) : Does (Paired C w r φ) (sendPending C r w send) fun _ => Settled C := by
  refine getRemote_paired fun remote _ => ?_
  split
  · exact closeBoth_does
  · refine Triple.bind (data_does (Buffer.read_avoids _ _ _)) fun _ => ?_
    split
    · exact closeBoth_does
    · exact Triple.ret fun _ own => own.settled
    · split
      · exact ends (setRemote_paired fun _ => by rfl)
      · refine Triple.bind (setRemote_paired fun _ => by rfl) fun _ => ?_
        refine Triple.bind (setServer_does fun _ => ⟨by rfl, by rfl, by rfl⟩) fun _ => ?_
        refine getServer_ends fun server _ => ?_
        refine Triple.when (fun _ => ?_) fun _ _ own => own.settled
        refine Triple.bind (setStage_paired (by decide)) fun _ => ?_
        exact ends (setRemote_paired fun _ => by rfl)

/-- `remote_send_cb` as a whole, with the end of the connect. -/
theorem remoteSendCb_does (peer : Bool) (send : SendResult) :
    Does (Paired C w r φ) (remoteSendCb C r peer send) fun _ => Settled C := by
  refine getRemote_paired fun remote owner => ?_
  rw [owner]
  dsimp only
  split
  · exact sendPending_does send
  · split
    · refine Triple.bind (setRemote_paired fun _ => by rfl) fun _ => ?_
      split
      · refine Triple.bind (setStage_paired (by decide)) fun _ => ?_
        refine Triple.bind (setRemote_paired fun _ => by rfl) fun _ => ?_
        refine Triple.bind (setServer_does fun _ => ⟨by rfl, by rfl, by rfl⟩) fun _ => ?_
        exact ends (setRemote_paired fun _ => by rfl)
      · exact sendPending_does send
    · exact closeBoth_does

/-- `server_recv_cb` in stage 5. -/
theorem forward_does (server : ServerT P) (buf : Buffer) (dCtx : Option (EncCtx P)) (send : SendResult) :
    Does (Paired C w r φ) (forward C w r server buf dCtx send) fun _ => Settled C := by
  refine orClose_does (checkHash_avoids _ _ _ _ _) closeServerFirst_does fun ⟨buf, chunk⟩ _ => ?_
  dsimp only
  refine Triple.bind (setServer_does fun _ => ⟨by rfl, by rfl, by rfl⟩) fun _ => ?_
  refine Triple.bind (data_does (Buffer.read_avoids _ _ _)) fun _ => ?_
  -- the reading of the client stops while the remote is not ready
  have waits : ∀ f : RemoteT → RemoteT, (∀ remote, (f remote).server = remote.server) → Does (Paired C w r φ) (do
      setRemote r f
      setServer w fun server => { server with recvIo := false }
      setRemote r fun remote => { remote with sendIo := true }) fun _ => Settled C := by
    intro f keeps
    refine Triple.bind (setRemote_paired keeps) fun _ => ?_
    refine Triple.bind (setServer_does fun _ => ⟨by rfl, by rfl, by rfl⟩) fun _ => ?_
    exact ends (setRemote_paired fun _ => by rfl)
  split
  · exact waits _ fun _ => by rfl
  · exact closeBoth_does
  · split
    · exact waits _ fun _ => by rfl
    · exact ends (setRemote_paired fun _ => by rfl)

/-- Stage 5: the payload goes to the remote. -/
theorem recvStream_does (server : ServerT P) (segment : Segment) (e : RecvEvent) :
    Does (Paired C w r φ) (recvStream C w r server segment e) fun _ => Settled C := by
  refine getRemote_paired fun remote _ => ?_
  refine Triple.bind (data_does (recvInto_avoids _ _ _)) fun buf => ?_
  refine orClose_does (decryptBuf_avoids _ _ _ _ _) closeBoth_does fun ⟨buf, dCtx⟩ _ => ?_
  dsimp only
  split
  · exact forward_does server buf dCtx e.send
  · exact Triple.fail (by decide)

/-- `remote_recv_cb`, which ends the pair where the destination has. -/
theorem remoteRecvCb_does (e : RecvEvent) : Does (Paired C w r φ) (remoteRecvCb C r e) fun _ => Settled C := by
  refine getRemote_paired fun remote owner => ?_
  rw [owner]
  dsimp only
  split
  · exact closeBoth_does
  · exact closeBoth_does
  · exact Triple.ret fun _ own => own.settled
  · refine getServer_ends fun server _ => ?_
    refine Triple.bind (data_does (recvInto_avoids _ _ _)) fun buf => ?_
    refine orClose_does (encryptBuf_avoids _ _ _ _) closeBoth_does fun ⟨buf, eCtx⟩ _ => ?_
    dsimp only
    refine Triple.bind (setServer_does fun _ => ⟨by rfl, by rfl, by rfl⟩) fun _ => ?_
    refine Triple.bind (data_does (Buffer.read_avoids _ _ _)) fun _ => ?_
    -- the reading of the remote stops while the client is not ready
    have waits : ∀ buf : Buffer, Does (Paired C w r φ) (do
        setServer w fun server => { server with buf }
        setRemote r fun remote => { remote with recvIo := false }
        setServer w fun server => { server with sendIo := true }) fun _ => Settled C := by
      intro buf
      refine Triple.bind (setServer_does fun _ => ⟨by rfl, by rfl, by rfl⟩) fun _ => ?_
      refine Triple.bind (setRemote_paired fun _ => by rfl) fun _ => ?_
      exact ends (setServer_does fun _ => ⟨by rfl, by rfl, by rfl⟩)
    split
    · exact waits _
    · exact closeBoth_does
    · split
      · exact waits _
      · exact ends (setServer_does fun _ => ⟨by rfl, by rfl, by rfl⟩)

end

end Shadowsocks.Server.Process
