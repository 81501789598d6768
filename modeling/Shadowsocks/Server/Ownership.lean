import Shadowsocks.Encrypt.Openssl
import Shadowsocks.Server.Process

/-!
# Who owns a remote

Between two callbacks every `remote_t` belongs to the one `server_t` that it points at, a
query to the one that waits for it, and every object that is gone was freed once. The
callbacks free the two in either order, so one of them is for a moment without the other;
`Sound` allows for one such remote. One path leaves it there: `connect_to_remote` returns
`NULL` when `connect` fails, and nobody knows the remote any more.
-/

namespace Shadowsocks.Server.Process
set_option autoImplicit false
open Lib

variable {P : Platform}

/-- What holds of the objects, except that the remote `loose` has no server. -/
structure Sound (C : Config P) (loose : Option Nat) (s : State P) : Prop where
  servers : s.servers.Sound
  remotes : s.remotes.Sound
  queries : s.queries.Sound
  alone : ∀ r, loose = some r → ∃ remote, s.remotes.cell r = some remote ∧ remote.server = none
  owner : ∀ r remote, s.remotes.cell r = some remote → loose ≠ some r →
    ∃ w server, remote.server = some w ∧ s.servers.cell w = some server ∧ server.remote = some r
  owned : ∀ w server r, s.servers.cell w = some server → server.remote = some r →
    ∃ remote, s.remotes.cell r = some remote ∧ remote.server = some w
  asked : ∀ w server q, s.servers.cell w = some server → server.query = some q → s.queries.cell q = some w
  asker : ∀ q w, s.queries.cell q = some w → ∃ server, s.servers.cell w = some server ∧ server.query = some q
  listed : ∀ w, w ∈ s.connections ↔ ∃ server, s.servers.cell w = some server
  once : s.connections.Nodup
  counted : C.verbose = true → s.serverConn = s.servers.live ∧ s.remoteConn = s.remotes.live

/-! ## Objects that go -/

/-- The state without a remote. -/
def State.dropRemote (C : Config P) (s : State P) (r : Nat) (remote : RemoteT) : State P :=
  { s with
    servers := match remote.server with
      | some w => s.servers.modify w fun server => { server with remote := none }
      | none => s.servers
    remotes := s.remotes.free r
    remoteConn := if C.verbose then s.remoteConn - 1 else s.remoteConn }

/-- The state without a server. -/
def State.dropServer (C : Config P) (s : State P) (w : Nat) (server : ServerT P) : State P :=
  { s with
    servers := s.servers.free w
    remotes := match server.remote with
      | some r => s.remotes.modify r fun remote => { remote with server := none }
      | none => s.remotes
    queries := match server.query with
      | some q => s.queries.free q
      | none => s.queries
    connections := s.connections.erase w
    serverConn := if C.verbose then s.serverConn - 1 else s.serverConn }

section
variable {C : Config P} {s : State P} {w r : Nat} {server : ServerT P} {remote : RemoteT} {loose : Option Nat}

/-- A cell that is there is read, and nothing changes. -/
theorem getServer_run (here : s.servers.cell w = some server) : getServer w s = .ok (server, s) := by
  rw [getServer, bind_run (get_run s), here]
  rfl

theorem getRemote_run (here : s.remotes.cell r = some remote) : getRemote r s = .ok (remote, s) := by
  rw [getRemote, bind_run (get_run s), here]
  rfl

/-- A cell that is there is written. -/
theorem setServer_run (here : s.servers.cell w = some server) (f : ServerT P → ServerT P) :
    setServer w f s = .ok ((), { s with servers := s.servers.modify w f }) := by
  rw [setServer, bind_run (getServer_run here)]
  rfl

theorem setRemote_run (here : s.remotes.cell r = some remote) (f : RemoteT → RemoteT) :
    setRemote r f s = .ok ((), { s with remotes := s.remotes.modify r f }) := by
  rw [setRemote, bind_run (getRemote_run here)]
  rfl

/-- The counters are kept up to date where the process is verbose. -/
theorem countRemotes_run (n : Int) :
    countRemotes C n s = .ok ((), { s with remoteConn := if C.verbose then s.remoteConn + n else s.remoteConn }) := by
  unfold countRemotes
  cases C.verbose <;> rfl

theorem countServers_run (n : Int) :
    countServers C n s = .ok ((), { s with serverConn := if C.verbose then s.serverConn + n else s.serverConn }) := by
  unfold countServers
  cases C.verbose <;> rfl

/-- The `server` that points to a remote is told that it has none. -/
theorem detachServer_run (remote : RemoteT) (known : ∀ w, remote.server = some w → ∃ server, s.servers.cell w = some server) :
    detachServer remote s = .ok ((), { s with servers := match remote.server with
      | some w => s.servers.modify w fun server => { server with remote := none }
      | none => s.servers }) := by
  unfold detachServer
  cases owner : remote.server with
  | none => rfl
  | some w =>
    obtain ⟨server, here⟩ := known w owner
    exact setServer_run here _

/-- The remote that a `server` points to is told that it has no server. -/
theorem detachRemote_run (server : ServerT P) (known : ∀ r, server.remote = some r → ∃ remote, s.remotes.cell r = some remote) :
    detachRemote server s = .ok ((), { s with remotes := match server.remote with
      | some r => s.remotes.modify r fun remote => { remote with server := none }
      | none => s.remotes }) := by
  unfold detachRemote
  cases own : server.remote with
  | none => rfl
  | some r =>
    obtain ⟨remote, here⟩ := known r own
    exact setRemote_run here _

/-- What is left of the query is its pointer. -/
theorem resolvCancel_run (here : s.servers.cell w = some server)
    (known : ∀ q, server.query = some q → ∃ w, s.queries.cell q = some w) :
    ∃ f : ServerT P → ServerT P, (f server).remote = server.remote ∧
      resolvCancel w server s = .ok ((), { s with
        servers := s.servers.modify w f
        queries := match server.query with
          | some q => s.queries.free q
          | none => s.queries }) := by
  unfold resolvCancel
  cases query : server.query with
  | none =>
    refine ⟨id, rfl, ?_⟩
    rw [Pool.modify_id]
    rfl
  | some q =>
    obtain ⟨w', asker⟩ := known q query
    refine ⟨fun server => { server with query := none }, rfl, ?_⟩
    dsimp only
    rw [bind_run (get_run s), asker]
    dsimp only
    rw [bind_run (modify_run _ s)]
    exact setServer_run (s := { s with queries := s.queries.free q }) here _

/-- `free_remote` detaches the server and frees the cell. -/
theorem freeRemote_run (here : s.remotes.cell r = some remote)
    (known : ∀ w, remote.server = some w → ∃ server, s.servers.cell w = some server) :
    freeRemote r s = .ok ((), { s.dropRemote C r remote with remoteConn := s.remoteConn }) := by
  rw [freeRemote, bind_run (getRemote_run here), bind_run (detachServer_run remote known), modify_run]
  rfl

/-- `free_server` detaches the remote and frees the cell. -/
theorem freeServer_run (here : s.servers.cell w = some server)
    (known : ∀ r, server.remote = some r → ∃ remote, s.remotes.cell r = some remote) :
    freeServer w s = .ok ((), { s with
      servers := s.servers.free w
      remotes := match server.remote with
        | some r => s.remotes.modify r fun remote => { remote with server := none }
        | none => s.remotes
      connections := s.connections.erase w }) := by
  rw [freeServer, bind_run (getServer_run here), bind_run (modify_run _ s),
    bind_run (detachRemote_run (s := { s with connections := s.connections.erase w }) server known), modify_run]

/-- Closing a remote is `dropRemote`, if what it points to is there. -/
theorem closeAndFreeRemote_run (here : s.remotes.cell r = some remote)
    (known : ∀ w, remote.server = some w → ∃ server, s.servers.cell w = some server) :
    closeAndFreeRemote C (some r) s = .ok ((), s.dropRemote C r remote) := by
  have changed : (s.remotes.modify r fun remote => { remote with sendIo := false, recvIo := false }).cell r =
      some { remote with sendIo := false, recvIo := false } := by
    rw [Pool.cell_modify_self, here]
    rfl
  have freed := freeRemote_run (C := C) (s := { s with
    remotes := s.remotes.modify r fun remote => { remote with sendIo := false, recvIo := false } }) changed known
  rw [closeAndFreeRemote, bind_run (setRemote_run here _), bind_run freed, countRemotes_run]
  simp only [State.dropRemote, Pool.free_modify]
  rfl

/-- Closing a server is `dropServer`, if what it points to is there. -/
theorem closeAndFreeServer_run (here : s.servers.cell w = some server)
    (query : ∀ q, server.query = some q → ∃ w, s.queries.cell q = some w)
    (known : ∀ r, server.remote = some r → ∃ remote, s.remotes.cell r = some remote) :
    closeAndFreeServer C w s = .ok ((), s.dropServer C w server) := by
  obtain ⟨f, own, cancelled⟩ := resolvCancel_run here query
  have first : (s.servers.modify w f).cell w = some (f server) := by
    rw [Pool.cell_modify_self, here]
    rfl
  have second : ((s.servers.modify w f).modify w fun server => { server with sendIo := false, recvIo := false }).cell w =
      some { f server with sendIo := false, recvIo := false } := by
    rw [Pool.cell_modify_self, first]
    rfl
  have stopped := setServer_run (s := { s with
    servers := s.servers.modify w f
    queries := match server.query with
      | some q => s.queries.free q
      | none => s.queries }) first fun server => { server with sendIo := false, recvIo := false }
  have freed := freeServer_run (s := { s with
    servers := (s.servers.modify w f).modify w fun server => { server with sendIo := false, recvIo := false }
    queries := match server.query with
      | some q => s.queries.free q
      | none => s.queries }) second fun r at_ => known r (own ▸ at_)
  rw [closeAndFreeServer, bind_run (getServer_run here), bind_run cancelled, bind_run stopped, bind_run freed, countServers_run]
  simp only [State.dropServer, Pool.free_modify, own]
  rfl

/-- The servers without the remote `r`: those that had it have none. -/
theorem Sound.without (sound : Sound C loose s) (here : s.remotes.cell r = some remote) (which : loose = none ∨ loose = some r) :
    (∀ w server', (s.dropRemote C r remote).servers.cell w = some server' → ∃ server, s.servers.cell w = some server ∧
      server'.query = server.query ∧ (server'.remote = none ∨ server'.remote = server.remote ∧ server.remote ≠ some r)) ∧
    ∀ w server, s.servers.cell w = some server → ∃ server', (s.dropRemote C r remote).servers.cell w = some server' ∧
      server'.query = server.query ∧ (server.remote ≠ some r → server'.remote = server.remote) := by
  have mine : ∀ w server, s.servers.cell w = some server → server.remote = some r → remote.server = some w := by
    intro w server at_ own
    obtain ⟨remote', here', owner⟩ := sound.owned w server r at_ own
    cases here.symm.trans here'
    exact owner
  rw [State.dropRemote]
  cases owner : remote.server with
  | none =>
    refine ⟨fun w server at_ => ⟨server, at_, rfl, .inr ⟨rfl, fun own => ?_⟩⟩, fun w server at_ => ⟨server, at_, rfl, fun _ => rfl⟩⟩
    have no := mine w server at_ own
    rw [owner] at no
    cases no
  | some w =>
    constructor
    · intro w' server' at_
      obtain ⟨server, before, ⟨rfl, other⟩ | ⟨rfl, rfl⟩⟩ := Pool.cell_modify at_
      · refine ⟨server', before, rfl, .inr ⟨rfl, fun own => ?_⟩⟩
        have same := mine w' server' before own
        rw [owner] at same
        exact other (Option.some.inj same).symm
      · exact ⟨server, before, rfl, .inl rfl⟩
    · intro w' server at_
      by_cases same : w' = w
      · subst same
        refine ⟨{ server with remote := none }, ?_, rfl, fun other => ?_⟩
        · dsimp only
          rw [Pool.cell_modify_self, at_]
          rfl
        · -- the remote is the one of its server
          have own : server.remote = some r := by
            rcases which with rfl | rfl
            · obtain ⟨w'', server'', owner', at', own⟩ := sound.owner r remote here nofun
              cases owner.symm.trans owner'
              cases at_.symm.trans at'
              exact own
            · obtain ⟨remote', here', alone⟩ := sound.alone r rfl
              cases here.symm.trans here'
              rw [owner] at alone
              cases alone
          exact absurd own other
      · exact ⟨server, (Pool.cell_modify_of_ne same).trans at_, rfl, fun _ => rfl⟩

/-- A remote goes that has no server, or leaves its own behind. At most one server is changed, the
one that had it, and none is freed. -/
theorem Sound.dropRemote (sound : Sound C loose s) (here : s.remotes.cell r = some remote) (which : loose = none ∨ loose = some r) :
    Sound C none (s.dropRemote C r remote) := by
  obtain ⟨before, after⟩ := sound.without here which
  have servers : (s.dropRemote C r remote).servers.Sound ∧ (s.dropRemote C r remote).servers.live = s.servers.live := by
    rw [State.dropRemote]
    cases remote.server with
    | none => exact ⟨sound.servers, rfl⟩
    | some w => exact ⟨sound.servers.modify, Pool.live_modify⟩
  exact {
    servers := servers.1
    remotes := sound.remotes.free here
    queries := sound.queries
    alone := nofun
    owner := by
      intro r' remote' here' _
      obtain ⟨there, ne⟩ := Pool.cell_free here'
      have kept : loose ≠ some r' := by
        rcases which with rfl | rfl
        · nofun
        · exact fun same => ne (Option.some.inj same).symm
      obtain ⟨w, server, owner, at_, own⟩ := sound.owner r' remote' there kept
      obtain ⟨server', at', -, same⟩ := after w server at_
      refine ⟨w, server', owner, at', (same ?_).trans own⟩
      rw [own]
      exact fun same => ne (Option.some.inj same)
    owned := by
      intro w server' r' at' own
      obtain ⟨server, at_, -, none_ | ⟨same, other⟩⟩ := before w server' at'
      · rw [none_] at own
        cases own
      · rw [same] at own
        obtain ⟨remote', here', owner⟩ := sound.owned w server r' at_ own
        refine ⟨remote', (Pool.cell_free_of_ne ?_).trans here', owner⟩
        rintro rfl
        exact other own
    asked := by
      intro w server' q at' query
      obtain ⟨server, at_, same, -⟩ := before w server' at'
      exact sound.asked w server q at_ (same ▸ query)
    asker := by
      intro q w asking
      obtain ⟨server, at_, query⟩ := sound.asker q w asking
      obtain ⟨server', at', same, -⟩ := after w server at_
      exact ⟨server', at', same.trans query⟩
    listed := by
      intro w
      refine (sound.listed w).trans ⟨fun ⟨server, at_⟩ => ?_, fun ⟨server', at'⟩ => ?_⟩
      · obtain ⟨server', at', -⟩ := after w server at_
        exact ⟨server', at'⟩
      · obtain ⟨server, at_, -⟩ := before w server' at'
        exact ⟨server, at_⟩
    once := sound.once
    counted := by
      intro verbose
      obtain ⟨serverConn, remoteConn⟩ := sound.counted verbose
      have less := Pool.live_free sound.remotes here
      rw [servers.2]
      refine ⟨serverConn, ?_⟩
      change (if C.verbose = true then s.remoteConn - 1 else s.remoteConn) = ((s.remotes.free r).live : Int)
      rw [if_pos verbose, remoteConn]
      omega }

/-- The remote of a server that goes is left without one. -/
theorem dropServer_remote (there : s.remotes.cell r = some remote) (own : server.remote = some r) :
    (s.dropServer C w server).remotes.cell r = some { remote with server := none } := by
  rw [State.dropServer, own]
  dsimp only
  rw [Pool.cell_modify_self, there]
  rfl

/-- Remotes of other servers stay as they are. -/
theorem dropServer_remote_of_ne (other : server.remote ≠ some r) : (s.dropServer C w server).remotes.cell r = s.remotes.cell r := by
  rw [State.dropServer]
  cases own : server.remote with
  | none => rfl
  | some r' =>
    refine Pool.cell_modify_of_ne ?_
    rintro rfl
    exact other own

/-- A remote of the server loses its pointer, and none is freed. -/
theorem Sound.dropServer_remotes (sound : Sound C loose s) (w : Nat) (server : ServerT P) :
    (s.dropServer C w server).remotes.Sound ∧ (s.dropServer C w server).remotes.live = s.remotes.live := by
  rw [State.dropServer]
  cases server.remote with
  | none => exact ⟨sound.remotes, rfl⟩
  | some r => exact ⟨sound.remotes.modify, Pool.live_modify⟩

/-- Its query goes with it, and no other one. -/
theorem dropServer_query {q w' : Nat} :
    (s.dropServer C w server).queries.cell q = some w' ↔ s.queries.cell q = some w' ∧ server.query ≠ some q := by
  rw [State.dropServer]
  cases query : server.query with
  | none => simp
  | some q' =>
    constructor
    · intro there
      obtain ⟨before, ne⟩ := Pool.cell_free there
      exact ⟨before, fun same => ne (Option.some.inj same).symm⟩
    · rintro ⟨before, ne⟩
      exact (Pool.cell_free_of_ne fun same => ne (congrArg some same.symm)).trans before

/-- The query of the server is freed together with it. -/
theorem Sound.dropServer_queries (sound : Sound C loose s) (here : s.servers.cell w = some server) :
    (s.dropServer C w server).queries.Sound := by
  rw [State.dropServer]
  cases query : server.query with
  | none => exact sound.queries
  | some q => exact sound.queries.free (sound.asked w server q here query)

/-- A server goes; its remote, if there is one, is left behind. The remote of the server is the
loose one afterwards; other remotes and queries belong to other servers. -/
theorem Sound.dropServer (sound : Sound C none s) (here : s.servers.cell w = some server) :
    Sound C server.remote (s.dropServer C w server) := by
  obtain ⟨remotes, live⟩ := sound.dropServer_remotes w server
  exact {
    servers := sound.servers.free here
    remotes := remotes
    queries := sound.dropServer_queries here
    alone := by
      intro r own
      obtain ⟨remote, there, -⟩ := sound.owned w server r here own
      exact ⟨_, dropServer_remote there own, rfl⟩
    owner := by
      intro r remote there other
      rw [dropServer_remote_of_ne other] at there
      obtain ⟨w', server', owner, at_, own⟩ := sound.owner r remote there nofun
      refine ⟨w', server', owner, (Pool.cell_free_of_ne ?_).trans at_, own⟩
      rintro rfl
      cases here.symm.trans at_
      exact other own
    owned := by
      intro w' server' r at' own
      obtain ⟨at_, ne⟩ := Pool.cell_free at'
      obtain ⟨remote, there, owner⟩ := sound.owned w' server' r at_ own
      refine ⟨remote, (dropServer_remote_of_ne fun mine => ?_).trans there, owner⟩
      obtain ⟨remote', there', owner'⟩ := sound.owned w server r here mine
      cases there.symm.trans there'
      exact ne (Option.some.inj (owner.symm.trans owner'))
    asked := by
      intro w' server' q at' query
      obtain ⟨at_, ne⟩ := Pool.cell_free at'
      have there := sound.asked w' server' q at_ query
      refine dropServer_query.mpr ⟨there, fun mine => ?_⟩
      exact ne (Option.some.inj (there.symm.trans (sound.asked w server q here mine)))
    asker := by
      intro q w' there
      obtain ⟨before, other⟩ := dropServer_query.mp there
      obtain ⟨server', at_, query⟩ := sound.asker q w' before
      refine ⟨server', (Pool.cell_free_of_ne ?_).trans at_, query⟩
      rintro rfl
      cases here.symm.trans at_
      exact other query
    listed := by
      intro w'
      change w' ∈ s.connections.erase w ↔ ∃ server', (s.servers.free w).cell w' = some server'
      rw [sound.once.mem_erase_iff, sound.listed]
      constructor
      · rintro ⟨ne, server', at_⟩
        exact ⟨server', (Pool.cell_free_of_ne ne).trans at_⟩
      · rintro ⟨server', at'⟩
        obtain ⟨at_, ne⟩ := Pool.cell_free at'
        exact ⟨ne, server', at_⟩
    once := sound.once.erase w
    counted := by
      intro verbose
      obtain ⟨serverConn, remoteConn⟩ := sound.counted verbose
      have less := Pool.live_free sound.servers here
      rw [live]
      refine ⟨?_, remoteConn⟩
      change (if C.verbose = true then s.serverConn - 1 else s.serverConn) = ((s.servers.free w).live : Int)
      rw [if_pos verbose, serverConn]
      omega }

/-! ## Objects that change -/

/-- The pointers of a server stay. -/
def KeepsServer (f : ServerT P → ServerT P) : Prop := ∀ server, (f server).remote = server.remote ∧ (f server).query = server.query

/-- A change of a server that keeps its pointers keeps the state sound. -/
theorem Sound.modifyServer (sound : Sound C loose s) {f : ServerT P → ServerT P} (keeps : KeepsServer f) (w : Nat) :
    Sound C loose { s with servers := s.servers.modify w f } := by
  have before : ∀ w' server', (s.servers.modify w f).cell w' = some server' → ∃ server, s.servers.cell w' = some server ∧
      server'.remote = server.remote ∧ server'.query = server.query := by
    intro w' server' at'
    obtain ⟨server, at_, ⟨rfl, -⟩ | ⟨rfl, -⟩⟩ := Pool.cell_modify at'
    · exact ⟨_, at_, rfl, rfl⟩
    · exact ⟨_, at_, keeps server⟩
  have after : ∀ w' server, s.servers.cell w' = some server → ∃ server', (s.servers.modify w f).cell w' = some server' ∧
      server'.remote = server.remote ∧ server'.query = server.query := by
    intro w' server at_
    obtain ⟨server', at', ⟨rfl, -⟩ | ⟨rfl, -⟩⟩ := Pool.cell_modify_of at_ w f
    · exact ⟨_, at', rfl, rfl⟩
    · exact ⟨_, at', keeps server⟩
  exact {
    servers := sound.servers.modify
    remotes := sound.remotes
    queries := sound.queries
    alone := sound.alone
    owner := by
      intro r remote there other
      obtain ⟨w', server, owner, at_, own⟩ := sound.owner r remote there other
      obtain ⟨server', at', same, -⟩ := after w' server at_
      exact ⟨w', server', owner, at', same.trans own⟩
    owned := by
      intro w' server' r at' own
      obtain ⟨server, at_, same, -⟩ := before w' server' at'
      exact sound.owned w' server r at_ (same ▸ own)
    asked := by
      intro w' server' q at' query
      obtain ⟨server, at_, -, same⟩ := before w' server' at'
      exact sound.asked w' server q at_ (same ▸ query)
    asker := by
      intro q w' there
      obtain ⟨server, at_, query⟩ := sound.asker q w' there
      obtain ⟨server', at', -, same⟩ := after w' server at_
      exact ⟨server', at', same.trans query⟩
    listed := by
      intro w'
      refine (sound.listed w').trans ⟨fun ⟨server, at_⟩ => ?_, fun ⟨server', at'⟩ => ?_⟩
      · obtain ⟨server', at', -⟩ := after w' server at_
        exact ⟨server', at'⟩
      · obtain ⟨server, at_, -⟩ := before w' server' at'
        exact ⟨server, at_⟩
    once := sound.once
    counted := by
      intro verbose
      dsimp only
      rw [Pool.live_modify]
      exact sound.counted verbose }

/-- The same for a remote. -/
theorem Sound.modifyRemote (sound : Sound C loose s) {f : RemoteT → RemoteT} (keeps : ∀ remote, (f remote).server = remote.server)
    (r : Nat) : Sound C loose { s with remotes := s.remotes.modify r f } where
  servers := sound.servers
  remotes := sound.remotes.modify
  queries := sound.queries
  alone r' same := by
    obtain ⟨remote, there, alone⟩ := sound.alone r' same
    obtain ⟨remote', here, ⟨rfl, -⟩ | ⟨rfl, -⟩⟩ := Pool.cell_modify_of there r f
    · exact ⟨_, here, alone⟩
    · exact ⟨_, here, (keeps remote).trans alone⟩
  owner r' remote' here other := by
    obtain ⟨remote, there, ⟨rfl, -⟩ | ⟨rfl, -⟩⟩ := Pool.cell_modify here
    · exact sound.owner r' _ there other
    · rw [keeps]
      exact sound.owner r' remote there other
  owned w server r' at_ own := by
    obtain ⟨remote, there, owner⟩ := sound.owned w server r' at_ own
    obtain ⟨remote', here, ⟨rfl, -⟩ | ⟨rfl, -⟩⟩ := Pool.cell_modify_of there r f
    · exact ⟨_, here, owner⟩
    · exact ⟨_, here, (keeps remote).trans owner⟩
  asked := sound.asked
  asker := sound.asker
  listed := sound.listed
  once := sound.once
  counted verbose := by
    dsimp only
    rw [Pool.live_modify]
    exact sound.counted verbose

/-- A new remote has no server yet. -/
theorem Sound.newRemote (sound : Sound C none s) (buf : Buffer) :
    Sound C (some s.remotes.next) { s with
      remotes := s.remotes.new { buf }
      remoteConn := if C.verbose then s.remoteConn + 1 else s.remoteConn } where
  servers := sound.servers
  remotes := sound.remotes.new
  queries := sound.queries
  alone r same := by
    cases same
    exact ⟨_, Pool.cell_new_self, rfl⟩
  owner r remote here other := by
    have ne : r ≠ s.remotes.next := fun same => other (congrArg some same.symm)
    exact sound.owner r remote ((Pool.cell_new_of_ne ne).symm.trans here) nofun
  owned w server r at_ own := by
    obtain ⟨remote, there, owner⟩ := sound.owned w server r at_ own
    exact ⟨remote, (Pool.cell_new_of_ne (sound.remotes.ne_next there)).trans there, owner⟩
  asked := sound.asked
  asker := sound.asker
  listed := sound.listed
  once := sound.once
  counted verbose := by
    obtain ⟨serverConn, remoteConn⟩ := sound.counted verbose
    refine ⟨serverConn, ?_⟩
    dsimp only
    rw [if_pos verbose, Pool.live_new, remoteConn]
    rfl

/-- The server and the remote that has none are linked. The server had no remote and the remote no
server, so nothing else points to either of them. -/
theorem Sound.attach (sound : Sound C (some r) s) (here : s.servers.cell w = some server) (free : server.remote = none) :
    Sound C none { s with
      servers := s.servers.modify w fun server => { server with remote := some r }
      remotes := s.remotes.modify r fun remote => { remote with server := some w } } := by
  obtain ⟨remote, there, alone⟩ := sound.alone r rfl
  have before : ∀ w' server', (s.servers.modify w fun server => { server with remote := some r }).cell w' = some server' →
      ∃ server'', s.servers.cell w' = some server'' ∧ server'.query = server''.query ∧
        (w' ≠ w ∧ server' = server'' ∨ w' = w ∧ server'.remote = some r) := by
    intro w' server' at'
    obtain ⟨server'', at_, ⟨rfl, ne⟩ | ⟨rfl, same⟩⟩ := Pool.cell_modify at'
    · exact ⟨_, at_, rfl, .inl ⟨ne, rfl⟩⟩
    · exact ⟨_, at_, rfl, .inr ⟨same, rfl⟩⟩
  have after : ∀ w' server', s.servers.cell w' = some server' →
      ∃ server'', (s.servers.modify w fun server => { server with remote := some r }).cell w' = some server'' ∧
        server''.query = server'.query ∧ (w' ≠ w → server''.remote = server'.remote) := by
    intro w' server' at_
    obtain ⟨server'', at', ⟨rfl, -⟩ | ⟨rfl, same⟩⟩ := Pool.cell_modify_of at_ w fun server => { server with remote := some r }
    · exact ⟨_, at', rfl, fun _ => rfl⟩
    · exact ⟨_, at', rfl, fun ne => absurd same ne⟩
  have mine : (s.remotes.modify r fun remote => { remote with server := some w }).cell r = some { remote with server := some w } := by
    rw [Pool.cell_modify_self, there]
    rfl
  exact {
    servers := sound.servers.modify
    remotes := sound.remotes.modify
    queries := sound.queries
    alone := nofun
    owner := by
      intro r' remote' here' _
      obtain ⟨remote'', there', ⟨rfl, ne⟩ | ⟨rfl, rfl⟩⟩ := Pool.cell_modify here'
      · obtain ⟨w', server', owner, at_, own⟩ := sound.owner r' _ there' fun same => ne (Option.some.inj same).symm
        obtain ⟨server'', at', -, same⟩ := after w' server' at_
        refine ⟨w', server'', owner, at', (same ?_).trans own⟩
        rintro rfl
        cases here.symm.trans at_
        rw [free] at own
        cases own
      · exact ⟨w, { server with remote := some r' }, rfl, Pool.cell_modify_self.trans (by rw [here]; rfl), rfl⟩
    owned := by
      intro w' server' r' at' own
      obtain ⟨server'', at_, -, ⟨ne, rfl⟩ | ⟨rfl, same⟩⟩ := before w' server' at'
      · obtain ⟨remote', there', owner⟩ := sound.owned w' _ r' at_ own
        refine ⟨remote', (Pool.cell_modify_of_ne ?_).trans there', owner⟩
        rintro rfl
        cases there.symm.trans there'
        rw [alone] at owner
        cases owner
      · cases same.symm.trans own
        exact ⟨_, mine, rfl⟩
    asked := by
      intro w' server' q at' query
      obtain ⟨server'', at_, same, -⟩ := before w' server' at'
      exact sound.asked w' server'' q at_ (same ▸ query)
    asker := by
      intro q w' asking
      obtain ⟨server', at_, query⟩ := sound.asker q w' asking
      obtain ⟨server'', at', same, -⟩ := after w' server' at_
      exact ⟨server'', at', same.trans query⟩
    listed := by
      intro w'
      refine (sound.listed w').trans ⟨fun ⟨server', at_⟩ => ?_, fun ⟨server', at'⟩ => ?_⟩
      · obtain ⟨server'', at', -⟩ := after w' server' at_
        exact ⟨server'', at'⟩
      · obtain ⟨server'', at_, -⟩ := before w' server' at'
        exact ⟨server'', at_⟩
    once := sound.once
    counted := by
      intro verbose
      dsimp only
      rw [Pool.live_modify, Pool.live_modify]
      exact sound.counted verbose }

/-! ## Queries and servers -/

/-- A server that has no query gets a new one. -/
theorem Sound.newQuery (sound : Sound C loose s) (here : s.servers.cell w = some server) (none_ : server.query = none) :
    Sound C loose { s with
      queries := s.queries.new w
      servers := s.servers.modify w fun server => { server with query := some s.queries.next } } where
  servers := sound.servers.modify
  remotes := sound.remotes
  queries := sound.queries.new
  alone := sound.alone
  owner r remote there other := by
    obtain ⟨w', server', owner, at_, own⟩ := sound.owner r remote there other
    by_cases same : w' = w
    · subst same
      cases here.symm.trans at_
      exact ⟨w', _, owner, (Pool.cell_modify_iff here).mpr (.inl ⟨rfl, rfl⟩), own⟩
    · exact ⟨w', server', owner, (Pool.cell_modify_iff here).mpr (.inr ⟨same, at_⟩), own⟩
  owned w' server' r at' own := by
    rcases (Pool.cell_modify_iff here).mp at' with ⟨rfl, rfl⟩ | ⟨-, at_⟩
    · exact sound.owned w' server r here own
    · exact sound.owned w' server' r at_ own
  asked w' server' q at' query := by
    rcases (Pool.cell_modify_iff here).mp at' with ⟨rfl, rfl⟩ | ⟨-, at_⟩
    · cases query
      exact Pool.cell_new_self
    · have there := sound.asked w' server' q at_ query
      exact (Pool.cell_new_of_ne (sound.queries.ne_next there)).trans there
  asker q w' asking := by
    rcases Pool.cell_new_iff.mp asking with ⟨rfl, rfl⟩ | ⟨-, there⟩
    · exact ⟨_, (Pool.cell_modify_iff here).mpr (.inl ⟨rfl, rfl⟩), rfl⟩
    · obtain ⟨server', at_, query⟩ := sound.asker q w' there
      refine ⟨server', (Pool.cell_modify_iff here).mpr (.inr ⟨?_, at_⟩), query⟩
      rintro rfl
      cases here.symm.trans at_
      rw [none_] at query
      cases query
  listed w' := (sound.listed w').trans Pool.exists_cell_modify.symm
  once := sound.once
  counted verbose := by
    dsimp only
    rw [Pool.live_modify]
    exact sound.counted verbose

/-- A query is answered, and its server forgets it. -/
theorem Sound.answered {q : Nat} (sound : Sound C loose s) (asking : s.queries.cell q = some w) :
    Sound C loose { s with
      queries := s.queries.free q
      servers := s.servers.modify w fun server => { server with query := none } } := by
  obtain ⟨server, here, query⟩ := sound.asker q w asking
  exact {
    servers := sound.servers.modify
    remotes := sound.remotes
    queries := sound.queries.free asking
    alone := sound.alone
    owner := by
      intro r remote there other
      obtain ⟨w', server', owner, at_, own⟩ := sound.owner r remote there other
      by_cases same : w' = w
      · subst same
        cases here.symm.trans at_
        exact ⟨w', _, owner, (Pool.cell_modify_iff here).mpr (.inl ⟨rfl, rfl⟩), own⟩
      · exact ⟨w', server', owner, (Pool.cell_modify_iff here).mpr (.inr ⟨same, at_⟩), own⟩
    owned := by
      intro w' server' r at' own
      rcases (Pool.cell_modify_iff here).mp at' with ⟨rfl, rfl⟩ | ⟨-, at_⟩
      · exact sound.owned w' server r here own
      · exact sound.owned w' server' r at_ own
    asked := by
      intro w' server' q' at' query'
      rcases (Pool.cell_modify_iff here).mp at' with ⟨rfl, rfl⟩ | ⟨ne, at_⟩
      · cases query'
      · have there := sound.asked w' server' q' at_ query'
        refine Pool.cell_free_iff.mpr ⟨?_, there⟩
        rintro rfl
        exact ne (Option.some.inj (there.symm.trans asking))
    asker := by
      intro q' w' asking'
      obtain ⟨ne, there⟩ := Pool.cell_free_iff.mp asking'
      obtain ⟨server', at_, query'⟩ := sound.asker q' w' there
      refine ⟨server', (Pool.cell_modify_iff here).mpr (.inr ⟨?_, at_⟩), query'⟩
      rintro rfl
      cases here.symm.trans at_
      exact ne (Option.some.inj (query'.symm.trans query))
    listed := fun w' => (sound.listed w').trans Pool.exists_cell_modify.symm
    once := sound.once
    counted := by
      intro verbose
      dsimp only
      rw [Pool.live_modify]
      exact sound.counted verbose }

/-- A new server has neither a remote nor a query. -/
theorem Sound.newServer (sound : Sound C none s) (alone : server.remote = none) (quiet : server.query = none) :
    Sound C none { s with
      servers := s.servers.new server
      connections := s.connections ++ [s.servers.next]
      serverConn := if C.verbose then s.serverConn + 1 else s.serverConn } where
  servers := sound.servers.new
  remotes := sound.remotes
  queries := sound.queries
  alone := nofun
  owner r remote there other := by
    obtain ⟨w, server', owner, at_, own⟩ := sound.owner r remote there other
    exact ⟨w, server', owner, (Pool.cell_new_of_ne (sound.servers.ne_next at_)).trans at_, own⟩
  owned w server' r at' own := by
    rcases Pool.cell_new_iff.mp at' with ⟨rfl, rfl⟩ | ⟨-, at_⟩
    · rw [alone] at own
      cases own
    · exact sound.owned w server' r at_ own
  asked w server' q at' query := by
    rcases Pool.cell_new_iff.mp at' with ⟨rfl, rfl⟩ | ⟨-, at_⟩
    · rw [quiet] at query
      cases query
    · exact sound.asked w server' q at_ query
  asker q w asking := by
    obtain ⟨server', at_, query⟩ := sound.asker q w asking
    exact ⟨server', (Pool.cell_new_of_ne (sound.servers.ne_next at_)).trans at_, query⟩
  listed w := by
    dsimp only
    rw [List.mem_append, List.mem_singleton, sound.listed]
    constructor
    · rintro (⟨server', at_⟩ | rfl)
      · exact ⟨server', (Pool.cell_new_of_ne (sound.servers.ne_next at_)).trans at_⟩
      · exact ⟨server, Pool.cell_new_self⟩
    · rintro ⟨server', at'⟩
      rcases Pool.cell_new_iff.mp at' with ⟨rfl, -⟩ | ⟨-, at_⟩
      · exact .inr rfl
      · exact .inl ⟨server', at_⟩
  once := by
    refine List.nodup_append.mpr ⟨sound.once, List.nodup_singleton _, fun w mem w' last => ?_⟩
    rw [List.mem_singleton.mp last]
    obtain ⟨server', at_⟩ := (sound.listed w).mp mem
    exact sound.servers.ne_next at_
  counted verbose := by
    obtain ⟨serverConn, remoteConn⟩ := sound.counted verbose
    refine ⟨?_, remoteConn⟩
    dsimp only
    rw [if_pos verbose, Pool.live_new, serverConn]
    rfl

/-- The process begins without connections. -/
theorem sound_start : Sound C none (start C) where
  servers := Pool.sound_empty
  remotes := Pool.sound_empty
  queries := Pool.sound_empty
  alone := nofun
  owner _ _ there := nomatch there
  owned _ _ _ at_ := nomatch at_
  asked _ _ _ at_ := nomatch at_
  asker _ _ asking := nomatch asking
  listed _ := ⟨nofun, fun ⟨_, at_⟩ => nomatch at_⟩
  once := List.nodup_nil
  counted _ := ⟨rfl, rfl⟩

end

end Shadowsocks.Server.Process
