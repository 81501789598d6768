import Shadowsocks.Local.Relay
import Shadowsocks.Server.Relay
import Shadowsocks.Tunnel.Conn

/-!
# The downstream relay of the three programs

ss-local, ss-tunnel and ss-server hand the answers of the remote to the client side in
the same way, and none of them loses any, whatever the other callbacks do in between.

Each program has its own `remote_recv_cb` and its own `server_send_cb`, but what they do to the
buffer of the client is a `Pipe`: filled by a `recv`, sent as far as the socket takes it, and
drained by the write watcher. `downstream_intact` says for all three machines that in every run
what the client was sent, with what is still in the buffer, is what was decrypted.
-/

namespace Shadowsocks
set_option autoImplicit false
open Lib

/-- In every reachable state of each program the client side has accepted a prefix of
what was produced for it, and the rest is pending. Hence an end of file, which is seen
only while the remote is read, finds everything accepted. -/
theorem downstream_intact (P : Platform) :
    (∀ (C : Local.Config P) (iv : Bytes) (conn : Local.Conn P),
      (Local.machine C).Reach (fun _ _ => True) (Local.acceptCb C iv) conn →
      conn.down.Intact ∧ (conn.down.filling = true → conn.down.accepted = conn.down.produced)) ∧
    (∀ (C : Tunnel.Config P) (iv : Bytes) (connect : ConnectResult) (tmp : Buffer) (start conn : Tunnel.Conn P),
      Tunnel.acceptCb C iv connect tmp = .ok start →
      (Tunnel.machine C).Reach (fun _ _ => True) start conn →
      conn.down.Intact ∧ (conn.down.filling = true → conn.down.accepted = conn.down.produced)) ∧
    (∀ (C : Server.Config P) (iv : Bytes) (conn : Server.Conn P),
      (Server.machine C).Reach (fun _ _ => True) (Server.acceptCb C iv) conn →
      conn.down.Intact ∧ (conn.down.filling = true → conn.down.accepted = conn.down.produced)) := by
  refine ⟨?_, ?_, ?_⟩
  · intro C iv conn reach
    have ok := Local.down_ok C iv conn reach
    exact ⟨ok.intact, ok.delivered⟩
  · intro C iv connect tmp start conn accepted reach
    have ok := Tunnel.down_ok accepted reach
    exact ⟨ok.intact, ok.delivered⟩
  · intro C iv conn reach
    have ok := Server.down_ok C iv conn reach
    exact ⟨ok.intact, ok.delivered⟩

/-- ss-tunnel to 10.0.0.1:80 with the method `rc4`. -/
def Tunnel.rc4Config : Tunnel.Config rc4Platform where
  E := Local.rc4Config.E
  text := Local.rc4Config.text
  auth := false
  host := [49, 48, 46, 48, 46, 48, 46, 49]
  port := 80

/-- ss-server with the method `rc4`. -/
def Server.rc4Config : Server.Config rc4Platform where
  E := Local.rc4Config.E
  text := Local.rc4Config.text
  auth := false

/-- The remote answers with four bytes, of which the client side takes one at first. -/
def shortAnswer : RecvEvent := { recv := .data { bytes := [1, 2, 3, 4] }, send := .short 1 }

/-- One answer that is taken in part, in each of the three programs. The events before
it bring the connection up; the header of ss-server is encrypted under `rc4`. -/
theorem downstream_intact_short :
    (∃ conn, (Local.machine Local.rc4Config).run (Local.acceptCb Local.rc4Config [])
        (Local.pipelinedRequest .inProgress ++ [.remoteSend true .full, .remoteRecv shortAnswer]) = some (.ok conn) ∧
      conn.down.accepted.length = 1 ∧ conn.down.produced.length = 4 ∧ conn.down.Intact) ∧
    (∃ start conn, Tunnel.acceptCb Tunnel.rc4Config [] (.immediate true .full) {} = .ok start ∧
      (Tunnel.machine Tunnel.rc4Config).run start [.remoteRecv shortAnswer] = some (.ok conn) ∧
      conn.down.accepted.length = 1 ∧ conn.down.produced.length = 4 ∧ conn.down.Intact) ∧
    (∃ conn, (Server.machine Server.rc4Config).run (Server.acceptCb Server.rc4Config [])
        [.serverRecv { recv := .data { bytes := [71, 107, 18, 132, 88, 118, 18] } } {}, .remoteSend true .full,
          .remoteRecv shortAnswer] = some (.ok conn) ∧
      conn.down.accepted.length = 1 ∧ conn.down.produced.length = 4 ∧ conn.down.Intact) := by
  obtain ⟨onLocal, onTunnel, onServer⟩ := downstream_intact rc4Platform
  refine ⟨?_, ?_, ?_⟩
  · have ran : (Local.machine Local.rc4Config).leadsTo (Local.acceptCb Local.rc4Config [])
        (Local.pipelinedRequest .inProgress ++ [.remoteSend true .full, .remoteRecv shortAnswer])
        (fun conn => conn.down.accepted.length = 1 ∧ conn.down.produced.length = 4) = true := by decide +kernel
    obtain ⟨conn, ran, lens⟩ := Machine.exists_of_leadsTo ran
    obtain ⟨one, four⟩ := of_decide_eq_true lens
    exact ⟨conn, ran, one, four, (onLocal _ _ _ (.of_run .refl (fun _ _ _ => trivial) ran)).1⟩
  · have ran : (match Tunnel.acceptCb Tunnel.rc4Config [] (.immediate true .full) {} with
        | .ok start => (Tunnel.machine Tunnel.rc4Config).leadsTo start [.remoteRecv shortAnswer]
            (fun conn => conn.down.accepted.length = 1 ∧ conn.down.produced.length = 4)
        | .error _ => false) = true := by decide +kernel
    split at ran
    · rename_i start accepted
      obtain ⟨conn, ran, lens⟩ := Machine.exists_of_leadsTo ran
      obtain ⟨one, four⟩ := of_decide_eq_true lens
      exact ⟨start, conn, accepted, ran, one, four,
        (onTunnel _ _ _ _ _ _ accepted (.of_run .refl (fun _ _ _ => trivial) ran)).1⟩
    · cases ran
  · have ran : (Server.machine Server.rc4Config).leadsTo (Server.acceptCb Server.rc4Config [])
        [.serverRecv { recv := .data { bytes := [71, 107, 18, 132, 88, 118, 18] } } {}, .remoteSend true .full,
          .remoteRecv shortAnswer]
        (fun conn => conn.down.accepted.length = 1 ∧ conn.down.produced.length = 4) = true := by decide +kernel
    obtain ⟨conn, ran, lens⟩ := Machine.exists_of_leadsTo ran
    obtain ⟨one, four⟩ := of_decide_eq_true lens
    exact ⟨conn, ran, one, four, (onServer _ _ _ (.of_run .refl (fun _ _ _ => trivial) ran)).1⟩

end Shadowsocks
