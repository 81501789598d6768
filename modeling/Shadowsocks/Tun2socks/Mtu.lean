import Shadowsocks.Tun2socks.Delivery

/-!
# The MTUs of a connection

`SocksUdpGwClient_Init` computes two: `udp_mtu` for payloads and `udpgw_mtu` for payloads
behind a header and an address. `connection_init` gives the first one to the writer, the
sender and the receiver, which all handle what is encapsulated. So a packet fits in either
direction exactly if its header does.
-/

namespace Shadowsocks.Tun2socks
set_option autoImplicit false
open Lib

/-! ## `misc/bsize.h` -/

/-- `bsize_t`. -/
structure BSize where
  isOverflow : Bool
  value : Nat

def bsizeFromSize (v : Nat) : BSize := ⟨false, v⟩

/-- `bsize_fromint`; no `int` is above `SIZE_MAX`. -/
def bsizeFromInt (v : Int) : BSize := ⟨decide (v < 0), (v % 2 ^ 64).toNat⟩

def bsizeAdd (s1 s2 : BSize) : BSize where
  isOverflow := s1.isOverflow || s2.isOverflow || decide (2 ^ 64 - 1 - s1.value < s2.value)
  value := (s1.value + s2.value) % 2 ^ 64

def bsizeMax (s1 s2 : BSize) : BSize where
  isOverflow := s1.isOverflow || s2.isOverflow
  value := if s1.value > s2.value then s1.value else s2.value

/-- `bsize_toint`: the value that is stored, if one is. -/
def bsizeToInt (s : BSize) : Option Int :=
  if s.isOverflow || decide (2 ^ 31 - 1 < s.value) then none else some s.value

/-- `udpgw_compute_mtu`, with the sizes of `struct socks_udp_header`, `struct udpgw_addr_ipv4`
and `struct udpgw_addr_ipv6`. -/
def udpgwComputeMtu (dgramMtu : Int) : Int :=
  let bs := bsizeAdd (bsizeFromSize 4) (bsizeAdd (bsizeMax (bsizeFromSize 6) (bsizeFromSize 18)) (bsizeFromInt dgramMtu))
  (bsizeToInt bs).getD (-1)

/-! ## A connection -/

/-- The MTUs of `SocksUdpGwClient`. -/
structure Client where
  udpMtu : Nat
  udpgwMtu : Int

/-- `SocksUdpGwClient_Init`. -/
def Client.init (udpMtu : Nat) : Client where
  udpMtu := udpMtu
  udpgwMtu := udpgwComputeMtu udpMtu

/-- The sizes of the interfaces of a connection. -/
structure Interfaces where
  sendAsync : Nat
  recvAsync : Nat
  sendWriter : Nat
  recvIf : Nat

/-- What `connection_init` passes to `BDatagram_SendAsync_Init`, `BDatagram_RecvAsync_Init`,
`BufferWriter_Init` and `PacketPassInterface_Init`. -/
def Client.connectionInit (client : Client) : Interfaces where
  sendAsync := client.udpMtu
  recvAsync := client.udpMtu
  sendWriter := client.udpMtu
  recvIf := client.udpMtu

/-- `header.atyp`, behind the fields that are zero. -/
def socksUdpHeaderOf (remoteAddr : BAddr) : Bytes :=
  match remoteAddr with
  | .ipv4 _ => [0, 0, 0, 1]
  | .ipv6 _ _ => [0, 0, 0, 4]

/-- `struct udpgw_addr_ipv4` or `struct udpgw_addr_ipv6`. -/
def udpgwAddr (remoteAddr : BAddr) : Bytes :=
  match remoteAddr with
  | .ipv4 addr => be32 addr.ip.toNat ++ be16 addr.port.toNat
  | .ipv6 ip port => ip.toList ++ be16 port.toNat

/-- `connection_send` into the packet `out`: what is in it then, and the length that
`BufferWriter_EndPacket` is told. -/
def connectionSend (out : Bytes) (remoteAddr : BAddr) (data : Bytes) : Except Fault (Bytes × Nat) := do
  let out ← store out 0 (socksUdpHeaderOf remoteAddr)
  let outPos := (socksUdpHeaderOf remoteAddr).length
  let out ← store out outPos (udpgwAddr remoteAddr)
  let outPos := outPos + (udpgwAddr remoteAddr).length
  let out ← store out outPos data
  pure (out, outPos + data.length)

/-- `recvmsg` into the buffer of a receiver: the rest of a longer datagram is lost. -/
def recvMsg (mtu : Nat) (datagram : Bytes) : Bytes := datagram.take mtu

/-! ## Both directions -/

/-- A packet of the writer's size takes what `connection_send` writes, the length is one that
the writer and the sender take, and the packet is the payload behind its header. -/
def Sends (client : Client) (remoteAddr : BAddr) (data : Bytes) : Prop :=
  ∀ out : Bytes, out.length = client.connectionInit.sendWriter → ∃ out' outPos, connectionSend out remoteAddr data = .ok (out', outPos) ∧
    outPos ≤ client.connectionInit.sendWriter ∧ outPos ≤ client.connectionInit.sendAsync ∧
    out'.take outPos = socksUdpHeader remoteAddr ++ data

/-- A reply is received whole, and `dgram_handler_received` gets what its asserts allow. -/
def Receives (client : Client) (remoteAddr : BAddr) (payload : Bytes) : Prop :=
  (socksUdpHeader remoteAddr ++ payload).length ≤ client.connectionInit.recvAsync ∧
    (socksUdpHeader remoteAddr ++ payload).length ≤ client.connectionInit.recvIf ∧
    recvMsg client.connectionInit.recvAsync (socksUdpHeader remoteAddr ++ payload) = socksUdpHeader remoteAddr ++ payload ∧
    ((socksUdpHeader remoteAddr ++ payload).length : Int) ≤ client.udpgwMtu

/-- The header, the address and the payload are no longer than a payload may be. -/
def HeaderFits (udpMtu : Nat) (remoteAddr : BAddr) (payload : Bytes) : Prop :=
  (socksUdpHeader remoteAddr).length + payload.length ≤ udpMtu

theorem socksUdpHeader_parts (remoteAddr : BAddr) :
    socksUdpHeader remoteAddr = socksUdpHeaderOf remoteAddr ++ udpgwAddr remoteAddr := by
  cases remoteAddr <;> rfl

/-- The three copies are one, of the packet as a whole. -/
theorem connectionSend_eq (out : Bytes) (remoteAddr : BAddr) (data : Bytes) : connectionSend out remoteAddr data =
    (do let out ← store out 0 (socksUdpHeader remoteAddr ++ data); pure (out, (socksUdpHeader remoteAddr ++ data).length)) := by
  have first := store_append out (socksUdpHeaderOf remoteAddr) (udpgwAddr remoteAddr) 0 fun out => do
    let out ← store out ((socksUdpHeaderOf remoteAddr).length + (udpgwAddr remoteAddr).length) data
    pure (out, (socksUdpHeaderOf remoteAddr).length + (udpgwAddr remoteAddr).length + data.length)
  have second := store_append out (socksUdpHeader remoteAddr) data 0 fun out =>
    pure (out, (socksUdpHeader remoteAddr).length + data.length)
  rw [Nat.zero_add] at first second
  rw [List.length_append, ← second, socksUdpHeader_parts, List.length_append]
  exact first

theorem bsizeAdd_ok {a b : Nat} (fits : a + b < 2 ^ 64) : bsizeAdd ⟨false, a⟩ ⟨false, b⟩ = ⟨false, a + b⟩ := by
  have room : ¬ 2 ^ 64 - 1 - a < b := by omega
  simp only [bsizeAdd, room, decide_false, Bool.or_self, Nat.mod_eq_of_lt fits]

/-- What is computed is the payload with the longer of the two headers. -/
theorem udpgwComputeMtu_eq {udpMtu : Nat} (int : udpMtu < 2 ^ 31) (defined : 0 ≤ udpgwComputeMtu udpMtu) :
    udpgwComputeMtu udpMtu = 22 + udpMtu := by
  have payload : bsizeFromInt udpMtu = ⟨false, udpMtu⟩ := by
    have value : ((udpMtu : Int) % 2 ^ 64).toNat = udpMtu := by omega
    have positive : ¬ (udpMtu : Int) < 0 := by omega
    simp only [bsizeFromInt, value, positive, decide_false]
  have largest : bsizeMax (bsizeFromSize 6) (bsizeFromSize 18) = ⟨false, 18⟩ := rfl
  unfold udpgwComputeMtu at defined ⊢
  rw [payload, largest, bsizeAdd_ok (by omega), bsizeFromSize, bsizeAdd_ok (by omega)] at defined ⊢
  unfold bsizeToInt at defined ⊢
  dsimp only at defined ⊢
  split at defined
  · rw [Option.getD_none] at defined
    omega
  · rename_i fits
    rw [if_neg fits, Option.getD_some]
    omega

/-! ## What fits -/

section
variable {udpMtu : Nat} (remoteAddr : BAddr)

theorem sends_iff (data : Bytes) : Sends (.init udpMtu) remoteAddr data ↔ HeaderFits udpMtu remoteAddr data := by
  have size : (socksUdpHeader remoteAddr ++ data).length = (socksUdpHeader remoteAddr).length + data.length := List.length_append
  constructor
  · intro sends
    obtain ⟨out', outPos, sent, inside, -⟩ := sends (List.replicate udpMtu 0) List.length_replicate
    rw [connectionSend_eq] at sent
    obtain ⟨out, -, ended⟩ := bind_eq_ok.mp sent
    cases ended
    rw [size] at inside
    exact inside
  · intro fits out room
    have room' : out.length = udpMtu := room
    have whole : 0 + (socksUdpHeader remoteAddr ++ data).length ≤ out.length := by
      rw [Nat.zero_add, size, room']
      exact fits
    refine ⟨_, _, by rw [connectionSend_eq, store_ok whole]; rfl, ?_, ?_, ?_⟩
    · rw [size]
      exact fits
    · rw [size]
      exact fits
    · rw [splice_zero, List.take_left]

theorem receives_iff (int : udpMtu < 2 ^ 31) (defined : 0 ≤ udpgwComputeMtu udpMtu) (payload : Bytes) :
    Receives (.init udpMtu) remoteAddr payload ↔ HeaderFits udpMtu remoteAddr payload := by
  have size : (socksUdpHeader remoteAddr ++ payload).length = (socksUdpHeader remoteAddr).length + payload.length := List.length_append
  constructor
  · rintro ⟨fits, -⟩
    rw [size] at fits
    exact fits
  · intro fits
    have whole : (socksUdpHeader remoteAddr ++ payload).length ≤ udpMtu := by
      rw [size]
      exact fits
    refine ⟨whole, whole, List.take_of_length_le whole, ?_⟩
    have mtu : (Client.init udpMtu).udpgwMtu = 22 + udpMtu := udpgwComputeMtu_eq int defined
    rw [mtu]
    omega

/-- What is sent to an address and what comes from it fits the buffers exactly if the header and the
address fit beside the payload in both. -/
theorem both_fit_iff (int : udpMtu < 2 ^ 31) (defined : 0 ≤ udpgwComputeMtu udpMtu) (data payload : Bytes) :
    Sends (.init udpMtu) remoteAddr data ∧ Receives (.init udpMtu) remoteAddr payload ↔
      HeaderFits udpMtu remoteAddr data ∧ HeaderFits udpMtu remoteAddr payload :=
  and_congr (sends_iff remoteAddr data) (receives_iff remoteAddr int defined payload)

end

/-- A query of 32 bytes and its answer of 64, through a device with an MTU of 1500. -/
theorem both_fit_query : Sends (.init 1472) (.ipv4 ⟨0x08080808, 53⟩) (List.replicate 32 0) ∧
    Receives (.init 1472) (.ipv4 ⟨0x08080808, 53⟩) (List.replicate 64 0) := by
  refine (both_fit_iff (.ipv4 ⟨0x08080808, 53⟩) (by decide) (by decide) _ _).mpr ?_
  exact ⟨show 10 + 32 ≤ 1472 by decide, show 10 + 64 ≤ 1472 by decide⟩

/-- The longest payload that the device lets through does not fit. -/
theorem longest_does_not_fit : (List.replicate 1472 (0 : UInt8)).length ≤ 1472 ∧
    ¬ Sends (.init 1472) (.ipv4 ⟨0x08080808, 53⟩) (List.replicate 1472 0) ∧
    ¬ Receives (.init 1472) (.ipv4 ⟨0x08080808, 53⟩) (List.replicate 1472 0) := by
  have long : ¬ HeaderFits 1472 (.ipv4 ⟨0x08080808, 53⟩) (List.replicate 1472 0) := by
    rw [HeaderFits, length_socksUdpHeader, List.length_replicate]
    decide
  have same : (List.replicate 1472 (0 : UInt8)).length ≤ 1472 := Nat.le_of_eq List.length_replicate
  exact ⟨same, mt (sends_iff _ _).mp long, mt (receives_iff _ (by decide) (by decide) _).mp long⟩

/-- Where a session has no more space than it was made for, a packet is written past it exactly if it does not fit. -/
theorem inside_iff (udpMtu : Nat) (request : Request) :
    Inside request (some udpMtu) ↔ Sends (.init udpMtu) request.pair.remoteAddr request.data := by
  rw [sends_iff, HeaderFits, Inside]
  simp

/-- A packet that fits is written into whatever space a session is given. -/
theorem Sends.inside {C : Config} {s : State} {request : Request} {fails : Option InitStep} {room : Option Nat}
    (sends : Sends (.init C.udpMtu) request.pair.remoteAddr request.data)
    (on : (machine C).enabled s (.packet request fails room) = true) : Inside request room := by
  intro free there
  have wide := (Bool.and_eq_true_iff.mp on).2
  rw [Option.mem_def.mp there] at wide
  exact Nat.le_trans ((sends_iff _ _).mp sends) (of_decide_eq_true wide)

end Shadowsocks.Tun2socks
