import Shadowsocks.Tun2socks.Ipv4

/-!
# Addresses and their order

`system/BAddr.h`, for the two types of address that `SocksUdpGwClient_SubmitPacket`
takes. `conaddr_comparator` orders pairs of them; it is zero for equal pairs only.
-/

namespace Shadowsocks.Tun2socks
set_option autoImplicit false
open Lib

/-- `BAddr` of type `BADDR_TYPE_IPV4` or `BADDR_TYPE_IPV6`. -/
inductive BAddr where
  | ipv4 (addr : Ipv4Addr)
  | ipv6 (ip : Vector UInt8 16) (port : UInt16)
  deriving DecidableEq, Repr

/-- `SocksUdpGwClient_conaddr`. -/
structure ConAddr where
  localAddr : BAddr
  remoteAddr : BAddr
  deriving DecidableEq, Repr

/-- `BADDR_TYPE_IPV4` is 1, `BADDR_TYPE_IPV6` is 2. -/
def BAddr.type : BAddr → Nat
  | .ipv4 _ => 1
  | .ipv6 _ _ => 2

/-- `B_COMPARE`. -/
def bCompare (a b : Nat) : Int := if b < a then 1 else if a < b then -1 else 0

/-- The sign of `memcmp` on strings of one length. -/
def memcmp : Bytes → Bytes → Int
  | a :: as, b :: bs => if a = b then memcmp as bs else bCompare a.toNat b.toNat
  | _, _ => 0

/-- `BAddr_CompareOrder`. -/
def BAddr.compareOrder (addr1 addr2 : BAddr) : Int :=
  let cmp := bCompare addr1.type addr2.type
  if cmp ≠ 0 then cmp else
  match addr1, addr2 with
  | .ipv4 a, .ipv4 b =>
    let cmp := bCompare a.ip.toNat b.ip.toNat
    if cmp ≠ 0 then cmp else bCompare a.port.toNat b.port.toNat
  | .ipv6 ip port, .ipv6 ip' port' =>
    let cmp := memcmp ip.toList ip'.toList
    if cmp ≠ 0 then cmp else bCompare port.toNat port'.toNat
  | _, _ => 0

/-- `BAddr_Compare`. -/
def BAddr.compare (addr1 addr2 : BAddr) : Bool :=
  match addr1, addr2 with
  | .ipv4 a, .ipv4 b => a.ip = b.ip && a.port = b.port
  | .ipv6 ip port, .ipv6 ip' port' => ip.toList = ip'.toList && port = port'
  | _, _ => false

/-- `conaddr_comparator`. -/
def conaddrComparator (v1 v2 : ConAddr) : Int :=
  let r := v1.remoteAddr.compareOrder v2.remoteAddr
  if r ≠ 0 then r else v1.localAddr.compareOrder v2.localAddr

theorem bCompare_eq_zero {a b : Nat} : bCompare a b = 0 ↔ a = b := by
  unfold bCompare
  split
  · constructor <;> intro h <;> omega
  · split <;> constructor <;> intro h <;> omega

theorem memcmp_eq_zero {as bs : Bytes} (len : as.length = bs.length) : memcmp as bs = 0 ↔ as = bs := by
  induction as generalizing bs with
  | nil => simpa [memcmp, eq_comm] using len
  | cons a as ih =>
    cases bs with
    | nil => cases len
    | cons b bs =>
      rw [memcmp]
      split
      · rename_i same
        rw [ih (Nat.succ.inj len), same, List.cons_inj_right]
      · rename_i other
        rw [bCompare_eq_zero, UInt8.toNat_inj, List.cons.injEq]
        exact ⟨fun same => absurd same other, fun same => same.1⟩

theorem toList_inj {ip ip' : Vector UInt8 16} : ip.toList = ip'.toList ↔ ip = ip' :=
  ⟨fun same => Vector.toList_inj.mp same, fun same => same ▸ rfl⟩

theorem BAddr.compareOrder_eq_zero {a b : BAddr} : a.compareOrder b = 0 ↔ a = b := by
  unfold compareOrder
  rcases a with ⟨ip, port⟩ | ⟨ip, port⟩ <;> rcases b with ⟨ip', port'⟩ | ⟨ip', port'⟩
  · simp only [type, ne_eq, bCompare_eq_zero, not_true_eq_false, if_false, ite_not, UInt32.toNat_inj]
    split
    · rename_i same
      rw [bCompare_eq_zero, UInt16.toNat_inj, same]
      simp
    · rename_i other
      rw [bCompare_eq_zero, UInt32.toNat_inj]
      exact ⟨fun same => absurd same other, fun same => by cases same; rfl⟩
  · simp [type, bCompare]
  · simp [type, bCompare]
  · have len : ip.toList.length = ip'.toList.length := by simp
    simp only [type, ne_eq, bCompare_eq_zero, not_true_eq_false, if_false, ite_not, memcmp_eq_zero len]
    split
    · rename_i same
      rw [bCompare_eq_zero, UInt16.toNat_inj, toList_inj.mp same]
      simp
    · rename_i other
      rw [memcmp_eq_zero len]
      exact ⟨fun same => absurd same other, fun same => by cases same; rfl⟩

theorem BAddr.compare_iff {a b : BAddr} : a.compare b = true ↔ a = b := by
  rcases a with ⟨ip, port⟩ | ⟨ip, port⟩ <;> rcases b with ⟨ip', port'⟩ | ⟨ip', port'⟩ <;>
    simp [compare, toList_inj]

theorem conaddrComparator_eq_zero (a b : ConAddr) : conaddrComparator a b = 0 ↔ a = b := by
  obtain ⟨l, r⟩ := a
  obtain ⟨l', r'⟩ := b
  simp only [conaddrComparator, ne_eq, BAddr.compareOrder_eq_zero, ite_not, ConAddr.mk.injEq]
  split
  · rename_i same
    rw [BAddr.compareOrder_eq_zero]
    exact ⟨fun loc => ⟨loc, same⟩, fun both => both.1⟩
  · rename_i other
    rw [BAddr.compareOrder_eq_zero]
    exact ⟨fun same => absurd same other, fun both => both.2⟩

end Shadowsocks.Tun2socks
