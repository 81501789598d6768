import Shadowsocks.Udp.Header

/-!
# The grammar of address headers

`headerLen` says how long the header is that some bytes begin with, if they begin with a
whole one. `parse_udprealy_header` accepts just these bytes, and sees no others; what
`construct_udprealy_header` writes is read back.
-/

namespace Shadowsocks.Udp
set_option autoImplicit false
open Lib

/-- The length of a header whose name begins with `bs`, counting the type. -/
def domainLen : Bytes → Option Nat
  | [] => none
  | n :: rest => if n.toNat + 3 ≤ (n :: rest).length then some (n.toNat + 4) else none

/-- The length of the header that the bytes begin with. -/
def headerLen : Bytes → Option Nat
  | [] => none
  | t :: rest =>
    if t &&& 0xf = 1 then if 6 ≤ rest.length then some 7 else none
    else if t &&& 0xf = 3 then domainLen rest
    else if t &&& 0xf = 4 then if 18 ≤ rest.length then some 19 else none
    else none

/-- What was written has its length. -/
theorem headerLen_wrote {t : UInt8} {h : Header} {bs : Bytes} (wrote : Wrote t h bs) (rest : Bytes) :
    headerLen (bs ++ rest) = some bs.length := by
  obtain ⟨⟨fits, two⟩, typ, rfl⟩ := wrote
  obtain ⟨addr, port⟩ := h
  dsimp only at *
  cases addr with
  | ipv4 addr =>
    have four : addr.length = 4 := fits
    simp only [Address.body, Address.atyp] at typ ⊢
    rw [List.cons_append, headerLen, if_pos typ, if_pos]
    · simp [four, two]
    · simp only [List.length_append]
      omega
  | domain name =>
    have short : name.length < 256 := fits
    have lenByte : (UInt8.ofNat name.length).toNat = name.length := by
      rw [UInt8.toNat_ofNat', Nat.mod_eq_of_lt short]
    simp only [Address.body, Address.atyp] at typ ⊢
    rw [List.cons_append, headerLen, if_neg (by rw [typ]; decide), if_pos typ, List.cons_append, List.cons_append,
      domainLen, lenByte, if_pos]
    · simp [two]
    · simp only [List.length_cons, List.length_append]
      omega
  | ipv6 addr =>
    have sixteen : addr.length = 16 := fits
    simp only [Address.body, Address.atyp] at typ ⊢
    rw [List.cons_append, headerLen, if_neg (by rw [typ]; decide), if_neg (by rw [typ]; decide), if_pos typ, if_pos]
    · simp [sixteen, two]
    · simp only [List.length_append]
      omega

/-- Bytes of that length were written. For each type the bytes behind it are taken apart into the
address and the port. -/
theorem wrote_of_headerLen {bs : Bytes} {n : Nat} (len : headerLen bs = some n) :
    n ≤ bs.length ∧ ∃ t h, Wrote t h (bs.take n) := by
  cases bs with
  | nil => cases len
  | cons t rest =>
    rw [headerLen] at len
    split at len
    · rename_i kind
      split at len
      · rename_i long
        cases len
        refine ⟨by rw [List.length_cons]; omega, t, ⟨.ipv4 (rest.take 4), (rest.drop 4).take 2⟩, ⟨?_, ?_⟩, kind, ?_⟩
        · simp only [Address.Valid, List.length_take]
          omega
        · simp only [List.length_take, List.length_drop]
          omega
        · rw [Address.body, ← List.take_add]
          rfl
      · cases len
    · split at len
      · rename_i kind
        cases rest with
        | nil => cases len
        | cons m rest =>
          rw [domainLen] at len
          split at len
          · rename_i long
            cases len
            have small := m.toNat_lt
            rw [List.length_cons] at long
            have size : (rest.take m.toNat).length = m.toNat := by
              rw [List.length_take]
              omega
            refine ⟨by rw [List.length_cons, List.length_cons]; omega, t,
              ⟨.domain (rest.take m.toNat), (rest.drop m.toNat).take 2⟩, ⟨?_, ?_⟩, kind, ?_⟩
            · rw [Address.Valid, size]
              omega
            · simp only [List.length_take, List.length_drop]
              omega
            · rw [Address.body, size, UInt8.ofNat_toNat, List.cons_append, ← List.take_add]
              rfl
          · cases len
      · split at len
        · rename_i kind
          split at len
          · rename_i long
            cases len
            refine ⟨by rw [List.length_cons]; omega, t, ⟨.ipv6 (rest.take 16), (rest.drop 16).take 2⟩, ⟨?_, ?_⟩, kind, ?_⟩
            · simp only [Address.Valid, List.length_take]
              omega
            · simp only [List.length_take, List.length_drop]
              omega
            · rw [Address.body, ← List.take_add]
              rfl
          · cases len
        · cases len

/-- What `construct_udprealy_header` writes. -/
theorem construct_wrote {a : Sockaddr} (inet : a.IsInet) :
    ∃ t h, Wrote t h (constructUdprealyHeader a) ∧ t &&& 0x10 = 0 ∧
      ∀ text, (headerParsed text h).storage.family = a.family ∧ (headerParsed text h).storage.endpoint = a.endpoint := by
  have size := a.size
  have two : a.port.length = 2 := length_window (by omega)
  have four : a.sinAddr.length = 4 := length_window (by omega)
  have sixteen : a.sin6Addr.length = 16 := length_window (by omega)
  rcases inet with v4 | v6
  · refine ⟨1, ⟨.ipv4 a.sinAddr, a.port⟩, ⟨⟨four, two⟩, rfl, ?_⟩, rfl, fun text => ⟨v4.symm, ?_⟩⟩
    · rw [constructUdprealyHeader, if_pos v4]
      rfl
    · have own : a.endpoint = some (.v4 a.sinAddr, a.port) := by rw [Sockaddr.endpoint, if_pos v4]
      exact (Sockaddr.endpoint_inet four two).trans own.symm
  · have other : a.family ≠ afInet := by
      rw [v6]
      decide
    refine ⟨4, ⟨.ipv6 a.sin6Addr, a.port⟩, ⟨⟨sixteen, two⟩, rfl, ?_⟩, rfl, fun text => ⟨v6.symm, ?_⟩⟩
    · rw [constructUdprealyHeader, if_neg other, if_pos v6]
      rfl
    · have own : a.endpoint = some (.v6 a.sin6Addr, a.port) := by rw [Sockaddr.endpoint, if_neg other, if_pos v6]
      exact (Sockaddr.endpoint_inet6 sixteen two).trans own.symm

/-- The header that was accepted is read wherever it is, whatever is behind it. -/
def Settles (text : AddrText) (header : Bytes) (flag : Bool) (p : Parsed) : Prop :=
  ∀ (buf : Buffer) (start n : Nat), window buf.array start p.len = header → p.len ≤ n → start + n ≤ buf.array.length →
    parseUdprealyHeader text buf start n = .ok (flag, some p)

/-- The parser accepts a whole header and nothing else. -/
theorem parse_headerLen (text : AddrText) (buf : Buffer) (start n : Nat) (two : start + 2 ≤ buf.array.length)
    (room : start + n ≤ buf.array.length) :
    ∃ flag parsed, parseUdprealyHeader text buf start n = .ok (flag, parsed) ∧
      parsed.map Parsed.len = headerLen (window buf.array start n) := by
  obtain ⟨t, parsed, -, done⟩ := parse_total text buf start n two room
  refine ⟨_, parsed, done, ?_⟩
  have size : (window buf.array start n).length = n := length_window room
  cases parsed with
  | some p =>
    obtain ⟨t, h, wrote, -, -, inside, -⟩ := parse_some done
    have split : window buf.array start n = window buf.array start p.len ++ window buf.array (start + p.len) (n - p.len) := by
      rw [← window_add]
      congr 1
      omega
    rw [split, headerLen_wrote wrote, length_window (by omega)]
    rfl
  | none =>
    cases len : headerLen (window buf.array start n) with
    | none => rfl
    | some m =>
      obtain ⟨inside, t, h, wrote⟩ := wrote_of_headerLen len
      rw [size] at inside
      have long := headerParsed_len text wrote.valid
      have whole := congrArg List.length wrote.bytes
      rw [take_eq_window, window_window _ (by omega), Nat.add_zero] at wrote whole
      rw [length_window (by omega), List.length_cons, List.length_append, wrote.valid.2] at whole
      have same : (headerParsed text h).len = m := by omega
      rw [parse_header (same.symm ▸ wrote) (by omega) (by omega)] at done
      cases (Prod.mk.inj (Except.ok.inj done)).2

/-- `parse_udprealy_header` accepts the grammar, sees only the header that it accepts and, if
it accepts none, only the bytes in use; and it reads what `construct_udprealy_header` writes. -/
theorem parse_exact (text : AddrText) (buf : Buffer) (start n : Nat) (some_ : 1 ≤ n) (two : start + 2 ≤ buf.array.length)
    (room : start + n ≤ buf.array.length) :
    (∃ flag parsed, parseUdprealyHeader text buf start n = .ok (flag, parsed) ∧
      parsed.map Parsed.len = headerLen (window buf.array start n) ∧
      (∀ p, parsed = some p → 0 < p.len ∧ p.len ≤ n ∧ Settles text (window buf.array start p.len) flag p) ∧
      (parsed = none → ∀ buf' : Buffer, window buf'.array start n = window buf.array start n → start + 2 ≤ buf'.array.length →
        start + n ≤ buf'.array.length → parseUdprealyHeader text buf' start n = .ok (flag, none))) ∧
    ∀ (sa : Sockaddr) (payload : Bytes), sa.IsInet → window buf.array start n = constructUdprealyHeader sa ++ payload →
      ∃ p, parseUdprealyHeader text buf start n = .ok (false, some p) ∧ p.len = (constructUdprealyHeader sa).length ∧
        p.storage.family = sa.family ∧ p.storage.endpoint = sa.endpoint := by
  constructor
  · obtain ⟨flag, parsed, done, len⟩ := parse_headerLen text buf start n two room
    refine ⟨flag, parsed, done, len, ?_, ?_⟩
    · rintro p rfl
      obtain ⟨t, h, wrote, rfl, rfl, inside, -⟩ := parse_some done
      have long := headerParsed_len text wrote.valid
      refine ⟨by omega, inside, fun buf' start' n' same inside' room' => ?_⟩
      exact parse_header (same.symm ▸ wrote) inside' (by omega)
    · rintro rfl buf' same two' room'
      rw [parse_congr text some_ same two' room' two room, done]
  · intro sa payload inet same
    obtain ⟨t, h, wrote, plain, stored⟩ := construct_wrote inet
    have long := headerParsed_len text wrote.valid
    have size : (constructUdprealyHeader sa).length = (headerParsed text h).len := by
      rw [wrote.bytes, List.length_cons, List.length_append, wrote.valid.2]
      omega
    have inside : (headerParsed text h).len ≤ n := by
      have both := congrArg List.length same
      rw [length_window room, List.length_append] at both
      omega
    have front : window buf.array start (headerParsed text h).len = constructUdprealyHeader sa := by
      have cut := congrArg (fun l => window l 0 (headerParsed text h).len) same
      rw [window_window _ (by omega), Nat.add_zero, window_append_left (by omega), ← size, window_zero_length] at cut
      rwa [size] at cut
    have written : Wrote t h (window buf.array start (headerParsed text h).len) := front.symm ▸ wrote
    have done := parse_header written inside (by omega)
    rw [plain] at done
    exact ⟨_, done, size.symm, stored text⟩

/-- The header of 10.0.0.1:53 in front of two bytes. -/
def tenPacket : Buffer where
  len := 9
  array := [1, 10, 0, 0, 1, 0, 53, 65, 66]

def noText : AddrText where
  ntop4 := id
  ntop6 := id
  corkIpInit _ := none
  pton4 _ := none
  pton6 _ := none

theorem parse_exact_ten : ∃ p, parseUdprealyHeader noText tenPacket 0 9 = .ok (false, some p) ∧ p.len = 7 ∧
    p.storage.endpoint = some (.v4 [10, 0, 0, 1], [0, 53]) := by
  obtain ⟨p, done, len, -, stored⟩ := (parse_exact noText tenPacket 0 9 (by decide) (by decide) (by decide)).2
    (.inet [10, 0, 0, 1] [0, 53]) [65, 66] (.inl rfl) (by decide)
  exact ⟨p, done, len, stored⟩

end Shadowsocks.Udp
