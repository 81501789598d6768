import Shadowsocks.Lib.Bytes

/-!
# Addresses on the wire

A SOCKS5 request and the header of a Shadowsocks stream write the destination in the
same way: a type, an address and a port. With one-time authentication the type of the
header carries a flag.
-/

namespace Shadowsocks
set_option autoImplicit false
open Lib

inductive Address where
  | ipv4 (addr : Bytes)
  | domain (name : Bytes)
  | ipv6 (addr : Bytes)
  deriving DecidableEq, Repr

namespace Address

/-- `ATYP`. -/
def atyp : Address → UInt8
  | ipv4 _ => 1
  | domain _ => 3
  | ipv6 _ => 4

/-- `DST.ADDR`; a name is preceded by its length. -/
def body : Address → Bytes
  | ipv4 addr => addr
  | domain name => UInt8.ofNat name.length :: name
  | ipv6 addr => addr

/-- The address can be written down. -/
def Valid : Address → Prop
  | ipv4 addr => addr.length = 4
  | domain name => name.length < 256
  | ipv6 addr => addr.length = 16

instance (a : Address) : Decidable a.Valid :=
  match a with
  | ipv4 _ => inferInstanceAs (Decidable (_ = _))
  | domain _ => inferInstanceAs (Decidable (_ < _))
  | ipv6 _ => inferInstanceAs (Decidable (_ = _))

theorem Valid.length_body {a : Address} (valid : a.Valid) : a.body.length ≤ 256 := by
  cases a with
  | ipv4 addr => simp only [Valid, body] at *; omega
  | domain name => simp only [Valid, body, List.length_cons] at *; omega
  | ipv6 addr => simp only [Valid, body] at *; omega

end Address

/-- A destination: the address and the two bytes of the port. -/
structure Header where
  addr : Address
  port : Bytes
  deriving DecidableEq, Repr

namespace Header

def Valid (h : Header) : Prop := h.addr.Valid ∧ h.port.length = 2

instance (h : Header) : Decidable h.Valid := inferInstanceAs (Decidable (_ ∧ _))

/-- The type of the header, with `ONETIMEAUTH_FLAG` if it is authenticated. -/
def atyp (h : Header) (auth : Bool) : UInt8 := if auth then h.addr.atyp ||| 0x10 else h.addr.atyp

/-- The header without its authentication. -/
def encode (h : Header) (auth : Bool) : Bytes := h.atyp auth :: (h.addr.body ++ h.port)

theorem encode_append (h : Header) (auth : Bool) (more : Bytes) :
    h.encode auth ++ more = h.atyp auth :: (h.addr.body ++ (h.port ++ more)) := by
  rw [encode, List.cons_append, List.append_assoc]

theorem length_encode {h : Header} (valid : h.Valid) (auth : Bool) :
    (h.encode auth).length = 3 + h.addr.body.length := by
  simp only [encode, List.length_cons, List.length_append, valid.2]
  omega

/-- A header can be read back. -/
theorem encode_injective {h h' : Header} (valid : h.Valid) (valid' : h'.Valid) {auth : Bool}
    (same : h.encode auth = h'.encode auth) : h = h' := by
  obtain ⟨addr, port⟩ := h
  obtain ⟨addr', port'⟩ := h'
  obtain ⟨-, two⟩ := valid
  obtain ⟨-, two'⟩ := valid'
  obtain ⟨typ, rest⟩ := List.cons.inj same
  -- the addresses are of one kind, as their types are the same
  have bodies : addr.body = addr'.body ∧ port = port' := List.append_inj' rest (two.trans two'.symm)
  obtain ⟨bodies, rfl⟩ := bodies
  cases auth <;> cases addr <;> cases addr' <;>
    simp only [atyp, Address.atyp, Bool.false_eq_true, if_false, if_true] at typ <;>
    first
    | exact absurd typ (by decide)
    | simp only [Address.body, List.cons.injEq] at bodies
      simp only [bodies]

end Header

end Shadowsocks
