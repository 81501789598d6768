import Shadowsocks.Lib.Bytes

/-!
# Access control lists and the text form of addresses

`acl.c` keeps two sets of addresses and a mode. The conversions between an address
and its text are those of libudns and libcork and stay parameters (`AddrText`).
-/

namespace Shadowsocks
set_option autoImplicit false
open Lib

/-- `struct cork_ip`. -/
inductive Ip where
  | v4 (addr : Bytes)
  | v6 (addr : Bytes)
  deriving DecidableEq, Repr

/-- The C string in a buffer: it ends at the first zero. -/
def cString (bs : Bytes) : Bytes := bs.takeWhile (· != 0)

/-- `dns_ntop`, `dns_pton` and `cork_ip_init`; `dns_pton` stores nothing if it fails. -/
structure AddrText where
  ntop4 : Bytes → Bytes
  ntop6 : Bytes → Bytes
  corkIpInit : Bytes → Option Ip
  pton4 : Bytes → Option Bytes
  pton6 : Bytes → Option Bytes

/-- `cork_ip_init` and `dns_pton` read the same literals, and each literal is one of one
kind. -/
structure AddrText.Lawful (text : AddrText) : Prop where
  v4 : ∀ host a, text.corkIpInit host = some (.v4 a) ↔ text.pton4 host = some a
  v6 : ∀ host a, text.corkIpInit host = some (.v6 a) ↔ text.pton6 host = some a
  length4 : ∀ host a, text.pton4 host = some a → a.length = 4
  length6 : ∀ host a, text.pton6 host = some a → a.length = 16

inductive AclMode where
  | blackList
  | whiteList
  deriving DecidableEq, Repr

/-- The statics of `acl.c`. -/
structure Acl where
  mode : AclMode
  ipv4Set : Bytes → Bool
  ipv6Set : Bytes → Bool

/-- `acl_match_ip`. -/
def aclMatchIp (text : AddrText) (A : Acl) (host : Bytes) : Bool :=
  match text.corkIpInit host with
  | none => false
  | some addr =>
    let ret := match addr with
      | .v4 a => A.ipv4Set a
      | .v6 a => A.ipv6Set a
    if A.mode = .whiteList then !ret else ret

end Shadowsocks
