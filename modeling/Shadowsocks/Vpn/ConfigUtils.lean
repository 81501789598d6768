import Mathlib.Algebra.Order.Ring.Nat
import Mathlib.Tactic.Common

/-!
# The texts of the Android service

`SsConfig` and the strings of `Constants` as Java has them, with the objects that `==`
compares, and the templates of `ConfigUtils` with `String.format`.
-/

namespace Shadowsocks.Vpn
set_option autoImplicit false

/-- The characters of a string. -/
abbrev Text := List Char

/-- A `String` object. All literals with the same text are one object. -/
structure Str where
  text : Text
  object : Option Nat := none
  deriving DecidableEq, Repr

/-- The fields of `SsConfig` that the service reads; `none` is null. Only the route is
compared as an object. -/
structure SsConfig where
  host : Option Text := some []
  password : Option Text := some []
  method : Option Text := some "aes-256-cfb".toList
  remotePort : Int := 12345
  localPort : Int := 1080
  route : Option Str := some { text := "all".toList }
  udpdns : Option Bool := some false
  auth : Option Bool := some false
  ipv6 : Option Bool := some false

namespace Route

/-- `Constants.Route`. -/
def all : Str := { text := "all".toList }

def bypassLan : Str := { text := "bypass-lan".toList }

def bypassChn : Str := { text := "bypass-china".toList }

def bypassLanChn : Str := { text := "bypass-lan-china".toList }

end Route

/-- `Constants.Path.BASE`. -/
def base : Text := "/data/data/com.lvwind.shadowsocks".toList

/-- `String.format` of a template whose only specifiers are `%s` and `%d`. -/
def format : Text → List Text → Text
  | '%' :: _ :: rest, arg :: args => arg ++ format rest args
  | c :: rest, args => c :: format rest args
  | [], _ => []

/-- The specifiers of a template, and its other characters. -/
def measure : Text → Nat × Nat
  | '%' :: _ :: rest => ((measure rest).1 + 1, (measure rest).2)
  | _ :: rest => ((measure rest).1, (measure rest).2 + 1)
  | [] => (0, 0)

theorem format_length (template : Text) (args : List Text) (fits : args.length = (measure template).1) :
    (format template args).length = (measure template).2 + (args.map List.length).sum := by
  fun_induction format template args with
  | case1 c rest arg args ih =>
    rw [measure] at fits ⊢
    simp only [List.length_cons, Nat.add_right_cancel_iff] at fits
    rw [List.length_append, ih fits, List.map_cons, List.sum_cons]
    omega
  | case2 c rest args other ih =>
    have plain : ∀ head rest', c = '%' → rest = head :: rest' → False := by
      rintro head rest' rfl rfl
      cases args with
      | nil => cases fits
      | cons arg args => exact other head rest' arg args rfl rfl rfl
    rw [measure.eq_2 _ _ plain] at fits ⊢
    rw [List.length_cons, ih fits]
    omega
  | case3 args =>
    rw [measure, List.length_eq_zero_iff.mp fits]
    rfl

theorem format_getElem? (template : Text) (args : List Text) (i : Nat) (plain : '%' ∉ template.take (i + 1)) :
    (format template args)[i]? = template[i]? := by
  fun_induction format template args generalizing i with
  | case1 c rest arg args ih => exact absurd List.mem_cons_self plain
  | case2 c rest args other ih =>
    cases i with
    | zero => rfl
    | succ i => exact ih i (fun at_ => plain (List.mem_cons_of_mem c at_))
  | case3 args => rfl

/-- `%d`. -/
def decimal (n : Int) : Text := (toString n).toList

/-- `%s`. -/
def shown (s : Option Text) : Text := s.getD "null".toList

/-- `PrintWriter.println`. -/
def println (t : Text) : Text := t ++ ['\n']

/-- `SHADOWSOCKS`. -/
def shadowsocks : Text :=
  "\x7b\"server\": \"%s\", \"server_port\": %d, \"local_port\": %d, \"password\": \"%s\", \"method\":\"%s\", \"timeout\": %d\x7d".toList

/-- `PDNSD_LOCAL`. -/
def pdnsdLocal : Text :=
  ["global \x7b \n", "perm_cache = 2048;\n", "cache_dir = \"/data/data/com.idotools.vpn\";",
    "server_ip = %s;", "server_port = %d;", "query_method = tcp_only;", "run_ipv4 = on;",
    "min_ttl = 15m;", "max_ttl = 1w;", "timeout = 10;", "daemon = off;", "\x7d", "server \x7b",
    "label = \"local\";", "ip = 127.0.0.1;", "port = %d;", "%s", "reject_policy = negate;",
    "reject_recursively = on;", "timeout = 5;", "\x7d", "rr \x7b", "name=localhost;", "reverse=on;",
    "a=127.0.0.1;", "owner=localhost;", "soa=localhost,root.localhost,42,86400,900,86400,86400;",
    "\x7d"].flatMap String.toList

/-- `PDNSD_DIRECT`. -/
def pdnsdDirect : Text :=
  ["global \x7b\n", " perm_cache = 2048;\n", " cache_dir = \"/data/com.idotools.vpn\";\n",
    " server_ip = %s;\n", " server_port = %d;\n", " query_method = tcp_only;\n",
    " run_ipv4 = on;\n", " min_ttl = 15m;\n", " max_ttl = 1w;\n", " timeout = 10;\n",
    " daemon = off;\n", "\x7d\n", "server \x7b\n", " label = \"china-servers\";\n",
    " ip = 223.5.5.5, 114.114.114.114;\n", " timeout = 2;\n", " reject = %s;\n",
    " reject_policy = fail;\n", " reject_recursively = on;\n", " exclude = %s;\n",
    " policy = included;\n", " uptest = none;\n", " preset = on;\n", "\x7d\n", "server \x7b\n",
    " label = \"local-server\";\n", " ip = 127.0.0.1;\n", " port = %d;\n", " %s",
    " reject_policy = negate;", " reject_recursively = on;", " timeout = 3;\n", "\x7d\n", "\n",
    "rr \x7b\n", " name=localhost;\n", " reverse=on;\n", " a=127.0.0.1;\n", " owner=localhost;\n",
    " soa=localhost,root.localhost,42,86400,900,86400,86400;\n", "\x7d\n"].flatMap String.toList

end Shadowsocks.Vpn
