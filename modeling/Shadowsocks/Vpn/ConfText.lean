import Shadowsocks.Jconf
import Shadowsocks.Vpn.Service
import Mathlib.Algebra.Order.BigOperators.Group.List

/-!
# The config of ss-local, written and read

`ConfigUtils.SHADOWSOCKS` puts the host, the password and the method between quotation marks as
they are, and `read_jconf` reads the text as `json.c` does. What stands for itself there is read
as it was meant; a quotation mark, a backslash or a zero never is.
-/

namespace Shadowsocks.Vpn
set_option autoImplicit false
open Lib Lib.Quoted

/-- The file that `printToFile` leaves for these values. -/
def confFile (host password method : Text) (remotePort localPort : Int32) : Bytes :=
  utf8 (println (shadowsocksConf
    { host := some host, password := some password, method := some method, remotePort := remotePort.toInt } localPort.toInt))

/-- `read_jconf` finds the values that have been written. -/
def ReadBack (corkIpInit : Bytes → Bool) (host password method : Text) (remotePort localPort : Int32) : Prop :=
  ∃ conf, readJconf corkIpInit (some (confFile host password method remotePort localPort)) = some conf ∧
    (conf.remoteAddr 0).host = some (utf8 host) ∧ conf.remotePort = some (utf8 (decimal remotePort.toInt)) ∧
    conf.localPort = some (utf8 (decimal localPort.toInt)) ∧ conf.password = some (utf8 password) ∧
    conf.method = some (utf8 method)

section
variable {host password method : Text} {remotePort localPort : Int32}

/-! ## The text -/

/-- The names that `readMember` compares with up to `timeout`, the last one first. -/
def names : List Bytes := [ascii "timeout", ascii "method", ascii "password", ascii "local_port", ascii "local_address",
  ascii "server_port", ascii "port_password", ascii "server"]

/-- The names in the template are distinct C strings without a quote or a backslash. -/
theorem names_fine : names.Nodup ∧ ∀ name ∈ names, IsName name ∧ cString name = name ∧ ∀ b ∈ name, ¬ Special b := by decide +kernel

theorem isName {name : Bytes} (among : name ∈ names) : IsName name := (names_fine.2 name among).1

theorem cString_name {name : Bytes} (among : name ∈ names) : cString name = name := (names_fine.2 name among).2.1

theorem plainName {name : Bytes} (among : name ∈ names) : ∀ b ∈ name, ¬ Special b := (names_fine.2 name among).2.2

/-- The text behind the name of the first member, and the zero that ends it. -/
def behindServer (host password method remotePort localPort : Bytes) : Bytes :=
  host ++ 34 :: 44 :: 32 :: 34 :: (ascii "server_port" ++ 34 :: 58 :: 32 :: (remotePort ++ 44 :: 32 :: 34 ::
    (ascii "local_port" ++ 34 :: 58 :: 32 :: (localPort ++ 44 :: 32 :: 34 :: (ascii "password" ++ 34 :: 58 :: 32 :: 34 ::
      (password ++ 34 :: 44 :: 32 :: 34 :: (ascii "method" ++ 34 :: 58 :: 34 ::
        (method ++ 34 :: 44 :: 32 :: 34 :: (ascii "timeout" ++ 34 :: 58 :: 32 :: (ascii "10" ++ [125, 10, 0]))))))))))

/-- Text without a `%` is copied. -/
theorem format_append {front : Text} (plain : '%' ∉ front) (rest : Text) (args : List Text) :
    format (front ++ rest) args = front ++ format rest args := by
  induction front with
  | nil => rfl
  | cons c front ih =>
    have other : c ≠ '%' := fun same => plain (same ▸ List.mem_cons_self)
    rw [List.cons_append, format.eq_2, ih fun here => plain (List.mem_cons_of_mem c here)]
    · rfl
    · intros
      exact other ‹c = '%'›

/-- A `%` with the character behind it is replaced by the next argument. -/
theorem format_next (kind : Char) (rest arg : Text) (args : List Text) :
    format ('%' :: kind :: rest) (arg :: args) = arg ++ format rest args := rfl

/-- The pieces of the template, in Java and in bytes. -/
theorem shadowsocks_pieces :
    shadowsocks = "\x7b\"server\": \"".toList ++ '%' :: 's' :: ("\", \"server_port\": ".toList ++ '%' :: 'd' ::
      (", \"local_port\": ".toList ++ '%' :: 'd' :: (", \"password\": \"".toList ++ '%' :: 's' :: ("\", \"method\":\"".toList ++
        '%' :: 's' :: ("\", \"timeout\": ".toList ++ '%' :: 'd' :: "\x7d".toList))))) ∧
    (∀ piece ∈ ["\x7b\"server\": \"".toList, "\", \"server_port\": ".toList, ", \"local_port\": ".toList, ", \"password\": \"".toList,
      "\", \"method\":\"".toList, "\", \"timeout\": ".toList], '%' ∉ piece) ∧
    utf8 "\x7b\"server\": \"".toList = 123 :: 34 :: (ascii "server" ++ [34, 58, 32, 34]) ∧
    utf8 "\", \"server_port\": ".toList = 34 :: 44 :: 32 :: 34 :: (ascii "server_port" ++ [34, 58, 32]) ∧
    utf8 ", \"local_port\": ".toList = 44 :: 32 :: 34 :: (ascii "local_port" ++ [34, 58, 32]) ∧
    utf8 ", \"password\": \"".toList = 44 :: 32 :: 34 :: (ascii "password" ++ [34, 58, 32, 34]) ∧
    utf8 "\", \"method\":\"".toList = 34 :: 44 :: 32 :: 34 :: (ascii "method" ++ [34, 58, 34]) ∧
    utf8 "\", \"timeout\": ".toList = 34 :: 44 :: 32 :: 34 :: (ascii "timeout" ++ [34, 58, 32]) ∧
    utf8 (decimal 10) = ascii "10" ∧ utf8 (format "\x7d".toList [] ++ ['\n']) = [125, 10] ∧
    literals .outside (32 :: (ascii "10" ++ [125, 10, 0])) = some [] ∧
    (JsonValue.integer (Int64.ofInt 10)).toString = some (ascii "10") := by decide +kernel

/-- The file that is written for `ss-local`, cut at its quotes. -/
theorem confFile_eq : confFile host password method remotePort localPort ++ [0] =
    123 :: 34 :: (ascii "server" ++ 34 :: 58 :: 32 :: 34 :: behindServer (utf8 host) (utf8 password) (utf8 method)
      (utf8 (decimal remotePort.toInt)) (utf8 (decimal localPort.toInt))) := by
  obtain ⟨pieces, plain, server, serverPort, localPort, password, method, timeout, ten, brace, -⟩ := shadowsocks_pieces
  rw [confFile, shadowsocksConf, pieces, format_append (plain _ (by simp)), format_next, format_append (plain _ (by simp)),
    format_next, format_append (plain _ (by simp)), format_next, format_append (plain _ (by simp)), format_next,
    format_append (plain _ (by simp)), format_next, format_append (plain _ (by simp)), format_next, println]
  simp only [List.append_assoc, utf8_append, server, serverPort, localPort, password, method, timeout, ten, brace,
    List.cons_append, List.nil_append, behindServer, shown, Option.getD_some]

/-! ## Values that are not plain

The strings of the text, cut at the quotation marks that the writer has put around the values,
each lie in one of the values or are names. A value with a special byte is read from a string
that is longer than it, and so in a longer one. -/

/-- A string with an escape is in one of the values. -/
def Held (values raws : List Bytes) : Prop := ∀ raw ∈ raws, 92 ∈ raw → ∃ w ∈ values, raw.length ≤ w.length ∧ 92 ∈ w

theorem Held.nil {values : List Bytes} : Held values [] := fun _ here => absurd here List.not_mem_nil

/-- The names of the members are always there. -/
theorem Held.name {values raws : List Bytes} {name : Bytes} (among : name ∈ names) (held : Held values raws) :
    Held values (name :: raws) := by
  intro raw here escape
  rcases List.mem_cons.mp here with rfl | here
  · exact absurd (.inr (.inr rfl)) (plainName among 92 escape)
  · exact held raw here escape

/-- What a value brings about: strings in it, and those behind it unless the text has ended. -/
theorem Held.hole {values raws : List Bytes} {w name rest : Bytes} (value : w ∈ values) (among : name ∈ names)
    (found : literals (.inside []) (w ++ 34 :: 44 :: 32 :: 34 :: (name ++ rest)) = some raws)
    (behind : ∀ back, literals .outside (34 :: (name ++ rest)) = some back → Held values back) : Held values raws := by
  obtain ⟨front, back, rfl, goesOn, each⟩ := literals_hole (isName among) found
  have held : Held values back := by
    rcases goesOn with rfl | goesOn
    · exact .nil
    · exact behind back goesOn
  intro raw here escape
  rcases List.mem_append.mp here with here | here
  · obtain ⟨short, made⟩ := each raw here
    refine ⟨w, value, short.trans (Nat.le_of_eq (Nat.zero_add _)), ?_⟩
    rcases made 92 escape with no | here
    · cases no
    · exact here
  · exact held raw here escape

/-- A name, the colon behind it and what follows. -/
theorem Held.member {values raws : List Bytes} {name rest : Bytes} (among : name ∈ names)
    (found : literals .outside (34 :: (name ++ 34 :: 58 :: rest)) = some raws)
    (behind : ∀ back, literals .outside rest = some back → Held values back) : Held values raws := by
  obtain ⟨back, rfl, goesOn⟩ := literals_name (plainName among) found
  exact .name among (behind back goesOn)

/-- The bytes of a number. -/
def NoQuote (w : Bytes) : Prop := ∀ b ∈ w, b ≠ 34 ∧ b ≠ 0

/-- A number and the comma behind it have no literal. -/
theorem literals_number {w rest : Bytes} (number : NoQuote w) :
    literals .outside (32 :: (w ++ 44 :: 32 :: 34 :: rest)) = literals .outside (34 :: rest) := by
  rw [literals_punct (by decide) (by decide), literals_skip number, literals_punct (by decide) (by decide),
    literals_punct (by decide) (by decide)]

/-- Among the literals of the file, those that are no names hold the values. -/
theorem held_behindServer {host password method remotePort localPort : Bytes} (r : NoQuote remotePort) (l : NoQuote localPort)
    {raws : List Bytes} (found : literals (.inside []) (behindServer host password method remotePort localPort) = some raws) :
    Held [host, password, method] raws := by
  refine .hole (by simp) (by simp [names]) found fun _ found => ?_
  refine .member (by simp [names]) found fun _ found => ?_
  rw [literals_number r] at found
  refine .member (by simp [names]) found fun _ found => ?_
  rw [literals_number l] at found
  refine .member (by simp [names]) found fun _ found => ?_
  rw [literals_punct (by decide) (by decide), literals_quote] at found
  refine .hole (by simp) (by simp [names]) found fun _ found => ?_
  refine .member (by simp [names]) found fun _ found => ?_
  rw [literals_quote] at found
  refine .hole (by simp) (by simp [names]) found fun _ found => ?_
  refine .member (by simp [names]) found fun _ found => ?_
  obtain ⟨-, -, -, -, -, -, -, -, -, -, last, -⟩ := shadowsocks_pieces
  cases last.symm.trans found
  exact .nil

/-- Of values each of which needs a longer one there is none. -/
theorem no_longest {values : List Bytes} {p : Bytes → Prop} (longer : ∀ w ∈ values, p w → ∃ w' ∈ values, p w' ∧ w.length < w'.length) :
    ∀ w ∈ values, ¬ p w := by
  intro w here has
  have beyond : ∀ n, ∃ w ∈ values, p w ∧ n ≤ w.length := by
    intro n
    induction n with
    | zero => exact ⟨w, here, has, Nat.zero_le _⟩
    | succ n ih =>
      obtain ⟨w, here, has, long⟩ := ih
      obtain ⟨w', here', has', longer'⟩ := longer w here has
      exact ⟨w', here', has', by omega⟩
  obtain ⟨w', here', -, long⟩ := beyond ((values.map List.length).sum + 1)
  have bound : w'.length ≤ (values.map List.length).sum := List.le_sum_of_mem (List.mem_map_of_mem here')
  omega

/-- Values that the reader found need no escape: an escaped one would be longer in the file. -/
theorem plain_of_sourced {values raws : List Bytes} (held : Held values raws)
    (sourced : ∀ w ∈ values, Sourced (fun s => ∃ raw ∈ raws, Encodes raw s) w) : ∀ w ∈ values, ∀ b ∈ w, ¬ Special b := by
  have none_ : ∀ w ∈ values, ¬ ∃ b ∈ w, Special b := by
    refine no_longest fun w here has => ?_
    obtain ⟨b, byte, special⟩ := has
    rcases sourced w here with plain | ⟨whole, ⟨raw, among, encodes⟩, short, made⟩
    · exact absurd special (plain b byte)
    · obtain ⟨escape, longer⟩ := encodes ⟨b, made b byte, special⟩
      obtain ⟨w', here', long, escape'⟩ := held raw among escape
      exact ⟨w', here', ⟨92, escape', .inr (.inr rfl)⟩, by omega⟩
  exact fun w here b byte special => none_ w here ⟨b, byte, special⟩

/-! ## Values that are plain -/

/-- A number is written with the digits that `%d` and `ss_itoa` write. -/
theorem utf8_decimal (n : Int) : utf8 (decimal n) = if 0 ≤ n then decimalBytes n.toNat else 45 :: decimalBytes (-n).toNat := by
  have digits : ∀ k : Nat, utf8 (Nat.repr k).toList = decimalBytes k := by
    intro k
    have small : ∀ c ∈ Nat.toDigits 10 k, c.toNat < 128 := fun c here =>
      Nat.lt_of_le_of_lt (toNat_digit (Nat.isDigit_of_mem_toDigits (by decide) (by decide) here)).2.1 (by decide)
    rw [Nat.repr_eq_ofList_toDigits, String.toList_ofList, utf8_ascii small, decimalBytes]
  cases n with
  | ofNat k =>
    rw [if_pos (show 0 ≤ Int.ofNat k from Int.natCast_nonneg k)]
    exact digits k
  | negSucc k =>
    rw [if_neg (by omega)]
    have text : decimal (Int.negSucc k) = '-' :: (Nat.repr (k + 1)).toList := by
      rw [decimal]
      change ("-" ++ Nat.repr (k + 1)).toList = _
      rw [String.toList_append]
      rfl
    rw [text]
    change utf8 ['-'] ++ utf8 _ = _
    rw [digits]
    rfl

theorem ssItoa_eq (i : Int32) : ssItoa i = utf8 (decimal i.toInt) := (utf8_decimal i.toInt).symm

/-- A number has no quote. -/
theorem noQuote_decimal (n : Int) : NoQuote (utf8 (decimal n)) := by
  have digits : ∀ k, NoQuote (decimalBytes k) := by
    intro k b here
    have digit := isDigit_decimalBytes b here
    constructor
    · rintro rfl
      cases digit
    · rintro rfl
      cases digit
  rw [utf8_decimal]
  split
  · exact digits _
  · exact List.forall_mem_cons.mpr ⟨by decide, digits _⟩

/-- The members of the text. -/
def confValues (host password method : Text) (remotePort localPort : Int32) : List (Bytes × JsonValue) :=
  [(ascii "server", .string (utf8 host)), (ascii "server_port", .integer (Int64.ofInt remotePort.toInt)),
    (ascii "local_port", .integer (Int64.ofInt localPort.toInt)), (ascii "password", .string (utf8 password)),
    (ascii "method", .string (utf8 method)), (ascii "timeout", .integer (Int64.ofInt 10))]

/-- A value that is not a string, up to the next name. -/
theorem run_port (values : List (Bytes × JsonValue)) (name : Bytes) (n : Int) (rest : Bytes) :
    (utf8 (decimal n) ++ 44 :: 32 :: 34 :: rest).foldlM Json.step ⟨[.object values name], .seek false false⟩ =
      rest.foldlM Json.step ⟨[.object (values ++ [(name, .integer (Int64.ofInt n))]) name], .string true []⟩ := by
  rw [utf8_decimal]
  exact Json.run_integer [.object values name] n (by decide) (32 :: 34 :: rest)

/-- A string, up to the next name. -/
theorem run_string (values : List (Bytes × JsonValue)) (name : Bytes) {t : Text} (plain : Plain t) (rest : Bytes) :
    (utf8 t ++ 34 :: 44 :: 32 :: 34 :: rest).foldlM Json.step ⟨[.object values name], .string false []⟩ =
      rest.foldlM Json.step ⟨[.object (values ++ [(name, .string (utf8 t))]) name], .string true []⟩ := by
  rw [Json.run_plain _ _ (plain_iff.mp plain)]
  rfl

/-- A name and the colon behind it. -/
theorem run_name (values : List (Bytes × JsonValue)) (old : Bytes) {name : Bytes} (among : name ∈ names) (rest : Bytes) :
    (name ++ 34 :: 58 :: rest).foldlM Json.step ⟨[.object values old], .string true []⟩ =
      rest.foldlM Json.step ⟨[.object values name], .seek false false⟩ := by
  rw [Json.run_plain _ _ (plainName among)]
  rfl

/-- The text of plain values is parsed to its members. -/
theorem parse_confFile (remotePort localPort : Int32) (h : Plain host) (p : Plain password) (m : Plain method) :
    jsonParseEx (confFile host password method remotePort localPort) =
      some (.object (confValues host password method remotePort localPort)) := by
  have noBom : Json.bom.isPrefixOf (confFile host password method remotePort localPort) = false := by
    cases file : confFile host password method remotePort localPort with
    | nil => rfl
    | cons b rest =>
      have text : confFile host password method remotePort localPort ++ [0] = _ := confFile_eq
      rw [file, List.cons_append] at text
      cases (List.cons.inj text).1
      rfl
  unfold jsonParseEx
  rw [noBom]
  dsimp only [Bool.false_eq_true, if_false]
  rw [if_neg Bool.false_ne_true, confFile_eq]
  have blank : ∀ (values : List (Bytes × JsonValue)) (name rest : Bytes),
      (32 :: rest).foldlM Json.step ⟨[.object values name], .seek false false⟩ =
        rest.foldlM Json.step ⟨[.object values name], .seek false false⟩ := fun _ _ _ => rfl
  have quote : ∀ (values : List (Bytes × JsonValue)) (name rest : Bytes),
      (34 :: rest).foldlM Json.step ⟨[.object values name], .seek false false⟩ =
        rest.foldlM Json.step ⟨[.object values name], .string false []⟩ := fun _ _ _ => rfl
  have begun : ∀ rest : Bytes, (123 :: 34 :: rest).foldlM Json.step Json.start =
      rest.foldlM Json.step ⟨[.object [] []], .string true []⟩ := fun _ => rfl
  rw [begun, run_name _ _ (by simp [names]), blank, quote, behindServer, run_string _ _ h, run_name _ _ (by simp [names]), blank,
    run_port, run_name _ _ (by simp [names]), blank, run_port, run_name _ _ (by simp [names]), blank, quote, run_string _ _ p,
    run_name _ _ (by simp [names]), quote, run_string _ _ m, run_name _ _ (by simp [names]), blank]
  rfl

section
variable (corkIpInit : Bytes → Bool) (conf : Jconf)

/-- What `read_jconf` does with each of the members that the template has. -/
theorem readMember_server (s : Bytes) : readMember corkIpInit conf (ascii "server") (.string s) =
    some { conf with remoteAddr := Function.update conf.remoteAddr 0 { host := some (cString s) }, remoteNum := 1 } := by
  simp [readMember, cString_name (show ascii "server" ∈ names by simp [names])]

theorem readMember_serverPort (v : JsonValue) : readMember corkIpInit conf (ascii "server_port") v =
    v.toString.map fun s => { conf with remotePort := some s } := by
  have distinct := names_fine.1
  simp only [names, List.nodup_cons, List.mem_cons, not_or] at distinct
  simp [readMember, cString_name (show ascii "server_port" ∈ names by simp [names]), distinct]

theorem readMember_localPort (v : JsonValue) : readMember corkIpInit conf (ascii "local_port") v =
    v.toString.map fun s => { conf with localPort := some s } := by
  have distinct := names_fine.1
  simp only [names, List.nodup_cons, List.mem_cons, not_or] at distinct
  simp [readMember, cString_name (show ascii "local_port" ∈ names by simp [names]), distinct]

theorem readMember_password (v : JsonValue) : readMember corkIpInit conf (ascii "password") v =
    v.toString.map fun s => { conf with password := some s } := by
  have distinct := names_fine.1
  simp only [names, List.nodup_cons, List.mem_cons, not_or] at distinct
  simp [readMember, cString_name (show ascii "password" ∈ names by simp [names]), distinct]

theorem readMember_method (v : JsonValue) : readMember corkIpInit conf (ascii "method") v =
    v.toString.map fun s => { conf with method := some s } := by
  have distinct := names_fine.1
  simp only [names, List.nodup_cons, List.mem_cons, not_or] at distinct
  simp [readMember, cString_name (show ascii "method" ∈ names by simp [names]), distinct]

theorem readMember_timeout (v : JsonValue) : readMember corkIpInit conf (ascii "timeout") v =
    v.toString.map fun s => { conf with timeout := some s } := by
  have distinct := names_fine.1
  simp only [names, List.nodup_cons, List.mem_cons, not_or] at distinct
  simp [readMember, cString_name (show ascii "timeout" ∈ names by simp [names]), distinct]

end

/-- A plain text has no zero, so that it is a C string. -/
theorem cString_plain {t : Text} (plain : Plain t) : cString (utf8 t) = utf8 t :=
  List.takeWhile_eq_self_iff.mpr fun b here => bne_iff_ne.mpr fun zero => plain_iff.mp plain b here (.inl zero)

theorem toString_plain {t : Text} (plain : Plain t) : (JsonValue.string (utf8 t)).toString = some (utf8 t) := by
  rw [JsonValue.toString, cString_plain plain]

/-- `to_string` writes an integer of 32 bits back as it was. -/
theorem toString_integer (i : Int32) : (JsonValue.integer (Int64.ofInt i.toInt)).toString = some (utf8 (decimal i.toInt)) := by
  rw [JsonValue.toString, Int64.toInt32_ofInt, Int32.ofInt_toInt, ssItoa_eq]

/-- The config that is read. -/
theorem readMembers_confValues (remotePort localPort : Int32) (corkIpInit : Bytes → Bool) (h : Plain host) (p : Plain password)
    (m : Plain method) :
    ∃ conf, (confValues host password method remotePort localPort).foldlM
        (fun conf p => readMember corkIpInit conf p.1 p.2) {} = some conf ∧
      (conf.remoteAddr 0).host = some (utf8 host) ∧ conf.remotePort = some (utf8 (decimal remotePort.toInt)) ∧
      conf.localPort = some (utf8 (decimal localPort.toInt)) ∧ conf.password = some (utf8 password) ∧
      conf.method = some (utf8 method) := by
  obtain ⟨-, -, -, -, -, -, -, -, -, -, -, ten⟩ := shadowsocks_pieces
  simp only [confValues, List.foldlM_cons, List.foldlM_nil, readMember_server, readMember_serverPort, readMember_localPort,
    readMember_password, readMember_method, readMember_timeout, toString_integer, ten, cString_plain h,
    toString_plain p, toString_plain m, Option.bind_eq_bind, Option.bind_some, Option.map_some, Option.pure_def]
  refine ⟨_, rfl, ?_, rfl, rfl, rfl, rfl⟩
  dsimp only
  rw [Function.update_self]

/-- The text of plain values is read as it was meant. -/
theorem readBack_of_plain (corkIpInit : Bytes → Bool) (h : Plain host) (p : Plain password) (m : Plain method)
    (small : (confFile host password method remotePort localPort).length < maxConfSize) :
    ReadBack corkIpInit host password method remotePort localPort := by
  obtain ⟨conf, read, agree⟩ := readMembers_confValues remotePort localPort corkIpInit h p m
  refine ⟨conf, ?_, agree⟩
  have parsed := parse_confFile remotePort localPort h p m
  have some_ : confFile host password method remotePort localPort ≠ [] := by
    intro none_
    rw [none_] at parsed
    cases parsed
  rw [readJconf]
  dsimp only [Option.bind_eq_bind, Option.bind_some]
  rw [if_neg (not_or.mpr ⟨Nat.not_le.mpr small, some_⟩), parsed]
  exact read

/-- What is read as it was meant was plain. -/
theorem plain_of_readBack {corkIpInit : Bytes → Bool} (readBack : ReadBack corkIpInit host password method remotePort localPort) :
    (Plain host ∧ Plain password ∧ Plain method) ∧ (confFile host password method remotePort localPort).length < maxConfSize := by
  obtain ⟨conf, read, server, -, -, pass, meth⟩ := readBack
  have small : (confFile host password method remotePort localPort).length < maxConfSize := by
    by_contra large
    rw [readJconf] at read
    dsimp only [Option.bind_eq_bind, Option.bind_some] at read
    rw [if_pos (.inl (Nat.not_lt.mp large))] at read
    cases read
  refine ⟨?_, small⟩
  obtain ⟨raws, found, sourced⟩ := readJconf_sourced read
  rw [confFile_eq, literals_punct (by decide) (by decide)] at found
  have held : Held [utf8 host, utf8 password, utf8 method] raws := by
    refine .member (by simp [names]) found fun _ found => ?_
    rw [literals_punct (by decide) (by decide), literals_quote] at found
    exact held_behindServer (noQuote_decimal _) (noQuote_decimal _) found
  have plain := plain_of_sourced held (by
    intro w here
    simp only [List.mem_cons, List.not_mem_nil, or_false] at here
    rcases here with rfl | rfl | rfl
    · exact sourced.host 0 _ server
    · exact sourced.password _ pass
    · exact sourced.method _ meth)
  exact ⟨plain_iff.mpr (plain _ (by simp)), plain_iff.mpr (plain _ (by simp)), plain_iff.mpr (plain _ (by simp))⟩

end

instance (t : Text) : Decidable (Plain t) := List.decidableBAll _ t

/-- A control character is read as it is written, which JSON does not allow. -/
example : Plain "a\tb".toList ∧ ¬ Plain "a\\tb".toList := by decide

end Shadowsocks.Vpn
