import Shadowsocks.Manager.Commands

/-!
# The manager's table as a map

What the commands mean: a port is a text of any length, and `add` binds it, `remove` unbinds
it, `stat` changes its traffic. The arrays of `manager.c` hold that map as long as the ports
and passwords fit them, and the JSON text is found if white space stands before it.
-/

namespace Shadowsocks.Manager
set_option autoImplicit false
open Lib

/-! ## Commands -/

/-- The port in a command: the code takes a string or an integer. -/
inductive Port where
  | text (s : Bytes)
  | number (n : Int64)

namespace Port

/-- How the port stands in the JSON object of the command. -/
def value : Port → JsonValue
  | text s => .string s
  | number n => .integer n

/-- The bytes under which the port is in the table: those of the string, or what `%d` prints of
the integer. -/
def key : Port → Bytes
  | text s => s
  | number n => (if n < 0 then ascii "-" else []) ++ decimalBytes n.toInt.natAbs

/-- The port fits `char port[8]`. -/
def Fits : Port → Prop
  | text s => s.length ≤ 7 ∧ 0 ∉ s
  | number n => 0 ≤ n ∧ n < 10000000

end Port

/-- What a well-formed datagram asks for. -/
inductive Command where
  | add (port : Port) (password : Bytes)
  | remove (port : Port)
  | stat (port : Bytes) (traffic : Int64)

namespace Command

/-- The word in front of the colon. -/
def action : Command → Bytes
  | add .. => ascii "add"
  | remove .. => ascii "remove"
  | stat .. => ascii "stat"

/-- The members of the object of the command. -/
def Members (values : List (Bytes × JsonValue)) : Command → Prop
  | add port password =>
    values = [(ascii "server_port", port.value), (ascii "password", .string password)] ∨
      values = [(ascii "password", .string password), (ascii "server_port", port.value)]
  | remove port => values = [(ascii "server_port", port.value)]
  | stat port traffic => values = [(port, .integer traffic)]

/-- No field is longer than its array, none has a zero in it, and no number is cut. A port that
is to be removed may be any text. -/
def Fits : Command → Prop
  | add port password => port.Fits ∧ password.length ≤ 128 ∧ 0 ∉ password
  | remove (.text s) => 0 ∉ s
  | remove port => port.Fits
  | stat port _ => port.length ≤ 7 ∧ 0 ∉ port

/-- The datagram that answers a command, if one does. -/
def answer : Command → Option Bytes
  | add port password => some (ascii (if port.key = [] ∨ password = [] then "err" else "ok") ++ [0])
  | remove port => some (ascii (if port.key = [] then "err" else "ok") ++ [0])
  | stat .. => none

end Command

/-- The password and the traffic of a port. -/
abbrev PortTable := Bytes → Option (Bytes × UInt64)

/-- A command with an empty field is refused. -/
def execute (m : PortTable) : Command → PortTable
  | .add port password =>
    if port.key = [] ∨ password = [] then m else Function.update m port.key (some (password, 0))
  | .remove port => if port.key = [] then m else Function.update m port.key none
  | .stat port traffic =>
    match m port with
    | none => m
    | some (password, _) => Function.update m port (some (password, traffic.toUInt64))

/-- A datagram of the protocol: an action, white space, a colon, white space and a JSON object. -/
structure Request (json : JsonParser) where
  command : Command
  before : Bytes
  after : Bytes
  object : Bytes
  beforeSpace : ∀ b ∈ before, isSpace b = true
  afterSpace : ∀ b ∈ after, isSpace b = true
  brace : object.head? = some 123
  text : 0 ∉ object
  parsed : ∃ values, json.parse object = some (.object values) ∧ command.Members values

namespace Request
variable {json : JsonParser}

/-- The datagram as it is sent: the action, a colon with space around it, and an object. -/
def datagram (r : Request json) : Bytes := r.command.action ++ r.before ++ 58 :: (r.after ++ r.object)

/-- White space of JSON stands before the object, the datagram fits half of the buffer, and the
fields their arrays. -/
structure Careful (r : Request json) : Prop where
  spaced : ∃ b, r.after.getLast? = some b ∧ isJsonSpace b = true
  size : r.datagram.length ≤ 32767
  fits : r.command.Fits

end Request

/-! ## What the table holds -/

/-- The map that the entries are. -/
def tableOf (table : List Server) : PortTable := fun port =>
  (table.find? (·.key = port)).map fun s => (cString s.password, s.traffic)

/-- A datagram that has been sent; the other outputs start and stop processes of `ss-server`. -/
def Output.datagram : Output → Option Bytes
  | .send datagram => some datagram
  | _ => none

/-- The datagrams sent so far. -/
def State.replies (s : State) : List Bytes := s.log.filterMap Output.datagram

/-- The key of each entry ends inside its array. -/
def Neat (table : List Server) : Prop := ∀ s ∈ table, 0 ∈ s.port

/-! ## Entries -/

/-- A text that fits is copied, and the rest of the field is filled with zeros. -/
theorem strncpy_text {n : Nat} {src : Bytes} (text : 0 ∉ src) (fits : src.length ≤ n) :
    strncpy n src = src ++ List.replicate (n - src.length) 0 := by
  have whole : cString src = src := List.takeWhile_eq_self_iff.mpr fun b here => bne_iff_ne.mpr fun zero => text (zero ▸ here)
  rw [strncpy, whole, List.take_of_length_le fits]

theorem cString_replicate {bs : Bytes} (text : 0 ∉ bs) (n : Nat) : cString (bs ++ List.replicate n 0) = bs := by
  cases n with
  | zero =>
    rw [List.replicate_zero, List.append_nil]
    exact List.takeWhile_eq_self_iff.mpr fun b here => bne_iff_ne.mpr fun zero => text (zero ▸ here)
  | succ n => exact cString_text text _

/-- What is behind the first zero does not belong to the text. -/
theorem cString_append {bs : Bytes} (ends : 0 ∈ bs) (rest : Bytes) : cString (bs ++ rest) = cString bs := by
  have short := length_cString_lt ends
  refine List.takeWhile_append.trans (if_neg ?_)
  exact Nat.ne_of_lt short

/-- A port field that holds a zero is read up to it. -/
theorem Server.key_of_ends {s : Server} (ends : 0 ∈ s.port) : s.key = cString s.port := by
  rw [key, bytes, List.append_assoc, cString_append ends]

/-- Such a port has fewer bytes than the field. -/
theorem Server.length_key_of_ends {s : Server} (ends : 0 ∈ s.port) : s.key.length < 8 := by
  rw [s.key_of_ends ends, ← s.portSize]
  exact length_cString_lt ends

/-- No entry has a port that fills its field. -/
theorem tableOf_long {table : List Server} (neat : Neat table) {port : Bytes} (long : 8 ≤ port.length) :
    tableOf table port = none := by
  rw [tableOf, Option.map_eq_none_iff, List.find?_eq_none]
  intro s here same
  have short := s.length_key_of_ends (neat s here)
  rw [of_decide_eq_true same] at short
  omega

/-- Deleting a port makes the table undefined there and changes nothing else. -/
theorem tableOf_delete (table : List Server) (port : Bytes) :
    tableOf (delete table port) = Function.update (tableOf table) port none := by
  funext key
  by_cases same : key = port
  · subst same
    rw [Function.update_self, tableOf, Option.map_eq_none_iff, List.find?_eq_none]
    intro s here same
    have other := (List.mem_filter.mp here).2
    rw [of_decide_eq_true same] at other
    exact bne_iff_ne.mp other rfl
  · rw [Function.update_of_ne same, tableOf, tableOf, delete, List.find?_filter, ← List.head?_filter, ← List.head?_filter]
    congr 2
    apply List.filter_congr
    intro s _
    by_cases found : s.key = key
    · have other : s.key ≠ port := fun back => same (found.symm.trans back)
      simp [found, same]
    · simp [found]

/-- A server whose port has just been deleted is appended. -/
theorem put_delete (table : List Server) (server : Server) :
    put (delete table server.key) server = delete table server.key ++ [server] := by
  have no : (delete table server.key).any (·.key == server.key) = false := by
    apply List.any_eq_false.mpr
    intro s here same
    exact bne_iff_ne.mp (List.mem_filter.mp here).2 (eq_of_beq same)
  rw [put, no]
  rfl

/-- `add_server` behind `remove_server`: the table gets the password and the traffic of the server
at its port. -/
theorem tableOf_put_delete (table : List Server) (server : Server) :
    tableOf (put (delete table server.key) server) =
      Function.update (tableOf table) server.key (some (cString server.password, server.traffic)) := by
  rw [put_delete]
  funext key
  have rest := congrFun (tableOf_delete table server.key) key
  by_cases same : key = server.key
  · subst same
    rw [Function.update_self] at rest ⊢
    rw [tableOf, Option.map_eq_none_iff] at rest
    rw [tableOf, List.find?_append, rest]
    simp
  · rw [Function.update_of_ne same] at rest ⊢
    rw [← rest, tableOf, tableOf, List.find?_append]
    have other : ¬ server.key = key := fun back => same back.symm
    simp [other]

theorem key_of_find {table : List Server} {port : Bytes} {s : Server} (found : table.find? (·.key = port) = some s) :
    s.key = port := by
  have same := List.find?_some found
  exact of_decide_eq_true same

/-- `update_stat` changes the traffic of a port that is in the table. -/
theorem tableOf_updateStat {table : List Server} (neat : Neat table) (port : Bytes) (traffic : UInt64) :
    tableOf (updateStat table port traffic) = match tableOf table port with
      | none => tableOf table
      | some (password, _) => Function.update (tableOf table) port (some (password, traffic)) := by
  have found : ∀ key, (updateStat table port traffic).find? (·.key = key) =
      (table.find? (·.key = key)).map fun s => if s.key = port then { s with traffic } else s := by
    intro key
    rw [updateStat, List.find?_map, ← List.head?_filter, ← List.head?_filter]
    congr 2
    apply List.filter_congr
    intro s here
    have kept : Server.key { s with traffic } = s.key := by
      have ends := neat s here
      rw [s.key_of_ends ends]
      exact Server.key_of_ends ends
    simp only [Function.comp]
    split
    · rw [kept]
    · rfl
  funext key
  rw [tableOf, found, Option.map_map]
  cases bound : table.find? (·.key = port) with
  | none =>
    have free : tableOf table port = none := by rw [tableOf, bound]; rfl
    rw [free]
    simp only []
    rw [tableOf]
    cases other : table.find? (·.key = key) with
    | none => rfl
    | some s =>
      have not_port : s.key ≠ port := by
        intro same
        have no := List.find?_eq_none.mp bound s (List.mem_of_find?_eq_some other)
        exact no (decide_eq_true same)
      rw [Option.map_some, Option.map_some, Function.comp, if_neg not_port]
  | some s =>
    have taken : tableOf table port = some (cString s.password, s.traffic) := by rw [tableOf, bound]; rfl
    have own : s.key = port := key_of_find bound
    rw [taken]
    simp only []
    by_cases same : key = port
    · subst same
      rw [Function.update_self, bound, Option.map_some, Function.comp, if_pos own]
    · rw [Function.update_of_ne same, tableOf]
      cases other : table.find? (·.key = key) with
      | none => rfl
      | some t =>
        have not_port : t.key ≠ port := fun back => same ((key_of_find other).symm.trans back)
        rw [Option.map_some, Option.map_some, Function.comp, if_neg not_port]

theorem neat_updateStat {table : List Server} (neat : Neat table) (port : Bytes) (traffic : UInt64) :
    Neat (updateStat table port traffic) := by
  intro s here
  obtain ⟨t, there, rfl⟩ := List.mem_map.mp here
  have ends := neat t there
  split
  · exact ends
  · exact ends

/-- The entries that stay are as neat as they were. -/
theorem neat_delete {table : List Server} (neat : Neat table) (port : Bytes) : Neat (delete table port) :=
  fun s here => neat s (List.mem_filter.mp here).1

/-- No port is in the table twice, since the old entry goes first. -/
theorem neat_put_delete {table : List Server} (neat : Neat table) {server : Server} (ends : 0 ∈ server.port) :
    Neat (put (delete table server.key) server) := by
  rw [put_delete]
  intro s here
  rcases List.mem_append.mp here with old | new
  · exact neat_delete neat _ s old
  · rw [List.mem_singleton.mp new]
    exact ends

/-! ## Datagrams -/

/-- The action ends at the first space or colon, where the code puts a zero. -/
theorem getAction_spec {action : Bytes} (some_ : action ≠ []) (plain : ∀ c ∈ action, isSpace c = false ∧ c ≠ 58)
    (text : 0 ∉ action) {b : UInt8} (stop : isSpace b = true ∨ b = 58) (rest zeros : Bytes) :
    getAction (action ++ b :: rest ++ zeros) (action ++ b :: rest).length = some (action, action ++ 0 :: (rest ++ zeros)) := by
  have seen : (action ++ b :: rest ++ zeros).take (action ++ b :: rest).length = action ++ b :: rest := List.take_left
  have start : (action ++ b :: rest).takeWhile isSpace = [] := by
    cases action with
    | nil => exact absurd rfl some_
    | cons c action => rw [List.cons_append, List.takeWhile_cons, (plain c List.mem_cons_self).1]; rfl
  have all : ∀ c ∈ action, (!isSpace c && c != 58) = true := by
    intro c here
    obtain ⟨no_space, no_colon⟩ := plain c here
    simp [no_space, no_colon]
  have last : (!isSpace b && b != 58) = false := by
    rcases stop with space | colon
    · simp [space]
    · simp [colon]
  have stopped : (action ++ b :: rest).takeWhile (fun b => !isSpace b && b != 58) = action := by
    rw [List.takeWhile_append_of_pos all, List.takeWhile_cons, last]
    exact List.append_nil action
  have length : (0 : Nat) ≠ (action ++ b :: rest).length := by
    rw [List.length_append, List.length_cons]
    omega
  have cut : (action ++ b :: rest ++ zeros).set action.length 0 = action ++ 0 :: (rest ++ zeros) := by
    rw [List.append_assoc, List.set_append_right _ _ (Nat.le_refl _), Nat.sub_self]
    rfl
  unfold getAction
  simp only [seen, start, List.length_nil, if_neg length, List.drop_zero, stopped, Nat.zero_add, cut, cString_text text]

/-- The data begin one byte in front of the first brace, which `get_data` steps over. -/
theorem getData_brace {front object : Bytes} (front_clean : 123 ∉ front) {b : UInt8} (other : b ≠ 123)
    (brace : object.head? = some 123) (zeros : Bytes) :
    getData (front ++ b :: (object ++ zeros)) (front ++ b :: object).length = .ok (some (cString (b :: (object ++ zeros)))) := by
  have seen : (front ++ b :: (object ++ zeros)).take (front ++ b :: object).length = front ++ b :: object := by
    rw [← List.cons_append, ← List.append_assoc, List.take_left]
  obtain ⟨o, rfl⟩ : ∃ o, object = 123 :: o := by
    cases object with
    | nil => cases brace
    | cons c o => exact ⟨o, by rw [Option.some.inj brace]⟩
  have before : ∀ c ∈ front, (c != 123) = true := fun c here => bne_iff_ne.mpr fun same => front_clean (same ▸ here)
  have stopped : (front ++ b :: 123 :: o).takeWhile (· != 123) = front ++ [b] := by
    rw [List.takeWhile_append_of_pos before, List.takeWhile_cons, if_pos (bne_iff_ne.mpr other), List.takeWhile_cons]
    rfl
  have position : (front ++ [b]).length = front.length + 1 := List.length_append
  have inside : front.length + 1 ≠ (front ++ b :: 123 :: o).length := by
    rw [List.length_append, List.length_cons, List.length_cons]
    omega
  unfold getData
  simp only [seen, stopped, position, if_neg inside, if_neg (Nat.succ_ne_zero _), Nat.add_sub_cancel, List.drop_left]

/-- So the parser gets the object with one byte in front of it. -/
theorem getData_spec {front object : Bytes} (front_clean : 123 ∉ front) {b : UInt8} (other : b ≠ 123) (zero : b ≠ 0)
    (brace : object.head? = some 123) (text : 0 ∉ object) (zeros : Nat) :
    getData (front ++ b :: (object ++ List.replicate zeros 0)) (front ++ b :: object).length = .ok (some (b :: object)) := by
  have clean : 0 ∉ b :: object := mt List.mem_cons.mp (not_or.mpr ⟨Ne.symm zero, text⟩)
  rw [getData_brace front_clean other brace, ← List.cons_append, cString_replicate clean]

section
variable {json : JsonParser}

/-- No action holds a space, a colon, a brace or a zero. -/
theorem Command.action_plain (c : Command) : c.action ≠ [] ∧ (∀ b ∈ c.action, isSpace b = false ∧ b ≠ 58) ∧ 0 ∉ c.action ∧
    123 ∉ c.action := by
  cases c
  · exact (by decide +kernel : ascii "add" ≠ [] ∧ (∀ b ∈ ascii "add", isSpace b = false ∧ b ≠ 58) ∧ 0 ∉ ascii "add" ∧ 123 ∉ ascii "add")
  · exact (by decide +kernel : ascii "remove" ≠ [] ∧ (∀ b ∈ ascii "remove", isSpace b = false ∧ b ≠ 58) ∧ 0 ∉ ascii "remove" ∧
      123 ∉ ascii "remove")
  · exact (by decide +kernel : ascii "stat" ≠ [] ∧ (∀ b ∈ ascii "stat", isSpace b = false ∧ b ≠ 58) ∧ 0 ∉ ascii "stat" ∧
      123 ∉ ascii "stat")

/-- White space is neither a brace nor the end of a text. -/
theorem isJsonSpace_plain {b : UInt8} (space : isJsonSpace b = true) : b ≠ 123 ∧ b ≠ 0 := by
  constructor
  · rintro rfl
    cases space
  · rintro rfl
    cases space

/-- The white space before the object is not the byte that `get_action` overwrites. -/
theorem Request.heard (lawful : json.Lawful) {r : Request json} (careful : r.Careful) (zeros : Nat) :
    ∃ buf values, getAction (r.datagram ++ List.replicate zeros 0) r.datagram.length = some (r.command.action, buf) ∧
      r.command.Members values ∧ getServer json buf r.datagram.length = .ok (some (readServer values .zero)) ∧
      ∀ junk, parseTraffic json junk buf r.datagram.length = .ok (some (readTraffic values (junk, 0))) := by
  obtain ⟨nonempty, plain, text, no_brace⟩ := r.command.action_plain
  obtain ⟨b, last, space⟩ := careful.spaced
  obtain ⟨front, spaces⟩ := List.getLast?_eq_some_iff.mp last
  obtain ⟨no_brace', no_zero⟩ := isJsonSpace_plain space
  -- the byte behind the action, and those up to the last white space
  obtain ⟨c, tail, between, stop⟩ : ∃ c tail, r.before ++ 58 :: front = c :: tail ∧ (isSpace c = true ∨ c = 58) := by
    cases blank : r.before with
    | nil => exact ⟨58, front, rfl, .inr rfl⟩
    | cons c rest => exact ⟨c, rest ++ 58 :: front, rfl, .inl (r.beforeSpace c (blank ▸ List.mem_cons_self))⟩
  have shape : r.datagram = r.command.action ++ c :: (tail ++ b :: r.object) := by
    have parts : r.datagram = r.command.action ++ ((r.before ++ 58 :: front) ++ b :: r.object) := by
      rw [Request.datagram, spaces]
      simp
    rw [parts, between]
    rfl
  have clean : 123 ∉ r.command.action ++ 0 :: tail := by
    have in_between : ∀ d ∈ r.before ++ 58 :: front, d ≠ 123 := by
      rintro d here rfl
      rcases List.mem_append.mp here with in_before | in_rest
      · cases r.beforeSpace 123 in_before
      · rcases List.mem_cons.mp in_rest with colon | in_front
        · cases colon
        · cases r.afterSpace 123 (spaces ▸ List.mem_append_left [b] in_front)
    rw [List.mem_append, List.mem_cons]
    rintro (in_action | zero | in_tail)
    · exact no_brace in_action
    · cases zero
    · exact in_between 123 (between ▸ List.mem_cons_of_mem c in_tail) rfl
  obtain ⟨values, parsed, members⟩ := r.parsed
  have data : getData (r.command.action ++ 0 :: (tail ++ b :: r.object ++ List.replicate zeros 0)) r.datagram.length =
      .ok (some (b :: r.object)) := by
    have length : r.datagram.length = (r.command.action ++ 0 :: tail ++ b :: r.object).length := by
      rw [shape]
      simp only [List.length_append, List.length_cons]
      omega
    rw [length, ← getData_spec clean no_brace' no_zero r.brace r.text zeros]
    simp
  have value : json.parse (b :: r.object) = some (.object values) := (lawful.skip b _ space r.brace).trans parsed
  refine ⟨r.command.action ++ 0 :: (tail ++ b :: r.object ++ List.replicate zeros 0), values, ?_, members, ?_, fun junk => ?_⟩
  · have cut := getAction_spec nonempty plain text stop (tail ++ b :: r.object) (List.replicate zeros 0)
    rw [← shape] at cut
    exact cut
  · simp only [getServer, data, ok_bind, value, pure_eq_ok]
  · simp only [parseTraffic, data, ok_bind, value, pure_eq_ok]

/-! ## Fields -/

/-- Whether a field is empty is seen at its first byte. -/
theorem head?_zero_iff {bs : Bytes} (some_ : bs ≠ []) : bs.head? = some 0 ↔ cString bs = [] := by
  cases bs with
  | nil => exact absurd rfl some_
  | cons b bs =>
    rw [cString, List.takeWhile_cons]
    by_cases zero : b = 0
    · simp [zero]
    · simp [zero]

theorem Server.port_ne_nil (s : Server) : s.port ≠ [] := by
  intro none_
  have size := s.portSize
  rw [none_] at size
  cases size

theorem Server.password_ne_nil (s : Server) : s.password ≠ [] := by
  intro none_
  have size := s.passwordSize
  rw [none_] at size
  cases size

/-- Small integers print as their absolute values. -/
theorem toUInt64_small {n : Int64} (low : 0 ≤ n) (high : n < 10000000) :
    n.toUInt64.toNat = n.toInt.natAbs ∧ n.toInt.natAbs < 10 ^ 7 ∧ ¬ n < 0 := by
  have positive : 0 ≤ n.toInt := by simpa [Int64.le_iff_toInt_le] using low
  have below : n.toInt < 10000000 := by simpa [Int64.lt_iff_toInt_lt] using high
  have bits : n.toUInt64.toNat = n.toBitVec.toNat := rfl
  have signed : n.toInt = n.toBitVec.toInt := rfl
  have value := BitVec.toInt_eq_toNat_cond n.toBitVec
  refine ⟨?_, by omega, ?_⟩
  · rw [bits]
    split at value <;> omega
  · intro negative
    have below_zero : n.toInt < 0 := by simpa [Int64.lt_iff_toInt_lt] using negative
    omega

/-- A port that fits stands in its array with a zero behind it. -/
theorem Server.setPort_spec (s : Server) {port : Port} (fits : port.Fits) :
    0 ∈ (s.setPort port.value).port ∧ cString (s.setPort port.value).port = port.key := by
  cases port with
  | text p =>
    obtain ⟨short, text⟩ := fits
    have array : (s.setPort (Port.text p).value).port = p ++ List.replicate (8 - p.length) 0 := strncpy_text text (by omega)
    rw [array]
    refine ⟨List.mem_append_right p (List.mem_replicate.mpr ⟨by omega, rfl⟩), cString_replicate text _⟩
  | number n =>
    obtain ⟨same, below, positive⟩ := toUInt64_small fits.1 fits.2
    have digits := length_decimalBytes_le (by decide) below
    have array : (s.setPort (Port.number n).value).port =
        decimalBytes n.toInt.natAbs ++ 0 :: s.port.drop ((decimalBytes n.toInt.natAbs).length + 1) := by
      have whole : (decimalBytes n.toInt.natAbs).take (s.port.length - 1) = decimalBytes n.toInt.natAbs := by
        rw [s.portSize]
        exact List.take_of_length_le digits
      simp only [Port.value, Server.setPort, snprintf, same, whole]
    rw [array]
    refine ⟨List.mem_append_right _ List.mem_cons_self, ?_⟩
    rw [cString_text (zero_notMem_decimalBytes _), Port.key, if_neg positive, List.nil_append]

/-- The names of the two members that the code looks for. -/
theorem names : cString (ascii "server_port") = ascii "server_port" ∧ cString (ascii "password") = ascii "password" ∧
    ascii "password" ≠ ascii "server_port" := by decide

/-- The members of `add` may stand in either order. -/
theorem readServer_add {port : Port} {password : Bytes} {values : List (Bytes × JsonValue)}
    (members : (Command.add port password).Members values) :
    (readServer values .zero).port = (Server.zero.setPort port.value).port ∧
      (readServer values .zero).password = strncpy 128 password ∧ (readServer values .zero).traffic = 0 := by
  obtain ⟨portName, passwordName, different⟩ := names
  have kept : ∀ (s : Server), (s.setPort port.value).password = s.password ∧ (s.setPort port.value).traffic = s.traffic := by
    intro s
    cases port <;> exact ⟨rfl, rfl⟩
  rcases members with rfl | rfl
  · simp only [readServer, portName, passwordName, if_pos, if_neg different]
    exact ⟨rfl, rfl, (kept _).2⟩
  · simp only [readServer, portName, passwordName, if_pos, if_neg different]
    refine ⟨?_, (kept _).1, (kept _).2⟩
    cases port <;> rfl

/-- A command to remove a port has only the port to say. -/
theorem readServer_remove {port : Port} {values : List (Bytes × JsonValue)} (members : (Command.remove port).Members values) :
    readServer values .zero = Server.zero.setPort port.value := by
  cases members
  rw [readServer, if_pos names.1]
  rfl

/-- The report of a port is read in its two fields. -/
theorem readTraffic_stat {port : Bytes} {traffic : Int64} {values : List (Bytes × JsonValue)} (junk : Bytes)
    (members : (Command.stat port traffic).Members values) :
    readTraffic values (junk, 0) = (strncpy 8 port, traffic.toUInt64) := by
  cases members
  rfl

/-- A port too long for its array names no entry, and so does what is left of it. -/
theorem delete_spec {port : Port} (fits : (Command.remove port).Fits) {table : List Server} (neat : Neat table) :
    ((Server.zero.setPort port.value).port.head? = some 0 ↔ port.key = []) ∧
      tableOf (delete table (Server.zero.setPort port.value).key) = Function.update (tableOf table) port.key none := by
  have no_port := head?_zero_iff (Server.zero.setPort port.value).port_ne_nil
  by_cases short : port.Fits
  · obtain ⟨ends, key⟩ := Server.zero.setPort_spec short
    rw [key] at no_port
    refine ⟨no_port, ?_⟩
    rw [Server.key_of_ends ends, key, tableOf_delete]
  · cases port with
    | number n => exact absurd fits short
    | text p =>
      have text : 0 ∉ p := fits
      have long : 8 ≤ p.length := by
        by_contra small
        exact short ⟨by omega, text⟩
      have whole : cString p = p := List.takeWhile_eq_self_iff.mpr fun b here => bne_iff_ne.mpr fun zero => text (zero ▸ here)
      have array : (Server.zero.setPort (Port.text p).value).port = p.take 8 := by
        have none_left : 8 - p.length = 0 := by omega
        simp only [Port.value, Server.setPort, strncpy, whole, none_left, List.replicate_zero, List.append_nil]
      have clean : 0 ∉ p.take 8 := fun here => text (List.mem_of_mem_take here)
      have shown : cString (p.take 8) = p.take 8 :=
        List.takeWhile_eq_self_iff.mpr fun b here => bne_iff_ne.mpr fun zero => clean (zero ▸ here)
      -- the key runs on, but there is nothing but zeros behind the port
      have key_long : 8 ≤ (Server.zero.setPort (Port.text p).value).key.length := by
        have longer : cString (p.take 8) <+: (Server.zero.setPort (Port.text p).value).key := by
          rw [Server.key, Server.bytes, array, shown, List.append_assoc, cString, List.takeWhile_append_of_pos]
          · exact List.prefix_append _ _
          · intro b here
            exact bne_iff_ne.mpr fun zero => clean (zero ▸ here)
        have eight := longer.length_le
        rw [shown, List.length_take] at eight
        omega
      rw [array, shown] at no_port
      have key_ne : p.take 8 ≠ [] := by
        intro none_
        have size := congrArg List.length none_
        rw [List.length_take, List.length_nil] at size
        omega
      have some_ : (Port.text p).key ≠ [] := by
        change p ≠ []
        rintro rfl
        cases long
      refine ⟨by rw [array, no_port]; exact ⟨fun none_ => absurd none_ key_ne, fun none_ => absurd none_ some_⟩, ?_⟩
      have absent : ∀ key : Bytes, 8 ≤ key.length → Function.update (tableOf table) key none = tableOf table := by
        intro key long
        rw [← tableOf_long neat long, Function.update_eq_self]
      rw [tableOf_delete, absent _ key_long]
      exact (absent p long).symm

/-! ## One datagram -/

theorem State.replies_reply (s : State) (datagram : Bytes) : (s.reply datagram).replies = s.replies ++ [datagram] := by
  rw [State.replies, State.reply, List.filterMap_append]
  rfl

/-- The replies are the datagrams in the log. -/
theorem State.replies_append (s : State) (table : List Server) (outputs : List Output) :
    State.replies { table, log := s.log ++ outputs } = s.replies ++ outputs.filterMap Output.datagram := by
  rw [State.replies, State.replies, List.filterMap_append]

/-- What the callback does with a command it hears. An empty port or password is refused before
the table is touched; otherwise the arrays hold both as C strings. -/
theorem managerRecv_spec (lawful : json.Lawful) {r : Request json} (careful : r.Careful) (junk : Bytes) {s : State}
    (neat : Neat s.table) :
    ∃ s', managerRecv json junk s r.datagram = .ok s' ∧ Neat s'.table ∧
      tableOf s'.table = execute (tableOf s.table) r.command ∧ s'.replies = s.replies ++ r.command.answer.toList := by
  have size := careful.size
  have length : min r.datagram.length bufSize = r.datagram.length := Nat.min_eq_left (Nat.le_trans size (by decide))
  have low : ¬ bufSize / 2 < r.datagram.length := Nat.not_lt.mpr size
  obtain ⟨buf, values, action, members, server, traffic⟩ := Request.heard lawful careful (bufSize - r.datagram.length)
  have fits := careful.fits
  unfold managerRecv
  simp only [length, if_neg low, action]
  cases command : r.command with
  | add port password =>
    rw [command] at fits members
    obtain ⟨portFits, passwordLength, passwordText⟩ := fits
    obtain ⟨storedPort, storedPassword, fresh⟩ := readServer_add members
    obtain ⟨ends, key⟩ := Server.zero.setPort_spec portFits
    rw [← storedPort] at ends key
    have is_key : (readServer values .zero).key = port.key := (Server.key_of_ends ends).trans key
    have is_password : cString (readServer values .zero).password = password := by
      rw [storedPassword, strncpy_text passwordText passwordLength, cString_replicate passwordText]
    have no_port := head?_zero_iff (readServer values .zero).port_ne_nil
    have no_password := head?_zero_iff (readServer values .zero).password_ne_nil
    rw [key] at no_port
    rw [is_password] at no_password
    simp only [Command.action, if_pos, server, ok_bind, no_port, no_password]
    by_cases refused : port.key = [] ∨ password = []
    · rw [if_pos refused]
      refine ⟨_, rfl, neat, ?_, ?_⟩
      · rw [execute, if_pos refused]
        rfl
      · rw [State.replies_reply, Command.answer, if_pos refused]
        rfl
    · rw [if_neg refused]
      refine ⟨_, rfl, neat_put_delete neat ends, ?_, ?_⟩
      · rw [execute, if_neg refused, ← is_key, ← is_password, ← fresh]
        exact tableOf_put_delete s.table _
      · rw [State.replies_reply, State.replies_append, Command.answer, if_neg refused]
        exact congrArg (· ++ _) (List.append_nil _)
  | remove port =>
    rw [command] at fits members
    obtain ⟨no_port, deleted⟩ := delete_spec fits neat
    have different : ascii "remove" ≠ ascii "add" := by decide
    simp only [Command.action, if_neg different, if_pos, server, ok_bind, readServer_remove members, no_port]
    by_cases refused : port.key = []
    · rw [if_pos refused]
      refine ⟨_, rfl, neat, ?_, ?_⟩
      · rw [execute, if_pos refused]
        rfl
      · rw [State.replies_reply, Command.answer, if_pos refused]
        rfl
    · rw [if_neg refused]
      refine ⟨_, rfl, neat_delete neat _, ?_, ?_⟩
      · rw [execute, if_neg refused]
        exact deleted
      · rw [State.replies_reply, State.replies_append, Command.answer, if_neg refused]
        exact congrArg (· ++ _) (List.append_nil _)
  | stat port amount =>
    rw [command] at fits members
    obtain ⟨short, text⟩ := fits
    have different : ascii "stat" ≠ ascii "add" ∧ ascii "stat" ≠ ascii "remove" := by decide
    have array : strncpy 8 port = port ++ List.replicate (8 - port.length) 0 := strncpy_text text (by omega)
    have ends : 0 ∈ strncpy 8 port := by
      rw [array]
      exact List.mem_append_right port (List.mem_replicate.mpr ⟨by omega, rfl⟩)
    have is_port : cString (strncpy 8 port) = port := by rw [array, cString_replicate text]
    simp only [Command.action, if_neg different.1, if_neg different.2, if_pos, traffic, ok_bind,
      readTraffic_stat junk members, if_pos ends, is_port]
    refine ⟨_, rfl, neat_updateStat neat _ _, ?_, ?_⟩
    · rw [execute]
      exact tableOf_updateStat neat port _
    · exact (List.append_nil _).symm

/-! ## Runs -/

/-- The callback on one datagram after another. -/
def managerRun (json : JsonParser) (junk : Bytes) : State → List Bytes → Except Fault State
  | s, [] => .ok s
  | s, request :: requests => do
    let s ← managerRecv json junk s request
    managerRun json junk s requests

/-- A run over careful requests executes them one after the other and answers each that has an
answer. -/
theorem managerRun_spec (lawful : json.Lawful) (junk : Bytes) {requests : List (Request json)} {s : State}
    (careful : ∀ r ∈ requests, r.Careful) (neat : Neat s.table) :
    ∃ s', managerRun json junk s (requests.map Request.datagram) = .ok s' ∧
      tableOf s'.table = (requests.map Request.command).foldl execute (tableOf s.table) ∧
      s'.replies = s.replies ++ requests.filterMap fun r => r.command.answer := by
  induction requests generalizing s with
  | nil => exact ⟨s, rfl, rfl, (List.append_nil _).symm⟩
  | cons r requests ih =>
    obtain ⟨s₁, ran, neat₁, table₁, replies₁⟩ := managerRecv_spec lawful (careful r List.mem_cons_self) junk neat
    obtain ⟨s', rest, table', replies'⟩ := ih (fun r here => careful r (List.mem_cons_of_mem _ here)) neat₁
    refine ⟨s', ?_, ?_, ?_⟩
    · rw [List.map_cons, managerRun, ran, ok_bind, rest]
    · rw [List.map_cons, List.foldl_cons, ← table₁, table']
    · rw [replies', replies₁, List.append_assoc, List.filterMap_cons]
      cases r.command.answer <;> rfl

end

/-- As long as the datagrams are spaced and their fields fit, the table is the map that the
commands make, and they are answered as they should. -/
theorem manager_maintains (json : JsonParser) (lawful : json.Lawful) (junk : Bytes) (requests : List (Request json))
    (careful : ∀ r ∈ requests, r.Careful) :
    ∃ s, managerRun json junk { table := [], log := [] } (requests.map Request.datagram) = .ok s ∧
      tableOf s.table = (requests.map Request.command).foldl execute (fun _ => none) ∧
      s.replies = requests.filterMap fun r => r.command.answer := by
  have neat : Neat ([] : List Server) := fun s here => absurd here List.not_mem_nil
  obtain ⟨s, ran, table, replies⟩ := managerRun_spec (s := { table := [], log := [] }) lawful junk careful neat
  exact ⟨s, ran, table, replies⟩

/-- The object of the first command. -/
def addObject : Bytes := ascii "\x7b\"server_port\":\"8381\",\"password\":\"x\"\x7d"

section
variable (after : Bytes) (afterSpace : ∀ b ∈ after, isSpace b = true)

/-- A command without white space before the colon. -/
def Request.of (command : Command) (object : Bytes) (brace : object.head? = some 123 ∧ 0 ∉ object)
    (parsed : ∃ values, jsonC.parse object = some (.object values) ∧ command.Members values) : Request jsonC where
  command := command
  before := []
  after := after
  object := object
  beforeSpace := fun _ here => absurd here List.not_mem_nil
  afterSpace := afterSpace
  brace := brace.1
  text := brace.2
  parsed := parsed

/-- The password `x` for the port 8381. -/
def addRequest : Request jsonC :=
  .of after afterSpace (.add (.text (ascii "8381")) (ascii "x")) addObject (by decide +kernel) ⟨_, rfl, .inl rfl⟩

/-- The other members first, and a port that is a number. -/
def addSecond : Request jsonC :=
  .of after afterSpace (.add (.number 8382) (ascii "y")) (ascii "\x7b\"password\":\"y\", \"server_port\":8382\x7d")
    (by decide +kernel) ⟨_, rfl, .inr rfl⟩

def statRequest : Request jsonC :=
  .of after afterSpace (.stat (ascii "8381") 4096) (ascii "\x7b\"8381\":4096\x7d") (by decide +kernel) ⟨_, rfl, rfl⟩

def removeRequest : Request jsonC :=
  .of after afterSpace (.remove (.number 8382)) (ascii "\x7b\"server_port\":8382\x7d") (by decide +kernel) ⟨_, rfl, rfl⟩

end

theorem space_blank : ∀ b ∈ ([32] : Bytes), isSpace b = true := by decide +kernel

/-- Two ports are added, the traffic of one is reported and the other is removed. -/
def fourRequests : List (Request jsonC) :=
  [addRequest [32] space_blank, addSecond [32] space_blank, statRequest [32] space_blank, removeRequest [32] space_blank]

/-- The four requests are well-formed, with a blank in front of each object. -/
theorem fourRequests_careful : ∀ r ∈ fourRequests, r.Careful := by
  have short : ∀ r ∈ fourRequests, r.datagram.length ≤ 32767 := by decide +kernel
  have fits : ∀ r ∈ fourRequests, r.command.Fits := by
    unfold fourRequests
    refine List.forall_mem_cons.mpr ⟨?_, List.forall_mem_cons.mpr ⟨?_, List.forall_mem_cons.mpr ⟨?_, List.forall_mem_singleton.mpr ?_⟩⟩⟩
    · exact (by decide +kernel : ((ascii "8381").length ≤ 7 ∧ 0 ∉ ascii "8381") ∧ (ascii "x").length ≤ 128 ∧ 0 ∉ ascii "x")
    · exact (by decide +kernel : (0 ≤ (8382 : Int64) ∧ (8382 : Int64) < 10000000) ∧ (ascii "y").length ≤ 128 ∧ 0 ∉ ascii "y")
    · exact (by decide +kernel : (ascii "8381").length ≤ 7 ∧ 0 ∉ ascii "8381")
    · exact (by decide +kernel : 0 ≤ (8382 : Int64) ∧ (8382 : Int64) < 10000000)
  intro r here
  have spaced : r.after = [32] := by
    simp only [fourRequests, List.mem_cons, List.not_mem_nil, or_false] at here
    rcases here with rfl | rfl | rfl | rfl <;> rfl
  exact ⟨⟨32, by rw [spaced]; rfl, rfl⟩, short r here, fits r here⟩

/-- What the four commands leave in the table, and how often they are answered. -/
theorem fourRequests_result :
    (fourRequests.map Request.command).foldl execute (fun _ => none) (ascii "8381") = some (ascii "x", 4096) ∧
      (fourRequests.map Request.command).foldl execute (fun _ => none) (ascii "8382") = none ∧
      (fourRequests.filterMap fun r => r.command.answer) = [ascii "ok" ++ [0], ascii "ok" ++ [0], ascii "ok" ++ [0]] := by
  decide +kernel

/-- An add, another add, the traffic of the first port and the removal of the second one. -/
theorem manager_maintains_one :
    ∃ s, managerRun jsonC [] { table := [], log := [] } (fourRequests.map Request.datagram) = .ok s ∧
      tableOf s.table (ascii "8381") = some (ascii "x", 4096) ∧ tableOf s.table (ascii "8382") = none ∧
      s.replies = [ascii "ok" ++ [0], ascii "ok" ++ [0], ascii "ok" ++ [0]] := by
  obtain ⟨s, ran, table, replies⟩ := manager_maintains jsonC jsonC_lawful [] fourRequests fourRequests_careful
  obtain ⟨first, second, answers⟩ := fourRequests_result
  exact ⟨s, ran, (congrFun table _).trans first, (congrFun table _).trans second, replies.trans answers⟩

/-- Without white space `get_action` overwrites the byte with which `get_data` begins. -/
theorem unspaced_refused :
    ∃ s, managerRun jsonC [] { table := [], log := [] } [(addRequest [] (by decide +kernel)).datagram] = .ok s ∧
      s.replies = [ascii "err" ++ [0]] ∧ (addRequest [] (by decide +kernel)).command.answer = some (ascii "ok" ++ [0]) ∧
      tableOf s.table (ascii "8381") = none ∧
      execute (fun _ => none) (addRequest [] (by decide +kernel)).command (ascii "8381") = some (ascii "x", 0) := by
  have empty : jsonC.parse [] = none := rfl
  have datagram : (addRequest [] (by decide +kernel)).datagram = ascii "add" ++ 58 :: addObject := rfl
  have low : ¬ bufSize / 2 < (ascii "add" ++ 58 :: addObject).length := by decide +kernel
  have length : min (ascii "add" ++ 58 :: addObject).length bufSize = (ascii "add" ++ 58 :: addObject).length := by decide +kernel
  let zeros : Bytes := List.replicate (bufSize - (ascii "add" ++ 58 :: addObject).length) 0
  have action : getAction (ascii "add" ++ 58 :: addObject ++ zeros) (ascii "add" ++ 58 :: addObject).length =
      some (ascii "add", ascii "add" ++ 0 :: (addObject ++ zeros)) :=
    getAction_spec (by decide +kernel) (by decide +kernel) (by decide +kernel) (.inr rfl) addObject zeros
  have data : getData (ascii "add" ++ 0 :: (addObject ++ zeros)) (ascii "add" ++ 58 :: addObject).length = .ok (some []) :=
    getData_brace (by decide +kernel) (by decide +kernel) (by decide +kernel) zeros
  refine ⟨{ table := [], log := [.send (ascii "err" ++ [0])] }, ?_, rfl, by decide +kernel, rfl, ?_⟩
  · simp only [managerRun, managerRecv, datagram, length, if_neg low]
    simp only [zeros] at action data
    simp only [action, getServer, data, ok_bind, empty, pure_eq_ok, if_pos]
    rfl
  · have chosen : ¬ ((Port.text (ascii "8381")).key = [] ∨ ascii "x" = []) := by decide +kernel
    have added : execute (fun _ => none) (.add (.text (ascii "8381")) (ascii "x")) =
        Function.update (fun _ => none) (ascii "8381") (some (ascii "x", 0)) := by
      rw [execute, if_neg chosen]
      rfl
    exact (congrFun added (ascii "8381")).trans (Function.update_self ..)

end Shadowsocks.Manager
