import Shadowsocks.Acl
import Shadowsocks.JsonText
import Mathlib.Logic.Function.Basic

/-!
# The config file of the native programs

`read_jconf` of `jconf.c`. The last member of a name counts, and the others are lost; what a
value of the wrong type does depends on the name. `cork_ip_init` is a parameter.
-/

namespace Shadowsocks
set_option autoImplicit false
open Lib

/-- `ss_itoa`. -/
def ssItoa (i : Int32) : Bytes :=
  if 0 ≤ i.toInt then decimalBytes i.toInt.toNat else 45 :: decimalBytes (-i.toInt).toNat

/-- `to_string`, none if it ends the process. -/
def JsonValue.toString : JsonValue → Option Bytes
  | .string s => some (cString s)
  | .integer n => some (ssItoa n.toInt32)
  | .null => some (ascii "null")
  | _ => none

/-- `MAX_PORT_NUM`. -/
def maxPortNum : Nat := 1024

/-- `MAX_REMOTE_NUM`. -/
def maxRemoteNum : Nat := 10

/-- `MAX_CONF_SIZE`. -/
def maxConfSize : Nat := 128 * 1024

/-- `ss_addr_t`; none is NULL. -/
structure SsAddr where
  host : Option Bytes := none
  port : Option Bytes := none

/-- `ss_port_password_t`. -/
structure SsPortPassword where
  port : Option Bytes := none
  password : Option Bytes := none

/-- `jconf_t`. The members `auth`, `fast_open` and `nofile` keep the value whose union they
are read from without a look at its type. -/
structure Jconf where
  remoteNum : Nat := 0
  remoteAddr : Nat → SsAddr := fun _ => {}
  portPasswordNum : Nat := 0
  portPassword : Nat → SsPortPassword := fun _ => {}
  remotePort : Option Bytes := none
  localAddr : Option Bytes := none
  localPort : Option Bytes := none
  password : Option Bytes := none
  method : Option Bytes := none
  timeout : Option Bytes := none
  auth : Option JsonValue := none
  fastOpen : Option JsonValue := none
  nofile : Option JsonValue := none
  nameserver : Option Bytes := none

/-- The last position of a colon, `ret` if there is none. -/
def lastColon : (str : Bytes) → (pos : Nat) → (ret : Option Nat) → Option Nat
  | [], _, ret => ret
  | b :: str, pos, ret => lastColon str (pos + 1) (if b = 58 then some pos else ret)

/-- `parse_addr`. With more than one colon the last one counts only behind a bracket. -/
def parseAddr (corkIpInit : Bytes → Bool) (str : Bytes) : SsAddr :=
  if corkIpInit str then { host := some str }
  else
    let ipv6 := 1 < str.count 58
    let ret := (lastColon str 0 none).filter fun ret => !ipv6 || str[ret - 1]? == some 93
    match ret with
    | none => { host := some (if ipv6 then (str.drop 1).take (str.length - 2) else str) }
    | some ret =>
      { host := some (if ipv6 then (str.drop 1).take (ret - 2) else str.take ret), port := some (str.drop (ret + 1)) }

/-- The servers of an array. -/
def readServers (corkIpInit : Bytes → Bool) : Nat → List JsonValue → Jconf → Option Jconf
  | _, [], conf => some conf
  | j, v :: vs, conf =>
    if maxRemoteNum ≤ j then some conf
    else do
      let str ← v.toString
      readServers corkIpInit (j + 1) vs
        { conf with remoteAddr := Function.update conf.remoteAddr j (parseAddr corkIpInit str), remoteNum := j + 1 }

/-- The ports of an object; `j` counts those that are not strings, too. -/
def readPorts : Nat → List (Bytes × JsonValue) → Jconf → Option Jconf
  | _, [], conf => some conf
  | j, (name, v) :: vs, conf =>
    if maxPortNum ≤ j then some conf
    else match v with
      | .string s => readPorts (j + 1) vs
        { conf with
          portPassword := Function.update conf.portPassword j ⟨some (cString name), some (cString s)⟩
          portPasswordNum := j + 1 }
      | _ => readPorts (j + 1) vs conf

/-- The body of the loop of `read_jconf`. -/
def readMember (corkIpInit : Bytes → Bool) (conf : Jconf) (name : Bytes) (value : JsonValue) : Option Jconf :=
  let name := cString name
  if name = ascii "server" then
    match value with
    | .array vs => readServers corkIpInit 0 vs conf
    | .string s =>
      some { conf with remoteAddr := Function.update conf.remoteAddr 0 { host := some (cString s) }, remoteNum := 1 }
    | _ => some conf
  else if name = ascii "port_password" then
    match value with
    | .object vs => readPorts 0 vs conf
    | _ => some conf
  else if name = ascii "server_port" then value.toString.map fun s => { conf with remotePort := some s }
  else if name = ascii "local_address" then value.toString.map fun s => { conf with localAddr := some s }
  else if name = ascii "local_port" then value.toString.map fun s => { conf with localPort := some s }
  else if name = ascii "password" then value.toString.map fun s => { conf with password := some s }
  else if name = ascii "method" then value.toString.map fun s => { conf with method := some s }
  else if name = ascii "timeout" then value.toString.map fun s => { conf with timeout := some s }
  else if name = ascii "fast_open" then some { conf with fastOpen := some value }
  else if name = ascii "auth" then some { conf with auth := some value }
  else if name = ascii "nofile" then some { conf with nofile := some value }
  else if name = ascii "nameserver" then value.toString.map fun s => { conf with nameserver := some s }
  else some conf

/-- `read_jconf` of a file, none if it ends the process. -/
def readJconf (corkIpInit : Bytes → Bool) (file : Option Bytes) : Option Jconf := do
  let buf ← file
  if maxConfSize ≤ buf.length ∨ buf = [] then none
  else match jsonParseEx buf with
    | some (.object values) => values.foldlM (fun conf p => readMember corkIpInit conf p.1 p.2) {}
    | _ => none

/-! ## Where the strings of a config come from -/

/-- A part of a string with `P`, or a text that the program has made of a number or of null. -/
def Sourced (P : Bytes → Prop) (s : Bytes) : Prop :=
  (∀ b ∈ s, ¬ Quoted.Special b) ∨ ∃ whole, P whole ∧ s.length ≤ whole.length ∧ ∀ b ∈ s, b ∈ whole

/-- A part of a string comes from where the string comes from. -/
theorem Sourced.part {P : Bytes → Prop} {s part : Bytes} (sourced : Sourced P s) (short : part.length ≤ s.length) (sub : ∀ b ∈ part, b ∈ s) :
    Sourced P part := by
  rcases sourced with plain | ⟨whole, has, shorter, made⟩
  · exact .inl fun b here => plain b (sub b here)
  · exact .inr ⟨whole, has, short.trans shorter, fun b here => made b (sub b here)⟩

theorem not_special_digit {b : UInt8} (digit : isDigit b = true) : ¬ Quoted.Special b := by
  have bounds : 48 ≤ b.toNat ∧ b.toNat ≤ 57 := by simpa [isDigit, UInt8.le_iff_toNat_le] using digit
  rintro (rfl | rfl | rfl)
  · exact absurd bounds.1 (by decide)
  · exact absurd bounds.1 (by decide)
  · exact absurd bounds.2 (by decide)

/-- A number is written with digits and a sign. -/
theorem ssItoa_plain (i : Int32) : ∀ b ∈ ssItoa i, ¬ Quoted.Special b := by
  intro b here
  unfold ssItoa at here
  split_ifs at here
  · exact not_special_digit (isDigit_decimalBytes b here)
  · rcases List.mem_cons.mp here with rfl | here
    · decide
    · exact not_special_digit (isDigit_decimalBytes b here)

/-- What `to_string` returns is a string of the value, or a number. -/
theorem JsonValue.Strings.toString {P : Bytes → Prop} {v : JsonValue} (strings : v.Strings P) {s : Bytes} (read : v.toString = some s) :
    Sourced P s := by
  cases strings with
  | string has =>
    cases read
    exact .inr ⟨_, has, (List.takeWhile_prefix _).length_le, fun b here => (List.takeWhile_prefix _).subset here⟩
  | integer n =>
    cases read
    exact .inl (ssItoa_plain _)
  | null =>
    cases read
    exact .inl (by decide +kernel)
  | object => cases read
  | array => cases read
  | double => cases read
  | boolean => cases read

/-- `parse_addr` cuts the host out of the string. -/
theorem parseAddr_host (corkIpInit : Bytes → Bool) (str : Bytes) :
    ∃ host, (parseAddr corkIpInit str).host = some host ∧ host.length ≤ str.length ∧ ∀ b ∈ host, b ∈ str := by
  have inner : ∀ n, ((str.drop 1).take n).length ≤ str.length ∧ ∀ b ∈ (str.drop 1).take n, b ∈ str := by
    refine fun n => ⟨?_, fun b here => List.mem_of_mem_drop (List.mem_of_mem_take here)⟩
    rw [List.length_take, List.length_drop]
    omega
  have front : ∀ n, (str.take n).length ≤ str.length ∧ ∀ b ∈ str.take n, b ∈ str :=
    fun n => ⟨List.length_take_le' _ _, fun b here => List.mem_of_mem_take here⟩
  unfold parseAddr
  split_ifs
  · exact ⟨str, rfl, Nat.le_refl _, fun b here => here⟩
  · dsimp only
    split
    · refine ⟨_, rfl, ?_⟩
      split_ifs
      · exact inner _
      · exact ⟨Nat.le_refl _, fun b here => here⟩
    · refine ⟨_, rfl, ?_⟩
      split_ifs
      · exact inner _
      · exact front _

/-- What the strings of the JSON text are, the strings of the config are. -/
structure Jconf.SourcedIn (P : Bytes → Prop) (conf : Jconf) : Prop where
  host : ∀ j s, (conf.remoteAddr j).host = some s → Sourced P s
  password : ∀ s, conf.password = some s → Sourced P s
  method : ∀ s, conf.method = some s → Sourced P s

section
variable {P : Bytes → Prop} {corkIpInit : Bytes → Bool} {conf conf' : Jconf}

/-- Nothing has been read yet. -/
theorem Jconf.SourcedIn.empty : ({} : Jconf).SourcedIn P where
  host := fun _ _ no => by cases no
  password := fun _ no => by cases no
  method := fun _ no => by cases no

/-- One more server. -/
theorem Jconf.SourcedIn.setHost (sourced : conf.SourcedIn P) (j n : Nat) {addr : SsAddr} (host : ∀ s, addr.host = some s → Sourced P s) :
    ({ conf with remoteAddr := Function.update conf.remoteAddr j addr, remoteNum := n } : Jconf).SourcedIn P where
  host := by
    intro j' s here
    by_cases same : j' = j
    · subst same
      dsimp only at here
      rw [Function.update_self] at here
      exact host s here
    · dsimp only at here
      rw [Function.update_of_ne same] at here
      exact sourced.host j' s here
  password := sourced.password
  method := sourced.method

/-- A list of servers. -/
theorem Jconf.SourcedIn.readServers {vs : List JsonValue} {j : Nat} (sourced : conf.SourcedIn P) (strings : ∀ v ∈ vs, v.Strings P)
    (read : readServers corkIpInit j vs conf = some conf') : conf'.SourcedIn P := by
  induction vs generalizing j conf with
  | nil =>
    cases read
    exact sourced
  | cons v vs ih =>
    rw [Shadowsocks.readServers] at read
    split_ifs at read
    · cases read
      exact sourced
    · obtain ⟨str, shown, read⟩ := Option.bind_eq_some_iff.mp read
      refine ih (sourced.setHost j (j + 1) ?_) (fun v here => strings v (List.mem_cons_of_mem _ here)) read
      intro s here
      obtain ⟨host, same, short, made⟩ := parseAddr_host corkIpInit str
      cases same.symm.trans here
      exact ((strings v List.mem_cons_self).toString shown).part short made

/-- Ports and their passwords are kept apart from the other settings. -/
theorem readPorts_sourced {vs : List (Bytes × JsonValue)} {j : Nat} (sourced : conf.SourcedIn P)
    (read : readPorts j vs conf = some conf') : conf'.SourcedIn P := by
  induction vs generalizing j conf with
  | nil =>
    cases read
    exact sourced
  | cons p vs ih =>
    obtain ⟨name, v⟩ := p
    unfold readPorts at read
    split at read
    · cases read
      exact sourced
    · split at read
      · refine ih ?_ read
        exact ⟨sourced.host, sourced.password, sourced.method⟩
      · exact ih sourced read

/-- A setting that is a text. -/
theorem Jconf.SourcedIn.setText {f : Bytes → Jconf} {value : JsonValue} (strings : value.Strings P)
    (each : ∀ s, Sourced P s → (f s).SourcedIn P) (read : value.toString.map f = some conf') : conf'.SourcedIn P := by
  obtain ⟨s, shown, rfl⟩ := Option.map_eq_some_iff.mp read
  exact each s (strings.toString shown)

/-- A fact about a branch, by the test that leads to it. -/
theorem of_ite {c : Prop} [Decidable c] {α : Type} {x y z : α} {goal : Prop} (same : (if c then x else y) = z)
    (yes : x = z → goal) (no : y = z → goal) : goal := by
  by_cases h : c
  · exact yes ((if_pos h).symm.trans same)
  · exact no ((if_neg h).symm.trans same)

/-- Whatever member is read, the settings come from the strings of the file. -/
theorem Jconf.SourcedIn.readMember {name : Bytes} {value : JsonValue} (sourced : conf.SourcedIn P) (strings : value.Strings P)
    (read : readMember corkIpInit conf name value = some conf') : conf'.SourcedIn P := by
  have same : ∀ {conf₁ : Jconf}, conf₁.remoteAddr = conf.remoteAddr ∧ conf₁.password = conf.password ∧ conf₁.method = conf.method →
      conf₁.SourcedIn P := by
    rintro conf₁ ⟨host, password, method⟩
    exact ⟨host ▸ sourced.host, password ▸ sourced.password, method ▸ sourced.method⟩
  have kept : ∀ {f : Bytes → Jconf}, (∀ s, (f s).remoteAddr = conf.remoteAddr ∧ (f s).password = conf.password ∧ (f s).method = conf.method) →
      value.toString.map f = some conf' → conf'.SourcedIn P := fun unchanged => .setText strings fun s _ => same (unchanged s)
  refine of_ite read (fun read => ?_) fun read => ?_
  · cases strings with
    | array each => exact sourced.readServers each read
    | string has =>
      cases read
      refine sourced.setHost 0 1 fun s here => ?_
      cases here
      exact (JsonValue.Strings.string has).toString rfl
    | _ =>
      cases read
      exact sourced
  refine of_ite read (fun read => ?_) fun read => ?_
  · cases strings with
    | object each => exact readPorts_sourced sourced read
    | _ =>
      cases read
      exact sourced
  refine of_ite read (kept fun s => ⟨rfl, rfl, rfl⟩) fun read => ?_
  refine of_ite read (kept fun s => ⟨rfl, rfl, rfl⟩) fun read => ?_
  refine of_ite read (kept fun s => ⟨rfl, rfl, rfl⟩) fun read => ?_
  refine of_ite read (fun read => ?_) fun read => ?_
  · refine .setText strings (fun s has => ?_) read
    refine ⟨sourced.host, fun s' here => ?_, sourced.method⟩
    cases here
    exact has
  refine of_ite read (fun read => ?_) fun read => ?_
  · refine .setText strings (fun s has => ?_) read
    refine ⟨sourced.host, sourced.password, fun s' here => ?_⟩
    cases here
    exact has
  refine of_ite read (kept fun s => ⟨rfl, rfl, rfl⟩) fun read => ?_
  refine of_ite read (fun read => ?_) fun read => ?_
  · exact Option.some_inj.mp read ▸ same ⟨rfl, rfl, rfl⟩
  refine of_ite read (fun read => ?_) fun read => ?_
  · exact Option.some_inj.mp read ▸ same ⟨rfl, rfl, rfl⟩
  refine of_ite read (fun read => ?_) fun read => ?_
  · exact Option.some_inj.mp read ▸ same ⟨rfl, rfl, rfl⟩
  refine of_ite read (kept fun s => ⟨rfl, rfl, rfl⟩) fun read => ?_
  exact Option.some_inj.mp read ▸ sourced

theorem readMembers_sourced {values : List (Bytes × JsonValue)} (sourced : conf.SourcedIn P) (strings : ∀ p ∈ values, p.2.Strings P)
    (read : values.foldlM (fun conf p => readMember corkIpInit conf p.1 p.2) conf = some conf') : conf'.SourcedIn P := by
  induction values generalizing conf with
  | nil =>
    cases read
    exact sourced
  | cons p values ih =>
    rw [List.foldlM_cons] at read
    obtain ⟨conf₁, first, rest⟩ := Option.bind_eq_some_iff.mp read
    exact ih (sourced.readMember (strings p List.mem_cons_self) first) (fun p here => strings p (List.mem_cons_of_mem _ here)) rest

end

/-- The host, the password and the method that `read_jconf` finds are parts of what the strings in
the file encode. -/
theorem readJconf_sourced {corkIpInit : Bytes → Bool} {file : Bytes} {conf : Jconf}
    (read : readJconf corkIpInit (some file) = some conf) :
    ∃ raws, Quoted.literals .outside (file ++ [0]) = some raws ∧
      conf.SourcedIn fun s => ∃ raw ∈ raws, Quoted.Encodes raw s := by
  unfold readJconf at read
  dsimp only [Option.bind_eq_bind, Option.bind_some] at read
  split at read
  next => cases read
  split at read
  next values parsed =>
    obtain ⟨raws, found, has⟩ := jsonParseEx_literals parsed
    refine ⟨raws, found, readMembers_sourced .empty ?_ read⟩
    have strings := has (fun s => ∃ raw ∈ raws, Quoted.Encodes raw s) fun raw here s encodes => ⟨raw, here, encodes⟩
    cases strings with
    | object each => exact each
  next => cases read

end Shadowsocks
