import Shadowsocks.Lib.Ctype
import Shadowsocks.Acl

/-!
# The file of an access control list

`init_acl` reads a file line by line. What stands behind the last slash of a line goes
through `atoi`, which takes anything; the rest of the line is an address or the line is
passed over.
-/

namespace Shadowsocks
set_option autoImplicit false
open Lib

/-! ## The sets of libipset -/

namespace Ip

/-- The bits of an address of its kind. -/
def width : Ip → Nat
  | v4 _ => 32
  | v6 _ => 128

end Ip

/-- The bits of an address, most significant first. -/
def bitsOf (addr : Bytes) : List Bool :=
  addr.flatMap fun b => (List.range 8).map fun i => b.toNat.testBit (7 - i)

/-- The network of the addresses with the first `len` bits of `net`. -/
def inNetwork (net : Bytes) (len : Nat) (addr : Bytes) : Bool := (bitsOf addr).take len == (bitsOf net).take len

namespace Ip

def network (net : Ip) (len : Nat) (ip : Ip) : Bool :=
  match net, ip with
  | v4 net, v4 addr => inNetwork net len addr
  | v6 net, v6 addr => inNetwork net len addr
  | _, _ => false

end Ip

namespace Acl

/-- `ipset_contains_ipv4` and `ipset_contains_ipv6`. -/
def contains (A : Acl) : Ip → Bool
  | .v4 addr => A.ipv4Set addr
  | .v6 addr => A.ipv6Set addr

/-- `ipset_ipv4_add` and `ipset_ipv6_add`. -/
def add (A : Acl) : Ip → Acl
  | .v4 addr => { A with ipv4Set := fun a => a == addr || A.ipv4Set a }
  | .v6 addr => { A with ipv6Set := fun a => a == addr || A.ipv6Set a }

/-- `ipset_ipv4_add_network` and `ipset_ipv6_add_network`: a prefix length out of range is
refused. -/
def addNetwork (A : Acl) (net : Ip) (cidr : Nat) : Acl :=
  if net.width < cidr then A
  else
    match net with
    | .v4 addr => { A with ipv4Set := fun a => inNetwork addr cidr a || A.ipv4Set a }
    | .v6 addr => { A with ipv6Set := fun a => inNetwork addr cidr a || A.ipv6Set a }

theorem contains_add (A : Acl) (addr ip : Ip) : (A.add addr).contains ip = (ip == addr || A.contains ip) := by
  rw [Bool.eq_iff_iff]
  cases addr <;> cases ip <;> simp [add, contains]

theorem contains_addNetwork (A : Acl) (net : Ip) (cidr : Nat) (ip : Ip) :
    (A.addNetwork net cidr).contains ip = (decide (cidr ≤ net.width) && net.network cidr ip || A.contains ip) := by
  unfold addNetwork
  split
  next refused => rw [decide_eq_false (Nat.not_le.mpr refused), Bool.false_and, Bool.false_or]
  next fits =>
    rw [decide_eq_true (Nat.not_lt.mp fits), Bool.true_and]
    cases net <;> cases ip <;> simp [contains, Ip.network]

end Acl

/-! ## Reading -/

/-- A stream opened for reading: what is left of it, and `feof`. -/
structure File where
  rest : Bytes
  eof : Bool := false

/-- The bytes up to a newline, `left` of them at most, what follows them, and whether the end
has been met. -/
def readLine : (left : Nat) → (rest : Bytes) → Bytes × Bytes × Bool
  | 0, rest => ([], rest, false)
  | _ + 1, [] => ([], [], true)
  | left + 1, b :: rest =>
    if b = 10 then ([b], rest, false)
    else
      let (line, rest, eof) := readLine left rest
      (b :: line, rest, eof)

/-- `fgets`, where reading never fails. -/
def fgets (size : Nat) (f : File) : Option Bytes × File :=
  let (line, rest, eof) := readLine (size - 1) f.rest
  (if line = [] then none else some line, { rest, eof })

/-- The last position of a slash, `ret` if there is none. -/
def lastSlash : (str : Bytes) → (pos : Nat) → (ret : Option Nat) → Option Nat
  | [], _, ret => ret
  | b :: str, pos, ret => lastSlash str (pos + 1) (if b = 47 then some pos else ret)

/-- `parse_addr_cidr`. -/
def parseAddrCidr (overflow : Bytes → Int) (str : Bytes) : Bytes × Int :=
  match lastSlash str 0 none with
  | none => (str, -1)
  | some ret => (str.take ret, atoi overflow (str.drop (ret + 1)))

/-- Takes one newline from the end of a string. -/
def trimNewline (line : Bytes) : Bytes := if line.getLast? = some 10 then line.dropLast else line

/-- The body of the loop of `init_acl`, for the bytes that `fgets` gave. -/
def aclLine (text : AddrText) (overflow : Bytes → Int) (A : Acl) (line : Bytes) : Acl :=
  let (host, cidr) := parseAddrCidr overflow (trimNewline (cString line))
  match text.corkIpInit host with
  | none => A
  | some addr => if 0 ≤ cidr then A.addNetwork addr cidr.toNat else A.add addr

/-- The loop, for `fuel` rounds. -/
def readAcl (text : AddrText) (overflow : Bytes → Int) : (fuel : Nat) → File → Acl → Option Acl
  | 0, _, _ => none
  | fuel + 1, f, A =>
    if f.eof then some A
    else
      match fgets 256 f with
      | (none, f) => readAcl text overflow fuel f A
      | (some line, f) => readAcl text overflow fuel f (aclLine text overflow A line)

/-- `init_acl`: the value returned and the statics; `file` is none if it cannot be opened. -/
def initAcl (text : AddrText) (overflow : Bytes → Int) (fuel : Nat) (file : Option Bytes) (mode : AclMode) :
    Option (Int × Acl) :=
  let A : Acl := { mode, ipv4Set := fun _ => false, ipv6Set := fun _ => false }
  match file with
  | none => some (-1, A)
  | some rest => (readAcl text overflow fuel { rest } A).map (0, ·)

/-! ## What a line stands for -/

/-- What `cork_ip_init` accepts is text without slashes and zeros, and not the empty one. -/
structure AddrText.Literals (text : AddrText) : Prop where
  slash : ∀ host ip, text.corkIpInit host = some ip → 47 ∉ host
  zero : ∀ host ip, text.corkIpInit host = some ip → 0 ∉ host
  empty : text.corkIpInit [] = none

/-- The line is an address, or an address, a slash and a prefix length. -/
inductive Names (text : AddrText) (line : Bytes) (ip : Ip) : Prop where
  | address (literal : text.corkIpInit line = some ip)
  | network (host digits : Bytes) (net : Ip) (split : line = host ++ 47 :: digits) (nonempty : digits ≠ [])
      (decimal : ∀ d ∈ digits, isDigit d = true) (literal : text.corkIpInit host = some net)
      (inRange : decimalValue digits ≤ net.width) (within : net.network (decimalValue digits) ip = true)

/-- What the code makes of a line of any form: it sees the line up to a zero byte and takes
what is behind its last slash for a number. -/
inductive Taken (text : AddrText) (overflow : Bytes → Int) (line : Bytes) (ip : Ip) : Prop where
  | address (literal : text.corkIpInit (cString line) = some ip)
  | negative (host suffix : Bytes) (split : cString line = host ++ 47 :: suffix) (last : 47 ∉ suffix)
      (literal : text.corkIpInit host = some ip) (negative : atoi overflow suffix < 0)
  | network (host suffix : Bytes) (net : Ip) (split : cString line = host ++ 47 :: suffix) (last : 47 ∉ suffix)
      (literal : text.corkIpInit host = some net) (positive : 0 ≤ atoi overflow suffix)
      (inRange : atoi overflow suffix ≤ net.width) (within : net.network (atoi overflow suffix).toNat ip = true)

/-- Some line of the file names the address. -/
def Listed (text : AddrText) (file : Bytes) (ip : Ip) : Prop := ∃ line ∈ file.splitOn 10, Names text line ip

/-! ## Lines -/

theorem lastSlash_none {str : Bytes} (no : 47 ∉ str) (pos : Nat) (ret : Option Nat) : lastSlash str pos ret = ret := by
  induction str generalizing pos ret with
  | nil => rfl
  | cons b str ih =>
    obtain ⟨other, no'⟩ := not_or.mp (mt List.mem_cons.mpr no)
    rw [lastSlash, if_neg (Ne.symm other), ih no']

theorem lastSlash_append (host : Bytes) {suffix : Bytes} (last : 47 ∉ suffix) (pos : Nat) (ret : Option Nat) :
    lastSlash (host ++ 47 :: suffix) pos ret = some (pos + host.length) := by
  induction host generalizing pos ret with
  | nil =>
    rw [List.nil_append, lastSlash, if_pos rfl, lastSlash_none last]
    rfl
  | cons b host ih =>
    rw [List.cons_append, lastSlash, ih, List.length_cons]
    congr 1
    omega

theorem parseAddrCidr_none (overflow : Bytes → Int) {str : Bytes} (no : 47 ∉ str) : parseAddrCidr overflow str = (str, -1) := by
  rw [parseAddrCidr, lastSlash_none no]

theorem parseAddrCidr_slash (overflow : Bytes → Int) (host : Bytes) {suffix : Bytes} (last : 47 ∉ suffix) :
    parseAddrCidr overflow (host ++ 47 :: suffix) = (host, atoi overflow suffix) := by
  rw [parseAddrCidr, lastSlash_append host last]
  simp

theorem slash_cases (str : Bytes) : 47 ∉ str ∨ ∃ host suffix, str = host ++ 47 :: suffix ∧ 47 ∉ suffix := by
  induction str with
  | nil => exact .inl List.not_mem_nil
  | cons b str ih =>
    rcases ih with no | ⟨host, suffix, split, last⟩
    · by_cases slash : b = 47
      · exact .inr ⟨[], str, by rw [slash]; rfl, no⟩
      · exact .inl (mt List.mem_cons.mp (not_or.mpr ⟨Ne.symm slash, no⟩))
    · exact .inr ⟨b :: host, suffix, by rw [split]; rfl, last⟩

theorem slash_inj {host host' suffix suffix' : Bytes} (same : host ++ 47 :: suffix = host' ++ 47 :: suffix')
    (last : 47 ∉ suffix) (last' : 47 ∉ suffix') : host = host' ∧ suffix = suffix' := by
  have one := parseAddrCidr_slash (fun _ => 0) host last
  have position := (lastSlash_append host last 0 none).symm.trans ((congrArg (lastSlash · 0 none) same).trans
    (lastSlash_append host' last' 0 none))
  have length : host.length = host'.length := by simpa using position
  obtain ⟨hosts, rests⟩ := List.append_inj same length
  exact ⟨hosts, (List.cons.inj rests).2⟩

section
variable {text : AddrText} {overflow : Bytes → Int}

/-- One round of the loop adds what it makes of the line. -/
theorem contains_aclLine (literals : text.Literals) {got line : Bytes} (seen : trimNewline (cString got) = cString line) (A : Acl) (ip : Ip) :
    (aclLine text overflow A got).contains ip = true ↔ Taken text overflow line ip ∨ A.contains ip = true := by
  unfold aclLine
  rw [seen]
  rcases slash_cases (cString line) with no | ⟨host, suffix, split, last⟩
  · rw [parseAddrCidr_none overflow no]
    have taken : Taken text overflow line ip ↔ text.corkIpInit (cString line) = some ip := by
      constructor
      · rintro (literal | ⟨host, suffix, split, -⟩ | ⟨host, suffix, net, split, -⟩)
        · exact literal
        · exact absurd (split ▸ List.mem_append_right host List.mem_cons_self) no
        · exact absurd (split ▸ List.mem_append_right host List.mem_cons_self) no
      · exact .address
    rw [taken]
    cases found : text.corkIpInit (cString line) with
    | none => simp [found]
    | some addr =>
      have alone : ¬ (0 : Int) ≤ -1 := by decide
      simp only [found, if_neg alone, Acl.contains_add, Bool.or_eq_true, beq_iff_eq, Option.some.injEq]
      exact or_congr_left eq_comm
  · rw [split, parseAddrCidr_slash overflow host last]
    have taken : Taken text overflow line ip ↔ ∃ net, text.corkIpInit host = some net ∧ if 0 ≤ atoi overflow suffix then
        atoi overflow suffix ≤ net.width ∧ net.network (atoi overflow suffix).toNat ip = true else net = ip := by
      constructor
      · rintro (literal | ⟨host', suffix', split', last', literal, negative⟩ |
          ⟨host', suffix', net, split', last', literal, positive, inRange, within⟩)
        · exact absurd (split ▸ List.mem_append_right host List.mem_cons_self) (literals.slash _ _ literal)
        · obtain ⟨rfl, rfl⟩ := slash_inj (split.symm.trans split') last last'
          exact ⟨ip, literal, by rw [if_neg (Int.not_le.mpr negative)]⟩
        · obtain ⟨rfl, rfl⟩ := slash_inj (split.symm.trans split') last last'
          exact ⟨net, literal, by rw [if_pos positive]; exact ⟨inRange, within⟩⟩
      · rintro ⟨net, literal, adds⟩
        split at adds
        next positive => exact .network host suffix net split last literal positive adds.1 adds.2
        next negative =>
          subst adds
          exact .negative host suffix split last literal (Int.not_le.mp negative)
    rw [taken]
    cases found : text.corkIpInit host with
    | none => simp [found]
    | some addr =>
      simp only [found, Option.some.injEq, exists_eq_left']
      split
      next positive =>
        have inRange : (atoi overflow suffix).toNat ≤ addr.width ↔ atoi overflow suffix ≤ addr.width := by omega
        rw [Acl.contains_addNetwork, Bool.or_eq_true, Bool.and_eq_true, decide_eq_true_iff, inRange]
      next =>
        rw [Acl.contains_add, Bool.or_eq_true, beq_iff_eq]
        exact or_congr_left eq_comm

/-! ## The loop -/

theorem readLine_newline {left : Nat} {line more : Bytes} (no : 10 ∉ line) (fits : line.length < left) :
    readLine left (line ++ 10 :: more) = (line ++ [10], more, false) := by
  induction line generalizing left with
  | nil =>
    cases left with
    | zero => cases fits
    | succ left => rw [List.nil_append, readLine, if_pos rfl, List.nil_append]
  | cons b line ih =>
    obtain ⟨other, no'⟩ := not_or.mp (mt List.mem_cons.mpr no)
    cases left with
    | zero => cases fits
    | succ left =>
      rw [List.cons_append, readLine, if_neg (Ne.symm other), ih no' (Nat.lt_of_succ_lt_succ fits)]
      rfl

theorem readLine_end {left : Nat} {line : Bytes} (no : 10 ∉ line) (fits : line.length < left) :
    readLine left line = (line, [], true) := by
  induction line generalizing left with
  | nil =>
    cases left with
    | zero => cases fits
    | succ left => rfl
  | cons b line ih =>
    obtain ⟨other, no'⟩ := not_or.mp (mt List.mem_cons.mpr no)
    cases left with
    | zero => cases fits
    | succ left => rw [readLine, if_neg (Ne.symm other), ih no' (Nat.lt_of_succ_lt_succ fits)]

theorem trimNewline_line {line : Bytes} (no : 10 ∉ line) : trimNewline (cString line) = cString line := by
  have other : (cString line).getLast? ≠ some 10 := fun last =>
    no ((List.takeWhile_sublist _).subset (List.mem_of_getLast? last))
  rw [trimNewline, if_neg other]

theorem trimNewline_newline {line : Bytes} (no : 10 ∉ line) : trimNewline (cString (line ++ [10])) = cString line := by
  have cut : cString (line ++ [10]) = if (cString line).length = line.length then line ++ [10] else cString line :=
    List.takeWhile_append
  rw [cut]
  split
  next whole =>
    have same : cString line = line := (List.takeWhile_prefix _).eq_of_length whole
    rw [same, trimNewline, if_pos (List.getLast?_concat ..), List.dropLast_concat]
  next => exact trimNewline_line no

theorem not_taken_nil (literals : text.Literals) (ip : Ip) : ¬ Taken text overflow [] ip := by
  rintro (literal | ⟨host, suffix, split, -⟩ | ⟨host, suffix, net, split, -⟩)
  · cases literals.empty.symm.trans literal
  · cases host <;> cases split
  · cases host <;> cases split

theorem mode_aclLine (A : Acl) (got : Bytes) : (aclLine text overflow A got).mode = A.mode := by
  have added : ∀ addr, (A.add addr).mode = A.mode := by
    intro addr
    cases addr <;> rfl
  have netAdded : ∀ addr cidr, (A.addNetwork addr cidr).mode = A.mode := by
    intro addr cidr
    unfold Acl.addNetwork
    split
    · rfl
    · cases addr <;> rfl
  simp only [aclLine]
  split
  · rfl
  · split
    · exact netAdded _ _
    · exact added _

/-- By induction on the rounds: each takes one line off the file, the last one meets its end. -/
theorem readAcl_spec (literals : text.Literals) (fuel : Nat) (rest : Bytes) (A : Acl) (enough : rest.length + 1 < fuel)
    (short : ∀ line ∈ rest.splitOn 10, line.length < 255) :
    ∃ A', readAcl text overflow fuel { rest } A = some A' ∧ A'.mode = A.mode ∧
      ∀ ip, A'.contains ip = true ↔ (∃ line ∈ rest.splitOn 10, Taken text overflow line ip) ∨ A.contains ip = true := by
  induction fuel generalizing rest A with
  | zero => cases enough
  | succ fuel ih =>
    rw [readAcl, if_neg Bool.false_ne_true]
    by_cases newline : (10 : UInt8) ∈ rest
    · obtain ⟨line, more, split, no⟩ := List.eq_append_cons_of_mem newline
      have lines : rest.splitOn 10 = line :: more.splitOn 10 := by
        rw [split]
        exact List.splitOn_append_cons_self_of_not_mem no more
      rw [lines] at short ⊢
      have fits : line.length < 255 := short line List.mem_cons_self
      have got : fgets 256 { rest } = (some (line ++ [10]), { rest := more }) := by
        simp only [fgets, split, readLine_newline no fits]
        rw [if_neg (List.append_ne_nil_of_right_ne_nil line (List.cons_ne_nil 10 []))]
      have later : more.length + 1 < fuel := by
        rw [split, List.length_append, List.length_cons] at enough
        omega
      obtain ⟨A', ran, mode, contains⟩ := ih more (aclLine text overflow A (line ++ [10])) later
        fun line' here => short line' (List.mem_cons_of_mem line here)
      refine ⟨A', ?_, mode.trans (mode_aclLine A _), fun ip => ?_⟩
      · simp only [got]
        exact ran
      · rw [contains ip, contains_aclLine literals (trimNewline_newline no)]
        simp only [List.mem_cons, exists_eq_or_imp]
        rw [or_left_comm, or_assoc]
    · have lines : rest.splitOn 10 = [rest] := List.splitOn_eq_singleton newline
      rw [lines] at short ⊢
      have read := readLine_end newline (short rest List.mem_cons_self)
      obtain ⟨fuel, rfl⟩ : ∃ n, fuel = n + 1 := ⟨fuel - 1, by omega⟩
      by_cases blank : rest = []
      · subst blank
        refine ⟨A, ?_, rfl, fun ip => ?_⟩
        · rfl
        · simp only [List.mem_singleton, exists_eq_left]
          exact (or_iff_right (not_taken_nil literals ip)).symm
      · have got : fgets 256 { rest } = (some rest, { rest := [], eof := true }) := by
          simp only [fgets, read]
          rw [if_neg blank]
        refine ⟨aclLine text overflow A rest, ?_, mode_aclLine A _, fun ip => ?_⟩
        · simp only [got]
          rfl
        · rw [contains_aclLine literals (trimNewline_line newline)]
          simp only [List.mem_singleton, exists_eq_left]

/-! ## The whole file -/

theorem cString_eq {bs : Bytes} (no : 0 ∉ bs) : cString bs = bs := by
  apply List.takeWhile_eq_self_iff.mpr
  intro b here
  exact bne_iff_ne.mpr fun zero => no (zero ▸ here)

theorem width_le (net : Ip) : net.width ≤ 128 := by
  cases net
  · exact Nat.le_of_ble_eq_true rfl
  · exact Nat.le_refl 128

/-- What a line names the code takes from it; from a line of either form it takes nothing else. -/
theorem taken_iff_names (literals : text.Literals) {line : Bytes} {ip : Ip} (formed : Names text line ip) (ip' : Ip) :
    Taken text overflow line ip' ↔ Names text line ip' := by
  rcases formed with literal | ⟨host, digits, net, split, nonempty, decimal, literal, inRange, -⟩
  · have whole : cString line = line := cString_eq (literals.zero _ _ literal)
    have no_slash := literals.slash _ _ literal
    constructor
    · rintro (literal' | ⟨host, suffix, split, -⟩ | ⟨host, suffix, net, split, -⟩)
      · exact .address (whole ▸ literal')
      · exact absurd ((whole.symm.trans split) ▸ List.mem_append_right host List.mem_cons_self) no_slash
      · exact absurd ((whole.symm.trans split) ▸ List.mem_append_right host List.mem_cons_self) no_slash
    · rintro (literal' | ⟨host, digits, net, split, -⟩)
      · exact .address (whole.symm ▸ literal')
      · exact absurd (split ▸ List.mem_append_right host List.mem_cons_self) no_slash
  · have plain : ∀ b : UInt8, isDigit b = false → ∀ digits : Bytes, (∀ d ∈ digits, isDigit d = true) → b ∉ digits := by
      intro b other digits decimal here
      exact Bool.false_ne_true (other.symm.trans (decimal b here))
    have whole : cString line = line := by
      apply cString_eq
      rw [split, List.mem_append, List.mem_cons]
      rintro (in_host | slash | in_digits)
      · exact literals.zero _ _ literal in_host
      · cases slash
      · exact plain 0 rfl digits decimal in_digits
    have value : atoi overflow digits = decimalValue digits := atoi_digits overflow decimal (by
      have := width_le net
      omega)
    constructor
    · rintro (literal' | ⟨host', suffix, split', last, literal', negative⟩ |
        ⟨host', suffix, net', split', last, literal', positive, inRange', within⟩)
      · exact .address (whole ▸ literal')
      · obtain ⟨rfl, rfl⟩ := slash_inj (split.symm.trans (whole.symm.trans split')) (plain 47 rfl digits decimal) last
        omega
      · obtain ⟨rfl, rfl⟩ := slash_inj (split.symm.trans (whole.symm.trans split')) (plain 47 rfl digits decimal) last
        rw [value] at inRange' within
        exact .network host digits net' split nonempty decimal literal' (Int.ofNat_le.mp inRange') within
    · rintro (literal' | ⟨host', digits', net', split', nonempty', decimal', literal', inRange', within⟩)
      · exact .address (whole.symm ▸ literal')
      · obtain ⟨rfl, rfl⟩ := slash_inj (split.symm.trans split') (plain 47 rfl digits decimal) (plain 47 rfl digits' decimal')
        refine .network host digits net' (whole.trans split) (plain 47 rfl digits decimal) literal' ?_ ?_ ?_
        · rw [value]
          exact Int.natCast_nonneg _
        · rw [value]
          exact Int.ofNat_le.mpr inRange'
        · rw [value]
          exact within

theorem aclMatchIp_literal (A : Acl) {host : Bytes} {ip : Ip} (literal : text.corkIpInit host = some ip) :
    aclMatchIp text A host = if A.mode = .whiteList then !A.contains ip else A.contains ip := by
  rw [aclMatchIp, literal]
  cases ip <;> rfl

/-- The list decides as its well-formed lines tell if and only if no other line has an effect
beyond them. -/
theorem initAcl_denotes_iff (text : AddrText) (literals : text.Literals) (overflow : Bytes → Int) (file : Bytes)
    (short : ∀ line ∈ file.splitOn 10, line.length < 255) (mode : AclMode) (fuel : Nat) (enough : file.length + 1 < fuel) :
    ∃ A, initAcl text overflow fuel (some file) mode = some (0, A) ∧
      ((∀ host ip, text.corkIpInit host = some ip →
          (aclMatchIp text A host = true ↔ if mode = .whiteList then ¬ Listed text file ip else Listed text file ip)) ↔
        ∀ line ∈ file.splitOn 10, (∀ ip, ¬ Names text line ip) → ∀ host ip, text.corkIpInit host = some ip →
          Taken text overflow line ip → Listed text file ip) := by
  obtain ⟨A, ran, sameMode, contains⟩ : ∃ A, readAcl text overflow fuel { rest := file }
      { mode, ipv4Set := fun _ => false, ipv6Set := fun _ => false } = some A ∧ A.mode = mode ∧
      ∀ ip, A.contains ip = true ↔ (∃ line ∈ file.splitOn 10, Taken text overflow line ip) ∨
        (Acl.mk mode (fun _ => false) (fun _ => false)).contains ip = true := readAcl_spec literals fuel file _ enough short
  have holds : ∀ ip, A.contains ip = true ↔ ∃ line ∈ file.splitOn 10, Taken text overflow line ip := by
    intro ip
    rw [contains ip]
    exact or_iff_left (by cases ip <;> exact Bool.false_ne_true)
  have listed : ∀ ip, Listed text file ip → A.contains ip = true := by
    rintro ip ⟨line, here, names⟩
    exact (holds ip).mpr ⟨line, here, (taken_iff_names literals names ip).mpr names⟩
  have agrees : ∀ host ip, text.corkIpInit host = some ip →
      ((aclMatchIp text A host = true ↔ if mode = .whiteList then ¬ Listed text file ip else Listed text file ip) ↔
        (A.contains ip = true → Listed text file ip)) := by
    intro host ip literal
    rw [aclMatchIp_literal A literal, sameMode]
    have always := listed ip
    by_cases white : mode = .whiteList
    · rw [if_pos white, if_pos white, Bool.not_eq_true', Bool.eq_false_iff]
      tauto
    · rw [if_neg white, if_neg white]
      tauto
  refine ⟨A, by rw [initAcl, ran]; rfl, ?_⟩
  constructor
  · intro decides line here unnamed host ip literal taken
    exact (agrees host ip literal).mp (decides host ip literal) ((holds ip).mpr ⟨line, here, taken⟩)
  · intro harmless host ip literal
    refine (agrees host ip literal).mpr fun contained => ?_
    obtain ⟨line, here, taken⟩ := (holds ip).mp contained
    by_cases named : ∃ ip', Names text line ip'
    · obtain ⟨ip', names⟩ := named
      exact ⟨line, here, (taken_iff_names literals names ip).mp taken⟩
    · exact harmless line here (not_exists.mp named) host ip literal taken

end

/-- The literals are the texts `1.2.3.4` and `5.6.7.8`. -/
def quadText : AddrText where
  ntop4 := id
  ntop6 := id
  corkIpInit host :=
    if host = ascii "1.2.3.4" then some (.v4 [1, 2, 3, 4])
    else if host = ascii "5.6.7.8" then some (.v4 [5, 6, 7, 8])
    else none
  pton4 _ := none
  pton6 _ := none

theorem quadText_literal {host : Bytes} {ip : Ip} (literal : quadText.corkIpInit host = some ip) :
    host = ascii "1.2.3.4" ∨ host = ascii "5.6.7.8" := by
  simp only [quadText] at literal
  split at literal
  next first => exact .inl first
  next =>
    split at literal
    next second => exact .inr second
    next => cases literal

theorem quadText_literals : quadText.Literals where
  slash host ip literal := by rcases quadText_literal literal with rfl | rfl <;> decide
  zero host ip literal := by rcases quadText_literal literal with rfl | rfl <;> decide
  empty := by decide

theorem initAcl_denotes_iff_two :
    ∃ A, initAcl quadText (fun _ => 0) 21 (some (ascii "1.2.3.4\n5.6.7.8/8\n#")) .whiteList = some (0, A) ∧
      ((∀ host ip, quadText.corkIpInit host = some ip →
          (aclMatchIp quadText A host = true ↔ if AclMode.whiteList = .whiteList then
            ¬ Listed quadText (ascii "1.2.3.4\n5.6.7.8/8\n#") ip else Listed quadText (ascii "1.2.3.4\n5.6.7.8/8\n#") ip)) ↔
        ∀ line ∈ (ascii "1.2.3.4\n5.6.7.8/8\n#").splitOn 10, (∀ ip, ¬ Names quadText line ip) → ∀ host ip,
          quadText.corkIpInit host = some ip → Taken quadText (fun _ => 0) line ip →
            Listed quadText (ascii "1.2.3.4\n5.6.7.8/8\n#") ip) :=
  initAcl_denotes_iff quadText quadText_literals (fun _ => 0) (ascii "1.2.3.4\n5.6.7.8/8\n#") (by decide) .whiteList 21 (by decide)

/-- `atoi` makes 0 of the suffix, and the network of that length is the whole address space. -/
theorem badSuffix_matches_all :
    ∃ A, initAcl quadText (fun _ => 0) 13 (some (ascii "1.2.3.4/abc")) .blackList = some (0, A) ∧
      aclMatchIp quadText A (ascii "5.6.7.8") = true ∧ quadText.corkIpInit (ascii "5.6.7.8") = some (.v4 [5, 6, 7, 8]) ∧
      ¬ Listed quadText (ascii "1.2.3.4/abc") (.v4 [5, 6, 7, 8]) := by
  refine ⟨_, rfl, by decide, by decide, ?_⟩
  rintro ⟨line, here, names⟩
  have only : line = ascii "1.2.3.4" ++ 47 :: ascii "abc" := by
    have lines : (ascii "1.2.3.4/abc").splitOn 10 = [ascii "1.2.3.4" ++ 47 :: ascii "abc"] := by decide
    rw [lines] at here
    exact List.mem_singleton.mp here
  subst only
  rcases names with literal | ⟨host, digits, net, split, nonempty, decimal, -⟩
  · revert literal
    decide
  · have no_slash : ∀ digits : Bytes, (∀ d ∈ digits, isDigit d = true) → 47 ∉ digits := by
      intro digits decimal here
      exact Bool.false_ne_true (decimal 47 here)
    obtain ⟨-, rfl⟩ := slash_inj split (by decide) (no_slash digits decimal)
    exact Bool.false_ne_true (decimal 97 (by decide))

end Shadowsocks
