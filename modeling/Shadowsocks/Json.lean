import Shadowsocks.Lib.Ctype

/-!
# `json.c`

`json_parse_ex` with no settings, that is without comments and without a limit of memory. It
goes over the text twice, to count and then to store, and takes the same way both times; here
it stores at once. What it carries from byte to byte (`top` with its parents, the flags, the
string or the number that is being read) is the state of an automaton, and the end of the text
is a byte 0, as it is in `json_parse_ex`. Lengths stay below 2 ^ 32.
-/

namespace Shadowsocks
set_option autoImplicit false
open Lib

/-- `json_value`; the program reads no number with a fraction. -/
inductive JsonValue where
  | object (values : List (Bytes × JsonValue))
  | array (values : List JsonValue)
  | integer (n : Int64)
  | double
  | string (s : Bytes)
  | boolean (b : Bool)
  | null

/-- White space of JSON. -/
def isJsonSpace (b : UInt8) : Bool := b == 32 || b == 9 || b == 10 || b == 13

namespace Json

/-! ## Numbers -/

/-- A number as far as it has been read. Integers wrap around. -/
structure Number where
  /-- `json_double` rather than `json_integer`. -/
  double : Bool := false
  integer : Int64 := 0
  /-- `num_digits`, since the last sign, point or exponent. -/
  digits : Nat := 0
  negative : Bool := false
  /-- `flag_num_zero`: a leading zero. -/
  zero : Bool := false
  /-- `flag_num_e` and `flag_num_e_got_sign`. -/
  e : Bool := false
  gotSign : Bool := false

def Number.value (n : Number) : JsonValue :=
  if n.double then .double else .integer (if n.negative then -n.integer else n.integer)

/-- The number goes on with a byte, or the byte is the first one behind it (`flag_reproc`). -/
inductive Scan where
  | more (n : Number)
  | ends (v : JsonValue)

/-- A digit: none behind a leading zero. -/
def Number.digit (n : Number) (b : UInt8) : Option Number :=
  let n := { n with digits := n.digits + 1 }
  if n.e then some { n with gotSign := true }
  else if n.double then some n
  else if n.zero then none
  else some { n with zero := n.digits == 1 && b == 48, integer := n.integer * 10 + Int64.ofNat (b.toNat - 48) }

/-- The cases of `json_integer` and `json_double`, none if it is an error. -/
def Number.scan (n : Number) (b : UInt8) : Option Scan :=
  if isDigit b then (n.digit b).map .more
  else if (b = 43 ∨ b = 45) ∧ n.e ∧ ¬ n.gotSign then some (.more { n with gotSign := true })
  else if b = 46 ∧ ¬ n.double then
    -- '-' alone is a number, but not before a point
    if n.digits = 0 then none else some (.more { n with double := true, digits := 0 })
  else if n.e then if n.digits = 0 then none else some (.ends n.value)
  else if n.double ∧ n.digits = 0 then none
  else if b = 101 ∨ b = 69 then some (.more { n with double := true, e := true, digits := 0, zero := false })
  else some (.ends n.value)

/-! ## Strings -/

/-- `hex_value`, none for `0xFF`. -/
def hexValue (c : UInt8) : Option UInt8 :=
  if isDigit c then some (c - 48)
  else if 97 ≤ c ∧ c ≤ 102 then some (c - 87)
  else if 65 ≤ c ∧ c ≤ 70 then some (c - 55)
  else none

/-- What `\u` adds to a string. Surrogates are not looked for. -/
def unicode (uc₁ uc₂ : UInt8) : Bytes :=
  if uc₁ = 0 ∧ uc₂ ≤ 0x7F then [uc₂]
  else if 256 * uc₁.toNat + uc₂.toNat ≤ 0x7FF then
    [(0xC0 : UInt8) ||| ((uc₂ &&& 0xC0) >>> 6) ||| ((uc₁ &&& 0x7) <<< 2), (0x80 : UInt8) ||| (uc₂ &&& 0x3F)]
  else
    [(0xE0 : UInt8) ||| ((uc₁ &&& 0xF0) >>> 4), (0x80 : UInt8) ||| ((uc₁ &&& 0xF) <<< 2) ||| ((uc₂ &&& 0xC0) >>> 6), (0x80 : UInt8) ||| (uc₂ &&& 0x3F)]

/-- The other escapes. A byte that means nothing behind a backslash stands for itself. -/
def unescape (b : UInt8) : UInt8 :=
  if b = 98 then 8 else if b = 102 then 12 else if b = 110 then 10 else if b = 114 then 13 else if b = 116 then 9 else b

/-! ## The automaton -/

/-- An object or an array that is still open, with its values so far; of an object the name
read last. -/
inductive Open where
  | object (values : List (Bytes × JsonValue)) (name : Bytes)
  | array (values : List JsonValue)

inductive Reading where
  /-- `flag_seek_value`, with `flag_need_comma` and `flag_need_colon`. -/
  | seek (needComma needColon : Bool)
  /-- In an object and not at a value. -/
  | members (needComma : Bool)
  /-- `flag_string`, for a name or a value. -/
  | string (name : Bool) (s : Bytes)
  /-- `flag_escaped`. -/
  | escaped (name : Bool) (s : Bytes)
  /-- Behind `\u`, with the digits read so far. -/
  | unit (name : Bool) (s digits : Bytes)
  /-- In `true`, `false` or `null`, with what is still to come. -/
  | word (rest : Bytes) (v : JsonValue)
  | number (n : Number)
  /-- `flag_done`. -/
  | done (v : JsonValue)
  /-- The loop has ended, whatever is behind. -/
  | ended (v : JsonValue)

structure State where
  opens : List Open
  reading : Reading

/-- `flag_next`: a value is complete and goes to its parent. -/
def next (opens : List Open) (v : JsonValue) : State :=
  match opens with
  | [] => ⟨[], .done v⟩
  | .object values name :: opens => ⟨.object (values ++ [(name, v)]) name :: opens, .members true⟩
  | .array values :: opens => ⟨.array (values ++ [v]) :: opens, .seek true false⟩

/-- The quotation mark that ends a string. -/
def endString (opens : List Open) (name : Bool) (s : Bytes) : Option State :=
  match name, opens with
  | false, opens => some (next opens (.string s))
  | true, .object values _ :: opens => some ⟨.object values s :: opens, .seek false true⟩
  | true, _ => none

/-- The first byte of a value. A digit is read again as part of its number. -/
def beginValue (opens : List Open) (b : UInt8) : Option State :=
  if b = 123 then some ⟨.object [] [] :: opens, .members false⟩
  else if b = 91 then some ⟨.array [] :: opens, .seek false false⟩
  else if b = 34 then some ⟨opens, .string false []⟩
  else if b = 116 then some ⟨opens, .word (ascii "rue") (.boolean true)⟩
  else if b = 102 then some ⟨opens, .word (ascii "alse") (.boolean false)⟩
  else if b = 110 then some ⟨opens, .word (ascii "ull") .null⟩
  else if b = 45 then some ⟨opens, .number { negative := true }⟩
  else if isDigit b then (({} : Number).digit b).map fun n => ⟨opens, .number n⟩
  else none

/-- A byte between values, names and punctuation. A `]` where nothing is open, at which the
code reads through a null pointer, is an error like any other. -/
def between (opens : List Open) (reading : Reading) (b : UInt8) : Option State :=
  match reading with
  | .done v =>
    if b = 0 then some ⟨opens, .ended v⟩ else if isJsonSpace b then some ⟨opens, .done v⟩ else none
  | .ended v => some ⟨opens, .ended v⟩
  | .seek needComma needColon =>
    if isJsonSpace b then some ⟨opens, .seek needComma needColon⟩
    else if b = 93 then
      match opens with
      | .array values :: opens => some (next opens (.array values))
      | _ => none
    else if needComma then if b = 44 then some ⟨opens, .seek false needColon⟩ else none
    else if needColon then if b = 58 then some ⟨opens, .seek false false⟩ else none
    else beginValue opens b
  | .members needComma =>
    if isJsonSpace b then some ⟨opens, .members needComma⟩
    else if b = 34 then if needComma then none else some ⟨opens, .string true []⟩
    else if b = 125 then
      match opens with
      | .object values _ :: opens => some (next opens (.object values))
      | _ => none
    else if b = 44 ∧ needComma then some ⟨opens, .members false⟩
    else none
  | _ => none

/-- One turn of the loop, none if it is an error. -/
def step (s : State) (b : UInt8) : Option State :=
  match s.reading with
  | .string name str =>
    if b = 0 then none
    else if b = 92 then some ⟨s.opens, .escaped name str⟩
    else if b = 34 then endString s.opens name str
    else some ⟨s.opens, .string name (str ++ [b])⟩
  | .escaped name str =>
    if b = 0 then none
    else if b = 117 then some ⟨s.opens, .unit name str []⟩
    else some ⟨s.opens, .string name (str ++ [unescape b])⟩
  | .unit name str digits =>
    (hexValue b).map fun d =>
      match digits with
      | [a, b, c] => ⟨s.opens, .string name (str ++ unicode (a * 16 + b) (c * 16 + d))⟩
      | _ => ⟨s.opens, .unit name str (digits ++ [d])⟩
  | .word rest v =>
    if rest.head? ≠ some b then none
    else if rest.tail = [] then some (next s.opens v)
    else some ⟨s.opens, .word rest.tail v⟩
  | .number n =>
    match n.scan b with
    | some (.more n) => some ⟨s.opens, .number n⟩
    | some (.ends v) => between (next s.opens v).opens (next s.opens v).reading b
    | none => none
  | reading => between s.opens reading b

def start : State := ⟨[], .seek false false⟩

/-- The value of a state at the end of the text. -/
def State.value (s : State) : Option JsonValue :=
  match s.reading with
  | .ended v => some v
  | _ => none

/-- The UTF-8 BOM. -/
def bom : Bytes := [0xEF, 0xBB, 0xBF]

end Json

/-- `json_parse_ex`: none if it reports an error. -/
def jsonParseEx (json : Bytes) : Option JsonValue :=
  let text := if Json.bom.isPrefixOf json then json.drop 3 else json
  ((text ++ [0]).foldlM Json.step Json.start).bind Json.State.value

/-! ## White space before an object -/

/-- `json_parse_ex` as a parameter of the programs that call it. -/
structure JsonParser where
  parse : Bytes → Option JsonValue

/-- White space before an object is no part of it. -/
structure JsonParser.Lawful (json : JsonParser) : Prop where
  skip : ∀ b text, isJsonSpace b = true → text.head? = some 123 → json.parse (b :: text) = json.parse text

/-- The one that the repository has. -/
def jsonC : JsonParser := ⟨jsonParseEx⟩

theorem jsonC_lawful : jsonC.Lawful where
  skip b text space brace := by
    obtain ⟨rest, rfl⟩ := List.head?_eq_some_iff.mp brace
    have noBom : ∀ c tail, c ≠ 0xEF → Json.bom.isPrefixOf (c :: tail) = false := by
      intro c tail other
      have first : (0xEF == c) = false := beq_false_of_ne (Ne.symm other)
      rw [Json.bom, List.isPrefixOf, first]
      rfl
    have blank : b ≠ 0xEF := by
      rintro rfl
      cases space
    have stays : Json.step Json.start b = some Json.start := if_pos space
    show jsonParseEx (b :: 123 :: rest) = jsonParseEx (123 :: rest)
    rw [jsonParseEx, jsonParseEx, noBom b _ blank, noBom 123 _ (by decide)]
    simp only [Bool.false_eq_true, if_false, List.cons_append]
    rw [List.foldlM_cons, stays]
    rfl

end Shadowsocks
