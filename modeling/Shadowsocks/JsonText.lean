import Shadowsocks.Json
import Shadowsocks.Lib.Quoted

/-!
# What `json_parse_ex` reads

The automaton goes along with the search for the strings of the text (`step_along`), so each
string of the value is one of them, with its escapes taken out. In the other direction, what a
writer puts between quotation marks without a special byte is read as it is, and so are the
decimal forms of numbers.
-/

namespace Shadowsocks
set_option autoImplicit false
open Lib Lib.Quoted

/-- All strings in a value have `P`. -/
inductive JsonValue.Strings (P : Bytes → Prop) : JsonValue → Prop where
  | object {values : List (Bytes × JsonValue)} : (∀ p ∈ values, p.2.Strings P) → Strings P (.object values)
  | array {values : List JsonValue} : (∀ v ∈ values, v.Strings P) → Strings P (.array values)
  | integer (n : Int64) : Strings P (.integer n)
  | double : Strings P .double
  | string {s : Bytes} : P s → Strings P (.string s)
  | boolean (b : Bool) : Strings P (.boolean b)
  | null : Strings P .null

namespace Json

/-! ## The strings of a state -/

/-- The strings of the values that have been read inside an open object or array. -/
def Open.Strings (P : Bytes → Prop) : Open → Prop
  | .object values _ => ∀ p ∈ values, p.2.Strings P
  | .array values => ∀ v ∈ values, v.Strings P

def Reading.Strings (P : Bytes → Prop) : Reading → Prop
  | .word _ v | .done v | .ended v => v.Strings P
  | _ => True

/-- All strings that a state holds. -/
structure State.Strings (P : Bytes → Prop) (s : State) : Prop where
  opens : ∀ o ∈ s.opens, o.Strings P
  reading : s.reading.Strings P

/-- A value that is complete goes to what is open around it. -/
theorem next_strings {P : Bytes → Prop} {opens : List Open} {v : JsonValue} (inside : ∀ o ∈ opens, o.Strings P)
    (value : v.Strings P) : (next opens v).Strings P := by
  cases opens with
  | nil => exact ⟨inside, value⟩
  | cons o opens =>
    have outer : ∀ o ∈ opens, o.Strings P := fun o here => inside o (List.mem_cons_of_mem _ here)
    have own := inside o List.mem_cons_self
    cases o with
    | object values name =>
      refine ⟨List.forall_mem_cons.mpr ⟨?_, outer⟩, trivial⟩
      exact List.forall_mem_append.mpr ⟨own, List.forall_mem_singleton.mpr value⟩
    | array values =>
      refine ⟨List.forall_mem_cons.mpr ⟨?_, outer⟩, trivial⟩
      exact List.forall_mem_append.mpr ⟨own, List.forall_mem_singleton.mpr value⟩

/-! ## The strings of the text -/

/-- The mode of the search for strings in which the parser is. Behind a string it asks for a
comma or a colon, or it is done. -/
inductive Seen : Reading → Mode → Prop where
  | string {name : Bool} {s raw : Bytes} : Writes raw s → Seen (.string name s) (.inside raw)
  | escaped {name : Bool} {s raw : Bytes} : Writes raw s → Seen (.escaped name s) (.escaped (raw ++ [92]))
  | unit {name : Bool} {s raw digits written : Bytes} : Writes raw s → written.length = digits.length → digits.length < 4 →
      Seen (.unit name s digits) (.inside (raw ++ ([92, 117] ++ written)))
  | word {rest : Bytes} {v : JsonValue} : (∀ b ∈ rest, b ≠ 34 ∧ b ≠ 0) → Seen (.word rest v) .outside
  | number (n : Number) : Seen (.number n) .outside
  | seek (needComma needColon : Bool) : Seen (.seek needComma needColon) .outside
  | behindItem {needComma needColon : Bool} : needComma = true ∨ needColon = true → Seen (.seek needComma needColon) .behind
  | members (needComma : Bool) : Seen (.members needComma) .outside
  | behindMember : Seen (.members true) .behind
  | done (v : JsonValue) : Seen (.done v) .outside
  | behindText (v : JsonValue) : Seen (.done v) .behind
  | ended (v : JsonValue) : Seen (.ended v) .finished

/-- The search takes the byte, too, and what holds of the strings that it completes holds of
the parser's. -/
def Along (mode : Mode) (b : UInt8) (s s' : State) : Prop :=
  ∃ mode' raws, mode.next b = some (mode', raws) ∧ Seen s'.reading mode' ∧
    ∀ P : Bytes → Prop, (∀ raw ∈ raws, ∀ str, Encodes raw str → P str) → s.Strings P → s'.Strings P

section
variable {mode mode' : Mode} {b : UInt8} {s s' : State} {opens : List Open} {reading : Reading} {v : JsonValue}

/-- The search finds nothing at this byte. -/
theorem Along.silent (next : mode.next b = some (mode', [])) (seen : Seen s'.reading mode')
    (strings : ∀ P : Bytes → Prop, s.Strings P → s'.Strings P) : Along mode b s s' :=
  ⟨mode', [], next, seen, fun P _ => strings P⟩

/-- A byte of the text outside of strings, where no string has just ended. -/
theorem next_outside (noQuote : b ≠ 34) (noZero : b ≠ 0) : Mode.next .outside b = some (.outside, []) := by
  rw [Mode.next, if_neg noQuote, if_neg noZero]

/-- Punctuation, wherever it is allowed. -/
theorem next_punct (at_ : mode = .outside ∨ mode = .behind) (punct : isPunct b = true) : mode.next b = some (.outside, []) := by
  have noZero : b ≠ 0 := by
    rintro rfl
    cases punct
  have noQuote : b ≠ 34 := by
    rintro rfl
    cases punct
  rcases at_ with rfl | rfl
  · exact next_outside noQuote noZero
  · rw [Mode.next, if_neg noZero, if_pos punct]

/-- White space separates. -/
theorem punct_of_space (space : isJsonSpace b = true) : isPunct b = true := by
  unfold isJsonSpace at space
  unfold isPunct
  rw [space]
  rfl

/-- Before a value the search is outside of the literals, or right behind one. -/
theorem Seen.place {needComma needColon : Bool} (seen : Seen (.seek needComma needColon) mode) :
    mode = .outside ∨ mode = .behind := by
  cases seen with
  | seek => exact .inl rfl
  | behindItem => exact .inr rfl

theorem Seen.member_place {needComma : Bool} (seen : Seen (.members needComma) mode) : mode = .outside ∨ mode = .behind := by
  cases seen with
  | members => exact .inl rfl
  | behindMember => exact .inr rfl

/-- A complete value is followed by punctuation. -/
theorem next_seen (opens : List Open) (v : JsonValue) :
    Seen (next opens v).reading .outside ∧ Seen (next opens v).reading .behind := by
  cases opens with
  | nil => exact ⟨.done v, .behindText v⟩
  | cons o opens =>
    cases o with
    | object values name => exact ⟨.members true, .behindMember⟩
    | array values => exact ⟨.seek true false, .behindItem (.inl rfl)⟩

/-- The first byte of a value: only a quote is of interest to the search. -/
theorem beginValue_along (begun : beginValue opens b = some s') : Along .outside b ⟨opens, .seek false false⟩ s' := by
  have letters : (∀ b ∈ ascii "rue", b ≠ 34 ∧ b ≠ 0) ∧ (∀ b ∈ ascii "alse", b ≠ 34 ∧ b ≠ 0) ∧
      ∀ b ∈ ascii "ull", b ≠ 34 ∧ b ≠ 0 := by simp [ascii]
  have nested : ∀ {P : Bytes → Prop} {o : Open} {reading : Reading}, o.Strings P → reading.Strings P →
      State.Strings P ⟨opens, .seek false false⟩ → State.Strings P ⟨o :: opens, reading⟩ :=
    fun own reading strings => ⟨List.forall_mem_cons.mpr ⟨own, strings.opens⟩, reading⟩
  unfold beginValue at begun
  split_ifs at begun with object array string true_ false_ null minus digit
  · cases begun
    subst object
    exact .silent (next_outside (by decide) (by decide)) (.members false)
      fun P => nested (fun p no => absurd no List.not_mem_nil) trivial
  · cases begun
    subst array
    exact .silent (next_outside (by decide) (by decide)) (.seek false false)
      fun P => nested (fun p no => absurd no List.not_mem_nil) trivial
  · cases begun
    subst string
    exact .silent rfl (.string .nil) fun P strings => ⟨strings.opens, trivial⟩
  · cases begun
    subst true_
    exact .silent (next_outside (by decide) (by decide)) (.word letters.1) fun P strings => ⟨strings.opens, .boolean true⟩
  · cases begun
    subst false_
    exact .silent (next_outside (by decide) (by decide)) (.word letters.2.1) fun P strings => ⟨strings.opens, .boolean false⟩
  · cases begun
    subst null
    exact .silent (next_outside (by decide) (by decide)) (.word letters.2.2) fun P strings => ⟨strings.opens, .null⟩
  · cases begun
    subst minus
    exact .silent (next_outside (by decide) (by decide)) (.number _) fun P strings => ⟨strings.opens, trivial⟩
  · obtain ⟨n, -, rfl⟩ := Option.map_eq_some_iff.mp begun
    have noZero : b ≠ 0 := by
      rintro rfl
      cases digit
    exact .silent (next_outside string noZero) (.number n) fun P strings => ⟨strings.opens, trivial⟩

/-- Between values: brackets, commas, colons and white space. The separators are of no interest to
the search, and neither is what opens or closes a value; only a quote is. -/
theorem between_along (stepped : between opens reading b = some s') (seen : Seen reading mode) :
    Along mode b ⟨opens, reading⟩ s' := by
  unfold between at stepped
  split at stepped
  next v =>
    have at_ : mode = .outside ∨ mode = .behind := by
      cases seen with
      | done => exact .inl rfl
      | behindText => exact .inr rfl
    split_ifs at stepped with zero space
    · cases stepped
      subst zero
      refine .silent ?_ (.ended v) fun P strings => ⟨strings.opens, strings.reading⟩
      rcases at_ with rfl | rfl <;> rfl
    · cases stepped
      exact .silent (next_punct at_ (punct_of_space space)) (.done v) fun P strings => strings
  next v =>
    cases stepped
    cases seen with
    | ended => exact .silent rfl (.ended v) fun P strings => strings
  next needComma needColon =>
    split_ifs at stepped with space bracket comma isComma colon isColon
    · cases stepped
      exact .silent (next_punct seen.place (punct_of_space space)) (.seek needComma needColon) fun P strings => strings
    · split at stepped
      next values opens' =>
        cases stepped
        subst bracket
        refine .silent (next_punct seen.place rfl) (next_seen opens' _).1 fun P strings => ?_
        obtain ⟨own, outer⟩ := List.forall_mem_cons.mp strings.opens
        exact next_strings outer (.array own)
      next => cases stepped
    · cases stepped
      subst isComma
      exact .silent (next_punct seen.place rfl) (.seek false needColon) fun P strings => ⟨strings.opens, trivial⟩
    · cases stepped
      subst isColon
      exact .silent (next_punct seen.place rfl) (.seek false false) fun P strings => ⟨strings.opens, trivial⟩
    · cases seen with
      | seek =>
        obtain ⟨rfl, rfl⟩ : needComma = false ∧ needColon = false := ⟨by simpa using comma, by simpa using colon⟩
        exact beginValue_along stepped
      | behindItem needs =>
        rcases needs with need | need
        · exact absurd need comma
        · exact absurd need colon
  next needComma =>
    split_ifs at stepped with space quote need brace isComma
    · cases stepped
      exact .silent (next_punct seen.member_place (punct_of_space space)) (.members needComma) fun P strings => strings
    · cases stepped
      subst quote
      cases seen with
      | members => exact .silent rfl (.string .nil) fun P strings => ⟨strings.opens, trivial⟩
      | behindMember => exact absurd rfl need
    · split at stepped
      next values name opens' =>
        cases stepped
        subst brace
        refine .silent (next_punct seen.member_place rfl) (next_seen opens' _).1 fun P strings => ?_
        obtain ⟨own, outer⟩ := List.forall_mem_cons.mp strings.opens
        exact next_strings outer (.object own)
      next => cases stepped
    · cases stepped
      obtain ⟨rfl, -⟩ := isComma
      exact .silent (next_punct seen.member_place rfl) (.members false) fun P strings => ⟨strings.opens, trivial⟩
  next => cases stepped

/-- A hexadecimal digit needs no escape. -/
theorem hexValue_plain {c d : UInt8} (value : hexValue c = some d) : ¬ Special c := by
  rintro (rfl | rfl | rfl) <;> cases value

/-- An escape of six bytes stands for three at most. -/
theorem length_unicode_le (uc₁ uc₂ : UInt8) : (unicode uc₁ uc₂).length ≤ 3 := by
  unfold unicode
  split_ifs
  · exact Nat.le_of_ble_eq_true rfl
  · exact Nat.le_of_ble_eq_true rfl
  · exact Nat.le_refl 3

/-- A plain byte is one more of the literal. -/
theorem next_inside (plain : ¬ Special b) (raw : Bytes) : Mode.next (.inside raw) b = some (.inside (raw ++ [b]), []) := by
  obtain ⟨noZero, noQuote, noEscape⟩ : b ≠ 0 ∧ b ≠ 34 ∧ b ≠ 92 := by
    rw [Special, not_or, not_or] at plain
    exact plain
  rw [Mode.next, if_neg noZero, if_neg noQuote, if_neg noEscape]

/-- The end of a string, whose characters may be escaped where it is written. -/
theorem endString_along {name : Bool} {str raw : Bytes} (ended : endString opens name str = some s') (writes : Writes raw str) :
    Along (.inside raw) 34 ⟨opens, .string name str⟩ s' := by
  refine ⟨.behind, [raw], rfl, ?_⟩
  cases name with
  | false =>
    cases ended
    refine ⟨(next_seen opens _).2, fun P each strings => next_strings strings.opens (.string ?_)⟩
    exact each raw List.mem_cons_self str writes.encodes
  | true =>
    cases opens with
    | nil => cases ended
    | cons o opens =>
      cases o with
      | object values _ =>
        cases ended
        refine ⟨.behindItem (.inr rfl), fun P _ strings => ⟨?_, trivial⟩⟩
        obtain ⟨own, outer⟩ := List.forall_mem_cons.mp strings.opens
        exact List.forall_mem_cons.mpr ⟨own, outer⟩
      | array values => cases ended

/-- A number goes on with bytes that are of no interest to the search. -/
theorem scan_more {n n' : Number} (scanned : n.scan b = some (.more n')) : b ≠ 34 ∧ b ≠ 0 := by
  constructor
  · rintro rfl
    unfold Number.scan at scanned
    rw [if_neg (by decide), if_neg (by simp), if_neg (by simp)] at scanned
    split_ifs at scanned <;> simp_all
  · rintro rfl
    unfold Number.scan at scanned
    rw [if_neg (by decide), if_neg (by simp), if_neg (by simp)] at scanned
    split_ifs at scanned <;> simp_all

/-- Whatever ends a number, its value is the one that has been read. -/
theorem scan_ends {n : Number} (ends : n.scan b = some (.ends v)) : v = n.value := by
  unfold Number.scan at ends
  split_ifs at ends <;> simp_all

theorem value_strings (n : Number) (P : Bytes → Prop) : n.value.Strings P := by
  unfold Number.value
  split
  · exact .double
  · exact .integer _

/-- Inside a string reader and search go byte by byte. -/
theorem string_along {name : Bool} {str : Bytes} (stepped : step ⟨opens, .string name str⟩ b = some s')
    (seen : Seen (.string name str) mode) : Along mode b ⟨opens, .string name str⟩ s' := by
  cases seen with
  | @string _ _ raw writes =>
    unfold step at stepped
    dsimp only at stepped
    split_ifs at stepped with zero escape quote
    · cases stepped
      subst escape
      exact .silent rfl (.escaped writes) fun P strings => ⟨strings.opens, trivial⟩
    · subst quote
      exact endString_along stepped writes
    · cases stepped
      have plain : ¬ Special b := by
        rintro (no | no | no)
        · exact zero no
        · exact quote no
        · exact escape no
      exact .silent (next_inside plain raw) (.string (writes.unescaped plain)) fun P strings => ⟨strings.opens, trivial⟩

/-- An escape is longer than what it stands for, but for the four digits that may follow. -/
theorem escaped_along {name : Bool} {str : Bytes} (stepped : step ⟨opens, .escaped name str⟩ b = some s')
    (seen : Seen (.escaped name str) mode) : Along mode b ⟨opens, .escaped name str⟩ s' := by
  cases seen with
  | @escaped _ _ raw writes =>
    unfold step at stepped
    dsimp only at stepped
    split_ifs at stepped with zero unit
    · cases stepped
      subst unit
      have more : Seen (.unit name str []) (.inside (raw ++ ([92, 117] ++ []))) := .unit writes rfl (by decide)
      rw [show raw ++ ([92, 117] ++ []) = raw ++ [92] ++ [117] from (List.append_assoc raw [92] [117]).symm] at more
      exact .silent rfl more fun P strings => ⟨strings.opens, trivial⟩
    · cases stepped
      have longer : Writes (raw ++ [92, b]) (str ++ [unescape b]) := writes.escaped Nat.one_lt_two List.mem_cons_self
      rw [show raw ++ [92, b] = raw ++ [92] ++ [b] from (List.append_assoc raw [92] [b]).symm] at longer
      refine .silent ?_ (.string longer) fun P strings => ⟨strings.opens, trivial⟩
      rw [Mode.next, if_neg zero]

/-- The fourth digit adds at most three bytes for six. -/
theorem unit_along {name : Bool} {str digits : Bytes} (stepped : step ⟨opens, .unit name str digits⟩ b = some s')
    (seen : Seen (.unit name str digits) mode) : Along mode b ⟨opens, .unit name str digits⟩ s' := by
  cases seen with
  | @unit _ _ raw _ written writes same few =>
    obtain ⟨d, value, rfl⟩ := Option.map_eq_some_iff.mp stepped
    have next := next_inside (hexValue_plain value) (raw ++ ([92, 117] ++ written))
    rw [show raw ++ ([92, 117] ++ written) ++ [b] = raw ++ ([92, 117] ++ (written ++ [b])) by simp] at next
    have length : (written ++ [b]).length = digits.length + 1 := by rw [List.length_append, same, List.length_singleton]
    split
    next a b' c =>
      refine .silent next (.string (writes.escaped ?_ List.mem_cons_self)) fun P strings => ⟨strings.opens, trivial⟩
      have short := length_unicode_le (a * 16 + b') (c * 16 + d)
      rw [List.length_append, length]
      exact Nat.lt_of_le_of_lt short (by simp)
    next fewer =>
      refine .silent next (.unit writes ?_ ?_) fun P strings => ⟨strings.opens, trivial⟩
      · rw [length, List.length_append, List.length_singleton]
      · have three : digits.length ≠ 3 := by
          intro three
          obtain ⟨x, y, z, rfl⟩ := List.length_eq_three.mp three
          exact fewer x y z rfl
        rw [List.length_append, List.length_singleton]
        omega

/-- `true`, `false` and `null` have no quote. -/
theorem word_along {rest : Bytes} (stepped : step ⟨opens, .word rest v⟩ b = some s') (seen : Seen (.word rest v) mode) :
    Along mode b ⟨opens, .word rest v⟩ s' := by
  cases seen with
  | word letters =>
    unfold step at stepped
    dsimp only at stepped
    split_ifs at stepped with other last
    all_goals
      cases stepped
      obtain ⟨rest', rfl⟩ := List.head?_eq_some_iff.mp (not_not.mp other)
      obtain ⟨noQuote, noZero⟩ := letters b List.mem_cons_self
    · exact .silent (next_outside noQuote noZero) (next_seen opens v).1 fun P strings => next_strings strings.opens strings.reading
    · exact .silent (next_outside noQuote noZero) (.word fun b here => letters b (List.mem_cons_of_mem _ here))
        fun P strings => ⟨strings.opens, strings.reading⟩

/-- The byte behind a number is read again, behind the number's value. -/
theorem number_along {n : Number} (stepped : step ⟨opens, .number n⟩ b = some s') (seen : Seen (.number n) mode) :
    Along mode b ⟨opens, .number n⟩ s' := by
  cases seen with
  | number =>
    unfold step at stepped
    dsimp only at stepped
    split at stepped
    next n' scanned =>
      cases stepped
      exact .silent (next_outside (scan_more scanned).1 (scan_more scanned).2) (.number n') fun P strings => ⟨strings.opens, trivial⟩
    next v ends =>
      obtain ⟨mode', raws, next', seen', keep⟩ := between_along stepped (next_seen opens v).1
      refine ⟨mode', raws, next', seen', fun P each strings => keep P each (next_strings strings.opens ?_)⟩
      rw [scan_ends ends]
      exact value_strings n P
    next => cases stepped

/-- One turn of the loop goes along with the search. -/
theorem step_along (stepped : step s b = some s') (seen : Seen s.reading mode) : Along mode b s s' := by
  obtain ⟨opens, reading⟩ := s
  cases reading with
  | string name str => exact string_along stepped seen
  | escaped name str => exact escaped_along stepped seen
  | unit name str digits => exact unit_along stepped seen
  | word rest v => exact word_along stepped seen
  | number n => exact number_along stepped seen
  | seek needComma needColon => exact between_along stepped seen
  | members needComma => exact between_along stepped seen
  | done v => exact between_along stepped seen
  | ended v => exact between_along stepped seen

/-- A whole text. -/
theorem run_along {text : Bytes} (ran : text.foldlM step s = some s') {v : JsonValue} (ended : s'.reading = .ended v)
    (seen : Seen s.reading mode) :
    ∃ raws, literals mode text = some raws ∧
      ∀ P : Bytes → Prop, (∀ raw ∈ raws, ∀ str, Encodes raw str → P str) → s.Strings P → s'.Strings P := by
  induction text generalizing s mode with
  | nil =>
    cases ran
    rw [ended] at seen
    cases seen with
    | ended => exact ⟨[], rfl, fun P _ strings => strings⟩
  | cons b text ih =>
    rw [List.foldlM_cons] at ran
    obtain ⟨s₁, stepped, ran⟩ := Option.bind_eq_some_iff.mp ran
    obtain ⟨mode₁, raws₁, next, seen₁, keep₁⟩ := step_along stepped seen
    obtain ⟨raws, found, keep⟩ := ih ran seen₁
    refine ⟨raws₁ ++ raws, ?_, fun P each strings => ?_⟩
    · rw [literals_next next, found]
      rfl
    · exact keep P (fun raw here => each raw (List.mem_append_right _ here))
        (keep₁ P (fun raw here => each raw (List.mem_append_left _ here)) strings)

end

/-! ## What is read as it is written -/

section
variable (opens : List Open)

/-- The three bytes that are special in a string. -/
theorem step_string (name : Bool) (str : Bytes) (b : UInt8) :
    step ⟨opens, .string name str⟩ b =
      if b = 0 then none
      else if b = 92 then some ⟨opens, .escaped name str⟩
      else if b = 34 then endString opens name str
      else some ⟨opens, .string name (str ++ [b])⟩ := rfl

/-- The byte behind a number is read again as what is between values. -/
theorem step_number (n : Number) (b : UInt8) :
    step ⟨opens, .number n⟩ b =
      match n.scan b with
      | some (.more n) => some ⟨opens, .number n⟩
      | some (.ends v) => between (next opens v).opens (next opens v).reading b
      | none => none := rfl

/-- Bytes of a string that stand for themselves. -/
theorem run_plain (name : Bool) {w : Bytes} (plain : ∀ b ∈ w, ¬ Special b) (str rest : Bytes) :
    (w ++ rest).foldlM step ⟨opens, .string name str⟩ = rest.foldlM step ⟨opens, .string name (str ++ w)⟩ := by
  induction w generalizing str with
  | nil => rw [List.nil_append, List.append_nil]
  | cons b w ih =>
    have own := plain b List.mem_cons_self
    obtain ⟨noZero, noQuote, noEscape⟩ : b ≠ 0 ∧ b ≠ 34 ∧ b ≠ 92 := by
      rw [Special, not_or, not_or] at own
      exact own
    have stepped : step ⟨opens, .string name str⟩ b = some ⟨opens, .string name (str ++ [b])⟩ := by
      rw [step_string, if_neg noZero, if_neg noEscape, if_neg noQuote]
    rw [List.cons_append, List.foldlM_cons, stepped]
    refine (ih (fun b here => plain b (List.mem_cons_of_mem _ here)) _).trans ?_
    rw [List.append_assoc]
    rfl

/-- What ends a number. -/
def EndsNumber (b : UInt8) : Prop := isDigit b = false ∧ b ≠ 46 ∧ b ≠ 101 ∧ b ≠ 69

instance (b : UInt8) : Decidable (EndsNumber b) := inferInstanceAs (Decidable (_ ∧ _))

/-- An integer that has begun, without a leading zero. -/
def Number.counting (negative : Bool) (digits : Nat) (integer : Int64) : Number := { negative, digits, integer }

/-- The bytes that end an integer. -/
theorem scan_end {n : Number} (integer : n.double = false ∧ n.e = false) {b : UInt8} (ends : EndsNumber b) :
    n.scan b = some (.ends n.value) := by
  obtain ⟨noDigit, noPoint, noSmall, noBig⟩ := ends
  obtain ⟨noDouble, noE⟩ := integer
  rw [Number.scan, if_neg (by rw [noDigit]; exact Bool.false_ne_true), if_neg (by simp [noE]), if_neg (fun both => noPoint both.1),
    if_neg (by simp [noE]), if_neg (by simp [noDouble]), if_neg (by rintro (no | no); exacts [noSmall no, noBig no])]

/-- The byte behind an integer is read as the byte behind a value. -/
theorem run_end {n : Number} (integer : n.double = false ∧ n.e = false) {b : UInt8} (ends : EndsNumber b) (rest : Bytes) :
    (b :: rest).foldlM step ⟨opens, .number n⟩ = (b :: rest).foldlM step (next opens n.value) := by
  have closed : step ⟨opens, .number n⟩ b = between (next opens n.value).opens (next opens n.value).reading b := by
    rw [step_number, scan_end integer ends]
  have between_ : step (next opens n.value) b = between (next opens n.value).opens (next opens n.value).reading b := by
    cases opens with
    | nil => rfl
    | cons o opens => cases o <;> rfl
  rw [List.foldlM_cons, List.foldlM_cons, closed, between_]

/-- Digits are read as the number that they write, modulo 2 ^ 64. -/
theorem run_digits {ds : Bytes} (digits : ∀ d ∈ ds, isDigit d = true) (negative : Bool) {k : Nat} (some_ : 1 ≤ k) (m : Nat)
    (rest : Bytes) :
    (ds ++ rest).foldlM step ⟨opens, .number (.counting negative k (Int64.ofNat m))⟩ =
      rest.foldlM step ⟨opens, .number (.counting negative (k + ds.length)
        (Int64.ofNat (ds.foldl (fun n d => 10 * n + (d.toNat - 48)) m)))⟩ := by
  induction ds generalizing k m with
  | nil => rfl
  | cons d ds ih =>
    have digit := digits d List.mem_cons_self
    have more : (Number.counting negative k (Int64.ofNat m)).scan d =
        some (.more (.counting negative (k + 1) (Int64.ofNat (10 * m + (d.toNat - 48))))) := by
      have one : (k + 1 == 1) = false := beq_false_of_ne (by omega)
      have carried : Int64.ofNat (10 * m + (d.toNat - 48)) = Int64.ofNat m * 10 + Int64.ofNat (d.toNat - 48) := by
        rw [Int64.ofNat_add, Int64.ofNat_mul, Int64.mul_comm]
        rfl
      rw [Number.scan, if_pos digit, carried]
      simp [Number.digit, Number.counting, one]
    have stepped : step ⟨opens, .number (.counting negative k (Int64.ofNat m))⟩ d =
        some ⟨opens, .number (.counting negative (k + 1) (Int64.ofNat (10 * m + (d.toNat - 48))))⟩ := by
      rw [step_number, more]
    rw [List.cons_append, List.foldlM_cons, stepped]
    refine (ih (fun d here => digits d (List.mem_cons_of_mem _ here)) (Nat.le_succ_of_le some_) _).trans ?_
    rw [List.length_cons, Nat.succ_add_eq_add_succ]
    rfl

theorem step_digit (n : Number) {d : UInt8} (digit : isDigit d = true) :
    step ⟨opens, .number n⟩ d = (n.digit d).map fun n => ⟨opens, .number n⟩ := by
  have scanned : n.scan d = (n.digit d).map .more := if_pos digit
  rw [step_number, scanned]
  cases n.digit d <;> rfl

theorem digit_ne {c d : UInt8} (digit : isDigit d = true) (other : isDigit c = false) : d ≠ c := by
  rintro rfl
  rw [digit] at other
  cases other

/-- A digit where a value is sought begins a number. -/
theorem step_firstDigit {d : UInt8} (digit : isDigit d = true) :
    step ⟨opens, .seek false false⟩ d = (({} : Number).digit d).map fun n => ⟨opens, .number n⟩ := by
  have ne : ∀ {c : UInt8}, isDigit c = false → d ≠ c := digit_ne digit
  have space : ¬ isJsonSpace d = true := by
    simp [isJsonSpace, ne (show isDigit 32 = false from rfl), ne (show isDigit 9 = false from rfl),
      ne (show isDigit 10 = false from rfl), ne (show isDigit 13 = false from rfl)]
  have sought : between opens (.seek false false) d = beginValue opens d := by
    unfold between
    dsimp only
    rw [if_neg space, if_neg (ne rfl)]
    rfl
  show between opens (.seek false false) d = _
  rw [sought, beginValue, if_neg (ne rfl), if_neg (ne rfl), if_neg (ne rfl), if_neg (ne rfl), if_neg (ne rfl), if_neg (ne rfl),
    if_neg (ne rfl), if_pos digit]

/-- The decimal form of a number behind its sign. -/
theorem run_decimalBytes (negative : Bool) (k : Nat) {b : UInt8} (ends : EndsNumber b) {s : State}
    (begun : ∀ d, isDigit d = true → step s d = (({ negative } : Number).digit d).map fun n => ⟨opens, .number n⟩) (rest : Bytes) :
    (decimalBytes k ++ b :: rest).foldlM step s =
      (b :: rest).foldlM step (next opens (.integer (if negative then -Int64.ofNat k else Int64.ofNat k))) := by
  obtain ⟨d, ds, split⟩ := List.exists_cons_of_ne_nil (decimalBytes_ne_nil k)
  have digit : isDigit d = true := isDigit_decimalBytes d (split ▸ List.mem_cons_self)
  have value : decimalValue (d :: ds) = k := split ▸ decimalValue_decimalBytes k
  rw [split, List.cons_append, List.foldlM_cons, begun d digit]
  by_cases zero : d = 48
  · subst zero
    cases decimalBytes_of_zero split
    cases value
    exact run_end opens (n := { negative, zero := true, digits := 1 }) ⟨rfl, rfl⟩ ends rest
  · have first : ({ negative } : Number).digit d = some (.counting negative 1 (Int64.ofNat (d.toNat - 48))) := by
      simp [Number.digit, Number.counting, zero]
    rw [first]
    refine (run_digits opens (fun d here => isDigit_decimalBytes d (split ▸ List.mem_cons_of_mem _ here)) negative (Nat.le_refl 1)
      (d.toNat - 48) (b :: rest)).trans ?_
    rw [run_end opens ⟨rfl, rfl⟩ ends rest]
    have whole : ds.foldl (fun n d => 10 * n + (d.toNat - 48)) (d.toNat - 48) = k := by
      rw [← value, decimalValue, List.foldl_cons, Nat.mul_zero, Nat.zero_add]
    rw [whole]
    rfl

/-- An integer where a value is sought, as it is written in decimal. -/
theorem run_integer (n : Int) {b : UInt8} (ends : EndsNumber b) (rest : Bytes) :
    ((if 0 ≤ n then decimalBytes n.toNat else 45 :: decimalBytes (-n).toNat) ++ b :: rest).foldlM step ⟨opens, .seek false false⟩ =
      (b :: rest).foldlM step (next opens (.integer (Int64.ofInt n))) := by
  by_cases sign : 0 ≤ n
  · rw [if_pos sign, run_decimalBytes opens false n.toNat ends fun d => step_firstDigit opens]
    rw [if_neg Bool.false_ne_true, ← Int64.ofInt_eq_ofNat, Int.toNat_of_nonneg sign]
  · rw [if_neg sign, List.cons_append, List.foldlM_cons]
    refine (run_decimalBytes opens true (-n).toNat ends (fun d => step_digit opens { negative := true }) rest).trans ?_
    rw [if_pos rfl, ← Int64.ofInt_eq_ofNat, Int.toNat_of_nonneg (by omega), Int64.ofInt_neg, Int64.neg_neg]

end

end Json

/-- The strings of the value are found in the text without its grammar, and what holds of
whatever they encode holds of the value. -/
theorem jsonParseEx_literals {json : Bytes} {v : JsonValue} (parsed : jsonParseEx json = some v) :
    ∃ raws, literals .outside (json ++ [0]) = some raws ∧
      ∀ P : Bytes → Prop, (∀ raw ∈ raws, ∀ str, Encodes raw str → P str) → v.Strings P := by
  have whole : ∀ text : Bytes, ((text ++ [0]).foldlM Json.step Json.start).bind Json.State.value = some v →
      ∃ raws, literals .outside (text ++ [0]) = some raws ∧
        ∀ P : Bytes → Prop, (∀ raw ∈ raws, ∀ str, Encodes raw str → P str) → v.Strings P := by
    intro text parsed
    obtain ⟨s, ran, value⟩ := Option.bind_eq_some_iff.mp parsed
    unfold Json.State.value at value
    split at value
    next v' ended =>
      cases value
      obtain ⟨raws, found, keep⟩ := Json.run_along ran ended (.seek false false)
      refine ⟨raws, found, fun P each => ?_⟩
      have strings := (keep P each ⟨fun o no => absurd no List.not_mem_nil, trivial⟩).reading
      rw [ended] at strings
      exact strings
    next => cases value
  unfold jsonParseEx at parsed
  dsimp only at parsed
  split_ifs at parsed with mark
  · obtain ⟨text, rfl⟩ := List.isPrefixOf_iff_prefix.mp mark
    obtain ⟨raws, found, keep⟩ := whole text parsed
    refine ⟨raws, ?_, keep⟩
    rw [List.append_assoc, literals_skip (by simp [Json.bom])]
    exact found
  · exact whole json parsed

end Shadowsocks
