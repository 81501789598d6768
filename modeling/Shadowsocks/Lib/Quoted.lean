import Shadowsocks.Lib.Ctype
import Mathlib.Data.List.Basic

/-!
# Quoted strings

Where the quoted strings of a text are can be seen without its grammar: a quotation mark
begins one, and the next one that is not escaped ends it. `literals` lists them as they are
written. A reader that takes out the escapes gets a string that is no longer than what is
written, and shorter where it holds a character that has to be escaped (`Writes`). A text that
is written without escapes can then be searched for the longest string with such a character:
there is none.
-/

namespace Shadowsocks.Lib.Quoted
set_option autoImplicit false

/-- What can be behind a string. -/
def isPunct (b : UInt8) : Bool := b == 32 || b == 9 || b == 10 || b == 13 || b == 44 || b == 58 || b == 93 || b == 125

/-- Where the scanner stands. -/
inductive Mode where
  | outside
  | behind
  | inside (raw : Bytes)
  | escaped (raw : Bytes)
  /-- Behind the zero that ends the text. -/
  | finished
  deriving DecidableEq

/-- The next byte, with the string that it completes, or none if the text cannot go on so. -/
def Mode.next : Mode → UInt8 → Option (Mode × List Bytes)
  | .outside, b => some (if b = 34 then .inside [] else if b = 0 then .finished else .outside, [])
  | .behind, b => if b = 0 then some (.finished, []) else if isPunct b then some (.outside, []) else none
  | .inside raw, b =>
    if b = 0 then none
    else if b = 34 then some (.behind, [raw])
    else some (if b = 92 then .escaped (raw ++ [b]) else .inside (raw ++ [b]), [])
  | .escaped raw, b => if b = 0 then none else some (.inside (raw ++ [b]), [])
  | .finished, _ => some (.finished, [])

/-- The strings in a text as they are written, or none if one has no end or something else than
punctuation is behind it. The text ends with a zero. -/
def literals : Mode → Bytes → Option (List Bytes)
  | mode, [] => if mode = .finished then some [] else none
  | mode, b :: input => (mode.next b).bind fun found => (literals found.1 input).map (found.2 ++ ·)

example : literals .outside (ascii "[\"a\\\"\", \"\"]" ++ [0]) = some [ascii "a\\\"", []] := by decide

section
variable {mode mode' : Mode} {b : UInt8} {input : Bytes}

/-- One byte of the text. -/
theorem literals_next {raws : List Bytes} (next : mode.next b = some (mode', raws)) :
    literals mode (b :: input) = (literals mode' input).map (raws ++ ·) := by
  rw [literals, next]
  rfl

/-- A byte that completes no string. -/
theorem literals_silent (next : mode.next b = some (mode', [])) : literals mode (b :: input) = literals mode' input := by
  rw [literals_next next]
  exact Option.map_id'

/-- Behind the end nothing is found. -/
theorem literals_finished (input : Bytes) : literals .finished input = some [] := by
  induction input with
  | nil => rfl
  | cons b input ih => rw [literals_silent (rfl : Mode.next .finished b = some (.finished, [])), ih]

end

/-- What is outside of the literals is passed over. -/
theorem literals_punct {b : UInt8} (noQuote : b ≠ 34) (noZero : b ≠ 0) (input : Bytes) :
    literals .outside (b :: input) = literals .outside input := by
  refine literals_silent ?_
  rw [Mode.next, if_neg noQuote, if_neg noZero]

/-- A quote opens a literal. -/
theorem literals_quote (input : Bytes) : literals .outside (34 :: input) = literals (.inside []) input := literals_silent rfl

/-- A punctuation mark separates a literal from what follows. -/
theorem literals_behind {b : UInt8} (punct : isPunct b = true) (input : Bytes) :
    literals .behind (b :: input) = literals .outside input := by
  have noZero : b ≠ 0 := by
    rintro rfl
    cases punct
  refine literals_silent ?_
  rw [Mode.next, if_neg noZero, if_pos punct]

/-- Text without a quote has no literal. -/
theorem literals_skip {w : Bytes} (plain : ∀ b ∈ w, b ≠ 34 ∧ b ≠ 0) (rest : Bytes) :
    literals .outside (w ++ rest) = literals .outside rest := by
  induction w with
  | nil => rfl
  | cons b w ih =>
    obtain ⟨noQuote, noZero⟩ := plain b List.mem_cons_self
    rw [List.cons_append, literals_punct noQuote noZero, ih fun b here => plain b (List.mem_cons_of_mem _ here)]

/-! ## Strings and how they are written -/

/-- A byte that cannot stand for itself in a string. -/
def Special (b : UInt8) : Prop := b = 0 ∨ b = 34 ∨ b = 92

instance (b : UInt8) : Decidable (Special b) := inferInstanceAs (Decidable (_ ∨ _))

/-- A string may be written in this way: with a special byte in it, something is escaped. -/
def Encodes (raw s : Bytes) : Prop := (∃ b ∈ s, Special b) → 92 ∈ raw ∧ s.length < raw.length

/-- The part of a string that has been read, and how it is written: as it is, or with an escape
that makes it longer. -/
structure Writes (raw s : Bytes) : Prop where
  size : s.length ≤ raw.length
  plain : (s = raw ∧ ∀ b ∈ raw, ¬ Special b) ∨ 92 ∈ raw ∧ s.length < raw.length

namespace Writes
variable {raw s : Bytes}

/-- A byte that needs an escape makes the written literal the longer one. -/
theorem encodes (writes : Writes raw s) : Encodes raw s := by
  rintro ⟨b, here, special⟩
  rcases writes.plain with ⟨rfl, plain⟩ | escaped
  · exact absurd special (plain b here)
  · exact escaped

theorem nil : Writes [] [] := ⟨Nat.le_refl 0, .inl ⟨rfl, fun _ here => absurd here List.not_mem_nil⟩⟩

/-- A byte that needs no escape is written as it is. -/
theorem unescaped (writes : Writes raw s) {b : UInt8} (plain : ¬ Special b) : Writes (raw ++ [b]) (s ++ [b]) where
  size := by
    have size := writes.size
    simp only [List.length_append]
    omega
  plain := by
    rcases writes.plain with ⟨rfl, plain'⟩ | ⟨escaped, shorter⟩
    · refine .inl ⟨rfl, fun b' here => ?_⟩
      rcases List.mem_append.mp here with here | here
      · exact plain' b' here
      · rw [List.mem_singleton.mp here]
        exact plain
    · refine .inr ⟨List.mem_append_left _ escaped, ?_⟩
      simp only [List.length_append]
      omega

/-- An escape is longer than what it stands for. -/
theorem escaped (writes : Writes raw s) {front back : Bytes} (longer : back.length < front.length) (escape : 92 ∈ front) :
    Writes (raw ++ front) (s ++ back) := by
  have size := writes.size
  refine ⟨?_, .inr ⟨List.mem_append_right _ escape, ?_⟩⟩
  · simp only [List.length_append]
    omega
  · simp only [List.length_append]
    omega

end Writes

/-- A plain byte goes on with the literal. -/
theorem literals_inside_plain {b : UInt8} (plain : ¬ Special b) (raw input : Bytes) :
    literals (.inside raw) (b :: input) = literals (.inside (raw ++ [b])) input := by
  obtain ⟨noZero, noQuote, noEscape⟩ : b ≠ 0 ∧ b ≠ 34 ∧ b ≠ 92 := by
    rw [Special, not_or, not_or] at plain
    exact plain
  refine literals_silent ?_
  rw [Mode.next, if_neg noZero, if_neg noQuote, if_neg noEscape]

/-- A quote closes the literal. -/
theorem literals_close (raw input : Bytes) :
    literals (.inside raw) (34 :: input) = (literals .behind input).map (raw :: ·) :=
  literals_next (rfl : Mode.next (.inside raw) 34 = some (.behind, [raw]))

/-! ## Characters -/

/-- The bytes of a text. -/
def utf8 (t : List Char) : Bytes := t.flatMap String.utf8EncodeChar

/-- A byte below 128 stands for the character of the same number, and for no other. -/
theorem mem_utf8EncodeChar {c : Char} {b : UInt8} (here : b ∈ String.utf8EncodeChar c) :
    (c.toNat < 128 ∧ b.toNat = c.toNat) ∨ (128 ≤ c.toNat ∧ 128 ≤ b.toNat) := by
  have value : c.val.toNat = c.toNat := rfl
  have tail : ∀ n : Nat, 128 ≤ (UInt8.ofNat (n % 64 + 128)).toNat := fun n => by
    rw [UInt8.toNat_ofNat', Nat.mod_eq_of_lt (by omega)]
    omega
  unfold String.utf8EncodeChar at here
  dsimp only at here
  split_ifs at here with one two three
  · rw [List.mem_singleton.mp here, UInt8.toNat_ofNat', Nat.mod_eq_of_lt (by omega)]
    exact .inl ⟨by omega, rfl⟩
  · refine .inr ⟨by omega, ?_⟩
    rcases List.mem_cons.mp here with rfl | here
    · rw [UInt8.toNat_ofNat', Nat.mod_eq_of_lt (by omega)]
      omega
    · rw [List.mem_singleton.mp here]
      exact tail _
  · refine .inr ⟨by omega, ?_⟩
    simp only [List.mem_cons, List.not_mem_nil, or_false] at here
    rcases here with rfl | rfl | rfl
    · rw [UInt8.toNat_ofNat', Nat.mod_eq_of_lt (by omega)]
      omega
    · exact tail _
    · exact tail _
  · refine .inr ⟨by omega, ?_⟩
    simp only [List.mem_cons, List.not_mem_nil, or_false] at here
    rcases here with rfl | rfl | rfl | rfl
    · rw [UInt8.toNat_ofNat', Nat.mod_eq_of_lt (by omega)]
      omega
    · exact tail _
    · exact tail _
    · exact tail _

theorem utf8_append (s t : List Char) : utf8 (s ++ t) = utf8 s ++ utf8 t := List.flatMap_append

/-- ASCII text has one byte for each character. -/
theorem utf8_ascii {t : List Char} (small : ∀ c ∈ t, c.toNat < 128) : utf8 t = t.map fun c => UInt8.ofNat c.toNat := by
  induction t with
  | nil => rfl
  | cons c t ih =>
    have low : c.val.toNat ≤ 0x7f := Nat.le_of_lt_succ (small c List.mem_cons_self)
    have one : String.utf8EncodeChar c = [UInt8.ofNat c.toNat] := by
      rw [String.utf8EncodeChar]
      exact if_pos low
    rw [utf8, List.flatMap_cons, one, List.map_cons, List.singleton_append, ← ih fun c here => small c (List.mem_cons_of_mem _ here)]
    rfl

/-- The characters that can stand for themselves in a string. -/
def Plain (t : List Char) : Prop := ∀ c ∈ t, c ≠ '\x00' ∧ c ≠ '"' ∧ c ≠ '\\'

/-- A character is special iff it is one byte and that is. -/
theorem special_char_iff (c : Char) :
    (∃ b ∈ String.utf8EncodeChar c, Special b) ↔ c = '\x00' ∨ c = '"' ∨ c = '\\' := by
  constructor
  · rintro ⟨b, here, special⟩
    rcases mem_utf8EncodeChar here with ⟨-, same⟩ | ⟨-, high⟩
    · rcases special with rfl | rfl | rfl
      · exact .inl (Char.toNat_inj.mp same.symm)
      · exact .inr (.inl (Char.toNat_inj.mp same.symm))
      · exact .inr (.inr (Char.toNat_inj.mp same.symm))
    · rcases special with rfl | rfl | rfl <;> exact absurd high (by decide)
  · rintro (rfl | rfl | rfl)
    · exact ⟨0, by decide, .inl rfl⟩
    · exact ⟨34, by decide, .inr (.inl rfl)⟩
    · exact ⟨92, by decide, .inr (.inr rfl)⟩

/-- A text has none of the special characters if its bytes have none. -/
theorem plain_iff {t : List Char} : Plain t ↔ ∀ b ∈ utf8 t, ¬ Special b := by
  constructor
  · intro plain b here special
    obtain ⟨c, char, byte⟩ := List.mem_flatMap.mp here
    obtain ⟨noZero, noQuote, noEscape⟩ := plain c char
    rcases (special_char_iff c).mp ⟨b, byte, special⟩ with zero | quote | escape
    · exact noZero zero
    · exact noQuote quote
    · exact noEscape escape
  · intro plain c char
    by_contra special
    have special : c = '\x00' ∨ c = '"' ∨ c = '\\' := by
      by_contra other
      rw [not_or, not_or] at other
      exact special other
    obtain ⟨b, byte, special⟩ := (special_char_iff c).mpr special
    exact plain b (List.mem_flatMap.mpr ⟨c, char, byte⟩) special

/-! ## Texts with a hole

A writer that puts a string between quotation marks as it is leaves the reader in any mode
behind it. If the next string begins with a letter, only two modes let the reader go on: the
one in which the quotation mark behind the hole ends a string, and the one in which the text
has ended before. -/

section
variable {name rest : Bytes}

/-- A plain text between quotes is the literal. -/
theorem literals_plain {w : Bytes} (plain : ∀ b ∈ w, ¬ Special b) (raw rest : Bytes) :
    literals (.inside raw) (w ++ 34 :: rest) = (literals .behind rest).map ((raw ++ w) :: ·) := by
  induction w generalizing raw with
  | nil => rw [List.nil_append, literals_close, List.append_nil]
  | cons b w ih =>
    rw [List.cons_append, literals_inside_plain (plain b List.mem_cons_self), ih fun b here => plain b (List.mem_cons_of_mem _ here),
      List.append_assoc]
    rfl

/-- A name and the colon behind it. -/
theorem literals_name {w : Bytes} (plain : ∀ b ∈ w, ¬ Special b) {raws : List Bytes}
    (found : literals .outside (34 :: (w ++ 34 :: 58 :: rest)) = some raws) :
    ∃ back, raws = w :: back ∧ literals .outside rest = some back := by
  rw [literals_quote, literals_plain plain, literals_behind rfl] at found
  obtain ⟨back, behind, rfl⟩ := Option.map_eq_some_iff.mp found
  exact ⟨back, rfl, behind⟩

/-- What has been read of the literal. -/
def Mode.raw : Mode → Bytes
  | .outside => []
  | .behind => []
  | .inside raw => raw
  | .escaped raw => raw
  | .finished => []

/-- A name that does not look like the end of a string. -/
def IsName (name : Bytes) : Prop := name.head?.any (fun b => b != 0 && !isPunct b) = true

instance (name : Bytes) : Decidable (IsName name) := inferInstanceAs (Decidable (_ = true))

/-- A name cannot follow a literal at once. -/
theorem literals_behind_name (letter : IsName name) (rest : Bytes) : literals .behind (name ++ rest) = none := by
  cases name with
  | nil => cases letter
  | cons c name =>
    obtain ⟨noZero, punct⟩ : c ≠ 0 ∧ ¬ isPunct c = true := by simpa [IsName] using letter
    rw [List.cons_append, literals, Mode.next, if_neg noZero, if_neg punct]
    rfl

/-- The quotation mark of the next string taken for the end of this one. -/
theorem literals_mistaken (letter : IsName name) (raw : Bytes) :
    literals (.inside raw) (44 :: 32 :: 34 :: (name ++ rest)) = none := by
  rw [literals_inside_plain (by decide), literals_inside_plain (by decide), literals_close, literals_behind_name letter]
  rfl

/-- What a byte completes is what has been read, and what is being read grows by that byte. -/
theorem next_grows {mode mode' : Mode} {b : UInt8} {raws : List Bytes} (next : mode.next b = some (mode', raws)) :
    (∀ raw ∈ raws, raw = mode.raw) ∧ (mode'.raw = [] ∨ mode'.raw = mode.raw ++ [b]) := by
  have silent : ∀ raw ∈ ([] : List Bytes), raw = mode.raw := fun raw no => absurd no List.not_mem_nil
  unfold Mode.next at next
  split at next
  · cases next
    refine ⟨silent, .inl ?_⟩
    split_ifs <;> rfl
  · split_ifs at next <;> cases next <;> exact ⟨silent, .inl rfl⟩
  · split_ifs at next <;> cases next
    · exact ⟨fun raw here => List.mem_singleton.mp here, .inl rfl⟩
    · exact ⟨silent, .inr rfl⟩
    · exact ⟨silent, .inr rfl⟩
  · split_ifs at next
    cases next
    exact ⟨silent, .inr rfl⟩
  · cases next
    exact ⟨silent, .inl rfl⟩

/-- The strings that end inside the hole are no longer than it and are made of it. Behind it the
text goes on with the next string, unless it has ended. By induction on the text: a byte completes
the literal, or makes it one byte longer at most. At the quote that ends the text no literal may
open, since the name could not follow it. -/
theorem literals_hole (letter : IsName name) {mode : Mode} {w : Bytes} {raws : List Bytes}
    (found : literals mode (w ++ 34 :: 44 :: 32 :: 34 :: (name ++ rest)) = some raws) :
    ∃ front back, raws = front ++ back ∧ (back = [] ∨ literals .outside (34 :: (name ++ rest)) = some back) ∧
      ∀ raw ∈ front, raw.length ≤ mode.raw.length + w.length ∧ ∀ b ∈ raw, b ∈ mode.raw ∨ b ∈ w := by
  induction w generalizing mode raws with
  | nil =>
    rw [List.nil_append] at found
    cases mode with
    | outside =>
      rw [literals_quote, literals_mistaken letter] at found
      cases found
    | behind => cases found
    | inside raw =>
      rw [literals_close, literals_behind rfl, literals_punct (by decide) (by decide)] at found
      obtain ⟨back, behind, rfl⟩ := Option.map_eq_some_iff.mp found
      refine ⟨[raw], back, rfl, .inr behind, fun raw' here => ?_⟩
      rw [List.mem_singleton.mp here]
      exact ⟨Nat.le_refl _, fun b here => .inl here⟩
    | escaped raw =>
      rw [literals_silent (rfl : Mode.next (.escaped raw) 34 = _), literals_mistaken letter] at found
      cases found
    | finished =>
      rw [literals_finished] at found
      cases found
      exact ⟨[], [], rfl, .inl rfl, fun raw no => absurd no List.not_mem_nil⟩
  | cons b w ih =>
    rw [List.cons_append, literals] at found
    obtain ⟨⟨mode', done⟩, next, found⟩ := Option.bind_eq_some_iff.mp found
    obtain ⟨raws', found', rfl⟩ := Option.map_eq_some_iff.mp found
    obtain ⟨front, back, rfl, behind, each⟩ := ih found'
    obtain ⟨completes, grows⟩ := next_grows next
    refine ⟨done ++ front, back, (List.append_assoc _ _ _).symm, behind, fun raw here => ?_⟩
    rw [List.length_cons]
    rcases List.mem_append.mp here with here | here
    · rw [completes raw here]
      exact ⟨by omega, fun b' here => .inl here⟩
    · obtain ⟨short, made⟩ := each raw here
      dsimp only at short made
      rcases grows with none_ | grown
      · rw [none_] at short made
        rw [List.length_nil] at short
        refine ⟨by omega, fun b' here => .inr (List.mem_cons_of_mem b ?_)⟩
        exact (made b' here).resolve_left List.not_mem_nil
      · rw [grown] at short made
        rw [List.length_append, List.length_singleton] at short
        refine ⟨by omega, fun b' here => ?_⟩
        rcases made b' here with here | here
        · rcases List.mem_append.mp here with here | here
          · exact .inl here
          · exact .inr (List.mem_singleton.mp here ▸ List.mem_cons_self)
        · exact .inr (List.mem_cons_of_mem b here)

end

end Shadowsocks.Lib.Quoted
