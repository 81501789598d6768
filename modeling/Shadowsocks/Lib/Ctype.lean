import Shadowsocks.Lib.Bytes
import Mathlib.Data.List.TakeWhile

/-!
# Text in bytes

Strings of C without their final zero, the classes of `ctype.h` in the C locale and the
decimal numbers of `atoi`.
-/

namespace Shadowsocks.Lib
set_option autoImplicit false

/-- The bytes of an ASCII text. -/
def ascii (s : String) : Bytes := s.toList.map fun c => UInt8.ofNat c.toNat

/-- `isspace` of the C locale. -/
def isSpace (b : UInt8) : Bool := b == 32 || 9 ≤ b && b ≤ 13

/-- `isdigit`. -/
def isDigit (b : UInt8) : Bool := 48 ≤ b && b ≤ 57

/-- The number that digits spell. -/
def decimalValue (digits : Bytes) : Nat := digits.foldl (fun n d => 10 * n + (d.toNat - 48)) 0

/-- `strtol` in base 10 without the limits of its type: white space, a sign and digits, and 0
where there are none. -/
def strtol (s : Bytes) : Int :=
  match s.dropWhile isSpace with
  | 45 :: rest => -(decimalValue (rest.takeWhile isDigit) : Int)
  | 43 :: rest => decimalValue (rest.takeWhile isDigit)
  | rest => decimalValue (rest.takeWhile isDigit)

/-- `atoi`, with some value or other for what is not an `int`. -/
def atoi (overflow : Bytes → Int) (s : Bytes) : Int :=
  if -2 ^ 31 ≤ strtol s ∧ strtol s < 2 ^ 31 then strtol s else overflow s

example : strtol (ascii " -12/") = -12 ∧ strtol (ascii "abc") = 0 := by decide

theorem not_isSpace_of_isDigit {b : UInt8} (digit : isDigit b = true) : isSpace b = false := by
  have bounds : 48 ≤ b.toNat ∧ b.toNat ≤ 57 := by simpa [isDigit, UInt8.le_iff_toNat_le] using digit
  have no_blank : ¬ b = 32 := by
    rintro rfl
    exact absurd bounds.1 (by decide)
  have high : ¬ b.toNat ≤ 13 := by omega
  simp [isSpace, UInt8.le_iff_toNat_le, no_blank, high]

/-- `strtol` takes all digits of a number. -/
theorem strtol_digits {digits : Bytes} (decimal : ∀ d ∈ digits, isDigit d = true) : strtol digits = decimalValue digits := by
  have all : digits.takeWhile isDigit = digits := List.takeWhile_eq_self_iff.mpr decimal
  cases digits with
  | nil => rfl
  | cons d rest =>
    have digit := decimal d List.mem_cons_self
    have kept : (d :: rest).dropWhile isSpace = d :: rest := by
      rw [List.dropWhile_cons_of_neg]
      rw [not_isSpace_of_isDigit digit]
      exact Bool.false_ne_true
    unfold strtol
    rw [kept]
    split
    next same =>
      cases same
      cases digit
    next same =>
      cases same
      cases digit
    next => rw [all]

/-- `atoi` on digits whose number is an `int`. -/
theorem atoi_digits (overflow : Bytes → Int) {digits : Bytes} (decimal : ∀ d ∈ digits, isDigit d = true)
    (fits : decimalValue digits < 2 ^ 31) : atoi overflow digits = decimalValue digits := by
  unfold atoi
  rw [strtol_digits decimal, if_pos ⟨by omega, by omega⟩]

/-- The decimal digits of a number, without leading zeros. -/
def decimalBytes (n : Nat) : Bytes := (Nat.toDigits 10 n).map fun c => UInt8.ofNat c.toNat

/-- The codes of the digits. -/
theorem toNat_digit {c : Char} (digit : c.isDigit = true) :
    48 ≤ c.toNat ∧ c.toNat ≤ 57 ∧ (UInt8.ofNat c.toNat).toNat = c.toNat := by
  have bounds : 48 ≤ c.toNat ∧ c.toNat ≤ 57 := by
    simpa [Char.isDigit, UInt32.le_iff_toNat_le] using digit
  refine ⟨bounds.1, bounds.2, ?_⟩
  rw [UInt8.toNat_ofNat', Nat.mod_eq_of_lt (by omega)]

theorem isDigit_decimalBytes {n : Nat} : ∀ d ∈ decimalBytes n, isDigit d = true := by
  intro d here
  obtain ⟨c, digit, rfl⟩ := List.mem_map.mp here
  obtain ⟨low, high, same⟩ := toNat_digit (Nat.isDigit_of_mem_toDigits (by decide) (by decide) digit)
  simp only [isDigit, Bool.and_eq_true, decide_eq_true_eq, UInt8.le_iff_toNat_le, same]
  exact ⟨low, high⟩

/-- A number is read back from its decimal form. -/
theorem decimalValue_decimalBytes (n : Nat) : decimalValue (decimalBytes n) = n := by
  have digits : ∀ (cs : List Char) (m : Nat), (∀ c ∈ cs, c.isDigit = true) →
      (cs.map fun c => UInt8.ofNat c.toNat).foldl (fun n d => 10 * n + (d.toNat - 48)) m = Nat.ofDigitChars 10 cs m := by
    intro cs
    induction cs with
    | nil => exact fun m _ => Nat.ofDigitChars_nil.symm
    | cons c cs ih =>
      intro m all
      obtain ⟨-, -, same⟩ := toNat_digit (all c List.mem_cons_self)
      rw [List.map_cons, List.foldl_cons, ih _ fun d here => all d (List.mem_cons_of_mem c here), Nat.ofDigitChars_cons, same]
      rfl
  rw [decimalValue, decimalBytes, digits _ 0 fun c => Nat.isDigit_of_mem_toDigits (by decide) (by decide),
    Nat.ofDigitChars_ten_toDigits]

/-- So different numbers have different forms. -/
theorem decimalBytes_injective : Function.Injective decimalBytes := by
  intro m n same
  rw [← decimalValue_decimalBytes m, same, decimalValue_decimalBytes]

theorem decimalBytes_ne_nil (n : Nat) : decimalBytes n ≠ [] := by
  intro none_
  exact Nat.toDigits_ne_nil (List.map_eq_nil_iff.mp none_)

/-- A number below `10 ^ k` has at most `k` digits, -/
theorem length_decimalBytes_le {n k : Nat} (some_ : 0 < k) (below : n < 10 ^ k) : (decimalBytes n).length ≤ k := by
  rw [decimalBytes, List.length_map]
  exact (Nat.length_toDigits_le_iff (by decide) some_).mpr below

/-- and `k` digits make a number below `10 ^ k`. -/
theorem decimalValue_lt {ds : Bytes} (digits : ∀ d ∈ ds, isDigit d = true) : decimalValue ds < 10 ^ ds.length := by
  have bound : ∀ (ds : Bytes) (n : Nat), (∀ d ∈ ds, isDigit d = true) →
      ds.foldl (fun n d => 10 * n + (d.toNat - 48)) n < (n + 1) * 10 ^ ds.length := by
    intro ds
    induction ds with
    | nil =>
      intro n _
      simp
    | cons d ds ih =>
      intro n all
      have digit : 48 ≤ d.toNat ∧ d.toNat ≤ 57 := by simpa [isDigit, UInt8.le_iff_toNat_le] using all d List.mem_cons_self
      have step := ih (10 * n + (d.toNat - 48)) fun d here => all d (List.mem_cons_of_mem _ here)
      have grown : 10 * n + (d.toNat - 48) + 1 ≤ (n + 1) * 10 := by omega
      rw [List.foldl_cons, List.length_cons, Nat.pow_succ, Nat.mul_comm (10 ^ _), ← Nat.mul_assoc]
      exact Nat.lt_of_lt_of_le step (Nat.mul_le_mul_right _ grown)
  have whole := bound ds 0 digits
  rw [Nat.zero_add, Nat.one_mul] at whole
  exact whole

/-- Only the number zero begins with the digit. -/
theorem decimalBytes_of_zero {n : Nat} {ds : Bytes} (split : decimalBytes n = 48 :: ds) : ds = [] := by
  rcases Nat.eq_zero_or_pos ds.length with none_ | some_
  · exact List.length_eq_zero_iff.mp none_
  · have value : n = decimalValue ds := by
      rw [← decimalValue_decimalBytes n, split]
      rfl
    have below : n < 10 ^ ds.length := by
      rw [value]
      exact decimalValue_lt fun d here => isDigit_decimalBytes d (split ▸ List.mem_cons_of_mem _ here)
    have short := length_decimalBytes_le some_ below
    rw [split, List.length_cons] at short
    omega

theorem zero_notMem_decimalBytes (n : Nat) : 0 ∉ decimalBytes n := fun here =>
  Bool.false_ne_true (isDigit_decimalBytes 0 here)

end Shadowsocks.Lib
