import Mathlib.Data.List.Nodup
import Mathlib.Data.Nat.Basic
import Shadowsocks.Encrypt.Table
import Shadowsocks.Lib.StableSort

/-!
# `merge_sort`

The sorting of `encrypt.c`, in place: `merge` copies the two runs and merges the copies over
them. `random_compare` subtracts two remainders of 64 bits and cuts the difference to an
`int`; for a salt that is small enough the sign survives. The midpoint has 8 bits, so an
array of up to 511 bytes is halved as `List.mergeSort` halves a list.
-/

namespace Shadowsocks
set_option autoImplicit false
open Lib

/-- `a % b`; the machine traps on a zero divisor. -/
def remainder (a : UInt64) (b : UInt32) : Except Fault UInt64 :=
  if b = 0 then .error .divideByZero else .ok (a % b.toUInt64)

/-- `random_compare`. -/
def randomCompare (x y : UInt8) (i : UInt32) (a : UInt64) : Except Fault Int32 := do
  let left ← remainder a (x.toUInt32 + i)
  let right ← remainder a (y.toUInt32 + i)
  pure (left - right).toUInt32.toInt32

/-- The loops of `merge`: `ll` and `rr` point to what is left of the copies. -/
def mergeLoop (salt : UInt32) (key : UInt64) : Bytes → Bytes → Bytes → Nat → Except Fault Bytes
  | l :: ll, r :: rr, array, result => do
    let order ← randomCompare l r salt key
    if order ≤ 0 then do
      let array ← store array result [l]
      mergeLoop salt key ll (r :: rr) array (result + 1)
    else do
      let array ← store array result [r]
      mergeLoop salt key (l :: ll) rr array (result + 1)
  | l :: ll, [], array, result => do
    let array ← store array result [l]
    mergeLoop salt key ll [] array (result + 1)
  | [], r :: rr, array, result => do
    let array ← store array result [r]
    mergeLoop salt key [] rr array (result + 1)
  | [], [], array, _ => pure array
termination_by ll rr => ll.length + rr.length

/-- `merge`. -/
def merge (array : Bytes) (left llength right rlength : Nat) (salt : UInt32) (key : UInt64) : Except Fault Bytes := do
  let ltmp ← load array left llength
  let rtmp ← load array right rlength
  mergeLoop salt key ltmp rtmp array left

/-- `merge_sort` of `length` bytes from `left` on, with room for `depth` frames on the
stack. -/
def mergeSort (depth : Nat) (array : Bytes) (left length : Nat) (salt : UInt32) (key : UInt64) : Except Fault Bytes :=
  match depth with
  | 0 => .error .stackOverflow
  | depth + 1 =>
    if length ≤ 1 then pure array
    else do
      let middle := length / 2 % 256
      let llength := length - middle
      let array ← mergeSort depth array left llength salt key
      let array ← mergeSort depth array (left + llength) middle salt key
      merge array left llength (left + llength) middle salt key

/-! ## The comparison -/

/-- Salts for which no sum and no difference of remainders leaves its range. -/
structure SaltFits (salt : UInt32) : Prop where
  positive : 1 ≤ salt.toNat
  small : salt.toNat + 255 < 2 ^ 31

section
variable {salt : UInt32}

theorem remainder_eq (fits : SaltFits salt) (x : UInt8) (a : UInt64) :
    ∃ r, remainder a (x.toUInt32 + salt) = .ok r ∧ r.toNat = a.toNat % (x.toNat + salt.toNat) := by
  have := fits.positive
  have := fits.small
  have := x.toNat_lt
  have sum : (x.toUInt32 + salt).toNat = x.toNat + salt.toNat := by
    rw [UInt32.toNat_add, UInt8.toNat_toUInt32, Nat.mod_eq_of_lt (by omega)]
  refine ⟨_, if_neg ?_, ?_⟩
  · intro zero
    rw [zero, UInt32.toNat_zero] at sum
    omega
  · rw [UInt64.toNat_mod, UInt32.toNat_toUInt64, sum]

/-- A difference of 64 bits that is small either way keeps its sign in 32. -/
theorem difference_toInt {left right : UInt64} (boundLeft : left.toNat < 2 ^ 31) (boundRight : right.toNat < 2 ^ 31) :
    (left - right).toUInt32.toInt32.toInt = (left.toNat : Int) - right.toNat := by
  have value : (left - right).toUInt32.toNat = (2 ^ 64 - right.toNat + left.toNat) % 2 ^ 64 % 2 ^ 32 := by
    rw [UInt64.toNat_toUInt32, UInt64.toNat_sub]
  have signed : (left - right).toUInt32.toInt32.toInt = ((left - right).toUInt32.toNat : Int).bmod (2 ^ 32) :=
    BitVec.toInt_eq_toNat_bmod _
  rw [signed, value, Int.bmod]
  omega

/-- The `int` that `random_compare` returns is the difference of the remainders. -/
theorem randomCompare_eq (fits : SaltFits salt) (x y : UInt8) (a : UInt64) :
    ∃ order, randomCompare x y salt a = .ok order ∧
      order.toInt = (a.toNat % (x.toNat + salt.toNat) : Nat) - (a.toNat % (y.toNat + salt.toNat) : Nat) := by
  obtain ⟨left, eqLeft, valLeft⟩ := remainder_eq fits x a
  obtain ⟨right, eqRight, valRight⟩ := remainder_eq fits y a
  refine ⟨_, by rw [randomCompare, eqLeft, eqRight]; rfl, ?_⟩
  have := fits.positive
  have := fits.small
  have := x.toNat_lt
  have := y.toNat_lt
  have boundLeft : left.toNat < 2 ^ 31 := by
    have := Nat.mod_lt a.toNat (show 0 < x.toNat + salt.toNat by omega)
    omega
  have boundRight : right.toNat < 2 ^ 31 := by
    have := Nat.mod_lt a.toNat (show 0 < y.toNat + salt.toNat by omega)
    omega
  rw [← valLeft, ← valRight]
  exact difference_toInt boundLeft boundRight

/-- It does not put the right element first exactly if the remainders are in order. -/
theorem randomCompare_le (fits : SaltFits salt) (x y : UInt8) (a : UInt64) :
    ∃ order, randomCompare x y salt a = .ok order ∧ (order ≤ 0 ↔ randomLe salt.toNat a.toNat x y = true) := by
  obtain ⟨order, eq, value⟩ := randomCompare_eq fits x y a
  refine ⟨order, eq, ?_⟩
  rw [Int32.le_iff_toInt_le, value, randomLe, decide_eq_true_eq]
  have zero : (0 : Int32).toInt = 0 := rfl
  omega

end

/-! ## The loops -/

section
variable {salt : UInt32} {key : UInt64}

/-- One byte is stored, and the rest behind it. -/
theorem store_then {array rest : Bytes} {result : Nat} {x : UInt8} {loop : Bytes → Except Fault Bytes}
    (inside : result + (x :: rest).length ≤ array.length)
    (next : ∀ array', array'.length = array.length → loop array' = .ok (splice array' (result + 1) rest)) :
    (store array result [x] >>= loop) = .ok (splice array result (x :: rest)) := by
  rw [List.length_cons] at inside
  have room : result + [x].length ≤ array.length := by rw [List.length_singleton]; omega
  rw [store_ok room, ok_bind, next _ (length_splice room)]
  exact congrArg _ (splice_splice_append (by rw [List.length_singleton]; omega))

theorem mergeLoop_spec (fits : SaltFits salt) (ll rr array : Bytes) (result : Nat)
    (inside : result + (ll.length + rr.length) ≤ array.length) :
    mergeLoop salt key ll rr array result = .ok (splice array result (ll.merge rr (randomLe salt.toNat key.toNat))) := by
  induction ll, rr, array, result using mergeLoop.induct with
  | case1 l ll r rr array result ihLeft ihRight =>
    obtain ⟨order, compared, sign⟩ := randomCompare_le fits l r key
    simp only [List.length_cons] at inside
    rw [mergeLoop, compared, ok_bind, List.cons_merge_cons]
    by_cases first : order ≤ 0
    · rw [if_pos first, if_pos (sign.mp first)]
      refine store_then (by rw [List.length_cons, List.length_merge, List.length_cons]; omega) fun array' size => ?_
      exact ihLeft array' (by rw [List.length_cons]; omega)
    · rw [if_neg first, if_neg (mt sign.mpr first)]
      refine store_then (by rw [List.length_cons, List.length_merge, List.length_cons]; omega) fun array' size => ?_
      exact ihRight array' (by rw [List.length_cons]; omega)
  | case2 l ll array result ih =>
    simp only [List.length_cons, List.length_nil] at inside
    rw [mergeLoop, List.merge_right]
    refine store_then (by rw [List.length_cons]; omega) fun array' size => ?_
    rw [ih array' (by rw [List.length_nil]; omega), List.merge_right]
  | case3 r rr array result ih =>
    simp only [List.length_cons, List.length_nil] at inside
    rw [mergeLoop, List.nil_merge]
    refine store_then (by rw [List.length_cons]; omega) fun array' size => ?_
    rw [ih array' (by rw [List.length_nil]; omega), List.nil_merge]
  | case4 array result =>
    rw [mergeLoop, List.nil_merge, splice_nil]
    rfl

/-- Two neighbouring runs are merged in their place. -/
theorem merge_spec (fits : SaltFits salt) {array ll rr : Bytes} {left : Nat} (inside : left + (ll.length + rr.length) ≤ array.length) :
    merge (splice array left (ll ++ rr)) left ll.length (left + ll.length) rr.length salt key =
      .ok (splice array left (ll.merge rr (randomLe salt.toNat key.toNat))) := by
  have both : (ll ++ rr).length = ll.length + rr.length := List.length_append
  have size : (splice array left (ll ++ rr)).length = array.length := length_splice (by omega)
  have first : window (splice array left (ll ++ rr)) left ll.length = ll := by
    have inner : window (splice array left (ll ++ rr)) (left + 0) ll.length = window (ll ++ rr) 0 ll.length :=
      window_splice_inside array (ll ++ rr) (by omega) (by omega)
    rwa [Nat.add_zero, window_append_left (by omega), window_zero_length] at inner
  have second : window (splice array left (ll ++ rr)) (left + ll.length) rr.length = rr := by
    rw [window_splice_inside array (ll ++ rr) (by omega) (by omega), window_append_right, List.take_length]
  rw [merge, load_ok (by omega), ok_bind, load_ok (by omega), ok_bind, first, second, mergeLoop_spec fits _ _ _ _ (by omega),
    splice_splice_same (by rw [both, List.length_merge]) (by rw [List.length_merge]; omega)]

/-- `List.mergeSort` cuts a list where `merge_sort` does: the left half is the longer one. -/
theorem mergeSort_append (le : UInt8 → UInt8 → Bool) {xs ys : Bytes} (some_ : 1 ≤ ys.length)
    (halves : xs.length = ys.length ∨ xs.length = ys.length + 1) :
    (xs ++ ys).mergeSort le = (xs.mergeSort le).merge (ys.mergeSort le) le := by
  have half : ((xs ++ ys).length + 1) / 2 = xs.length := by
    rw [List.length_append]
    omega
  match all : xs ++ ys with
  | [] | [_] =>
    have size := congrArg List.length all
    simp only [List.length_append, List.length_nil, List.length_singleton] at size
    omega
  | x :: y :: rest =>
    rw [List.mergeSort, List.MergeSort.Internal.splitInTwo_fst, List.MergeSort.Internal.splitInTwo_snd]
    dsimp only
    rw [← all, half, List.take_left, List.drop_left]

theorem mergeSort_short {le : UInt8 → UInt8 → Bool} {xs : Bytes} (short : xs.length ≤ 1) : xs.mergeSort le = xs := by
  match xs, short with
  | [], _ => exact List.mergeSort_nil
  | [x], _ => exact List.mergeSort_singleton x

variable (key) in
/-- The bytes are sorted in their place, with the left one first where two compare equal. -/
theorem mergeSort_spec (fits : SaltFits salt) (depth : Nat) (array : Bytes) (left length : Nat) (room : length ≤ 2 ^ depth)
    (byte : length < 512) (inside : left + length ≤ array.length) :
    mergeSort (depth + 1) array left length salt key =
      .ok (splice array left ((window array left length).mergeSort (randomLe salt.toNat key.toNat))) := by
  induction depth generalizing array left length with
  | zero =>
    rw [mergeSort, if_pos (by omega), mergeSort_short (by rw [length_window inside]; omega), splice_window inside]
    rfl
  | succ depth ih =>
    rw [mergeSort]
    by_cases short : length ≤ 1
    · rw [if_pos short, mergeSort_short (by rw [length_window inside]; omega), splice_window inside]
      rfl
    · have middle : length / 2 % 256 = length / 2 := Nat.mod_eq_of_lt (by omega)
      have first := length_window (show left + (length - length / 2) ≤ array.length by omega)
      have second := length_window (show left + (length - length / 2) + length / 2 ≤ array.length by omega)
      have run := window_add array left (length - length / 2) (length / 2)
      rw [show length - length / 2 + length / 2 = length by omega] at run
      rw [if_neg short, run, mergeSort_append _ (by omega) (by omega)]
      dsimp only
      rw [middle]
      -- the two runs, sorted, lie next to each other
      generalize ordered : (window array left (length - length / 2)).mergeSort _ = ll
      generalize ordered' : (window array (left + (length - length / 2)) (length / 2)).mergeSort _ = rr
      have longL : ll.length = length - length / 2 := by rw [← ordered, List.length_mergeSort, first]
      have longR : rr.length = length / 2 := by rw [← ordered', List.length_mergeSort, second]
      rw [ih _ _ _ (by omega) (by omega) (by omega), ok_bind, ordered]
      rw [ih _ _ _ (by omega) (by omega) (by rw [length_splice (by omega)]; omega), ok_bind,
        window_splice_above (by omega) (by omega), ordered', ← longL, splice_splice_append (by omega), ← longR]
      exact merge_spec fits (by omega)

/-- What the bytes are sorted by. -/
def residue (salt : UInt32) (key : UInt64) (x : UInt8) : Nat := key.toNat % (x.toNat + salt.toNat)

variable (key) in
/-- `merge_sort` of at most 511 bytes ends, whatever lies around them, and leaves their one
stable rearrangement; the comparison has the sign of the difference, and no midpoint is cut. -/
theorem mergeSort_stable (fits : SaltFits salt) {array : Bytes} {left length depth : Nat} (short : length ≤ 511)
    (room : length ≤ 2 ^ depth) (inside : left + length ≤ array.length) :
    (∃ sorted, mergeSort (depth + 1) array left length salt key = .ok (splice array left sorted) ∧ sorted.length = length ∧
      sorted.Perm (window array left length) ∧ StableSort (residue salt key) (window array left length) sorted ∧
      ∀ other, StableSort (residue salt key) (window array left length) other → other = sorted) ∧
    (∀ x y, ∃ order, randomCompare x y salt key = .ok order ∧
      order.toInt.sign = ((residue salt key x : Int) - residue salt key y).sign) ∧
    ∀ part ≤ length, part / 2 % 256 = part / 2 := by
  have sorted := stableSort_mergeSort (residue salt key) (window array left length)
  refine ⟨⟨_, mergeSort_spec key fits depth array left length room (by omega) inside, ?_, sorted.perm, sorted,
    fun other also => also.unique sorted⟩, fun x y => ?_, fun part within => Nat.mod_eq_of_lt (by omega)⟩
  · rw [List.length_mergeSort, length_window inside]
  · obtain ⟨order, compared, value⟩ := randomCompare_eq fits x y key
    exact ⟨order, compared, by rw [value]; rfl⟩

theorem mergeSort_stable_three :
    ∃ sorted, mergeSort 3 [9, 7, 5, 3] 0 3 1 100 = .ok (splice [9, 7, 5, 3] 0 sorted) ∧ sorted.Perm [9, 7, 5] := by
  have fits : SaltFits 1 := ⟨by decide, by decide⟩
  obtain ⟨⟨sorted, done, -, perm, -⟩, -⟩ :=
    mergeSort_stable 100 fits (by decide : 3 ≤ 511) (by decide : 3 ≤ 2 ^ 2) (by decide : 0 + 3 ≤ ([9, 7, 5, 3] : Bytes).length)
  exact ⟨sorted, done, perm⟩

end

end Shadowsocks
