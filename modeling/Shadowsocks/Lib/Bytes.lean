import Mathlib.Algebra.Order.Ring.Nat
import Mathlib.Tactic.Common

/-!
# Windows and splices of a list

An allocation is a list; a C range `p[off, off + n)` of it is a `window`, and a
`memcpy` into it is a `splice`. The lemmas say what a window sees after a splice:
the bytes just written, or the old ones where the two ranges are apart. Big-endian
encodings of 16- and 32-bit numbers close the file.
-/

namespace Shadowsocks.Lib
set_option autoImplicit false

abbrev Bytes := List UInt8

section
variable {α : Type}

/-- The `n` elements of `l` from `off` on. -/
def window (l : List α) (off n : Nat) : List α :=
  (l.drop off).take n

/-- `l` with `bs` stored over the elements from `off` on. -/
def splice (l : List α) (off : Nat) (bs : List α) : List α :=
  l.take off ++ (bs ++ l.drop (off + bs.length))

/-- Positions in a window count from its offset. -/
theorem getElem?_window (l : List α) (off n i : Nat) :
    (window l off n)[i]? = if i < n then l[off + i]? else none := by
  simp [window, List.getElem?_take, List.getElem?_drop]

/-- A splice changes the bytes it covers, and no other. -/
theorem getElem?_splice {l bs : List α} {off : Nat} (start : off ≤ l.length) (i : Nat) :
    (splice l off bs)[i]? =
      if i < off then l[i]? else if i < off + bs.length then bs[i - off]? else l[i]? := by
  have len : (l.take off).length = off := by simp; omega
  unfold splice
  rw [List.getElem?_append, len]
  split
  · rw [List.getElem?_take_of_lt (by assumption)]
  · rw [List.getElem?_append]
    by_cases inside : i < off + bs.length
    · rw [if_pos (by omega), if_pos inside]
    · rw [if_neg (by omega), if_neg inside, List.getElem?_drop]
      congr 1
      omega

/-- A window that fits has its full length. -/
@[simp] theorem length_window {l : List α} {off n : Nat} (fits : off + n ≤ l.length) :
    (window l off n).length = n := by
  simp [window]; omega

/-- A splice that fits keeps the length. -/
@[simp] theorem length_splice {l bs : List α} {off : Nat} (fits : off + bs.length ≤ l.length) :
    (splice l off bs).length = l.length := by
  simp [splice]; omega

@[simp] theorem window_zero_length (l : List α) : window l 0 l.length = l := by
  simp [window]

theorem window_nil (l : List α) (off : Nat) : window l off 0 = [] := by
  simp [window]

@[simp] theorem take_window (l : List α) (off n : Nat) : (window l off n).take n = window l off n := by
  rw [window, List.take_take, Nat.min_self]

theorem take_eq_window (l : List α) (n : Nat) : l.take n = window l 0 n := by
  simp [window]

/-- Adjacent windows join. -/
theorem window_add (l : List α) (off m n : Nat) :
    window l off (m + n) = window l off m ++ window l (off + m) n := by
  unfold window
  rw [List.take_add, List.drop_drop]

/-- A window of a window. -/
theorem window_window (l : List α) {off n i m : Nat} (inside : i + m ≤ n) :
    window (window l off n) i m = window l (off + i) m := by
  apply List.ext_getElem?
  intro k
  simp only [getElem?_window]
  by_cases hk : k < m
  · rw [if_pos hk, if_pos hk, if_pos (by omega), Nat.add_assoc]
  · rw [if_neg hk, if_neg hk]

/-- A window in the first part does not see the second. -/
theorem window_append_left {l r : List α} {off n : Nat} (inside : off + n ≤ l.length) :
    window (l ++ r) off n = window l off n := by
  unfold window
  rw [List.drop_append_of_le_length (by omega), List.take_append_of_le_length (by simp; omega)]

/-- A window that begins at the second part is a beginning of it. -/
theorem window_append_right (l r : List α) (n : Nat) : window (l ++ r) l.length n = r.take n := by
  simp [window]

/-- Reading inside what was just written. -/
theorem window_splice_inside (l bs : List α) {off i n : Nat} (start : off ≤ l.length)
    (inside : i + n ≤ bs.length) : window (splice l off bs) (off + i) n = window bs i n := by
  apply List.ext_getElem?
  intro k
  simp only [getElem?_window, getElem?_splice start]
  by_cases hk : k < n
  · rw [if_pos hk, if_pos hk, if_neg (by omega), if_pos (by omega)]
    congr 1
    omega
  · rw [if_neg hk, if_neg hk]

/-- What was written is read back. -/
theorem window_splice_self (l bs : List α) (off : Nat) (start : off ≤ l.length) :
    window (splice l off bs) off bs.length = bs := by
  have h := window_splice_inside (i := 0) (n := bs.length) l bs start (by omega)
  simpa using h

/-- Reading below what was written. -/
theorem window_splice_below {l bs : List α} {off i n : Nat} (start : off ≤ l.length)
    (below : i + n ≤ off) : window (splice l off bs) i n = window l i n := by
  apply List.ext_getElem?
  intro k
  simp only [getElem?_window, getElem?_splice start]
  by_cases hk : k < n
  · rw [if_pos hk, if_pos hk, if_pos (by omega)]
  · rw [if_neg hk, if_neg hk]

/-- Reading above what was written. -/
theorem window_splice_above {l bs : List α} {off i n : Nat} (start : off ≤ l.length)
    (above : off + bs.length ≤ i) : window (splice l off bs) i n = window l i n := by
  apply List.ext_getElem?
  intro k
  simp only [getElem?_window, getElem?_splice start]
  by_cases hk : k < n
  · rw [if_pos hk, if_pos hk, if_neg (by omega), if_neg (by omega)]
  · rw [if_neg hk, if_neg hk]

/-- One list split in two ways, the first part of one inside that of the other. -/
theorem append_split {x y p q : List α} (le : p.length ≤ x.length) (eq : x ++ y = p ++ q) :
    x = p ++ x.drop p.length ∧ q = x.drop p.length ++ y := by
  have front := congrArg (List.take p.length) eq
  have back := congrArg (List.drop p.length) eq
  rw [List.take_append_of_le_length le, List.take_left' rfl] at front
  rw [List.drop_append_of_le_length le, List.drop_left' rfl] at back
  have whole := List.take_append_drop p.length x
  rw [front] at whole
  exact ⟨whole.symm, back.symm⟩

/-- Two pieces stored behind each other. -/
theorem window_splice_two (l bs cs : List α) (fits : bs.length + cs.length ≤ l.length) :
    window (splice (splice l 0 bs) bs.length cs) 0 (bs.length + cs.length) = bs ++ cs := by
  have long : (splice l 0 bs).length = l.length := length_splice (by omega)
  rw [window_add, window_splice_below (by omega) (by omega), window_splice_self _ _ _ (Nat.zero_le _), Nat.zero_add,
    window_splice_self _ _ _ (by omega)]

/-- Shifting `n` elements up by `pad.length` and filling the gap puts `pad` in front. -/
theorem window_pad_front (l pad : List α) (off n : Nat) (fits : off + n + pad.length ≤ l.length) :
    window (splice (splice l (off + pad.length) (window l off n)) off pad) off (n + pad.length) =
      pad ++ window l off n := by
  have moved : (window l off n).length = n := length_window (by omega)
  have long : (splice l (off + pad.length) (window l off n)).length = l.length :=
    length_splice (by omega)
  rw [Nat.add_comm n, window_add, window_splice_self _ _ _ (by omega), window_splice_above (by omega) (by omega)]
  have self := window_splice_self l (window l off n) (off + pad.length) (by omega)
  rw [moved] at self
  rw [self]

/-- Shifting `n` elements down. -/
theorem window_shift_down {l : List α} {off by_ n : Nat} (fits : off + by_ + n ≤ l.length) :
    window (splice l off (window l (off + by_) n)) off n = window l (off + by_) n := by
  have self := window_splice_self l (window l (off + by_) n) off (by omega)
  rwa [length_window fits] at self

/-- Moving `n` elements from `src` on out of the way and storing `bs` before them. -/
theorem window_insert (l bs : List α) (off src n : Nat) (source : src + n ≤ l.length)
    (room : off + bs.length + n ≤ l.length) :
    let l' := splice (splice l (off + bs.length) (window l src n)) off bs
    l'.length = l.length ∧ window l' 0 (off + bs.length) = window l 0 off ++ bs ∧
      window l' (off + bs.length) n = window l src n := by
  have moved : (window l src n).length = n := length_window source
  have long : (splice l (off + bs.length) (window l src n)).length = l.length := length_splice (by omega)
  refine ⟨?_, ?_, ?_⟩
  · rw [length_splice (by omega), long]
  · rw [window_add, window_splice_below (by omega) (by omega), window_splice_below (by omega) (by omega),
      Nat.zero_add, window_splice_self _ _ _ (by omega)]
  · rw [window_splice_above (by omega) (by omega)]
    have self := window_splice_self l (window l src n) (off + bs.length) (by omega)
    rwa [moved] at self

/-- Three adjacent blocks, stored from the last to the first. -/
theorem window_frame (l as bs cs : List α) (fits : as.length + bs.length + cs.length ≤ l.length) :
    let l' := splice (splice (splice l (as.length + bs.length) cs) as.length bs) 0 as
    l'.length = l.length ∧ window l' 0 (as.length + (bs.length + cs.length)) = as ++ (bs ++ cs) := by
  have one : (splice l (as.length + bs.length) cs).length = l.length := length_splice (by omega)
  have two : (splice (splice l (as.length + bs.length) cs) as.length bs).length =
      (splice l (as.length + bs.length) cs).length := length_splice (by omega)
  refine ⟨by rw [length_splice (by omega), two, one], ?_⟩
  rw [window_add, window_splice_self _ _ _ (Nat.zero_le _), window_splice_above (Nat.zero_le _) (by omega), window_add,
    Nat.zero_add, window_splice_self _ _ _ (by omega), window_splice_above (by omega) (Nat.le_refl _),
    window_splice_self _ _ _ (by omega)]

/-- Writing at the front. -/
theorem splice_zero (l bs : List α) : splice l 0 bs = bs ++ l.drop bs.length := by
  simp [splice]

@[simp] theorem splice_nil (l : List α) (off : Nat) : splice l off [] = l := by simp [splice]

/-- Two writes, one behind the other, are one write. -/
theorem splice_splice_append {l as bs : List α} {off : Nat} (fits : off + (as.length + bs.length) ≤ l.length) :
    splice (splice l off as) (off + as.length) bs = splice l off (as ++ bs) := by
  have size : (splice l off as).length = l.length := length_splice (by omega)
  apply List.ext_getElem?
  intro i
  rw [getElem?_splice (by omega), getElem?_splice (by omega), getElem?_splice (by omega), List.length_append]
  by_cases first : i < off + as.length
  · rw [if_pos first]
    by_cases before : i < off
    · rw [if_pos before, if_pos before]
    · rw [if_neg before, if_neg before, if_pos first, if_pos (by omega), List.getElem?_append_left (by omega)]
  · have later : ¬ i < off := by omega
    simp only [if_neg first, if_neg later]
    by_cases second : i < off + as.length + bs.length
    · rw [if_pos second, if_pos (by omega), List.getElem?_append_right (by omega), Nat.sub_sub]
    · rw [if_neg second, if_neg (by omega)]

/-- A second write of the same length hides the first. -/
theorem splice_splice_same {l as bs : List α} {off : Nat} (same : as.length = bs.length) (fits : off + bs.length ≤ l.length) :
    splice (splice l off as) off bs = splice l off bs := by
  have size : (splice l off as).length = l.length := length_splice (by omega)
  apply List.ext_getElem?
  intro i
  rw [getElem?_splice (by omega), getElem?_splice (by omega), getElem?_splice (by omega), same]
  split
  · rfl
  · split
    · rfl
    · rfl

/-- Writing back what is there changes nothing. -/
theorem splice_window {l : List α} {off n : Nat} (fits : off + n ≤ l.length) : splice l off (window l off n) = l := by
  rw [splice, length_window fits, window, ← List.drop_drop, List.take_append_drop, List.take_append_drop]

/-- Pending data that was sent in part: dropping what was sent leaves the window that starts behind it. -/
theorem drop_window (l : List α) (off len s : Nat) :
    (window l off len).drop s = window l (off + s) (len - s) := by
  simp [window, List.drop_take]

end

/-- Network byte order of a 16-bit number (`htons` followed by a byte copy). -/
def be16 (n : Nat) : Bytes :=
  [UInt8.ofNat (n / 256), UInt8.ofNat n]

/-- The 16-bit number at the front of a byte string (`ntohs` of its first two bytes). -/
def ofBe16 : Bytes → Nat
  | hi :: lo :: _ => hi.toNat * 256 + lo.toNat
  | _ => 0

/-- Network byte order of a 32-bit number (`htonl`). -/
def be32 (n : Nat) : Bytes :=
  [UInt8.ofNat (n / 2 ^ 24), UInt8.ofNat (n / 2 ^ 16), UInt8.ofNat (n / 2 ^ 8), UInt8.ofNat n]

@[simp] theorem length_be16 (n : Nat) : (be16 n).length = 2 := rfl

/-- Two bytes make less than 2 ^ 16. -/
theorem ofBe16_lt (bs : Bytes) : ofBe16 bs < 2 ^ 16 := by
  match bs with
  | [] => simp [ofBe16]
  | [_] => simp [ofBe16]
  | hi :: lo :: _ =>
    have h := hi.toNat_lt
    have l := lo.toNat_lt
    simp only [ofBe16]
    omega

/-- A number of 16 bits is read back. -/
theorem ofBe16_be16 {n : Nat} (small : n < 2 ^ 16) (rest : Bytes) : ofBe16 (be16 n ++ rest) = n := by
  simp only [be16, List.cons_append, List.nil_append, ofBe16, UInt8.toNat_ofNat']
  omega

/-- Only the first two bytes count. -/
theorem ofBe16_append {bs : Bytes} (two : 2 ≤ bs.length) (rest : Bytes) : ofBe16 (bs ++ rest) = ofBe16 bs := by
  match bs, two with
  | _ :: _ :: _, _ => rfl

end Shadowsocks.Lib
