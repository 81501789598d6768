import Shadowsocks.Lib.Bytes

/-!
# Ones' complement sums

Checksums of network protocols add 16-bit numbers with the carry added at the other end.
Such a sum is determined by the ordinary one: it has 16 bits, is congruent to it modulo
`2 ^ 16 - 1`, and is zero only where it is (`IsOnesSum`). So any way of folding the
carries computes it.
-/

namespace Shadowsocks.Lib
set_option autoImplicit false

/-- Addition with end-around carry. -/
def onesAdd (a b : Nat) : Nat := if a + b < 2 ^ 16 then a + b else a + b + 1 - 2 ^ 16

def onesSum (ns : List Nat) : Nat := ns.foldl onesAdd 0

/-- The 16-bit numbers in network byte order; an odd last byte is followed by a zero. -/
def words : Bytes → List Nat
  | hi :: lo :: rest => (hi.toNat * 256 + lo.toNat) :: words rest
  | [hi] => [hi.toNat * 256]
  | [] => []

/-- The complement of the sum. -/
def inetChecksum (bs : Bytes) : UInt16 := ~~~ UInt16.ofNat (onesSum (words bs))

/-- `s` is the ones' complement sum of numbers whose ordinary sum is `t`. -/
structure IsOnesSum (t s : Nat) : Prop where
  small : s < 2 ^ 16
  congruent : s % (2 ^ 16 - 1) = t % (2 ^ 16 - 1)
  zero : s = 0 ↔ t = 0

theorem IsOnesSum.unique {t s s' : Nat} (h : IsOnesSum t s) (h' : IsOnesSum t s') : s = s' := by
  obtain ⟨small, congruent, zero⟩ := h
  obtain ⟨small', congruent', zero'⟩ := h'
  omega

theorem isOnesSum_self {t : Nat} (small : t < 2 ^ 16) : IsOnesSum t t := ⟨small, rfl, .rfl⟩

theorem IsOnesSum.add {t s n : Nat} (h : IsOnesSum t s) (small : n < 2 ^ 16) : IsOnesSum (t + n) (onesAdd s n) := by
  obtain ⟨bound, congruent, zero⟩ := h
  unfold onesAdd
  split
  · exact ⟨by omega, by omega, by omega⟩
  · exact ⟨by omega, by omega, by omega⟩

/-- The folded sum is a ones' complement sum. -/
theorem isOnesSum_onesSum {ns : List Nat} (small : ∀ n ∈ ns, n < 2 ^ 16) : IsOnesSum ns.sum (onesSum ns) := by
  have from_ : ∀ (ns : List Nat) (t s : Nat), (∀ n ∈ ns, n < 2 ^ 16) → IsOnesSum t s → IsOnesSum (t + ns.sum) (ns.foldl onesAdd s) := by
    intro ns
    induction ns with
    | nil => exact fun t s _ h => h
    | cons n ns ih =>
      intro t s small h
      rw [List.sum_cons, ← Nat.add_assoc]
      exact ih _ _ (fun m mem => small m (List.mem_cons_of_mem _ mem)) (h.add (small n List.mem_cons_self))
  have all := from_ ns 0 0 small (isOnesSum_self (by decide))
  rwa [Nat.zero_add] at all

/-- Words have 16 bits. -/
theorem words_lt {bs : Bytes} : ∀ n ∈ words bs, n < 2 ^ 16 := by
  induction bs using words.induct with
  | case1 hi lo rest ih =>
    intro n mem
    rcases List.mem_cons.mp mem with rfl | mem
    · have := hi.toNat_lt
      have := lo.toNat_lt
      omega
    · exact ih n mem
  | case2 hi =>
    intro n mem
    rw [List.mem_singleton.mp mem]
    have := hi.toNat_lt
    omega
  | case3 => exact nofun

/-- An even number of bytes does not shift the words behind it. -/
theorem words_append {as : Bytes} (even : as.length % 2 = 0) (bs : Bytes) : words (as ++ bs) = words as ++ words bs := by
  induction as using words.induct with
  | case1 hi lo rest ih =>
    rw [List.length_cons, List.length_cons] at even
    rw [List.cons_append, List.cons_append, words, words, List.cons_append, ih (by omega)]
  | case2 hi =>
    rw [List.length_singleton] at even
    omega
  | case3 => rfl

/-- Whatever folds the carries of the ordinary sum, its complement is the checksum. -/
theorem inetChecksum_eq {bs : Bytes} {s : Nat} (sum : IsOnesSum (words bs).sum s) : inetChecksum bs = ~~~ UInt16.ofNat s := by
  rw [inetChecksum, (isOnesSum_onesSum words_lt).unique sum]

/-- A checksum of all ones is that of zeros. -/
theorem inetChecksum_ne {bs : Bytes} (some_ : (words bs).sum ≠ 0) : inetChecksum bs ≠ 0xFFFF := by
  have sum : IsOnesSum (words bs).sum (onesSum (words bs)) := isOnesSum_onesSum words_lt
  obtain ⟨small, -, zero⟩ := sum
  have positive : onesSum (words bs) ≠ 0 := mt zero.mp some_
  intro same
  have value := congrArg UInt16.toNat same
  rw [inetChecksum, UInt16.toNat_not, UInt16.toNat_ofNat'] at value
  have all : UInt16.size - 1 - onesSum (words bs) % 2 ^ 16 = 2 ^ 16 - 1 := value
  have size : UInt16.size = 2 ^ 16 := rfl
  omega

end Shadowsocks.Lib
