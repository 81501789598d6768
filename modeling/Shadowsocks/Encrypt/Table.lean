import Mathlib.Data.List.GetD
import Mathlib.Data.List.Induction
import Mathlib.Data.List.Nodup
import Shadowsocks.Encrypt.Openssl

/-!
# The tables of the method `table`

`enc_table_init` sorts the byte values once for each of 1023 salts, with a comparison
that depends on the password. Its `merge_sort` splits and merges as `List.mergeSort`
does.

A salt gives the keys by which all 256 bytes are compared, so the result is the stable sort of
the last salt of what the others have left.
-/

namespace Shadowsocks
set_option autoImplicit false
open Lib

/-- `random_compare(x, y, i, a) <= 0`. -/
def randomLe (i a : Nat) (x y : UInt8) : Bool := decide (a % (x.toNat + i) ≤ a % (y.toNat + i))

/-- `enc_table` after the salts given. -/
def sortTable (key : Nat) (salts : List Nat) (table : Bytes) : Bytes :=
  salts.foldl (fun table i => table.mergeSort (randomLe i key)) table

/-- `dec_table[enc_table[i]] = i` for the indices given. -/
def invertTable (table : Bytes) (indices : List Nat) (dec : UInt8 → UInt8) : UInt8 → UInt8 :=
  indices.foldl (fun dec i b => if b = table.getD i 0 then UInt8.ofNat i else dec b) dec

/-- `enc_table` of `enc_table_init`; `key` is made of the digest of the password. -/
def encTableInit (key : Nat) : Bytes := sortTable key (List.range' 1 1023) ((List.range 256).map UInt8.ofNat)

/-- The tables are those of `enc_table_init`. -/
def Encryptor.Initialised {P : Platform} (E : Encryptor P) : Prop :=
  ∃ key, E.encTable = (fun b => (encTableInit key).getD b.toNat 0) ∧
    E.decTable = invertTable (encTableInit key) (List.range 256) fun b => P.junk b.toNat

theorem sortTable_perm (key : Nat) (salts : List Nat) (table : Bytes) : (sortTable key salts table).Perm table := by
  induction salts generalizing table with
  | nil => exact .refl _
  | cons i salts ih => exact (ih _).trans (List.mergeSort_perm _ _)

theorem invertTable_self {table : Bytes} {indices : List Nat} {j : Nat} (dec : UInt8 → UInt8) (mem : j ∈ indices)
    (apart : ∀ i ∈ indices, table.getD i 0 = table.getD j 0 → i = j) :
    invertTable table indices dec (table.getD j 0) = UInt8.ofNat j := by
  induction indices using List.reverseRecOn with
  | nil => cases mem
  | append_singleton indices i ih =>
    rw [invertTable, List.foldl_append, List.foldl_cons, List.foldl_nil]
    split
    · rename_i same
      rw [apart i (by simp) same.symm]
    · rename_i differs
      -- the last index is not `j`, so an earlier one is
      have earlier : j ∈ indices := by
        rcases List.mem_append.mp mem with here | last
        · exact here
        · rw [List.mem_singleton.mp last] at differs
          exact absurd rfl differs
      exact ih earlier fun i' mem' => apart i' (List.mem_append_left _ mem')

/-- The first table is a permutation of the bytes, and the second one is its inverse. -/
theorem invertTable_encTableInit (key : Nat) (dec : UInt8 → UInt8) (b : UInt8) :
    invertTable (encTableInit key) (List.range 256) dec ((encTableInit key).getD b.toNat 0) = b := by
  have perm := sortTable_perm key (List.range' 1 1023) ((List.range 256).map UInt8.ofNat)
  have size : (encTableInit key).length = 256 := perm.length_eq.trans (by simp)
  have once : (encTableInit key).Nodup := by
    refine perm.nodup_iff.mpr (List.Nodup.map_on ?_ List.nodup_range)
    intro i hi j hj same
    have values := congrArg UInt8.toNat same
    rw [UInt8.toNat_ofNat', UInt8.toNat_ofNat'] at values
    have := List.mem_range.mp hi
    have := List.mem_range.mp hj
    omega
  have within : b.toNat < 256 := b.toNat_lt
  refine (invertTable_self _ (List.mem_range.mpr within) ?_).trans UInt8.ofNat_toNat
  intro i hi same
  have := List.mem_range.mp hi
  rw [List.getD_eq_getElem _ _ (by omega), List.getD_eq_getElem _ _ (by omega)] at same
  exact (once.getElem_inj_iff).mp same

theorem Encryptor.Initialised.inverse {P : Platform} {E : Encryptor P} (made : E.Initialised) (b : UInt8) :
    E.decTable (E.encTable b) = b := by
  obtain ⟨key, enc, dec⟩ := made
  rw [enc, dec]
  exact invertTable_encTableInit key _ b

/-- A comparison that never prefers the right side sorts nothing. -/
theorem sortTable_zero (salts : List Nat) (table : Bytes) : sortTable 0 salts table = table := by
  induction salts with
  | nil => rfl
  | cons i salts ih =>
    rw [sortTable, List.foldl_cons, List.mergeSort_of_pairwise]
    · exact ih
    · exact List.pairwise_of_forall fun _ _ => by simp [randomLe]

theorem unsortedTable_initialised : unsortedTable.Initialised := by
  have enc : ∀ b : UInt8, (encTableInit 0).getD b.toNat 0 = b := by
    intro b
    have within : b.toNat < 256 := b.toNat_lt
    rw [encTableInit, sortTable_zero, List.getD_eq_getElem _ _ (by simpa using within), List.getElem_map, List.getElem_range,
      UInt8.ofNat_toNat]
  refine ⟨0, funext fun b => (enc b).symm, funext fun b => ?_⟩
  have inverse := invertTable_encTableInit 0 (fun b => rc4Platform.junk b.toNat) b
  rw [enc b] at inverse
  exact inverse.symm

end Shadowsocks
