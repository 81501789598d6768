import Shadowsocks.Lib.Memory
import Shadowsocks.Acl
import Shadowsocks.Encrypt.Openssl

/-!
# `bytes_to_key`

The builds with PolarSSL and mbedTLS derive key and IV themselves: the digest is taken
again and again, of the last digest followed by the password, and its bytes go to the
key as long as that is not full, then to the IV. With OpenSSL `EVP_BytesToKey` does it.

The digest is an interface of the library with a context (`MdOps`), which is only known by what
has been put into it. The loop ends when both arrays are full, so the model gives it fuel, and
`bytesToKey_derives` says how many rounds are enough.
-/

namespace Shadowsocks
set_option autoImplicit false
open Lib

/-- `md.h` of PolarSSL and mbedTLS; a call that reports an error gives `none`. -/
structure MdOps where
  Ctx : Type
  /-- `md_init_ctx`, `mbedtls_md_setup`. -/
  setup : Option Ctx
  starts : Ctx → Option Ctx
  update : Ctx → Bytes → Option Ctx
  finish : Ctx → Option (Ctx × Bytes)
  size : Nat
  /-- `MAX_MD_SIZE`. -/
  maxSize : Nat

/-- No call reports an error, and a context into which `x` has been put gives `digest x`. -/
structure MdOps.Computes (md : MdOps) (digest : Bytes → Bytes) (fed : md.Ctx → Bytes → Prop) : Prop where
  setup : ∃ c, md.setup = some c
  starts : ∀ c, ∃ c', md.starts c = some c' ∧ fed c' []
  update : ∀ c x y, fed c x → ∃ c', md.update c y = some c' ∧ fed c' (x ++ y)
  finish : ∀ c x, fed c x → ∃ c', md.finish c = some (c', digest x)
  size : ∀ x, (digest x).length = md.size
  positive : 0 < md.size
  fits : md.size ≤ md.maxSize

/-- The variables of `bytes_to_key`; `key` and `iv` point into allocations. -/
structure Derivation (γ : Type) where
  c : γ
  mdBuf : Bytes
  addmd : Bool
  nkey : Nat
  niv : Nat
  key : Option Bytes
  keyPos : Nat
  iv : Option Bytes
  ivPos : Nat

/-- The calls of one digest: `md_starts`, `md_update` with each part, `md_finish`. -/
def mdCalls (md : MdOps) (c : md.Ctx) (parts : List Bytes) : Option (md.Ctx × Bytes) :=
  (md.starts c).bind fun c => (parts.foldlM md.update c).bind md.finish

/-- The `do` block: the new context and `md_buf`, or `error`. -/
def mdRound (md : MdOps) (pass : Bytes) (c : md.Ctx) (mdBuf : Bytes) (addmd : Bool) : Except Fault (Option (md.Ctx × Bytes)) := do
  let last ← if addmd then (fun last => [last]) <$> load mdBuf 0 md.size else pure []
  match mdCalls md c (last ++ [pass]) with
  | none => pure none
  | some (c, digest) => do
    let mdBuf ← store mdBuf 0 digest
    pure (some (c, mdBuf))

/-- The inner loops: bytes of `md_buf` from `i` on go to `dst`, of which `n` are missing. -/
def takeDigest (mdBuf : Bytes) (mds : Nat) : (n : Nat) → (i : Nat) → (dst : Option Bytes) → (pos : Nat) →
    Except Fault (Nat × Nat × Option Bytes × Nat)
  | 0, i, dst, pos => pure (0, i, dst, pos)
  | n + 1, i, dst, pos =>
    if i = mds then pure (n + 1, i, dst, pos)
    else
      match dst with
      | none => takeDigest mdBuf mds n (i + 1) none pos
      | some mem => do
        let b ← load mdBuf i 1
        let mem ← store mem pos b
        takeDigest mdBuf mds n (i + 1) (some mem) (pos + 1)

/-- The outer loop, for `fuel` rounds: the value returned, and key and IV. -/
def deriveLoop (md : MdOps) (pass : Bytes) (rv : Nat) : Nat → Derivation md.Ctx →
    Except Fault (Option (Nat × Option Bytes × Option Bytes))
  | 0, _ => pure none
  | fuel + 1, d => do
    match ← mdRound md pass d.c d.mdBuf d.addmd with
    | none => pure (some (0, d.key, d.iv))
    | some (c, mdBuf) => do
      let (nkey, i, key, keyPos) ←
        if d.nkey ≠ 0 then takeDigest mdBuf md.size d.nkey 0 d.key d.keyPos else pure (d.nkey, 0, d.key, d.keyPos)
      let (niv, _, iv, ivPos) ←
        if d.niv ≠ 0 ∧ i ≠ md.size then takeDigest mdBuf md.size d.niv i d.iv d.ivPos else pure (d.niv, i, d.iv, d.ivPos)
      if nkey = 0 ∧ niv = 0 then pure (some (rv, key, iv))
      else deriveLoop md pass rv fuel { c, mdBuf, addmd := true, nkey, niv, key, keyPos, iv, ivPos }

/-- `bytes_to_key` with a cipher of the given sizes, for `fuel` rounds. `strlen` is called
before `pass` is compared with NULL; `junk` is what `md_buf` holds at first. -/
def bytesToKey (md : MdOps) (junk : Nat → UInt8) (fuel : Nat) (nkey niv : Nat) (pass key iv : Option Bytes) :
    Except Fault (Option (Nat × Option Bytes × Option Bytes)) := do
  let pass ← deref pass
  match md.setup with
  | none => pure (some (0, key, iv))
  | some c =>
    deriveLoop md (cString pass) nkey fuel
      { c, mdBuf := (List.range md.maxSize).map junk, addmd := false, nkey, niv, key, keyPos := 0, iv, ivPos := 0 }

/-- `EVP_BytesToKey` without salt and with count 1, for `fuel` rounds. Its loop is that of
`bytes_to_key`, but for `EVP_DigestFinal_ex` storing `mds`; the context needs no setting up. -/
def evpBytesToKey (md : MdOps) (init : md.Ctx) (junk : Nat → UInt8) (fuel : Nat) (nkey niv : Nat) (data key iv : Option Bytes) :
    Except Fault (Option (Nat × Option Bytes × Option Bytes)) :=
  if 64 < nkey ∨ 16 < niv then .error .abort
  else
    match data with
    | none => pure (some (nkey, key, iv))
    | some data =>
      deriveLoop md (cString data) nkey fuel
        { c := init, mdBuf := (List.range md.maxSize).map junk, addmd := false, nkey, niv, key, keyPos := 0, iv, ivPos := 0 }

/-! ## The specification -/

/-- `D1` is the digest of the password, `D(k+1)` that of `Dk` and the password. -/
def digestBlock (digest : Bytes → Bytes) (pass : Bytes) : Nat → Bytes
  | 0 => digest pass
  | k + 1 => digest (digestBlock digest pass k ++ pass)

/-- `n` blocks from the one with index `k` on. -/
def digestBlocks (digest : Bytes → Bytes) (pass : Bytes) (k n : Nat) : Bytes :=
  (List.range' k n).flatMap (digestBlock digest pass)

section
variable {md : MdOps} {digest : Bytes → Bytes} {fed : md.Ctx → Bytes → Prop} {pass : Bytes}

theorem digestBlocks_succ (k n : Nat) :
    digestBlocks digest pass k (n + 1) = digestBlock digest pass k ++ digestBlocks digest pass (k + 1) n := by
  rw [digestBlocks, List.range'_succ, List.flatMap_cons]
  rfl

theorem length_digestBlock (computes : md.Computes digest fed) (k : Nat) : (digestBlock digest pass k).length = md.size := by
  cases k with
  | zero => exact computes.size _
  | succ k => exact computes.size _

theorem length_digestBlocks (computes : md.Computes digest fed) (k n : Nat) :
    (digestBlocks digest pass k n).length = n * md.size := by
  induction n generalizing k with
  | zero => rw [digestBlocks, List.range'_zero, List.flatMap_nil, List.length_nil, Nat.zero_mul]
  | succ n ih => rw [digestBlocks_succ, List.length_append, length_digestBlock computes, ih, Nat.succ_mul, Nat.add_comm]

/-! ## The loops -/

/-- `md_buf` before the round with index `k`. -/
def Holds (md : MdOps) (digest : Bytes → Bytes) (pass mdBuf : Bytes) : Nat → Prop
  | 0 => mdBuf.length = md.maxSize
  | k + 1 => mdBuf.length = md.maxSize ∧ window mdBuf 0 md.size = digestBlock digest pass k

theorem Holds.length {mdBuf : Bytes} {k : Nat} (holds : Holds md digest pass mdBuf k) : mdBuf.length = md.maxSize := by
  cases k with
  | zero => exact holds
  | succ k => exact holds.1

theorem fed_parts (computes : md.Computes digest fed) {c : md.Ctx} {x : Bytes} (so_far : fed c x) (parts : List Bytes) :
    ∃ c', parts.foldlM md.update c = some c' ∧ fed c' (x ++ parts.flatten) := by
  induction parts generalizing c x with
  | nil => exact ⟨c, rfl, by rwa [List.flatten_nil, List.append_nil]⟩
  | cons part parts ih =>
    obtain ⟨c₁, updated, more⟩ := computes.update c x part so_far
    obtain ⟨c₂, rest, all⟩ := ih more
    refine ⟨c₂, ?_, ?_⟩
    · rw [List.foldlM_cons, updated]
      exact rest
    · rwa [List.flatten_cons, ← List.append_assoc]

theorem mdCalls_spec (computes : md.Computes digest fed) (c : md.Ctx) (parts : List Bytes) :
    ∃ c', mdCalls md c parts = some (c', digest parts.flatten) := by
  obtain ⟨c₁, started, empty⟩ := computes.starts c
  obtain ⟨c₂, updated, full⟩ := fed_parts computes empty parts
  obtain ⟨c₃, finished⟩ := computes.finish c₂ _ full
  exact ⟨c₃, by rw [mdCalls, started, Option.bind_some, updated, Option.bind_some, finished, List.nil_append]⟩

theorem mdRound_spec (computes : md.Computes digest fed) (c : md.Ctx) {mdBuf : Bytes} {k : Nat}
    (holds : Holds md digest pass mdBuf k) :
    ∃ c' mdBuf', mdRound md pass c mdBuf (k ≠ 0) = .ok (some (c', mdBuf')) ∧ Holds md digest pass mdBuf' (k + 1) := by
  -- whatever the parts, the digest goes to the front of the buffer
  have stored : ∀ last : List Bytes, digest (last ++ [pass]).flatten = digestBlock digest pass k →
      ∃ c' mdBuf', (match mdCalls md c (last ++ [pass]) with
        | none => pure none
        | some (c, digest) => do
          let mdBuf ← store mdBuf 0 digest
          pure (some (c, mdBuf)) : Except Fault (Option (md.Ctx × Bytes))) = .ok (some (c', mdBuf')) ∧
        Holds md digest pass mdBuf' (k + 1) := by
    intro last block
    obtain ⟨c', gives⟩ := mdCalls_spec computes c (last ++ [pass])
    have room : 0 + (digest (last ++ [pass]).flatten).length ≤ mdBuf.length := by
      rw [computes.size, holds.length, Nat.zero_add]
      exact computes.fits
    refine ⟨c', splice mdBuf 0 (digest (last ++ [pass]).flatten), ?_, (length_splice room).trans holds.length, ?_⟩
    · simp only [gives, store_ok room, ok_bind]
      rfl
    · rw [← computes.size (last ++ [pass]).flatten, window_splice_self _ _ _ (Nat.zero_le _), block]
  cases k with
  | zero => exact stored [] (by rw [List.nil_append, List.flatten_singleton]; rfl)
  | succ k =>
    have loaded : load mdBuf 0 md.size = .ok (digestBlock digest pass k) := by
      rw [load_ok (by rw [holds.1, Nat.zero_add]; exact computes.fits), holds.2]
    obtain ⟨c', mdBuf', ran, holds'⟩ := stored [digestBlock digest pass k] (by
      rw [List.singleton_append, List.flatten_cons, List.flatten_singleton]
      rfl)
    refine ⟨c', mdBuf', ?_, holds'⟩
    have again : decide (k + 1 ≠ 0) = true := decide_eq_true (Nat.succ_ne_zero k)
    rw [← ran, again, mdRound, if_pos rfl, loaded]
    rfl

/-- The inner loops copy as many bytes as are missing and as the digest still has. -/
theorem takeDigest_spec {mdBuf : Bytes} {mds : Nat} (size : mds ≤ mdBuf.length) (n i : Nat) (below : i ≤ mds) (dst : Option Bytes)
    (pos : Nat) (room : ∀ mem ∈ dst, pos + n ≤ mem.length) :
    takeDigest mdBuf mds n i dst pos = .ok (n - (mds - i), i + min n (mds - i),
      dst.map fun mem => splice mem pos (window mdBuf i (min n (mds - i))), pos + if dst.isSome then min n (mds - i) else 0) := by
  induction n generalizing i dst pos with
  | zero =>
    cases dst <;> simp [takeDigest, window_nil]
  | succ n ih =>
    unfold takeDigest
    by_cases full : i = mds
    · rw [if_pos full, full, Nat.sub_self, Nat.min_zero]
      cases dst <;> simp [window_nil]
    · have count : min (n + 1) (mds - i) = 1 + min n (mds - (i + 1)) := by omega
      have left : n + 1 - (mds - i) = n - (mds - (i + 1)) := by omega
      have next : i + (1 + min n (mds - (i + 1))) = i + 1 + min n (mds - (i + 1)) := by omega
      rw [if_neg full, count, left, next]
      cases dst with
      | none => exact ih (i + 1) (by omega) none pos nofun
      | some mem =>
        have space := room mem rfl
        have one : (window mdBuf i 1).length = 1 := length_window (by omega)
        have most : (window mdBuf (i + 1) (min n (mds - (i + 1)))).length = min n (mds - (i + 1)) := length_window (by omega)
        have wrote : (splice mem pos (window mdBuf i 1)).length = mem.length := length_splice (by omega)
        have rest := ih (i + 1) (by omega) (some (splice mem pos (window mdBuf i 1))) (pos + 1) (by
          intro mem' here
          cases here
          omega)
        have joined : splice (splice mem pos (window mdBuf i 1)) (pos + 1) (window mdBuf (i + 1) (min n (mds - (i + 1)))) =
            splice mem pos (window mdBuf i (1 + min n (mds - (i + 1)))) := by
          rw [window_add]
          nth_rewrite 2 [← one]
          exact splice_splice_append (by omega)
        simp only [load_ok (show i + 1 ≤ mdBuf.length by omega), ok_bind, store_ok (show pos + (window mdBuf i 1).length ≤ mem.length by omega)]
        have stop : pos + 1 + min n (mds - (i + 1)) = pos + (1 + min n (mds - (i + 1))) := by omega
        rw [rest, Option.map_some, Option.map_some, joined, Option.isSome_some, Option.isSome_some, if_pos rfl, if_pos rfl,
          stop]

/-- The tests before the inner loops spare only a loop that would do nothing. -/
theorem takeDigest_guard {β : Type} (mdBuf : Bytes) (mds n i : Nat) (dst : Option Bytes) (pos : Nat)
    (rest : Nat × Nat × Option Bytes × Nat → Except Fault β) {wanted : Prop} [Decidable wanted] (idle : ¬ wanted → n = 0 ∨ i = mds) :
    (if wanted then takeDigest mdBuf mds n i dst pos >>= rest else (pure (n, i, dst, pos) : Except Fault _) >>= rest) =
      takeDigest mdBuf mds n i dst pos >>= rest := by
  split
  · rfl
  next unwanted =>
    have same : takeDigest mdBuf mds n i dst pos = pure (n, i, dst, pos) := by
      rcases idle unwanted with none_left | block_used
      · subst none_left
        rfl
      · cases n with
        | zero => rfl
        | succ n =>
          unfold takeDigest
          rw [if_pos block_used]
    rw [same]

/-- What the key loop leaves of the block is what the IV loop takes from it. -/
theorem window_take_drop (l : Bytes) (size skip n : Nat) :
    window l (min skip size) (min n (size - min skip size)) = ((window l 0 size).drop skip).take n := by
  rw [window, window, List.drop_zero, List.drop_take, List.take_take]
  by_cases inside : skip ≤ size
  · rw [Nat.min_eq_left inside]
  · have beyond : size ≤ skip := by omega
    rw [Nat.min_eq_right beyond, Nat.sub_self, Nat.sub_eq_zero_of_le beyond, Nat.min_zero, List.take_zero, List.take_zero]

/-- Two rounds store one after the other in the same allocation. -/
theorem splice_rounds {dst : Option Bytes} {pos n first left : Nat} {as bs : Bytes} (length : as.length = first)
    (part : first + left = n) (short : bs.length ≤ left) (room : ∀ mem ∈ dst, pos + n ≤ mem.length) :
    (dst.map fun mem => splice mem pos as).map (fun mem => splice mem (pos + if dst.isSome then first else 0) bs) =
      dst.map fun mem => splice mem pos (as ++ bs) := by
  cases dst with
  | none => rfl
  | some mem =>
    have fits := room mem rfl
    rw [Option.map_some, Option.map_some, Option.map_some, Option.isSome_some, if_pos rfl, ← length,
      splice_splice_append (by omega)]

theorem spliced_room {dst : Option Bytes} {pos n taken left : Nat} {as : Bytes} (length : as.length = taken) (part : taken + left = n)
    (room : ∀ mem ∈ dst, pos + n ≤ mem.length) :
    ∀ mem ∈ dst.map (fun mem => splice mem pos as), pos + (if dst.isSome then taken else 0) + left ≤ mem.length := by
  intro mem here
  obtain ⟨before, was, rfl⟩ := Option.map_eq_some_iff.mp here
  have fits := room before was
  rw [was, Option.isSome_some, if_pos rfl, length_splice (by omega)]
  omega

/-- The key takes of the first block what it can, and the rest of the blocks behind it. -/
theorem take_digestBlocks_succ (computes : md.Computes digest fed) (k n skip : Nat) :
    (digestBlocks digest pass k (n + 1)).take skip =
      (digestBlock digest pass k).take skip ++ (digestBlocks digest pass (k + 1) n).take (skip - md.size) := by
  rw [digestBlocks_succ, List.take_append, length_digestBlock computes k]

/-- So does the IV, from where the key ends. -/
theorem drop_digestBlocks_succ (computes : md.Computes digest fed) (k n skip wanted : Nat) :
    ((digestBlocks digest pass k (n + 1)).drop skip).take wanted =
      ((digestBlock digest pass k).drop skip).take wanted ++
        ((digestBlocks digest pass (k + 1) n).drop (skip - md.size)).take (wanted - (md.size - min skip md.size)) := by
  rw [digestBlocks_succ, List.drop_append, List.take_append, List.length_drop, length_digestBlock computes k]
  congr 2
  omega

/-- By induction on the blocks that are enough: every round takes what it needs of its own block,
and the next one goes on behind it. What the two inner loops copy out of a block is a beginning of
what is still wanted of the blocks together. -/
theorem deriveLoop_spec (computes : md.Computes digest fed) (rv n : Nat) (d : Derivation md.Ctx) (k : Nat)
    (holds : Holds md digest pass d.mdBuf k) (addmd : d.addmd = decide (k ≠ 0))
    (keyRoom : ∀ mem ∈ d.key, d.keyPos + d.nkey ≤ mem.length) (ivRoom : ∀ mem ∈ d.iv, d.ivPos + d.niv ≤ mem.length)
    (some_round : 0 < n) (enough : d.nkey + d.niv ≤ n * md.size) :
    deriveLoop md pass rv n d = .ok (some (rv,
      d.key.map fun mem => splice mem d.keyPos ((digestBlocks digest pass k n).take d.nkey),
      d.iv.map fun mem => splice mem d.ivPos (((digestBlocks digest pass k n).drop d.nkey).take d.niv))) := by
  induction n generalizing d k with
  | zero => cases some_round
  | succ n ih =>
    obtain ⟨c', mdBuf', ran, holds'⟩ := mdRound_spec computes d.c holds
    have size : md.size ≤ mdBuf'.length := by
      rw [holds'.1]
      exact computes.fits
    have blockSize : (digestBlock digest pass k).length = md.size := length_digestBlock computes k
    have positive := computes.positive
    have keyTaken := takeDigest_spec size d.nkey 0 (Nat.zero_le _) d.key d.keyPos keyRoom
    have ivTaken := takeDigest_spec size d.niv (min d.nkey md.size) (Nat.min_le_right _ _) d.iv d.ivPos ivRoom
    have keyPart : window mdBuf' 0 (min d.nkey md.size) = (digestBlock digest pass k).take d.nkey := by
      rw [← holds'.2, window, window, List.take_take]
    have ivPart := window_take_drop mdBuf' md.size d.nkey d.niv
    rw [holds'.2] at ivPart
    rw [Nat.sub_zero, Nat.zero_add, keyPart] at keyTaken
    rw [ivPart] at ivTaken
    have keyLength : ((digestBlock digest pass k).take d.nkey).length = min d.nkey md.size := by
      rw [List.length_take, blockSize]
    have ivLength : (((digestBlock digest pass k).drop d.nkey).take d.niv).length = min d.niv (md.size - min d.nkey md.size) := by
      rw [List.length_take, List.length_drop, blockSize]
      omega
    unfold deriveLoop
    rw [addmd, ran, ok_bind]
    simp only []
    refine (takeDigest_guard _ _ _ _ _ _ _ (by omega)).trans ?_
    rw [keyTaken, ok_bind]
    refine (takeDigest_guard _ _ _ _ _ _ _ (by omega)).trans ?_
    rw [ivTaken, ok_bind]
    simp only []
    split
    next all_taken =>
      have key_first : d.nkey - md.size = 0 := all_taken.1
      have iv_first : d.niv - (md.size - min d.nkey md.size) = 0 := all_taken.2
      rw [take_digestBlocks_succ computes, drop_digestBlocks_succ computes, key_first, iv_first,
        List.take_zero, List.take_zero, List.append_nil, List.append_nil]
      rfl
    next more =>
      have left : d.nkey - md.size + (d.niv - (md.size - min d.nkey md.size)) ≤ n * md.size := by
        rw [Nat.succ_mul] at enough
        omega
      have again : 0 < n := by
        rcases Nat.eq_zero_or_pos n with none_left | positive
        · subst none_left
          omega
        · exact positive
      have keyCount : min d.nkey md.size + (d.nkey - md.size) = d.nkey := by omega
      have ivCount : min d.niv (md.size - min d.nkey md.size) + (d.niv - (md.size - min d.nkey md.size)) = d.niv := by omega
      have rest := ih
        { c := c', mdBuf := mdBuf', addmd := true, nkey := d.nkey - md.size, niv := d.niv - (md.size - min d.nkey md.size)
          key := d.key.map fun mem => splice mem d.keyPos ((digestBlock digest pass k).take d.nkey)
          keyPos := d.keyPos + if d.key.isSome then min d.nkey md.size else 0
          iv := d.iv.map fun mem => splice mem d.ivPos (((digestBlock digest pass k).drop d.nkey).take d.niv)
          ivPos := d.ivPos + if d.iv.isSome then min d.niv (md.size - min d.nkey md.size) else 0 }
        (k + 1) holds' rfl (spliced_room keyLength keyCount keyRoom) (spliced_room ivLength ivCount ivRoom) again left
      rw [rest, take_digestBlocks_succ computes, drop_digestBlocks_succ computes]
      simp only []
      rw [splice_rounds keyLength keyCount (List.length_take_le _ _) keyRoom,
        splice_rounds ivLength ivCount (List.length_take_le _ _) ivRoom]

theorem digestBlocks_le (k : Nat) {m n : Nat} (more : m ≤ n) :
    digestBlocks digest pass k m <+: digestBlocks digest pass k n := by
  induction m generalizing k n with
  | zero => exact List.nil_prefix
  | succ m ih =>
    cases n with
    | zero => cases more
    | succ n =>
      rw [digestBlocks_succ, digestBlocks_succ]
      exact List.prefix_append_right_inj _ |>.mpr (ih (k + 1) (Nat.le_of_succ_le_succ more))

/-- Enough blocks are enough: further ones change no byte of the beginning. -/
theorem take_digestBlocks (computes : md.Computes digest fed) {wanted m n : Nat} (enough : wanted ≤ m * md.size)
    (enough' : wanted ≤ n * md.size) :
    (digestBlocks digest pass 0 m).take wanted = (digestBlocks digest pass 0 n).take wanted := by
  have shorter : ∀ m n, m ≤ n → wanted ≤ m * md.size →
      (digestBlocks digest pass 0 m).take wanted = (digestBlocks digest pass 0 n).take wanted := by
    intro m n more enough
    have chain : digestBlocks digest pass 0 m <+: digestBlocks digest pass 0 n := digestBlocks_le 0 more
    obtain ⟨rest, split⟩ := chain
    rw [← split, List.take_append_of_le_length (by rw [length_digestBlocks computes]; exact enough)]
  rcases Nat.le_total m n with more | fewer
  · exact shorter m n more enough
  · exact (shorter n m fewer enough').symm

end

/-- Key and IV are the beginning of the blocks, whichever library computes the digest; the loop
ends as soon as there are enough of them, and as `EVP_BytesToKey` does. However many blocks are
computed, their first bytes are the same, and as many blocks as there are bytes are always enough.
With any context to begin with, the first round sets it up. -/
theorem bytesToKey_derives (md : MdOps) (digest : Bytes → Bytes) (fed : md.Ctx → Bytes → Prop) (computes : md.Computes digest fed)
    (junk : Nat → UInt8) (nkey niv : Nat) (wanted : 0 < nkey + niv) (pass : Bytes) (key iv : Option Bytes)
    (keyRoom : ∀ mem ∈ key, nkey ≤ mem.length) (ivRoom : ∀ mem ∈ iv, niv ≤ mem.length) :
    ∃ k v : Bytes, k.length = nkey ∧ v.length = niv ∧
      (∀ n, nkey + niv ≤ n * md.size → k ++ v = (digestBlocks digest (cString pass) 0 n).take (nkey + niv)) ∧
      ∀ fuel, nkey + niv ≤ fuel * md.size →
        bytesToKey md junk fuel nkey niv (some pass) key iv =
          .ok (some (nkey, key.map fun mem => splice mem 0 k, iv.map fun mem => splice mem 0 v)) ∧
        (nkey ≤ 64 → niv ≤ 16 → ∀ init, evpBytesToKey md init junk fuel nkey niv (some pass) key iv =
          bytesToKey md junk fuel nkey niv (some pass) key iv) := by
  have positive := computes.positive
  have enough : nkey + niv ≤ (nkey + niv) * md.size := Nat.le_mul_of_pos_right _ positive
  have long : (digestBlocks digest (cString pass) 0 (nkey + niv)).length = (nkey + niv) * md.size :=
    length_digestBlocks computes 0 (nkey + niv)
  refine ⟨(digestBlocks digest (cString pass) 0 (nkey + niv)).take nkey,
    ((digestBlocks digest (cString pass) 0 (nkey + niv)).drop nkey).take niv, ?_, ?_, ?_, ?_⟩
  · rw [List.length_take, long]
    omega
  · rw [List.length_take, List.length_drop, long]
    omega
  · intro n enough'
    rw [← List.take_add, take_digestBlocks computes enough enough']
  · intro fuel enough'
    have rounds : 0 < fuel := by
      rcases Nat.eq_zero_or_pos fuel with none_left | positive
      · subst none_left
        omega
      · exact positive
    obtain ⟨c, ready⟩ := computes.setup
    have buffer : ((List.range md.maxSize).map junk).length = md.maxSize := by rw [List.length_map, List.length_range]
    have loop : ∀ c, deriveLoop md (cString pass) nkey fuel
        { c, mdBuf := (List.range md.maxSize).map junk, addmd := false, nkey, niv, key, keyPos := 0, iv, ivPos := 0 } =
        .ok (some (nkey, key.map fun mem => splice mem 0 ((digestBlocks digest (cString pass) 0 (nkey + niv)).take nkey),
          iv.map fun mem => splice mem 0 (((digestBlocks digest (cString pass) 0 (nkey + niv)).drop nkey).take niv))) := by
      intro c
      have same : (digestBlocks digest (cString pass) 0 fuel).take (nkey + niv) =
        (digestBlocks digest (cString pass) 0 (nkey + niv)).take (nkey + niv) := take_digestBlocks computes enough' enough
      have keySame := congrArg (List.take nkey) same
      have ivSame := congrArg (List.drop nkey) same
      rw [List.take_take, List.take_take, Nat.min_eq_left (Nat.le_add_right nkey niv)] at keySame
      rw [List.drop_take, List.drop_take, Nat.add_sub_cancel_left] at ivSame
      refine (deriveLoop_spec computes nkey fuel _ 0 ?_ rfl ?_ ?_ rounds enough').trans ?_
      · exact buffer
      · simpa using keyRoom
      · simpa using ivRoom
      · rw [keySame, ivSame]
    refine ⟨?_, ?_⟩
    · rw [bytesToKey, deref_some, ok_bind, ready]
      exact loop c
    · intro keyLimit ivLimit init
      rw [bytesToKey, deref_some, ok_bind, ready, evpBytesToKey, if_neg (by omega)]
      exact (loop init).trans (loop c).symm

/-- MD5 of a whole message at once: the context is what has been put into it. -/
def md5Ops : MdOps where
  Ctx := Bytes
  setup := some []
  starts _ := some []
  update c x := some (c ++ x)
  finish c := some (c, md5 c)
  size := 16
  maxSize := 64

theorem length_md5 (message : Bytes) : (md5 message).length = 16 := rfl

theorem md5Ops_computes : md5Ops.Computes md5 (· = ·) where
  setup := ⟨[], rfl⟩
  starts _ := ⟨[], rfl, rfl⟩
  update c x y same := ⟨_, rfl, congrArg (· ++ y) same⟩
  finish c x same := ⟨c, congrArg (fun x => some (c, md5 x)) same⟩
  size := length_md5
  positive := by decide
  fits := by decide

theorem bytesToKey_derives_aes : ∃ k v : Bytes, k.length = 24 ∧ v.length = 16 ∧
    bytesToKey md5Ops (fun _ => 0) 3 24 16 (some [0x66, 0x6f, 0x6f, 0]) (some (List.replicate 64 0)) (some (List.replicate 16 0)) =
      .ok (some (24, some (splice (List.replicate 64 0) 0 k), some (splice (List.replicate 16 0) 0 v))) := by
  obtain ⟨k, v, keyLength, ivLength, -, runs⟩ := bytesToKey_derives md5Ops md5 (· = ·) md5Ops_computes (fun _ => 0) 24 16
    (by decide) [0x66, 0x6f, 0x6f, 0] (some (List.replicate 64 0)) (some (List.replicate 16 0)) (by
      intro mem here
      cases here
      decide) (by
      intro mem here
      cases here
      decide)
  exact ⟨k, v, keyLength, ivLength, (runs 3 (by decide)).1⟩

end Shadowsocks
