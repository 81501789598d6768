import Shadowsocks.Encrypt.Openssl
import Shadowsocks.Encrypt.Stream
import Shadowsocks.Lib.Machine

/-!
# Replayed IVs

All decryption contexts of a process share one cache of IVs. The first call of
`ss_decrypt` on a context looks its IV up and remembers it; what the cache holds is the
window of the IVs that were used last. A cache of 256 entries makes a window of 255,
because an insertion that fills it drops the oldest entry at once.
-/

namespace Shadowsocks
set_option autoImplicit false
open Lib

/-- The statics of `ss_decrypt` and the contexts that share them. The history of the IVs
that were looked up is a ghost. -/
structure Process (P : Platform) where
  tmp : Buffer := {}
  ivCache : Cache Unit
  ctx : Nat → EncCtx P
  uses : List Bytes := []

/-- A call of `ss_decrypt` on the context with number `ctx`. -/
structure DecryptCall where
  ctx : Nat
  cipher : Buffer
  capacity : Nat

section
variable {P : Platform} (E : Encryptor P)

/-- `iv`: the bytes the buffer begins with. -/
def DecryptCall.iv (c : DecryptCall) : Bytes := window c.cipher.array 0 E.ivLen

/-- After `enc_key_init`, with a fresh context for every connection that may come. -/
def Process.start : Process P where
  ivCache := cacheCreate Unit 256
  ctx _ := encCtxInit E false []

/-- A call of `ss_decrypt` in the process. -/
def Process.decrypt (s : Process P) (c : DecryptCall) : Except Fault (DecResult P) :=
  ssDecrypt E c.cipher (some (s.ctx c.ctx)) s.tmp s.ivCache c.capacity

/-- The process after the call. -/
def Process.after (s : Process P) (c : DecryptCall) (r : DecResult P) : Process P where
  tmp := r.tmp
  ivCache := r.ivCache
  ctx i := if i = c.ctx then r.ctx.getD (s.ctx i) else s.ctx i
  uses := if (s.ctx c.ctx).init then s.uses else s.uses ++ [c.iv E]

/-- The calls of a process, in any order. -/
def decryptMachine : Machine (Process P) DecryptCall Fault where
  enabled _ _ := true
  fire s c := (s.decrypt E c).map (s.after E c)

end

section
variable {P : Platform} {E : Encryptor P} {s s' : Process P} {c : DecryptCall}

/-! ## The cache is the window -/

/-- The cache holds the IVs that were used last. -/
def Window (s : Process P) : Prop := s.ivCache.maxEntries = 256 ∧ s.ivCache.keys = recent 255 s.uses

theorem admitIv_started {ctx : EncCtx P} {iv : Bytes} {ivCache : Cache Unit} (started : ctx.init = true) :
    admitIv E ctx iv ivCache = (false, ivCache) := by
  rw [admitIv, started]
  rfl

/-- What becomes of the cache depends only on the IV. -/
theorem ssDecrypt_ivCache {cipher tmp : Buffer} {ctx : EncCtx P} {ivCache : Cache Unit} {capacity n : Nat}
    {r : DecResult P} (ivLen : (if ctx.init then 0 else E.ivLen) = n)
    (h : ssDecrypt E cipher (some ctx) tmp ivCache capacity = .ok r) :
    r.ivCache = (admitIv E ctx (window cipher.array 0 n) ivCache).2 := by
  obtain ⟨roomy, -, h⟩ := bind_eq_ok.mp h
  rw [ivLen] at h
  obtain ⟨iv, read, h⟩ := bind_eq_ok.mp h
  rw [Buffer.read, load] at read
  split at read
  · cases read
    generalize (if ctx.init then ctx else started E ctx (window cipher.array 0 n) false) = begun at h
    dsimp only at h
    split at h
    · cases h
      rfl
    · split at h
      · obtain ⟨⟨src, dst, after⟩, -, h⟩ := bind_eq_ok.mp h
        obtain ⟨out, -, h⟩ := bind_eq_ok.mp h
        cases h
        rfl
      · obtain ⟨updated, -, h⟩ := bind_eq_ok.mp h
        split at h
        · cases h
          rfl
        · obtain ⟨out, -, h⟩ := bind_eq_ok.mp h
          cases h
          rfl
  · cases read

/-- A call on a started context neither asks the cache nor changes it. -/
theorem ssDecrypt_started {cipher tmp : Buffer} {ctx : EncCtx P} {ivCache : Cache Unit} {capacity : Nat}
    (begun : ctx.init = true) (other : Cache Unit) :
    ssDecrypt E cipher (some ctx) tmp other capacity =
      (ssDecrypt E cipher (some ctx) tmp ivCache capacity).map fun r => { r with ivCache := other } := by
  unfold ssDecrypt
  simp only [admitIv_started begun, begun, if_true, Bool.false_eq_true, if_false]
  cases brealloc P.junk tmp cipher.len capacity with
  | error f => rfl
  | ok roomy =>
    simp only [ok_bind]
    cases cipher.read 0 0 with
    | error f => rfl
    | ok none_ =>
      simp only [ok_bind]
      split
      · cases padXor E cipher { roomy with len := sizeSub cipher.len 0 } 0 0 (sizeSub cipher.len 0)
            (fun padding => cipher.len + padding) (fun padding => (sizeSub cipher.len 0 + padding) * 2 % 2 ^ 64) ctx capacity with
        | error f => rfl
        | ok xored =>
          obtain ⟨src, dst, after⟩ := xored
          simp only [ok_bind]
          cases copyBack (P := P) src dst 0 capacity with
          | error f => rfl
          | ok out => rfl
      · cases cipherContextUpdate cipher { roomy with len := sizeSub cipher.len 0 } 0 0 (sizeSub cipher.len 0) ctx with
        | error f => rfl
        | ok updated =>
          simp only [ok_bind]
          cases updated with
          | none => rfl
          | some result =>
            obtain ⟨dst, after⟩ := result
            dsimp only
            cases copyBack (P := P) cipher dst 0 capacity with
            | error f => rfl
            | ok out => rfl

/-- One look-up moves the window on. -/
theorem admitIv_window {ctx : EncCtx P} {ivCache : Cache Unit} {uses : List Bytes} {n : Nat} (iv : Bytes)
    (method : E.method.remembersIv = true) (fresh : ctx.init = false) (capacity : ivCache.maxEntries = n + 2)
    (keys : ivCache.keys = recent (n + 1) uses) :
    ((admitIv E ctx iv ivCache).1 = true ↔ iv ∈ recent (n + 1) uses) ∧
      (admitIv E ctx iv ivCache).2.maxEntries = n + 2 ∧
      (admitIv E ctx iv ivCache).2.keys = recent (n + 1) (uses ++ [iv]) := by
  have look : (!ctx.init && E.method.remembersIv) = true := by
    rw [fresh, method]
    rfl
  rw [admitIv, if_pos look]
  by_cases hit : iv ∈ ivCache.keys
  · obtain ⟨same, moved⟩ := cacheKeyExist_keys hit
    have found := cacheKeyExist_iff.mpr hit
    generalize cacheKeyExist ivCache iv = looked at same moved found
    obtain ⟨known, after⟩ := looked
    cases found
    rw [keys] at hit moved
    refine ⟨⟨fun _ => hit, fun _ => rfl⟩, same.trans capacity, moved.trans ?_⟩
    convert (recent_hit hit).symm
  · rw [cacheKeyExist_fresh hit]
    have room : ivCache.keys.length ≤ n + 1 := by
      rw [keys]
      exact length_recent_le
    have inserted := cacheInsert_keys iv capacity room (none : Option Unit)
    rw [keys] at hit inserted
    exact ⟨⟨fun no => (by cases no), fun no => absurd no hit⟩, inserted.1.trans capacity,
      inserted.2.trans (recent_miss hit).symm⟩

/-- Any call keeps the window. -/
theorem after_window (method : E.method.remembersIv = true) (inv : Window s) {r : DecResult P}
    (h : s.decrypt E c = .ok r) : Window (s.after E c r) := by
  obtain ⟨capacity, keys⟩ := inv
  unfold Window
  dsimp only [Process.after]
  cases init : (s.ctx c.ctx).init with
  | true =>
    have ivLen : (if (s.ctx c.ctx).init then 0 else E.ivLen) = 0 := by rw [init, if_pos rfl]
    rw [ssDecrypt_ivCache ivLen h, admitIv_started init]
    exact ⟨capacity, keys⟩
  | false =>
    have ivLen : (if (s.ctx c.ctx).init then 0 else E.ivLen) = E.ivLen := by rw [init, if_neg Bool.false_ne_true]
    rw [ssDecrypt_ivCache ivLen h]
    exact (admitIv_window (c.iv E) method init capacity keys).2

theorem start_window : Window (Process.start E) := ⟨rfl, recent_nil.symm⟩

/-! ## The first call on a context -/

/-- A first call whose IV is in the cache returns -1 and frees the buffer. -/
theorem ssDecrypt_replayed {cipher : Buffer} (tmp : Buffer) {ctx : EncCtx P} {ivCache : Cache Unit} {capacity : Nat}
    (fresh : ctx.init = false) (room : cipher.len < 2 ^ 63 ∧ capacity < 2 ^ 63) (fits : E.ivLen ≤ cipher.array.length)
    (known : (admitIv E ctx (window cipher.array 0 E.ivLen) ivCache).1 = true) :
    ∃ r, ssDecrypt E cipher (some ctx) tmp ivCache capacity = .ok r ∧ r.ret = -1 := by
  obtain ⟨more, roomy, -, -⟩ := brealloc_ok P.junk tmp cipher.len capacity (by omega)
  unfold ssDecrypt
  simp only [roomy, ok_bind, fresh, Bool.false_eq_true, if_false]
  rw [Buffer.read_ok (by omega), ok_bind, if_pos known]
  exact ⟨_, rfl, rfl⟩

/-- A buffer that lies in memory. Every caller passes a few thousand bytes. -/
structure DecryptCall.Sane (c : DecryptCall) : Prop where
  fits : c.cipher.Fits
  len : c.cipher.len < 2 ^ 38
  capacity : c.capacity < 2 ^ 63

theorem decrypt_first (lawful : P.evp.Lawful) (method : E.method.remembersIv = true) (inv : Window s) (sane : c.Sane)
    (fresh : (s.ctx c.ctx).init = false) (long : E.ivLen ≤ c.cipher.len) :
    ∃ r, s.decrypt E c = .ok r ∧ (r.ret = -1 ↔ c.iv E ∈ recent 255 s.uses) := by
  obtain ⟨fits, len, capacity⟩ := sane
  have within : c.cipher.len ≤ c.cipher.array.length := fits
  have looked := (admitIv_window (c.iv E) method fresh inv.1 inv.2).1
  by_cases known : c.iv E ∈ recent 255 s.uses
  · obtain ⟨r, call, ret⟩ := ssDecrypt_replayed s.tmp fresh ⟨by omega, capacity⟩ (by omega) (looked.mpr known)
    exact ⟨r, call, fun _ => known, fun _ => ret⟩
  · have limit : 2 ^ 38 ≤ E.method.streamLimit := by cases E.method <;> decide
    have range : InRange E ((s.ctx c.ctx).ready E (c.iv E) false) (c.cipher.len - E.ivLen) c.capacity := by
      refine ⟨by omega, capacity, fun _ => ?_⟩
      rw [EncCtx.ready, fresh, if_neg Bool.false_ne_true, started_counter]
      omega
    have ivLen : (if (s.ctx c.ctx).init then 0 else E.ivLen) = E.ivLen := by rw [fresh, if_neg Bool.false_ne_true]
    obtain ⟨r, call, post, -⟩ := ssDecrypt_spec c.cipher s.tmp (s.ctx c.ctx) s.ivCache (c.iv E) E.ivLen lawful fits ivLen
      long rfl (fun _ _ => inv.2 ▸ known) range
    refine ⟨r, call, fun no => ?_, fun no => absurd no known⟩
    rw [post.ret] at no
    cases no

/-- Along every run of calls: the first call on a context is rejected exactly if its IV is
one of the 255 that were used last, no call touches another context, and a call on a
started context neither asks the cache nor changes it. -/
theorem replay_window (lawful : P.evp.Lawful) (method : E.method.remembersIv = true)
    (reach : (decryptMachine E).Reach (fun _ _ => True) (Process.start E) s) :
    (∀ c : DecryptCall, c.Sane → (s.ctx c.ctx).init = false → E.ivLen ≤ c.cipher.len →
      ∃ r, s.decrypt E c = .ok r ∧ (r.ret = -1 ↔ c.iv E ∈ recent 255 s.uses) ∧
        (s.after E c r).uses = s.uses ++ [c.iv E]) ∧
    (∀ (c : DecryptCall) r i, s.decrypt E c = .ok r → i ≠ c.ctx → (s.after E c r).ctx i = s.ctx i) ∧
    (∀ c : DecryptCall, (s.ctx c.ctx).init = true →
      (∀ other, ssDecrypt E c.cipher (some (s.ctx c.ctx)) s.tmp other c.capacity =
        (s.decrypt E c).map fun r => { r with ivCache := other }) ∧
      ∀ r, s.decrypt E c = .ok r → (s.after E c r).ivCache = s.ivCache ∧ (s.after E c r).uses = s.uses) := by
  have inv : Window s := by
    refine reach.invariant Window start_window ?_
    intro s c s' inv _ _ fired
    cases call : s.decrypt E c with
    | ok r =>
      simp only [decryptMachine, call, Except.map] at fired
      cases fired
      exact after_window method inv call
    | error f =>
      simp only [decryptMachine, call, Except.map] at fired
      cases fired
  refine ⟨?_, ?_, ?_⟩
  · intro c sane fresh long
    obtain ⟨r, call, rejected⟩ := decrypt_first lawful method inv sane fresh long
    refine ⟨r, call, rejected, ?_⟩
    rw [Process.after, fresh, if_neg Bool.false_ne_true]
  · intro c r i _ other
    rw [Process.after]
    exact if_neg other
  · intro c begun
    refine ⟨fun other => ssDecrypt_started begun other, ?_⟩
    intro r call
    have ivLen : (if (s.ctx c.ctx).init then 0 else E.ivLen) = 0 := by rw [begun, if_pos rfl]
    refine ⟨?_, ?_⟩
    · rw [Process.after, ssDecrypt_ivCache ivLen call, admitIv_started begun]
    · rw [Process.after, begun, if_pos rfl]

end

/-- Nine bytes of a connection with the method `salsa20`: an IV of eight and one more. -/
def firstSegment (ctx : Nat) : DecryptCall where
  ctx
  cipher := { len := 9, array := [1, 2, 3, 4, 5, 6, 7, 8, 9] }
  capacity := 2048

/-- The same bytes on a second connection. -/
theorem replay_window_twice : ∃ first second,
    (Process.start salsa).decrypt salsa (firstSegment 0) = .ok first ∧ first.ret ≠ -1 ∧
    ((Process.start salsa).after salsa (firstSegment 0) first).decrypt salsa (firstSegment 1) = .ok second ∧
      second.ret = -1 := by
  have sane : ∀ i, (firstSegment i).Sane := fun i =>
    ⟨Nat.le_refl 9, show 9 < 2 ^ 38 by decide, show 2048 < 2 ^ 63 by decide⟩
  obtain ⟨fresh, -, -⟩ := replay_window rc4_lawful (show salsa.method.remembersIv = true by decide) .refl
  obtain ⟨first, call, accepted, uses⟩ := fresh (firstSegment 0) (sane 0) rfl (by decide)
  have reach : (decryptMachine salsa).Reach (fun _ _ => True) (Process.start salsa)
      ((Process.start salsa).after salsa (firstSegment 0) first) := by
    refine .step (e := firstSegment 0) .refl rfl trivial ?_
    simp only [decryptMachine, call, Except.map]
  obtain ⟨fresh', -, -⟩ := replay_window rc4_lawful (show salsa.method.remembersIv = true by decide) reach
  obtain ⟨second, call', rejected, -⟩ := fresh' (firstSegment 1) (sane 1) rfl (by decide)
  refine ⟨first, second, call, ?_, call', ?_⟩
  · intro no
    have seen := accepted.mp no
    rw [Process.start, recent_nil] at seen
    cases seen
  · rw [uses] at rejected
    exact rejected.mpr (by decide)

end Shadowsocks
