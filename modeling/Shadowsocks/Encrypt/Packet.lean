import Shadowsocks.Encrypt.Ota
import Shadowsocks.Encrypt.Table

/-!
# `ss_encrypt_all` and `ss_decrypt_all`

The functions of `encrypt.c` for datagrams. Every packet has an IV of its own and goes
through the cipher in one piece, so no context survives the call; only the scratch
buffer of each function does. `sealPacket` and `openPacket` say what the two functions
do to the bytes.
-/

namespace Shadowsocks
set_option autoImplicit false
open Lib

/-- The result of both functions: return code, the caller's buffer and the static
scratch buffer. -/
structure PacketResult where
  ret : Int
  buf : Buffer
  tmp : Buffer

section
variable {P : Platform} (E : Encryptor P)

/-- `cipher_context_init` and `cipher_context_set_iv`. -/
def packetCtx (iv : Bytes) (enc : Bool) : EncCtx P := cipherContextSetIv E (encCtxInit E enc iv) iv enc

/-- The one call of the cipher: `n` bytes of `src` into `dst`. The Boolean is `err` (or
`ret`) behind it. -/
def packetUpdate (src dst : Buffer) (srcOff dstOff n : Nat) (ctx : EncCtx P) : Except Fault (Bool × Buffer) :=
  if E.method.sodium then do
    let m ← src.read srcOff n
    let dst ← dst.write dstOff (cryptoStreamXorIc E m ctx.iv 0)
    pure (true, dst)
  else do
    match ← cipherContextUpdate src dst srcOff dstOff n ctx with
    | none => pure (false, dst)
    | some (dst, _) => pure (true, dst)

/-- `if (auth)` of `ss_encrypt_all`. -/
def tagPacket (auth : Bool) (plain : Buffer) (iv : Bytes) (capacity : Nat) : Except Fault Buffer :=
  if auth then ssOnetimeauth E plain iv capacity else pure plain

/-- `ss_encrypt_all`; `iv` is what `rand_bytes` gives. The scratch buffer is grown before
the tag is appended. -/
def ssEncryptAll (plain : Buffer) (auth : Bool) (iv : Bytes) (tmp : Buffer) (capacity : Nat) :
    Except Fault PacketResult :=
  if E.method = .table then do
    let xs ← plain.read 0 plain.len
    let buf ← plain.write 0 (xs.map E.encTable)
    pure { ret := 0, buf, tmp }
  else do
    let ivLen := E.ivLen
    let tmp ← brealloc P.junk tmp (ivLen + plain.len) capacity
    let cipher ← tmp.write 0 (iv.take ivLen)
    let plain ← tagPacket E auth plain iv capacity
    let (err, cipher) ← packetUpdate E plain { cipher with len := plain.len } 0 ivLen plain.len (packetCtx E iv true)
    if err then do
      let buf ← copyBack (P := P) plain cipher ivLen capacity
      pure { ret := 0, buf, tmp := cipher }
    else pure { ret := -1, buf := bfree plain, tmp := cipher }

/-- The end of a packet, if it is authenticated: `ret` and the length that is left. The
result of the check takes the place of that of the cipher. -/
def checkTag (auth : Bool) (iv : Bytes) (ret : Bool) (plain : Buffer) : Except Fault (Bool × Buffer) := do
  let first ← plain.byte 0
  if auth || first &&& 0x10 != 0 then
    if onetimeauthBytes < plain.len then do
      let differs ← ssOnetimeauthVerify E plain iv
      pure (!differs, if differs then plain else { plain with len := plain.len - onetimeauthBytes })
    else pure (false, plain)
  else pure (ret, plain)

/-- `ss_decrypt_all`. -/
def ssDecryptAll (cipher : Buffer) (auth : Bool) (tmp : Buffer) (capacity : Nat) : Except Fault PacketResult :=
  if E.method = .table then do
    let xs ← cipher.read 0 cipher.len
    let buf ← cipher.write 0 (xs.map E.decTable)
    pure { ret := 0, buf, tmp }
  else if cipher.len ≤ E.ivLen then pure { ret := -1, buf := cipher, tmp }
  else do
    let ivLen := E.ivLen
    let tmp ← brealloc P.junk tmp cipher.len capacity
    let iv ← cipher.read 0 ivLen
    let plain := { tmp with len := cipher.len - ivLen }
    let (ret, plain) ← packetUpdate E cipher plain ivLen 0 (cipher.len - ivLen) (packetCtx E iv false)
    let (ret, plain) ← checkTag E auth iv ret plain
    if ret then do
      let buf ← copyBack (P := P) cipher plain 0 capacity
      pure { ret := 0, buf, tmp := plain }
    else pure { ret := -1, buf := bfree cipher, tmp := plain }

/-! ## On the bytes -/

/-- What `ss_encrypt_all` makes of a packet. -/
def sealPacket (auth : Bool) (iv bs : Bytes) : Bytes :=
  if E.method = .table then bs.map E.encTable
  else ciphertext E iv (if auth then bs ++ shortHmac (P := P) (iv ++ E.key) bs else bs)

/-- How long the packet for `n` bytes is. -/
def packetSize (auth : Bool) (n : Nat) : Nat :=
  if E.method = .table then n else E.ivLen + (if auth then n + onetimeauthBytes else n)

/-- The packet without its tag, if the tag is right. -/
def openTagged (iv plain : Bytes) : Option Bytes :=
  let body := plain.take (plain.length - onetimeauthBytes)
  if onetimeauthBytes < plain.length ∧ plain.drop body.length = shortHmac (P := P) (iv ++ E.key) body then some body
  else none

/-- The type byte carries `ONETIMEAUTH_FLAG`. -/
def flagged (bs : Bytes) : Bool := bs.headD 0 &&& 0x10 != 0

/-- What `ss_decrypt_all` makes of a packet, if it takes it. -/
def openPacket (auth : Bool) (bs : Bytes) : Option Bytes :=
  if E.method = .table then some (bs.map E.decTable)
  else if bs.length ≤ E.ivLen then none
  else
    let iv := bs.take E.ivLen
    let plain := (cipherStep E iv (cipherStart E iv false) (bs.drop E.ivLen)).1
    if auth || flagged plain then openTagged E iv plain else some plain

end

/-! ## The functions on buffers -/

section
variable {P : Platform} {E : Encryptor P}

theorem packetCtx_iv (iv : Bytes) (enc : Bool) : (packetCtx E iv enc).iv = iv := by
  unfold packetCtx cipherContextSetIv encCtxInit
  cases enc <;> cases E.method.sodium <;> rfl

theorem packetUpdate_spec (src dst : Buffer) (srcOff dstOff n : Nat) (iv : Bytes) (enc : Bool) (lawful : P.evp.Lawful)
    (source : srcOff + n ≤ src.array.length) (target : dstOff + n ≤ dst.array.length) (len : dst.len = n) :
    ∃ dst', packetUpdate E src dst srcOff dstOff n (packetCtx E iv enc) = .ok (true, dst') ∧
      dst'.len = n ∧ dst'.array.length = dst.array.length ∧
      window dst'.array 0 dstOff = window dst.array 0 dstOff ∧
      window dst'.array dstOff n = (cipherStep E iv (cipherStart E iv enc) (window src.array srcOff n)).1 := by
  unfold packetUpdate
  cases sodium : E.method.sodium
  · obtain ⟨dst', updated, len', long, front, body⟩ :=
      cipherContextUpdate_spec src dst srcOff dstOff n (packetCtx E iv enc) lawful source target
    refine ⟨dst', ?_, len', long, front, ?_⟩
    · simp only [Bool.false_eq_true, if_false, updated, ok_bind]
      rfl
    · rw [body, cipherStep, sodium]
      rfl
  · have zero : cryptoStreamXorIc E (window src.array srcOff n) iv 0 =
        xorAt (P.keystream E.method iv E.key) 0 (window src.array srcOff n) := by
      unfold cryptoStreamXorIc
      split <;> rfl
    have size : (xorAt (P.keystream E.method iv E.key) 0 (window src.array srcOff n)).length = n := by
      rw [length_xorAt, length_window source]
    have self := window_splice_self dst.array (xorAt (P.keystream E.method iv E.key) 0 (window src.array srcOff n)) dstOff
      (by omega)
    rw [size] at self
    refine ⟨{ dst with array := splice dst.array dstOff (xorAt (P.keystream E.method iv E.key) 0
      (window src.array srcOff n)) }, ?_, len, length_splice (by omega), window_splice_below (by omega) (by omega), ?_⟩
    · simp only [if_true]
      rw [Buffer.read_ok source, ok_bind, packetCtx_iv, zero, Buffer.write_ok (by omega)]
      rfl
    · rw [self, cipherStep, sodium]
      rfl

/-- The room that `ss_encrypt_all` has made in its scratch buffer. -/
def sealRoom (E : Encryptor P) (tmp : Buffer) (n capacity : Nat) : Nat := max tmp.array.length (max (E.ivLen + n) capacity)

/-- How large the scratch buffer is afterwards. -/
def scratchSize (E : Encryptor P) (tmp : Buffer) (n capacity : Nat) : Nat :=
  if E.method = .table then tmp.array.length else sealRoom E tmp n capacity

theorem scratchSize_le (tmp : Buffer) (n capacity : Nat) : scratchSize E tmp n capacity ≤ sealRoom E tmp n capacity := by
  unfold scratchSize
  split
  · exact Nat.le_max_left _ _
  · exact Nat.le_refl _

/-- The table ciphers work in place. -/
theorem mapInPlace_spec (f : UInt8 → UInt8) {buf : Buffer} (fits : buf.Fits) :
    ∃ buf', (do let xs ← buf.read 0 buf.len; buf.write 0 (xs.map f)) = .ok buf' ∧ buf'.Holds (buf.bytes.map f) ∧
      buf'.array.length = buf.array.length := by
  have held : buf.Holds (buf.bytes ++ []) := by
    rw [List.append_nil]
    exact ⟨fits, rfl⟩
  obtain ⟨buf', wrote, holds, size⟩ := held.overwrite (show buf.bytes.length = (buf.bytes.map f).length from (List.length_map f).symm)
  rw [List.append_nil] at holds
  refine ⟨buf', ?_, holds, size⟩
  rw [Buffer.Holds.readAll ⟨fits, rfl⟩, ok_bind, wrote]

theorem ssEncryptAll_spec (plain tmp : Buffer) (auth : Bool) {iv : Bytes} {capacity : Nat} (lawful : P.evp.Lawful)
    (fits : plain.Fits) (ivLen : iv.length = E.ivLen) (small : plain.len < 2 ^ 62) (capSmall : capacity < 2 ^ 62)
    (room : auth = true → E.method ≠ .table → E.ivLen + plain.len + onetimeauthBytes ≤ sealRoom E tmp plain.len capacity) :
    ∃ r, ssEncryptAll E plain auth iv tmp capacity = .ok r ∧ r.ret = 0 ∧ r.buf.Holds (sealPacket E auth iv plain.bytes) ∧
      plain.array.length ≤ r.buf.array.length ∧ r.tmp.array.length = scratchSize E tmp plain.len capacity := by
  unfold ssEncryptAll sealPacket scratchSize
  by_cases table : E.method = .table
  · obtain ⟨buf, mapped, holds, size⟩ := mapInPlace_spec E.encTable fits
    obtain ⟨xs, read, wrote⟩ := bind_eq_ok.mp mapped
    rw [if_pos table, if_pos table, if_pos table, read, ok_bind, wrote, ok_bind]
    exact ⟨_, rfl, rfl, holds, Nat.le_of_eq size.symm, rfl⟩
  · have ivSmall := E.ivLen_le
    rw [if_neg table, if_neg table, if_neg table]
    obtain ⟨tmp', grown, size⟩ := brealloc_length P.junk tmp (E.ivLen + plain.len) capacity (by omega)
    have large : E.ivLen + plain.len ≤ tmp'.array.length := by rw [size]; omega
    have front : (splice tmp'.array 0 (iv.take E.ivLen)).length = tmp'.array.length := length_splice (by simp; omega)
    have head := window_splice_self tmp'.array iv 0 (Nat.zero_le _)
    rw [List.take_of_length_le (Nat.le_of_eq ivLen)] at front
    -- the tag is appended to the caller's buffer
    have tagged : ∃ plain', tagPacket E auth plain iv capacity = .ok plain' ∧ plain'.Fits ∧
        plain.array.length ≤ plain'.array.length ∧ E.ivLen + plain'.len ≤ tmp'.array.length ∧ plain'.len ≤ plain.len + 10 ∧
        plain'.bytes = if auth then plain.bytes ++ shortHmac (P := P) (iv ++ E.key) plain.bytes else plain.bytes := by
      cases auth with
      | false => exact ⟨plain, rfl, fits, Nat.le_refl _, large, by omega, rfl⟩
      | true =>
        obtain ⟨plain', call, -, fits', longer, bytes⟩ :=
          ssOnetimeauth_spec (E := E) fits small (show capacity < 2 ^ 63 by omega) ivLen
        have len := congrArg List.length bytes
        rw [List.length_append, length_shortHmac, Buffer.length_bytes fits, Buffer.length_bytes fits'] at len
        have fit := room rfl table
        simp only [sealRoom, onetimeauthBytes] at fit
        exact ⟨plain', call, fits', longer, by rw [size]; omega, by omega, bytes⟩
    obtain ⟨plain', call, fits', longer, roomy, short, bytes⟩ := tagged
    have within : plain'.len ≤ plain'.array.length := fits'
    dsimp only
    rw [grown, ok_bind, Buffer.write_ok (by simp; omega), ok_bind, call, ok_bind, List.take_of_length_le (Nat.le_of_eq ivLen)]
    obtain ⟨dst, updated, len, long, front', body⟩ := packetUpdate_spec plain'
      { tmp' with len := plain'.len, array := splice tmp'.array 0 iv } 0 E.ivLen plain'.len iv true lawful
      (by omega) (by dsimp only; omega) rfl
    dsimp only at long front'
    rw [updated, ok_bind]
    obtain ⟨buf, copied, -, bufFits, kept, -, out⟩ := copyBack_spec (P := P) plain'
      (show E.ivLen + dst.len ≤ dst.array.length by omega) (by omega) (show capacity < 2 ^ 63 by omega)
    simp only [if_true, copied, ok_bind]
    refine ⟨_, rfl, rfl, ⟨bufFits, ?_⟩, Nat.le_trans longer kept, ?_⟩
    · rw [out, window_add, Nat.zero_add, front', len, body, ← ivLen, head]
      exact congrArg (fun bs => iv ++ (cipherStep E iv (cipherStart E iv true) bs).1) bytes
    · dsimp only
      rw [long, front, size, sealRoom]

/-- Without room for the tag the cipher writes past the end of the scratch buffer. -/
theorem ssEncryptAll_overflow (plain tmp : Buffer) {iv : Bytes} {capacity : Nat} (lawful : P.evp.Lawful)
    (fits : plain.Fits) (ivLen : iv.length = E.ivLen) (small : plain.len < 2 ^ 62) (capSmall : capacity < 2 ^ 62)
    (table : E.method ≠ .table) (full : sealRoom E tmp plain.len capacity < E.ivLen + plain.len + onetimeauthBytes) :
    ssEncryptAll E plain true iv tmp capacity = .error .outOfBounds := by
  have ivSmall := E.ivLen_le
  obtain ⟨tmp', grown, size⟩ := brealloc_length P.junk tmp (E.ivLen + plain.len) capacity (by omega)
  have large : E.ivLen + plain.len ≤ tmp'.array.length := by rw [size]; omega
  have front : (splice tmp'.array 0 iv).length = tmp'.array.length := length_splice (by omega)
  obtain ⟨plain', call, -, fits', -, bytes⟩ :=
    ssOnetimeauth_spec (E := E) fits small (show capacity < 2 ^ 63 by omega) ivLen
  have within : plain'.len ≤ plain'.array.length := fits'
  have len := congrArg List.length bytes
  rw [List.length_append, length_shortHmac, Buffer.length_bytes fits, Buffer.length_bytes fits'] at len
  simp only [sealRoom, onetimeauthBytes] at full
  unfold ssEncryptAll
  rw [if_neg table]
  dsimp only
  rw [grown, ok_bind, List.take_of_length_le (Nat.le_of_eq ivLen), Buffer.write_ok (by omega), ok_bind, tagPacket,
    if_pos rfl, call, ok_bind]
  have past : ∀ out : Bytes, out.length = plain'.len →
      ({ tmp' with len := plain'.len, array := splice tmp'.array 0 iv } : Buffer).write E.ivLen out = .error .outOfBounds := by
    intro out same
    rw [Buffer.write, store, if_neg (by dsimp only; omega)]
    rfl
  have stuck : packetUpdate E plain' { tmp' with len := plain'.len, array := splice tmp'.array 0 iv } 0 E.ivLen plain'.len
      (packetCtx E iv true) = .error .outOfBounds := by
    unfold packetUpdate
    have source : (window plain'.array 0 plain'.len).length = plain'.len := length_window (by omega)
    split
    · rw [Buffer.read_ok (by omega), ok_bind, past _ (by unfold cryptoStreamXorIc; rw [length_xorAt, source])]
      rfl
    · rw [cipherContextUpdate, Buffer.read_ok (by omega), ok_bind, if_pos (lawful.succeeds _ _)]
      dsimp only
      rw [past _ (by rw [lawful.length_update, source])]
      rfl
  rw [stuck]
  rfl

theorem checkTag_spec {plain : Buffer} (auth : Bool) {iv bs : Bytes} (holds : plain.Holds bs) (some_ : bs ≠ [])
    (ivLen : iv.length = E.ivLen) :
    ∃ ret plain', checkTag E auth iv true plain = .ok (ret, plain') ∧
      plain'.len ≤ plain.len ∧ plain'.array = plain.array ∧
      (if ret then some plain'.bytes else none) = if auth || flagged bs then openTagged E iv bs else some bs := by
  obtain ⟨b, rest, rfl⟩ := List.exists_cons_of_ne_nil some_
  have first : plain.byte 0 = .ok b := holds.byte [] b rest
  have len := holds.len
  rw [checkTag, first, ok_bind]
  by_cases needed : (auth || b &&& 0x10 != 0) = true
  · have needed' : (auth || flagged (b :: rest)) = true := needed
    rw [if_pos needed, if_pos needed']
    by_cases long : onetimeauthBytes < plain.len
    · have cut : (b :: rest) = (b :: rest).take (plain.len - 10) ++ (b :: rest).drop (plain.len - 10) :=
        (List.take_append_drop _ _).symm
      simp only [onetimeauthBytes] at long
      have hash10 : ((b :: rest).drop (plain.len - 10)).length = 10 := by
        rw [List.length_drop, ← len]
        omega
      have body : ((b :: rest).take (plain.len - 10)).length = plain.len - 10 := by
        rw [List.length_take, ← len]
        omega
      have verify := ssOnetimeauthVerify_spec (E := E) holds.fits ivLen hash10 (holds.bytes.trans cut)
      have opened : openTagged E iv (b :: rest) =
          if (b :: rest).drop (plain.len - 10) = shortHmac (P := P) (iv ++ E.key) ((b :: rest).take (plain.len - 10)) then
            some ((b :: rest).take (plain.len - 10)) else none := by
        simp only [openTagged, onetimeauthBytes, ← len, body, long, true_and]
      have kept : ({ plain with len := plain.len - 10 } : Buffer).bytes = (b :: rest).take (plain.len - 10) := by
        have parts : window plain.array 0 plain.len = b :: rest := holds.bytes
        rw [← parts, Buffer.bytes, take_eq_window, window_window _ (by omega)]
      rw [if_pos (by simp only [onetimeauthBytes]; omega), verify, ok_bind, opened]
      by_cases right : (b :: rest).drop (plain.len - 10) = shortHmac (P := P) (iv ++ E.key) ((b :: rest).take (plain.len - 10))
      · refine ⟨true, { plain with len := plain.len - 10 }, ?_, Nat.sub_le _ _, rfl, ?_⟩
        · simp [right, onetimeauthBytes]
        · rw [if_pos rfl, if_pos right, kept]
      · refine ⟨false, plain, ?_, Nat.le_refl _, rfl, ?_⟩
        · simp [right]
        · rw [if_neg right]
          rfl
    · refine ⟨false, plain, by rw [if_neg long]; rfl, Nat.le_refl _, rfl, ?_⟩
      have opened : openTagged E iv (b :: rest) = none := if_neg fun both => long (len ▸ both.1)
      rw [opened]
      rfl
  · have clear : ¬ (auth || flagged (b :: rest)) = true := needed
    rw [if_neg needed, if_neg clear]
    exact ⟨true, plain, rfl, Nat.le_refl _, rfl, congrArg some holds.bytes⟩

/-- The table maps each byte where it stands. Otherwise a packet needs an IV and a byte behind it;
what is decrypted goes back to where the packet was, if the tag is right. -/
theorem ssDecryptAll_spec (cipher tmp : Buffer) (auth : Bool) {capacity : Nat} (lawful : P.evp.Lawful)
    (fits : cipher.Fits) (small : cipher.len < 2 ^ 62) (capSmall : capacity < 2 ^ 62) :
    ∃ r, ssDecryptAll E cipher auth tmp capacity = .ok r ∧
      (∀ bs, openPacket E auth cipher.bytes = some bs →
        r.ret = 0 ∧ r.buf.Holds bs ∧ cipher.array.length ≤ r.buf.array.length) ∧
      (openPacket E auth cipher.bytes = none → r.ret = -1) ∧ (E.method = .table → r.tmp = tmp) := by
  have size := Buffer.length_bytes fits
  have within : cipher.len ≤ cipher.array.length := fits
  unfold ssDecryptAll openPacket
  by_cases table : E.method = .table
  · obtain ⟨buf, mapped, holds, long⟩ := mapInPlace_spec E.decTable fits
    obtain ⟨xs, read, wrote⟩ := bind_eq_ok.mp mapped
    rw [if_pos table, if_pos table, read, ok_bind, wrote, ok_bind]
    refine ⟨_, rfl, fun bs eq => ?_, (fun no => by cases no), fun _ => rfl⟩
    cases eq
    exact ⟨rfl, holds, Nat.le_of_eq long.symm⟩
  · rw [if_neg table, if_neg table, size]
    by_cases short : cipher.len ≤ E.ivLen
    · rw [if_pos short, if_pos short]
      exact ⟨_, rfl, (fun _ no => by cases no), fun _ => rfl, fun _ => rfl⟩
    · have ivSmall := E.ivLen_le
      rw [if_neg short, if_neg short]
      obtain ⟨tmp', grown, large⟩ := brealloc_length P.junk tmp cipher.len capacity (by omega)
      have front : window cipher.array 0 E.ivLen = cipher.bytes.take E.ivLen := by
        rw [Buffer.bytes, take_eq_window, window_window _ (by omega)]
      have back : window cipher.array E.ivLen (cipher.len - E.ivLen) = cipher.bytes.drop E.ivLen := by
        rw [Buffer.bytes, drop_window, Nat.zero_add]
      obtain ⟨plain, updated, len, long, -, body⟩ := packetUpdate_spec cipher { tmp' with len := cipher.len - E.ivLen } E.ivLen 0
        (cipher.len - E.ivLen) (cipher.bytes.take E.ivLen) false lawful (by omega) (by dsimp only; omega) rfl
      dsimp only at long
      rw [back] at body
      have holds : plain.Holds (cipherStep E (cipher.bytes.take E.ivLen) (cipherStart E (cipher.bytes.take E.ivLen) false)
          (cipher.bytes.drop E.ivLen)).1 := by
        refine ⟨?_, ?_⟩
        · rw [Buffer.Fits]
          omega
        · rw [Buffer.bytes, len, body]
      have some_ : (cipherStep E (cipher.bytes.take E.ivLen) (cipherStart E (cipher.bytes.take E.ivLen) false)
          (cipher.bytes.drop E.ivLen)).1 ≠ [] := by
        intro none_
        have zero := congrArg List.length none_
        rw [length_cipherStep E lawful, List.length_drop, size, List.length_nil] at zero
        omega
      have ivTaken : (cipher.bytes.take E.ivLen).length = E.ivLen := by
        rw [List.length_take, size]
        omega
      obtain ⟨ret, plain', checked, shorter, same, result⟩ := checkTag_spec auth holds some_ ivTaken
      dsimp only
      rw [grown, ok_bind, Buffer.read_ok (by omega), ok_bind, front, updated, ok_bind]
      dsimp only
      rw [checked, ok_bind, ← result]
      cases ret with
      | false => exact ⟨_, rfl, (fun _ no => by cases no), fun _ => rfl, fun same => absurd same table⟩
      | true =>
        obtain ⟨buf, copied, -, bufFits, kept, -, out⟩ := copyBack_spec (P := P) cipher
          (show 0 + plain'.len ≤ plain'.array.length by rw [same]; omega) (by omega) (show capacity < 2 ^ 63 by omega)
        simp only [if_true, copied, ok_bind]
        refine ⟨_, rfl, fun bs eq => ?_, (fun no => by cases no), fun same => absurd same table⟩
        cases eq
        rw [Nat.zero_add] at out
        exact ⟨rfl, ⟨bufFits, out⟩, kept⟩

/-! ## Round trips -/

theorem openTagged_shorter {iv plain bs : Bytes} (opened : openTagged E iv plain = some bs) : bs.length < plain.length := by
  unfold openTagged at opened
  dsimp only at opened
  split at opened
  · rename_i both
    cases opened
    have long := both.1
    simp only [onetimeauthBytes] at long ⊢
    rw [List.length_take]
    omega
  · cases opened

/-- A cipher gives no empty packet. -/
theorem openPacket_ne_nil (lawful : P.evp.Lawful) {auth : Bool} {bs packet : Bytes} (table : E.method ≠ .table)
    (opened : openPacket E auth bs = some packet) : packet ≠ [] := by
  unfold openPacket at opened
  rw [if_neg table] at opened
  split at opened
  · cases opened
  · rename_i long
    have some_ : (cipherStep E (bs.take E.ivLen) (cipherStart E (bs.take E.ivLen) false) (bs.drop E.ivLen)).1 ≠ [] := by
      intro none_
      have zero := congrArg List.length none_
      rw [length_cipherStep E lawful, List.length_drop, List.length_nil] at zero
      omega
    dsimp only at opened
    split at opened
    · unfold openTagged at opened
      dsimp only at opened
      split at opened
      · rename_i both
        cases opened
        intro none_
        have zero := congrArg List.length none_
        have room := both.1
        rw [List.length_take, List.length_nil] at zero
        simp only [onetimeauthBytes] at room zero
        omega
      · cases opened
    · cases opened
      exact some_

theorem openTagged_prefix {iv plain bs : Bytes} (opened : openTagged E iv plain = some bs) : bs <+: plain := by
  unfold openTagged at opened
  dsimp only at opened
  split at opened
  · cases opened
    exact List.take_prefix _ _
  · cases opened

/-- What an encryptor without authentication sends is what a decryptor that does not ask
for it gets, unless the type byte says that there is a tag. -/
theorem openPacket_sealPacket (lawful : P.evp.Lawful) (made : E.method = .table → E.Initialised) {iv bs : Bytes} (ivLen : iv.length = E.ivLen)
    (some_ : bs ≠ []) :
    openPacket E false (sealPacket E false iv bs) =
      if E.method ≠ .table ∧ flagged bs = true then openTagged E iv bs else some bs := by
  unfold openPacket sealPacket
  by_cases table : E.method = .table
  · rw [if_pos table, if_pos table, if_neg fun both => both.1 table, List.map_map]
    exact congrArg some (List.map_id'' (made table).inverse bs)
  · have long : 0 < bs.length := List.length_pos_iff.mpr some_
    have split_ : (ciphertext E iv bs).take E.ivLen = iv ∧
        (ciphertext E iv bs).drop E.ivLen = (cipherStep E iv (cipherStart E iv true) bs).1 := by
      rw [ciphertext, ← ivLen]
      exact ⟨List.take_left, List.drop_left⟩
    rw [if_neg table, if_neg table, if_neg Bool.false_ne_true, if_neg (by rw [length_ciphertext E lawful]; omega)]
    dsimp only
    rw [split_.1, split_.2, show (cipherStep E iv (cipherStart E iv false) (cipherStep E iv (cipherStart E iv true) bs).1).1 = bs
      from cipher_inverse E lawful iv bs, Bool.false_or]
    simp only [ne_eq, table, not_false_eq_true, true_and]

theorem length_sealPacket (lawful : P.evp.Lawful) (auth : Bool) {iv : Bytes} (ivLen : iv.length = E.ivLen) (bs : Bytes) :
    (sealPacket E auth iv bs).length = packetSize E auth bs.length := by
  unfold sealPacket packetSize
  split
  · exact List.length_map _
  · rw [length_ciphertext E lawful, ivLen]
    cases auth with
    | false => rfl
    | true => rw [if_pos rfl, if_pos rfl, List.length_append, length_shortHmac, onetimeauthBytes]

/-- A packet that carries the flag exactly if it has a tag is taken, unless a tag is asked
for that it does not have. -/
theorem openPacket_sealPacket_flagged (lawful : P.evp.Lawful) (made : E.method = .table → E.Initialised) {iv bs : Bytes} (ivLen : iv.length = E.ivLen)
    (some_ : bs ≠ []) {auth tagged : Bool} (flag : flagged bs = tagged) (asks : auth = true → tagged = true) :
    openPacket E auth (sealPacket E tagged iv bs) = some bs := by
  by_cases table : E.method = .table
  · rw [openPacket, sealPacket, if_pos table, if_pos table, List.map_map]
    exact congrArg some (List.map_id'' (made table).inverse bs)
  cases tagged with
  | false =>
    rw [show auth = false by cases auth <;> simp_all, openPacket_sealPacket lawful made ivLen some_, flag, if_neg (by simp)]
  | true =>
    obtain ⟨t, rest, rfl⟩ := List.exists_cons_of_ne_nil some_
    have split_ : ∀ xs, (ciphertext E iv xs).take E.ivLen = iv ∧
        (ciphertext E iv xs).drop E.ivLen = (cipherStep E iv (cipherStart E iv true) xs).1 := by
      intro xs
      rw [ciphertext, ← ivLen]
      exact ⟨List.take_left, List.drop_left⟩
    rw [openPacket, sealPacket, if_neg table, if_neg table, if_pos rfl,
      if_neg (by rw [length_ciphertext E lawful, List.length_append, List.length_cons]; omega)]
    dsimp only
    rw [(split_ _).1, (split_ _).2, show ∀ xs, (cipherStep E iv (cipherStart E iv false) (cipherStep E iv (cipherStart E iv true) xs).1).1 = xs
      from cipher_inverse E lawful iv]
    have seen : flagged (t :: rest ++ shortHmac (P := P) (iv ++ E.key) (t :: rest)) = true := flag
    have body : (t :: rest ++ shortHmac (P := P) (iv ++ E.key) (t :: rest)).take
        ((t :: rest ++ shortHmac (P := P) (iv ++ E.key) (t :: rest)).length - onetimeauthBytes) = t :: rest := by
      rw [List.length_append, length_shortHmac]
      exact List.take_left' rfl
    rw [seen, Bool.or_true, if_pos rfl, openTagged, body, List.drop_left, if_pos ⟨by rw [List.length_append, length_shortHmac, List.length_cons, onetimeauthBytes]; omega, rfl⟩]

end

end Shadowsocks
