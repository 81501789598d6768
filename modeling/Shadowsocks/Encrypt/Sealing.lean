import Shadowsocks.Encrypt.Openssl
import Shadowsocks.Encrypt.Packet

/-!
# The scratch buffer of `ss_encrypt_all`

`ss_encrypt_all` makes room in its scratch buffer for the packet before it appends the tag.
The tag fits if the capacity that was asked for, or an earlier packet, left room for it;
otherwise the cipher writes past the end. With that room a packet that has the flag exactly
if it has a tag is opened again.
-/

namespace Shadowsocks
set_option autoImplicit false
open Lib

section
variable {P : Platform}

/-- There is room for the tag, if there is one. -/
def TagFits (E : Encryptor P) (auth : Bool) (tmp : Buffer) (n capacity : Nat) : Prop :=
  auth = true → E.ivLen + n + onetimeauthBytes ≤ sealRoom E tmp n capacity

/-! ## One packet -/

/-- The plain text is encrypted, and every decryptor that does not ask for a tag that is not
there gets it back. -/
def Trips (E : Encryptor P) (auth : Bool) (iv : Bytes) (plain tmp : Buffer) (capacity : Nat) : Prop :=
  ∃ r, ssEncryptAll E plain auth iv tmp capacity = .ok r ∧ r.ret = 0 ∧
    ∀ (asks : Bool) (tmp' : Buffer) (capacity' : Nat), (asks = true → auth = true) → capacity' < 2 ^ 62 →
      ∃ r', ssDecryptAll E r.buf asks tmp' capacity' = .ok r' ∧ r'.ret = 0 ∧ r'.buf.Holds plain.bytes

/-- `ss_decrypt_all` succeeds exactly on what `openPacket` takes, and yields it. -/
def Opens (E : Encryptor P) : Prop :=
  ∀ (auth : Bool) (cipher tmp : Buffer) (capacity : Nat), cipher.Fits → cipher.len < 2 ^ 62 → capacity < 2 ^ 62 →
    ∃ r, ssDecryptAll E cipher auth tmp capacity = .ok r ∧ (r.ret = 0 ↔ (openPacket E auth cipher.bytes).isSome = true) ∧
      ∀ bs, openPacket E auth cipher.bytes = some bs → r.buf.Holds bs

variable {E : Encryptor P}

theorem opens (lawful : P.evp.Lawful) : Opens E := by
  intro auth cipher tmp capacity fits small capSmall
  obtain ⟨r, decrypted, opened, closed, -⟩ := ssDecryptAll_spec (E := E) cipher tmp auth lawful fits small capSmall
  refine ⟨r, decrypted, ?_, fun bs eq => (opened bs eq).2.1⟩
  cases eq : openPacket E auth cipher.bytes with
  | none =>
    rw [closed eq]
    decide
  | some bs =>
    rw [(opened bs eq).1]
    exact ⟨fun _ => rfl, fun _ => rfl⟩

theorem trips_iff (lawful : P.evp.Lawful) (table : E.method ≠ .table) {auth : Bool} {iv : Bytes} {plain tmp : Buffer}
    {capacity : Nat} (ivLen : iv.length = E.ivLen) (fits : plain.Fits) (some_ : plain.bytes ≠ []) (flag : flagged plain.bytes = auth)
    (small : plain.len < 2 ^ 61) (capSmall : capacity < 2 ^ 62) :
    Trips E auth iv plain tmp capacity ↔ TagFits E auth tmp plain.len capacity := by
  constructor
  · rintro ⟨r, encrypted, -⟩ rfl
    by_contra full
    rw [ssEncryptAll_overflow plain tmp lawful fits ivLen (by omega) capSmall table (Nat.not_le.mp full)] at encrypted
    cases encrypted
  · intro room
    obtain ⟨r, encrypted, ret, holds, -, -⟩ := ssEncryptAll_spec plain tmp auth lawful fits ivLen (by omega) capSmall
      fun on _ => room on
    refine ⟨r, encrypted, ret, fun asks tmp' capacity' may capSmall' => ?_⟩
    have opened := openPacket_sealPacket_flagged lawful (fun same => absurd same table) ivLen some_ flag may
    have len := holds.len
    have ivSmall := E.ivLen_le
    rw [length_sealPacket lawful auth ivLen, packetSize, if_neg table, Buffer.length_bytes fits, onetimeauthBytes] at len
    have short : r.buf.len < 2 ^ 62 := by
      split at len <;> omega
    obtain ⟨r', decrypted, taken, -⟩ := ssDecryptAll_spec (E := E) r.buf tmp' asks lawful holds.fits short capSmall'
    rw [holds.bytes] at taken
    obtain ⟨ret', holds', -⟩ := taken _ opened
    exact ⟨r', decrypted, ret', holds'⟩

/-- `ss_decrypt_all` takes back what `ss_encrypt_all` makes of a packet that has the flag exactly
if it is to have a tag, if and only if there is room for the tag; and what it takes is always
what `openPacket` says. -/
theorem packet_trips_iff (lawful : P.evp.Lawful) (table : E.method ≠ .table) (auth : Bool) (iv : Bytes) (plain tmp : Buffer)
    (capacity : Nat) (ivLen : iv.length = E.ivLen) (fits : plain.Fits) (some_ : plain.bytes ≠ []) (flag : flagged plain.bytes = auth)
    (small : plain.len < 2 ^ 61) (capSmall : capacity < 2 ^ 62) :
    Trips E auth iv plain tmp capacity ∧ Opens E ↔ TagFits E auth tmp plain.len capacity :=
  (and_iff_left (opens lawful)).trans (trips_iff lawful table ivLen fits some_ flag small capSmall)

/-- One byte with the flag, in a buffer of `n` equal ones. -/
def flaggedBytes (n : Nat) : Buffer where
  len := n
  array := List.replicate n 0x11

theorem flaggedBytes_fits (n : Nat) : (flaggedBytes n).Fits := by simp [flaggedBytes, Buffer.Fits]

theorem flaggedBytes_bytes (n : Nat) : (flaggedBytes n).bytes = List.replicate n 0x11 := by
  have whole := window_zero_length (List.replicate n (0x11 : UInt8))
  rwa [List.length_replicate] at whole

theorem flagged_flaggedBytes (n : Nat) : flagged (flaggedBytes (n + 1)).bytes = true := by
  rw [flaggedBytes_bytes, List.replicate_succ]
  exact show ((0x11 : UInt8) &&& 0x10 != 0) = true by decide

/-- A packet of one byte in a buffer of 64. -/
theorem packet_trips_one : Trips salsa true (List.replicate 8 7) (flaggedBytes 1) {} 64 ∧ Opens salsa := by
  refine (packet_trips_iff rc4_lawful (by decide) true (List.replicate 8 7) (flaggedBytes 1) {} 64 rfl (flaggedBytes_fits 1)
    (by decide) (flagged_flaggedBytes 0) (by decide) (by decide)).mpr ?_
  exact fun _ => by decide

/-- 65500 bytes and a tag do not fit into what the relay for datagrams asks for. -/
theorem big_overflows : ssEncryptAll salsa (flaggedBytes 65500) true (List.replicate 8 7) {} 65507 = .error .outOfBounds := by
  refine ssEncryptAll_overflow (flaggedBytes 65500) {} rc4_lawful (flaggedBytes_fits 65500) rfl (show 65500 < 2 ^ 62 by omega)
    (by decide) (by decide) ?_
  exact show max 0 (max (8 + 65500) 65507) < 8 + 65500 + 10 by decide

theorem packet_does_not_trip : flagged (flaggedBytes 65500).bytes = true ∧
    ¬ Trips salsa true (List.replicate 8 7) (flaggedBytes 65500) {} 65507 := by
  refine ⟨flagged_flaggedBytes 65499, ?_⟩
  rintro ⟨r, encrypted, -⟩
  cases big_overflows.symm.trans encrypted

/-! ## Many packets -/

/-- A call of `ss_encrypt_all`, with the IV that it draws. -/
structure Call (E : Encryptor P) where
  plain : Buffer
  auth : Bool
  iv : Bytes
  capacity : Nat
  fits : plain.Fits
  drawn : iv.length = E.ivLen
  small : plain.len < 2 ^ 62
  capSmall : capacity < 2 ^ 62

/-- The calls one after the other; the scratch buffer stays. -/
def sealAll (E : Encryptor P) : Buffer → List (Call E) → Except Fault Buffer
  | tmp, [] => pure tmp
  | tmp, c :: rest => do
    let r ← ssEncryptAll E c.plain c.auth c.iv tmp c.capacity
    sealAll E r.tmp rest

/-- The size of the scratch buffer after the calls: the most that was asked for. -/
def scratch (E : Encryptor P) (calls : List (Call E)) : Nat :=
  calls.foldl (fun room c => max room (max (E.ivLen + c.plain.len) c.capacity)) 0

/-- Every tag fits into what this call and those before it have asked for. -/
def TagsFit (E : Encryptor P) (calls : List (Call E)) : Prop :=
  ∀ before c after, calls = before ++ c :: after → c.auth = true →
    E.ivLen + c.plain.len + onetimeauthBytes ≤ scratch E (before ++ [c])

theorem scratch_concat (before : List (Call E)) (c : Call E) :
    scratch E (before ++ [c]) = max (scratch E before) (max (E.ivLen + c.plain.len) c.capacity) := by
  rw [scratch, List.foldl_append]
  rfl

/-- One call, when the scratch buffer has grown as far as the calls before it made it. -/
theorem sealAll_cons (lawful : P.evp.Lawful) (table : E.method ≠ .table) {before : List (Call E)} {tmp : Buffer}
    (size : tmp.array.length = scratch E before) (c : Call E) (rest : List (Call E)) :
    (c.auth = true ∧ scratch E (before ++ [c]) < E.ivLen + c.plain.len + onetimeauthBytes ∧
        sealAll E tmp (c :: rest) = .error .outOfBounds) ∨
    (c.auth = true → E.ivLen + c.plain.len + onetimeauthBytes ≤ scratch E (before ++ [c])) ∧
      ∃ tmp', tmp'.array.length = scratch E (before ++ [c]) ∧ sealAll E tmp (c :: rest) = sealAll E tmp' rest := by
  have room : sealRoom E tmp c.plain.len c.capacity = scratch E (before ++ [c]) := by rw [sealRoom, size, scratch_concat]
  by_cases full : c.auth = true ∧ scratch E (before ++ [c]) < E.ivLen + c.plain.len + onetimeauthBytes
  · obtain ⟨on, full⟩ := full
    refine .inl ⟨on, full, ?_⟩
    rw [sealAll, on, ssEncryptAll_overflow c.plain tmp lawful c.fits c.drawn c.small c.capSmall table (room ▸ full)]
    rfl
  · have fits : c.auth = true → E.ivLen + c.plain.len + onetimeauthBytes ≤ scratch E (before ++ [c]) :=
      fun on => Nat.not_lt.mp fun short => full ⟨on, short⟩
    obtain ⟨r, encrypted, -, -, -, grown⟩ := ssEncryptAll_spec c.plain tmp c.auth lawful c.fits c.drawn c.small c.capSmall
      fun on _ => room ▸ fits on
    refine .inr ⟨fits, r.tmp, ?_, ?_⟩
    · rw [grown, scratchSize, if_neg table, room]
    · rw [sealAll, encrypted]
      rfl

theorem sealAll_from (lawful : P.evp.Lawful) (table : E.method ≠ .table) (calls before : List (Call E)) {tmp : Buffer}
    (size : tmp.array.length = scratch E before) :
    sealAll E tmp calls ≠ .error .outOfBounds ↔ ∀ early c after, calls = early ++ c :: after → c.auth = true →
      E.ivLen + c.plain.len + onetimeauthBytes ≤ scratch E (before ++ early ++ [c]) := by
  induction calls generalizing before tmp with
  | nil =>
    refine ⟨fun _ early c after none_ => ?_, fun _ => nofun⟩
    cases early <;> cases none_
  | cons c rest ih =>
    rcases sealAll_cons lawful table size c rest with ⟨on, full, failed⟩ | ⟨fits, tmp', grown, goes⟩
    · refine ⟨fun fine => absurd failed fine, fun all => ?_⟩
      have here := all [] c rest rfl on
      rw [List.append_nil] at here
      omega
    · rw [goes, ih (before ++ [c]) grown]
      constructor
      · rintro later early c' after same on
        cases early with
        | nil =>
          cases same
          rw [List.append_nil]
          exact fits on
        | cons _ early =>
          cases same
          have there := later early c' after rfl on
          rwa [List.append_assoc before, List.singleton_append] at there
      · intro all early c' after same on
        have there := all (c :: early) c' after (by rw [same]; rfl) on
        rwa [List.append_assoc before, List.singleton_append]

/-- In every sequence of calls all that `ss_encrypt_all` writes is inside its buffers if and only
if every tag fits into what its call and those before it have asked for. -/
theorem sealAll_in_bounds (lawful : P.evp.Lawful) (table : E.method ≠ .table) (calls : List (Call E)) :
    sealAll E {} calls ≠ .error .outOfBounds ↔ TagsFit E calls := by
  exact sealAll_from lawful table calls [] rfl

/-- A call of the relay for datagrams with `n` bytes. -/
def relayCall (n : Nat) (small : n < 2 ^ 62) : Call salsa where
  plain := flaggedBytes n
  auth := true
  iv := List.replicate 8 7
  capacity := 65507
  fits := flaggedBytes_fits n
  drawn := rfl
  small := small
  capSmall := by decide

/-- Two small packets. -/
theorem sealAll_in_bounds_two : sealAll salsa {} [relayCall 9 (by decide), relayCall 12 (by decide)] ≠ .error .outOfBounds := by
  refine (sealAll_in_bounds rc4_lawful (by decide) _).mpr fun before c after same _ => ?_
  have mem : c ∈ [relayCall 9 (by decide), relayCall 12 (by decide)] := by
    rw [same]
    exact List.mem_append_right _ List.mem_cons_self
  have asked : 65507 ≤ scratch salsa (before ++ [c]) ∧ c.plain.len ≤ 12 := by
    rw [scratch_concat]
    rcases List.mem_cons.mp mem with rfl | mem
    · exact ⟨Nat.le_trans (Nat.le_max_right _ _) (Nat.le_max_right _ _), show 9 ≤ 12 by decide⟩
    · rw [List.mem_singleton.mp mem]
      exact ⟨Nat.le_trans (Nat.le_max_right _ _) (Nat.le_max_right _ _), show 12 ≤ 12 by decide⟩
  have ivLen : salsa.ivLen = 8 := rfl
  rw [onetimeauthBytes]
  omega

/-- The first packet is one of 65500 bytes. -/
theorem sealAll_overflows : sealAll salsa {} [relayCall 65500 (by decide)] = .error .outOfBounds := by
  have failed : ssEncryptAll salsa (relayCall 65500 (by decide)).plain (relayCall 65500 (by decide)).auth
      (relayCall 65500 (by decide)).iv {} (relayCall 65500 (by decide)).capacity = .error .outOfBounds := big_overflows
  rw [sealAll, failed]
  rfl

end

end Shadowsocks
