import Shadowsocks.Encrypt.MergeSort
import Shadowsocks.Encrypt.Packet
import Shadowsocks.Encrypt.Rechunk

/-!
# The method `table`

`enc_table_init` fills both tables from the digest of the password. The first one is the
bytes in another order and the second one undoes it, whatever the digest, so the functions
that run a buffer through them undo each other under any cutting of the data.
-/

namespace Shadowsocks
set_option autoImplicit false
open Lib

/-- `OFFSET_ROL`. The static buffer of the digest holds zeros behind it. -/
def offsetRol (digest : Bytes) (o : Nat) : UInt64 := (digest.getD o 0).toUInt64 <<< UInt64.ofNat (8 * o)

/-- `key` of `enc_table_init`. -/
def tableKey (digest : Bytes) : UInt64 := (List.range 8).foldl (fun key i => key + offsetRol digest i) 0

/-- One `merge_sort` for each of the salts. -/
def mixTable (depth : Nat) (key : UInt64) (table : Bytes) (salts : List Nat) : Except Fault Bytes :=
  salts.foldlM (fun table i => mergeSort depth table 0 256 (UInt32.ofNat i) key) table

/-- `dec_table[enc_table[i]] = i` for each of the indices. -/
def fillDecTable (table dec : Bytes) (indices : List Nat) : Except Fault Bytes :=
  indices.foldlM (fun dec i => do
    let entry ← load table i 1
    store dec (entry.headD 0).toNat [UInt8.ofNat i]) dec

/-- `enc_table_init`: what the two tables hold afterwards. -/
def Platform.encTableInit (P : Platform) (depth : Nat) (pass : Bytes) : Except Fault (Bytes × Bytes) := do
  let key := tableKey (P.md5 pass)
  let encTable ← mixTable depth key ((List.range 256).map UInt8.ofNat) (List.range' 1 1023)
  let decTable ← fillDecTable encTable ((List.range 256).map P.junk) (List.range 256)
  pure (encTable, decTable)

/-- The statics after `enc_init` with the method `table`. -/
def Platform.tableEncryptor (P : Platform) (tables : Bytes × Bytes) : Encryptor P where
  method := .table
  key := []
  encTable b := tables.1.getD b.toNat 0
  decTable b := tables.2.getD b.toNat 0

/-! ## The two tables -/

/-- The sorts that mix the table are stable sorts by the random keys, as in the reference. -/
theorem mixTable_spec (depth : Nat) (key : UInt64) (salts : List Nat) {table : Bytes} (size : table.length = 256)
    (stack : 9 ≤ depth) (small : ∀ i ∈ salts, 1 ≤ i ∧ i < 1024) :
    mixTable depth key table salts = .ok (sortTable key.toNat salts table) := by
  induction salts generalizing table with
  | nil => rfl
  | cons i salts ih =>
    obtain ⟨positive, bound⟩ := small i List.mem_cons_self
    have salt : (UInt32.ofNat i).toNat = i := by
      rw [UInt32.toNat_ofNat']
      omega
    have fits : SaltFits (UInt32.ofNat i) := ⟨by omega, by omega⟩
    obtain ⟨depth, rfl⟩ := Nat.exists_eq_add_of_le' (show 1 ≤ depth by omega)
    have room : 2 ^ 8 ≤ 2 ^ depth := Nat.pow_le_pow_right (by decide) (by omega)
    have whole : window table 0 256 = table := by rw [← size, window_zero_length]
    have sorted := mergeSort_spec key fits depth table 0 256 room (by decide) (by omega)
    rw [whole, salt] at sorted
    have long : (table.mergeSort (randomLe i key.toNat)).length = 256 := by rw [List.length_mergeSort, size]
    have whole_ : splice table 0 (table.mergeSort (randomLe i key.toNat)) = table.mergeSort (randomLe i key.toNat) := by
      rw [splice_zero, long, ← size, List.drop_length, List.append_nil]
    rw [whole_] at sorted
    rw [mixTable, List.foldlM_cons, sorted, ok_bind]
    exact ih long fun j mem => small j (List.mem_cons_of_mem _ mem)

/-- One byte of a table is replaced. -/
theorem getD_splice {l : Bytes} {x : UInt8} {i : Nat} (inside : i < l.length) (j : Nat) :
    (splice l i [x]).getD j 0 = if j = i then x else l.getD j 0 := by
  rw [List.getD_eq_getElem?_getD, getElem?_splice (Nat.le_of_lt inside), List.getD_eq_getElem?_getD, List.length_singleton]
  by_cases here : j = i
  · rw [if_pos here, if_neg (by omega), if_pos (by omega), here, Nat.sub_self]
    rfl
  · rw [if_neg here]
    by_cases before : j < i
    · rw [if_pos before]
    · rw [if_neg before, if_neg (by omega)]

/-- The second loop inverts the table. -/
theorem fillDecTable_spec {table : Bytes} (size : table.length = 256) (indices : List Nat) {dec : Bytes} (room : dec.length = 256)
    (inside : ∀ i ∈ indices, i < 256) :
    ∃ dec', fillDecTable table dec indices = .ok dec' ∧ dec'.length = 256 ∧
      ∀ b : UInt8, dec'.getD b.toNat 0 = invertTable table indices (fun b => dec.getD b.toNat 0) b := by
  induction indices generalizing dec with
  | nil => exact ⟨dec, rfl, room, fun _ => rfl⟩
  | cons i indices ih =>
    have here := inside i List.mem_cons_self
    have entry : window table i 1 = [table.getD i 0] := by
      rw [window, List.drop_eq_getElem_cons (by omega), List.take_succ_cons, List.take_zero, List.getD_eq_getElem _ _ (by omega)]
    have within := (table.getD i 0).toNat_lt
    have fits : (table.getD i 0).toNat + [UInt8.ofNat i].length ≤ dec.length := by
      rw [List.length_singleton]
      omega
    have size' : (splice dec (table.getD i 0).toNat [UInt8.ofNat i]).length = 256 := by rw [length_splice fits, room]
    obtain ⟨dec', filled, room', inverse⟩ := ih size' fun j mem => inside j (List.mem_cons_of_mem _ mem)
    refine ⟨dec', ?_, room', fun b => ?_⟩
    · rw [fillDecTable, List.foldlM_cons, load_ok (by omega), ok_bind, entry, List.headD_cons, store_ok fits]
      exact filled
    · have stored : (fun b : UInt8 => (splice dec (table.getD i 0).toNat [UInt8.ofNat i]).getD b.toNat 0) =
          fun b => if b = table.getD i 0 then UInt8.ofNat i else dec.getD b.toNat 0 := by
        funext b
        rw [getD_splice (by omega)]
        by_cases same : b = table.getD i 0
        · rw [if_pos same, if_pos (congrArg UInt8.toNat same)]
        · rw [if_neg same, if_neg (mt UInt8.toNat_inj.mp same)]
      rw [inverse b, stored]
      rfl

/-- `enc_table_init` comes to its end for every password, with a permutation of the bytes
and its inverse. -/
theorem encTableInit_spec (P : Platform) (pass : Bytes) {depth : Nat} (stack : 9 ≤ depth) :
    ∃ tables, P.encTableInit depth pass = .ok tables ∧ tables.1 = encTableInit (tableKey (P.md5 pass)).toNat ∧
      tables.2.length = 256 ∧ (P.tableEncryptor tables).Initialised := by
  have start : ((List.range 256).map UInt8.ofNat).length = 256 := by rw [List.length_map, List.length_range]
  have fresh : ((List.range 256).map P.junk).length = 256 := by rw [List.length_map, List.length_range]
  have mixed := mixTable_spec depth (tableKey (P.md5 pass)) (List.range' 1 1023) start stack fun i mem => by
    rw [List.mem_range'_1] at mem
    omega
  generalize made : tableKey (P.md5 pass) = key at mixed
  have size : (sortTable key.toNat (List.range' 1 1023) ((List.range 256).map UInt8.ofNat)).length = 256 := by
    rw [(sortTable_perm _ _ _).length_eq, start]
  obtain ⟨dec, filled, long, inverse⟩ := fillDecTable_spec size (List.range 256) fresh fun i mem => List.mem_range.mp mem
  rw [← encTableInit] at mixed filled
  refine ⟨(encTableInit key.toNat, dec), ?_, by dsimp only, long, key.toNat, by dsimp only [Platform.tableEncryptor], ?_⟩
  · rw [Platform.encTableInit, made, mixed, ok_bind, filled]
    rfl
  · funext b
    refine (inverse b).trans ?_
    have junk : (fun b : UInt8 => ((List.range 256).map P.junk).getD b.toNat 0) = fun b => P.junk b.toNat := by
      funext b
      rw [List.getD_eq_getElem _ _ (by rw [fresh]; exact b.toNat_lt), List.getElem_map, List.getElem_range]
    rw [← encTableInit, junk]

/-- Every byte is in the first table, so the second one is its inverse on both sides. -/
theorem encTableInit_surjective (key : Nat) (b : UInt8) : ∃ a : UInt8, (encTableInit key).getD a.toNat 0 = b := by
  have perm := sortTable_perm key (List.range' 1 1023) ((List.range 256).map UInt8.ofNat)
  have size : (encTableInit key).length = 256 := perm.length_eq.trans (by simp)
  have mem : b ∈ encTableInit key :=
    perm.mem_iff.mpr (List.mem_map.mpr ⟨b.toNat, List.mem_range.mpr b.toNat_lt, UInt8.ofNat_toNat⟩)
  obtain ⟨i, inside, eq⟩ := List.mem_iff_getElem.mp mem
  refine ⟨UInt8.ofNat i, ?_⟩
  rw [UInt8.toNat_ofNat', Nat.mod_eq_of_lt (by omega), List.getD_eq_getElem _ _ inside, eq]

/-- The tables are inverse to each other in both directions. -/
theorem Encryptor.Initialised.inverse_right {P : Platform} {E : Encryptor P} (made : E.Initialised) (b : UInt8) :
    E.encTable (E.decTable b) = b := by
  have inverse := made.inverse
  obtain ⟨key, enc, -⟩ := made
  obtain ⟨a, rfl⟩ := encTableInit_surjective key b
  rw [← congrFun enc a, inverse]

/-! ## Through the tables and back -/

/-- The buffer with `f` applied to each of its bytes. -/
def Buffer.mapped (f : UInt8 → UInt8) (b : Buffer) : Buffer := { b with array := splice b.array 0 (b.bytes.map f) }

section
variable {f g : UInt8 → UInt8} {b : Buffer}

theorem Buffer.mapped_room (fits : b.Fits) : 0 + (b.bytes.map f).length ≤ b.array.length := by
  rw [List.length_map, Buffer.length_bytes fits, Nat.zero_add]
  exact fits

/-- Both directions of the method `table` read the buffer and write it back. -/
theorem Buffer.mapped_eq (f : UInt8 → UInt8) (fits : b.Fits) :
    (do let xs ← b.read 0 b.len; b.write 0 (xs.map f)) = .ok (b.mapped f) := by
  rw [Buffer.Holds.readAll ⟨fits, rfl⟩, ok_bind, Buffer.write_ok (Buffer.mapped_room fits)]
  rfl

theorem Buffer.mapped_fits (fits : b.Fits) : (b.mapped f).Fits := by
  have size : (b.mapped f).array.length = b.array.length := length_splice (Buffer.mapped_room fits)
  rw [Buffer.Fits, size]
  exact fits

theorem Buffer.mapped_bytes (fits : b.Fits) : (b.mapped f).bytes = b.bytes.map f := by
  have held := window_splice_self b.array (b.bytes.map f) 0 (Nat.zero_le _)
  rwa [List.length_map, Buffer.length_bytes fits] at held

/-- An inverse table restores the buffer. -/
theorem Buffer.mapped_mapped (fits : b.Fits) (inverse : ∀ x, g (f x) = x) : (b.mapped f).mapped g = b := by
  have back : (b.bytes.map f).map g = b.bytes := by
    rw [List.map_map]
    exact (List.map_congr_left fun x _ => inverse x).trans (List.map_id _)
  have restored : splice (b.mapped f).array 0 ((b.mapped f).bytes.map g) = b.array := by
    rw [Buffer.mapped_bytes fits, back]
    refine (splice_splice_same (List.length_map f) ?_).trans (splice_window ?_)
    · rw [Buffer.length_bytes fits, Nat.zero_add]
      exact fits
    · rw [Nat.zero_add]
      exact fits
  exact congrArg (fun array => { b with array }) restored

end

/-- What a run of calls returns: the return code and the buffer of each. -/
abbrev Outcomes := Except Fault (List (Int × Buffer))

/-- `decrypt` takes back what `encrypt` makes of the buffers: from the same buffers it makes
those that went in, and from any others that hold the same bytes in turn it makes buffers
that hold the bytes that went in. -/
structure Undoes (encrypt decrypt : List Buffer → Outcomes) : Prop where
  same : ∀ sent : List Buffer, (∀ b ∈ sent, b.Fits) → ∃ rs rs', encrypt sent = .ok rs ∧ (∀ r ∈ rs, r.1 = 0) ∧
    decrypt (rs.map Prod.snd) = .ok rs' ∧ (∀ r ∈ rs', r.1 = 0) ∧ rs'.map Prod.snd = sent
  cut : ∀ sent received : List Buffer, (∀ b ∈ sent, b.Fits) → (∀ b ∈ received, b.Fits) →
    ∃ rs rs', encrypt sent = .ok rs ∧ decrypt received = .ok rs' ∧ (∀ r ∈ rs', r.1 = 0) ∧
      ((pieces received).flatten = (pieces (rs.map Prod.snd)).flatten →
        (pieces (rs'.map Prod.snd)).flatten = (pieces sent).flatten)

/-- Every call succeeds and applies `f` to the bytes of its buffer. -/
def Maps (f : UInt8 → UInt8) (calls : List Buffer → Outcomes) : Prop :=
  ∀ bs : List Buffer, (∀ b ∈ bs, b.Fits) → calls bs = .ok (bs.map fun b => (0, b.mapped f))

section
variable {f g : UInt8 → UInt8} {encrypt decrypt : List Buffer → Outcomes}

/-- The bytes of the buffers are mapped one by one. -/
theorem pieces_mapped {bs : List Buffer} (fits : ∀ b ∈ bs, b.Fits) :
    (pieces ((bs.map fun b => ((0 : Int), b.mapped f)).map Prod.snd)).flatten = (pieces bs).flatten.map f := by
  rw [pieces, pieces, List.map_map, List.map_map, List.map_flatten, List.map_map]
  exact congrArg _ (List.map_congr_left fun b mem => Buffer.mapped_bytes (fits b mem))

/-- Calls that map with inverse tables undo each other. -/
theorem Maps.undoes (enc : Maps f encrypt) (dec : Maps g decrypt) (inverse : ∀ x, g (f x) = x) : Undoes encrypt decrypt where
  same sent fits := by
    have held : ∀ b ∈ sent.map (Buffer.mapped f), b.Fits := by
      intro b mem
      obtain ⟨source, sourceMem, rfl⟩ := List.mem_map.mp mem
      exact Buffer.mapped_fits (fits source sourceMem)
    have snd : (sent.map fun b => ((0 : Int), b.mapped f)).map Prod.snd = sent.map (Buffer.mapped f) := by
      rw [List.map_map]
      rfl
    refine ⟨_, _, enc sent fits, ?_, (congrArg decrypt snd).trans (dec _ held), ?_, ?_⟩
    · intro r mem
      obtain ⟨b, -, rfl⟩ := List.mem_map.mp mem
      rfl
    · intro r mem
      obtain ⟨b, -, rfl⟩ := List.mem_map.mp mem
      rfl
    · rw [List.map_map, List.map_map]
      exact (List.map_congr_left fun b mem => Buffer.mapped_mapped (fits b mem) inverse).trans (List.map_id _)
  cut sent received fits fits' := by
    refine ⟨_, _, enc sent fits, dec received fits', ?_, fun same => ?_⟩
    · intro r mem
      obtain ⟨b, -, rfl⟩ := List.mem_map.mp mem
      rfl
    · rw [pieces_mapped fits', same, pieces_mapped fits, List.map_map]
      exact (List.map_congr_left fun x _ => inverse x).trans (List.map_id _)

end

section
variable {P : Platform} (E : Encryptor P)

/-- `ss_encrypt` with the context that the method `table` has. -/
def encryptCalls (tmp : Buffer) (capacity : Nat) (bs : List Buffer) : Outcomes := do
  let rs ← encryptAll E capacity none tmp bs
  pure (rs.map fun r => (r.ret, r.buf))

/-- `ss_decrypt` on one buffer after the other. -/
def decryptCalls (tmp : Buffer) (ivCache : Cache Unit) (capacity : Nat) (bs : List Buffer) : Outcomes := do
  let rs ← decryptAll E capacity none tmp ivCache bs
  pure (rs.map fun r => (r.ret, r.buf))

/-- `ss_encrypt_all` on one packet after the other. -/
def encryptAllCalls (auth : Bool) (iv : Bytes) (tmp : Buffer) (capacity : Nat) (bs : List Buffer) : Outcomes := do
  let rs ← feed (fun tmp b => ssEncryptAll E b auth iv tmp capacity) PacketResult.tmp tmp bs
  pure (rs.map fun r => (r.ret, r.buf))

/-- `ss_decrypt_all` on one buffer after the other. -/
def decryptAllCalls (auth : Bool) (tmp : Buffer) (capacity : Nat) (bs : List Buffer) : Outcomes := do
  let rs ← feed (fun tmp b => ssDecryptAll E b auth tmp capacity) PacketResult.tmp tmp bs
  pure (rs.map fun r => (r.ret, r.buf))

/-- A context is fed one buffer after the other, -/
theorem encryptAll_eq_feed (capacity : Nat) (ctx : Option (EncCtx P)) (tmp : Buffer) (bs : List Buffer) :
    encryptAll E capacity ctx tmp bs =
      feed (fun s b => ssEncrypt E b s.1 s.2 capacity) (fun r => (r.ctx, r.tmp)) (ctx, tmp) bs := by
  induction bs generalizing ctx tmp with
  | nil => rfl
  | cons b bs ih => simp only [encryptAll, feed, ih]

/-- in both directions. -/
theorem decryptAll_eq_feed (capacity : Nat) (ctx : Option (EncCtx P)) (tmp : Buffer) (ivCache : Cache Unit) (bs : List Buffer) :
    decryptAll E capacity ctx tmp ivCache bs =
      feed (fun s b => ssDecrypt E b s.1 s.2.1 s.2.2 capacity) (fun r => (r.ctx, r.tmp, r.ivCache)) (ctx, tmp, ivCache) bs := by
  induction bs generalizing ctx tmp ivCache with
  | nil => rfl
  | cons b bs ih => simp only [decryptAll, feed, ih]

variable {E}

/-- Without a context a call of `ss_encrypt` maps the buffer with the table. -/
theorem encryptCalls_maps (tmp : Buffer) (capacity : Nat) : Maps E.encTable (encryptCalls E tmp capacity) := by
  intro bs fits
  have made : feed (fun s b => ssEncrypt E b s.1 s.2 capacity) (fun r => (r.ctx, r.tmp)) (none, tmp) bs =
      .ok (bs.map fun b => { ret := 0, buf := b.mapped E.encTable, ctx := none, tmp }) := by
    refine feed_map (fun b mem => ?_) fun _ _ => rfl
    obtain ⟨xs, read, wrote⟩ := bind_eq_ok.mp (Buffer.mapped_eq E.encTable (fits b mem))
    simp only [ssEncrypt, read, wrote, ok_bind, pure_eq_ok]
  rw [encryptCalls, encryptAll_eq_feed, made, ok_bind, List.map_map]
  rfl

/-- `ss_decrypt` maps it with the other one. -/
theorem decryptCalls_maps (tmp : Buffer) (ivCache : Cache Unit) (capacity : Nat) :
    Maps E.decTable (decryptCalls E tmp ivCache capacity) := by
  intro bs fits
  have made : feed (fun s b => ssDecrypt E b s.1 s.2.1 s.2.2 capacity) (fun r => (r.ctx, r.tmp, r.ivCache)) (none, tmp, ivCache) bs =
      .ok (bs.map fun b => { ret := 0, buf := b.mapped E.decTable, ctx := none, tmp, ivCache }) := by
    refine feed_map (fun b mem => ?_) fun _ _ => rfl
    obtain ⟨xs, read, wrote⟩ := bind_eq_ok.mp (Buffer.mapped_eq E.decTable (fits b mem))
    simp only [ssDecrypt, read, wrote, ok_bind, pure_eq_ok]
  rw [decryptCalls, decryptAll_eq_feed, made, ok_bind, List.map_map]
  rfl

/-- `ss_encrypt_all` does the same for a datagram, whatever `auth` is. -/
theorem encryptAllCalls_maps (table : E.method = .table) (auth : Bool) (iv : Bytes) (tmp : Buffer) (capacity : Nat) :
    Maps E.encTable (encryptAllCalls E auth iv tmp capacity) := by
  intro bs fits
  have made : feed (fun tmp b => ssEncryptAll E b auth iv tmp capacity) PacketResult.tmp tmp bs =
      .ok (bs.map fun b => { ret := 0, buf := b.mapped E.encTable, tmp }) := by
    refine feed_map (fun b mem => ?_) fun _ _ => rfl
    obtain ⟨xs, read, wrote⟩ := bind_eq_ok.mp (Buffer.mapped_eq E.encTable (fits b mem))
    simp only [ssEncryptAll, if_pos table, read, wrote, ok_bind, pure_eq_ok]
  rw [encryptAllCalls, made, ok_bind, List.map_map]
  rfl

/-- And so does `ss_decrypt_all`. -/
theorem decryptAllCalls_maps (table : E.method = .table) (auth : Bool) (tmp : Buffer) (capacity : Nat) :
    Maps E.decTable (decryptAllCalls E auth tmp capacity) := by
  intro bs fits
  have made : feed (fun tmp b => ssDecryptAll E b auth tmp capacity) PacketResult.tmp tmp bs =
      .ok (bs.map fun b => { ret := 0, buf := b.mapped E.decTable, tmp }) := by
    refine feed_map (fun b mem => ?_) fun _ _ => rfl
    obtain ⟨xs, read, wrote⟩ := bind_eq_ok.mp (Buffer.mapped_eq E.decTable (fits b mem))
    simp only [ssDecryptAll, if_pos table, read, wrote, ok_bind, pure_eq_ok]
  rw [decryptAllCalls, made, ok_bind, List.map_map]
  rfl

end

/-- For every password `enc_table_init` ends without a fault, `enc_table` is a permutation of the
bytes and `dec_table` its inverse; so the functions that use them undo each other, whatever the
cutting of the data on either side. -/
theorem table_invertible (P : Platform) (pass : Bytes) (depth : Nat) (stack : 9 ≤ depth) :
    ∃ tables, P.encTableInit depth pass = .ok tables ∧ tables.1.Perm ((List.range 256).map UInt8.ofNat) ∧
      tables.2.length = 256 ∧ (∀ b : UInt8, tables.2.getD (tables.1.getD b.toNat 0).toNat 0 = b) ∧
      (∀ b : UInt8, tables.1.getD (tables.2.getD b.toNat 0).toNat 0 = b) ∧
      ∀ (tmp tmp' : Buffer) (capacity capacity' : Nat),
        (∀ ivCache, Undoes (encryptCalls (P.tableEncryptor tables) tmp capacity)
          (decryptCalls (P.tableEncryptor tables) tmp' ivCache capacity')) ∧
        ∀ (auth auth' : Bool) (iv : Bytes), Undoes (encryptAllCalls (P.tableEncryptor tables) auth iv tmp capacity)
          (decryptAllCalls (P.tableEncryptor tables) auth' tmp' capacity') := by
  obtain ⟨tables, run, enc, long, made⟩ := encTableInit_spec P pass stack
  refine ⟨tables, run, ?_, long, made.inverse, made.inverse_right, fun tmp tmp' capacity capacity' => ⟨?_, ?_⟩⟩
  · rw [enc]
    exact sortTable_perm _ _ _
  · intro ivCache
    exact (encryptCalls_maps tmp capacity).undoes (decryptCalls_maps tmp' ivCache capacity') made.inverse
  · intro auth auth' iv
    exact (encryptAllCalls_maps rfl auth iv tmp capacity).undoes (decryptAllCalls_maps rfl auth' tmp' capacity') made.inverse

/-- Nine frames are enough for the 256 bytes. -/
theorem table_invertible_nine : ∃ tables, rc4Platform.encTableInit 9 [0x70, 0x77] = .ok tables := by
  obtain ⟨tables, run, -⟩ := table_invertible rc4Platform [0x70, 0x77] 9 (Nat.le_refl 9)
  exact ⟨tables, run⟩

end Shadowsocks
