import Shadowsocks.Encrypt.Cipher

/-!
# Ciphers and hashes the program is linked with

The development takes the crypto libraries as parameters. This file follows three
algorithms of OpenSSL, `rc4_skey.c`/`rc4_enc.c`, SHA-1 under HMAC and MD5, and the
Salsa20 of libsodium, so that the assumptions on the library are met by a cipher the
program really uses (`rc4_lawful`) and concrete connections can be computed
(`rc4Platform`).
-/

namespace Shadowsocks
set_option autoImplicit false
open Lib

/-! ## RC4 -/

/-- `RC4_KEY`. -/
structure Rc4Key where
  x : UInt8
  y : UInt8
  data : Vector UInt8 256

namespace Rc4Key

def get (k : Rc4Key) (i : UInt8) : UInt8 := k.data.get ⟨i.toNat, i.toNat_lt⟩

def set (k : Rc4Key) (i v : UInt8) : Rc4Key := { k with data := k.data.set i.toNat v i.toNat_lt }

end Rc4Key

/-- `SK_LOOP` for the positions `n` on, `left` of them; `id1` runs through the key. -/
def skLoop (data : Bytes) : (left : Nat) → (n : Nat) → (id1 : Nat) → (id2 : UInt8) → Rc4Key → Rc4Key
  | 0, _, _, _, key => key
  | left + 1, n, id1, id2, key =>
    let tmp := key.get (UInt8.ofNat n)
    let id2 := data.getD id1 0 + tmp + id2
    let key := (key.set (UInt8.ofNat n) (key.get id2)).set id2 tmp
    skLoop data left (n + 1) (if id1 + 1 = data.length then 0 else id1 + 1) id2 key

/-- `private_RC4_set_key`. -/
def rc4SetKey (data : Bytes) : Rc4Key :=
  skLoop data 256 0 0 0 { x := 0, y := 0, data := Vector.ofFn fun i => UInt8.ofNat i.val }

/-- One byte of the loop of `RC4`: the keystream byte and the next key state. -/
def rc4Next (key : Rc4Key) : UInt8 × Rc4Key :=
  let x := key.x + 1
  let tx := key.get x
  let y := tx + key.y
  let ty := key.get y
  let key := (key.set x ty).set y tx
  (key.get (tx + ty), { key with x, y })

/-- `RC4`. -/
def rc4 : Rc4Key → Bytes → Bytes × Rc4Key
  | key, [] => ([], key)
  | key, b :: bs =>
    let (k, key) := rc4Next key
    let (out, key) := rc4 key bs
    ((b ^^^ k) :: out, key)

theorem rc4_append (key : Rc4Key) (xs ys : Bytes) : rc4 key (xs ++ ys) =
    ((rc4 key xs).1 ++ (rc4 (rc4 key xs).2 ys).1, (rc4 (rc4 key xs).2 ys).2) := by
  induction xs generalizing key with
  | nil => rfl
  | cons x xs ih => simp only [List.cons_append, rc4, ih]

theorem length_rc4 (key : Rc4Key) (xs : Bytes) : (rc4 key xs).1.length = xs.length := by
  induction xs generalizing key with
  | nil => rfl
  | cons x xs ih => simp only [rc4, List.length_cons, ih]

theorem rc4_rc4 (key : Rc4Key) (xs : Bytes) : (rc4 key (rc4 key xs).1).1 = xs := by
  induction xs generalizing key with
  | nil => rfl
  | cons x xs ih => simp only [rc4, ih, UInt8.xor_assoc, UInt8.xor_self, UInt8.xor_zero]

/-- A crypto library with RC4 for its one cipher. -/
def rc4Library : EvpCipher where
  State := Rc4Key
  blank := { x := 0, y := 0, data := Vector.replicate 256 0 }
  init _ key _ _ := rc4SetKey key
  succeeds _ _ := true
  update := rc4

theorem rc4_lawful : rc4Library.Lawful where
  succeeds _ _ := rfl
  update_nil _ := rfl
  update_append := rc4_append
  length_update := length_rc4
  decrypt_encrypt _ _ _ _ := rc4_rc4 _ _

/-! ## HMAC-SHA1 -/

/-- The message with its padding: a one bit, zeros and the length in bits. -/
def sha1Pad (message : Bytes) : Bytes :=
  message ++ 0x80 :: List.replicate ((119 - message.length % 64) % 64) 0 ++
    be32 (8 * message.length / 2 ^ 32) ++ be32 (8 * message.length)

def rotateLeft (x : UInt32) (n : UInt32) : UInt32 := (x <<< n) ||| (x >>> (32 - n))

/-- The message schedule, latest word first. -/
def sha1Schedule (block : Bytes) : List UInt32 :=
  let words := (List.range 16).map fun i =>
    (window block (4 * i) 4).foldl (fun acc b => acc * 256 + b.toUInt32) (0 : UInt32)
  (List.range 64).foldl (fun w _ =>
    rotateLeft (w.getD 2 0 ^^^ w.getD 7 0 ^^^ w.getD 13 0 ^^^ w.getD 15 0) 1 :: w) words.reverse

/-- The five chaining words. -/
structure Sha1State where
  a : UInt32 := 0x67452301
  b : UInt32 := 0xefcdab89
  c : UInt32 := 0x98badcfe
  d : UInt32 := 0x10325476
  e : UInt32 := 0xc3d2e1f0

/-- Round `t` with schedule word `w`. -/
def sha1Round (s : Sha1State) (t : Nat) (w : UInt32) : Sha1State :=
  let (f, k) : UInt32 × UInt32 :=
    if t < 20 then ((s.b &&& s.c) ||| (~~~s.b &&& s.d), 0x5a827999)
    else if t < 40 then (s.b ^^^ s.c ^^^ s.d, 0x6ed9eba1)
    else if t < 60 then ((s.b &&& s.c) ||| (s.b &&& s.d) ||| (s.c &&& s.d), 0x8f1bbcdc)
    else (s.b ^^^ s.c ^^^ s.d, 0xca62c1d6)
  { a := rotateLeft s.a 5 + f + s.e + k + w, b := s.a, c := rotateLeft s.b 30, d := s.c, e := s.d }

def sha1Block (s : Sha1State) (block : Bytes) : Sha1State :=
  let s' := (sha1Schedule block).reverse.zipIdx.foldl (fun s (w, t) => sha1Round s t w) s
  { a := s.a + s'.a, b := s.b + s'.b, c := s.c + s'.c, d := s.d + s'.d, e := s.e + s'.e }

def Sha1State.digest (s : Sha1State) : Vector UInt8 20 :=
  ⟨(be32 s.a.toNat ++ be32 s.b.toNat ++ be32 s.c.toNat ++ be32 s.d.toNat ++ be32 s.e.toNat).toArray, rfl⟩

def sha1 (message : Bytes) : Vector UInt8 20 :=
  let padded := sha1Pad message
  ((List.range (padded.length / 64)).foldl (fun s i => sha1Block s (window padded (64 * i) 64)) {}).digest

/-- HMAC with the block size of SHA-1. -/
def hmacSha1 (key message : Bytes) : Vector UInt8 20 :=
  let key := if key.length ≤ 64 then key else (sha1 key).toList
  let key := key ++ List.replicate (64 - key.length) 0
  sha1 (key.map (· ^^^ 0x5c) ++ (sha1 (key.map (· ^^^ 0x36) ++ message)).toList)

/-! ## MD5 -/

/-- A 32-bit word, least significant byte first. -/
def le32 (x : UInt32) : Bytes :=
  [x.toUInt8, (x >>> 8).toUInt8, (x >>> 16).toUInt8, (x >>> 24).toUInt8]

/-- The words of a byte string, least significant byte first. -/
def wordsOf (bs : Bytes) : List UInt32 :=
  (List.range (bs.length / 4)).map fun i =>
    (window bs (4 * i) 4).foldr (fun b acc => acc * 256 + b.toUInt32) (0 : UInt32)

def md5Pad (message : Bytes) : Bytes :=
  let bits := 8 * message.length
  message ++ 0x80 :: List.replicate ((119 - message.length % 64) % 64) 0 ++
    le32 (UInt32.ofNat bits) ++ le32 (UInt32.ofNat (bits / 2 ^ 32))

/-- The integer parts of `2 ^ 32 * |sin i|` for `i` from 1 to 64. -/
def md5Table : List UInt32 :=
  [0xd76aa478, 0xe8c7b756, 0x242070db, 0xc1bdceee, 0xf57c0faf, 0x4787c62a, 0xa8304613, 0xfd469501,
   0x698098d8, 0x8b44f7af, 0xffff5bb1, 0x895cd7be, 0x6b901122, 0xfd987193, 0xa679438e, 0x49b40821,
   0xf61e2562, 0xc040b340, 0x265e5a51, 0xe9b6c7aa, 0xd62f105d, 0x02441453, 0xd8a1e681, 0xe7d3fbc8,
   0x21e1cde6, 0xc33707d6, 0xf4d50d87, 0x455a14ed, 0xa9e3e905, 0xfcefa3f8, 0x676f02d9, 0x8d2a4c8a,
   0xfffa3942, 0x8771f681, 0x6d9d6122, 0xfde5380c, 0xa4beea44, 0x4bdecfa9, 0xf6bb4b60, 0xbebfbc70,
   0x289b7ec6, 0xeaa127fa, 0xd4ef3085, 0x04881d05, 0xd9d4d039, 0xe6db99e5, 0x1fa27cf8, 0xc4ac5665,
   0xf4292244, 0x432aff97, 0xab9423a7, 0xfc93a039, 0x655b59c3, 0x8f0ccc92, 0xffeff47d, 0x85845dd1,
   0x6fa87e4f, 0xfe2ce6e0, 0xa3014314, 0x4e0811a1, 0xf7537e82, 0xbd3af235, 0x2ad7d2bb, 0xeb86d391]

/-- How far each step rotates: four amounts in turn, for each of the four rounds. -/
def md5Shift (i : Nat) : UInt32 :=
  ([[7, 12, 17, 22], [5, 9, 14, 20], [4, 11, 16, 23], [6, 10, 15, 21]].getD (i / 16) []).getD (i % 4) 0

/-- The four chaining words. -/
structure Md5State where
  a : UInt32 := 0x67452301
  b : UInt32 := 0xefcdab89
  c : UInt32 := 0x98badcfe
  d : UInt32 := 0x10325476

def md5Step (words : List UInt32) (s : Md5State) (i : Nat) : Md5State :=
  let (f, g) : UInt32 × Nat :=
    if i < 16 then ((s.b &&& s.c) ||| (~~~s.b &&& s.d), i)
    else if i < 32 then ((s.d &&& s.b) ||| (~~~s.d &&& s.c), (5 * i + 1) % 16)
    else if i < 48 then (s.b ^^^ s.c ^^^ s.d, (3 * i + 5) % 16)
    else (s.c ^^^ (s.b ||| ~~~s.d), 7 * i % 16)
  let f := f + s.a + md5Table.getD i 0 + words.getD g 0
  { a := s.d, b := s.b + rotateLeft f (md5Shift i), c := s.b, d := s.c }

def md5Block (s : Md5State) (block : Bytes) : Md5State :=
  let words := wordsOf block
  let s' := (List.range 64).foldl (md5Step words) s
  { a := s.a + s'.a, b := s.b + s'.b, c := s.c + s'.c, d := s.d + s'.d }

def md5 (message : Bytes) : Bytes :=
  let padded := md5Pad message
  let s := (List.range (padded.length / 64)).foldl (fun s i => md5Block s (window padded (64 * i) 64)) ({} : Md5State)
  le32 s.a ++ le32 s.b ++ le32 s.c ++ le32 s.d

/-! ## Salsa20 -/

/-- One quarter round on the words at four places. -/
def salsaQuarter (x : List UInt32) (a b c d : Nat) : List UInt32 :=
  let x := x.set b (x.getD b 0 ^^^ rotateLeft (x.getD a 0 + x.getD d 0) 7)
  let x := x.set c (x.getD c 0 ^^^ rotateLeft (x.getD b 0 + x.getD a 0) 9)
  let x := x.set d (x.getD d 0 ^^^ rotateLeft (x.getD c 0 + x.getD b 0) 13)
  x.set a (x.getD a 0 ^^^ rotateLeft (x.getD d 0 + x.getD c 0) 18)

/-- A column round and a row round. -/
def salsaDouble (x : List UInt32) : List UInt32 :=
  let x := salsaQuarter (salsaQuarter (salsaQuarter (salsaQuarter x 0 4 8 12) 5 9 13 1) 10 14 2 6) 15 3 7 11
  salsaQuarter (salsaQuarter (salsaQuarter (salsaQuarter x 0 1 2 3) 5 6 7 4) 10 11 8 9) 15 12 13 14

/-- The block of 64 bytes with number `ic` under the nonce `n` and the key `k`. -/
def salsaBlock (n k : Bytes) (ic : Nat) : Bytes :=
  let key := wordsOf (k ++ List.replicate (32 - k.length) 0)
  let counter := [UInt32.ofNat ic, UInt32.ofNat (ic / 2 ^ 32)]
  let x := 0x61707865 :: key.take 4 ++ 0x3320646e :: wordsOf n ++ counter ++ 0x79622d32 :: (key.drop 4).take 4 ++
    [0x6b206574]
  let y := (List.range 10).foldl (fun y _ => salsaDouble y) x
  (List.zipWith (· + ·) x y).flatMap le32

/-- The program linked with RC4, HMAC-SHA1, MD5 and Salsa20: what is needed to run the
methods `rc4`, `rc4-md5` and `salsa20`. -/
def rc4Platform : Platform where
  evp := rc4Library
  keystream _ n k pos := (salsaBlock n k (pos / 64)).getD (pos % 64) 0
  hmacSha1 := hmacSha1
  md5 := md5
  junk _ := 0

/-- The method `salsa20` with a key of 32 bytes. -/
def salsa : Encryptor rc4Platform where
  method := .salsa20
  key := (List.range 32).map UInt8.ofNat
  encTable := id
  decTable := id

/-- The method `table`. The sorting of `enc_table_init` changes nothing if the digest of
the password begins with eight zeros. -/
def unsortedTable : Encryptor rc4Platform where
  method := .table
  key := []
  encTable := id
  decTable := id

end Shadowsocks
