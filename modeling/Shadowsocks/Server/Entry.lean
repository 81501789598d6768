import Shadowsocks.Encrypt.Replay
import Shadowsocks.HeaderAgreement
import Shadowsocks.Relay.Plain
import Shadowsocks.Server.Ownership
import Shadowsocks.Server.Waiting

/-!
# The first segment at ss-server

Stage 0 decrypts what has arrived once it is longer than an IV, and reads a header from it.
Whatever the bytes are, it waits, closes the server, or goes on with a destination and a
payload that lie inside the decrypted bytes. The exception is the method `table`: its servers
have no contexts, and the authentication of a header looks into one.
-/

namespace Shadowsocks.Server.Process
set_option autoImplicit false
open Lib Udp

section
variable {P : Platform} {C : Server.Config P} {buf : Buffer} {t : UInt8} {rest : Bytes} {dCtx : Option (EncCtx P)}

/-- `parse_header_len` of a header with type `t`. -/
def headerSize (t : UInt8) (rest : Bytes) : Nat :=
  if t &&& 0xf = 1 then 6
  else if t &&& 0xf = 3 then (rest.headD 0).toNat + 3
  else if t &&& 0xf = 4 then 18
  else 2

/-- The header is to be authenticated, and there are enough bytes for it and its tag. -/
def Authenticates (auth : Bool) : Bytes → Prop
  | [] => False
  | t :: rest => (auth = true ∨ t &&& 0x10 ≠ 0) ∧ headerSize t rest + onetimeauthBytes ≤ rest.length

instance (auth : Bool) (bs : Bytes) : Decidable (Authenticates auth bs) := by
  cases bs <;> unfold Authenticates <;> infer_instance

/-! ## Reading the header -/

/-- The length byte of a name may lie behind the bytes; then there are not enough of them. -/
theorem parseHeaderLen_size (holds : buf.Holds (t :: rest)) (two : 2 ≤ buf.array.length) :
    ∃ n, parseHeaderLen t buf = .ok n ∧ (buf.len < 1 + n + onetimeauthBytes ↔ ¬ headerSize t rest + onetimeauthBytes ≤ rest.length) := by
  have len := holds.len
  rw [List.length_cons] at len
  unfold parseHeaderLen headerSize onetimeauthBytes
  by_cases one : t &&& 0xf = 1
  · exact ⟨6, by rw [if_pos one]; rfl, by rw [if_pos one]; omega⟩
  by_cases three : t &&& 0xf = 3
  · cases rest with
    | nil =>
      have second : buf.byte 1 = .ok buf.array[1] := by rw [Buffer.byte, List.getElem?_eq_getElem two]
      refine ⟨buf.array[1].toNat + 1 + 2, by rw [if_neg one, if_pos three, second]; rfl, ?_⟩
      rw [List.length_nil] at len ⊢
      omega
    | cons n more =>
      have second : buf.byte 1 = .ok n := holds.byte [t] n more
      refine ⟨n.toNat + 1 + 2, by rw [if_neg one, if_pos three, second]; rfl, ?_⟩
      rw [if_neg one, if_pos three, List.headD_cons]
      omega
  by_cases four : t &&& 0xf = 4
  · exact ⟨18, by rw [if_neg one, if_neg three, if_pos four]; rfl, by rw [if_neg one, if_neg three, if_pos four]; omega⟩
  · exact ⟨2, by rw [if_neg one, if_neg three, if_neg four]; rfl, by rw [if_neg one, if_neg three, if_neg four]; omega⟩

/-- Without a context the authentication is a null pointer. -/
theorem verifyHeader_crashes (holds : buf.Holds (t :: rest)) (two : 2 ≤ buf.array.length) (asks : Authenticates C.auth (t :: rest)) :
    verifyHeader C none buf t = .error (.crashed .nullPointer) := by
  obtain ⟨wanted, enough⟩ := asks
  obtain ⟨n, size, short⟩ := parseHeaderLen_size holds two
  have on : (C.auth || t &&& 0x10 != 0) = true := by
    rcases wanted with auth | flag
    · rw [auth, Bool.true_or]
    · rw [bne_iff_ne.mpr flag, Bool.or_true]
  rw [verifyHeader, if_pos on, size, orCrash_ok, ok_bind, if_neg fun no => short.mp no enough]
  rfl

/-- Otherwise the header is taken or the connection is closed. -/
theorem verifyHeader_ends (holds : buf.Holds (t :: rest)) (two : 2 ≤ buf.array.length)
    (safe : dCtx = none → ¬ Authenticates C.auth (t :: rest)) :
    (∃ why, verifyHeader C dCtx buf t = .error (.closed why)) ∨
      ∃ auth, verifyHeader C dCtx buf t = .ok auth ∧ (auth = true → ∃ ctx, dCtx = some ctx) := by
  obtain ⟨n, size, short⟩ := parseHeaderLen_size holds two
  have len := holds.len
  have fits : buf.len ≤ buf.array.length := holds.fits
  rw [verifyHeader]
  split
  · rename_i on
    rw [size, orCrash_ok, ok_bind]
    split
    · exact .inl ⟨_, rfl⟩
    · rename_i long
      have asks : Authenticates C.auth (t :: rest) := by
        refine ⟨?_, Decidable.not_not.mp fun no => long (short.mpr no)⟩
        rcases Bool.or_eq_true_iff.mp on with auth | flag
        · exact .inl auth
        · exact .inr (bne_iff_ne.mp flag)
      cases dCtx with
      | none => exact absurd asks (safe rfl)
      | some ctx =>
        have back : sizeSub (1 + n + onetimeauthBytes) onetimeauthBytes = 1 + n := by
          rw [sizeSub_of_le (Nat.le_add_left _ _), Nat.add_sub_cancel]
        rw [deref_some, orCrash_ok, ok_bind, ssOnetimeauthVerify]
        dsimp only
        rw [back, Buffer.read_ok (by dsimp only; omega), ok_bind, Buffer.read_ok (by dsimp only; omega), ok_bind, pure_eq_ok,
          orCrash_ok, ok_bind]
        split
        · exact .inl ⟨_, rfl⟩
        · exact .inr ⟨true, rfl, fun _ => ⟨ctx, rfl⟩⟩
  · refine .inr ⟨false, rfl, fun no => by cases no⟩

/-- The decrypted bytes are a header, its tag if the client authenticates, and a body. -/
def CutAs (plain : Bytes) (h : Header) (auth : Bool) (body : Bytes) : Prop :=
  ∃ t front tag, Wrote t h front ∧ plain = front ++ (tag ++ body) ∧ tag.length = if auth then onetimeauthBytes else 0

theorem CutAs.length_body {plain body : Bytes} {h : Header} {auth : Bool} (cut : CutAs plain h auth body) : body.length ≤ plain.length := by
  obtain ⟨t, front, tag, -, rfl, -⟩ := cut
  simp only [List.length_append]
  omega

/-- Behind a whole header comes the tag, or the connection is closed. -/
theorem readHeader_whole {h : Header} {more : Bytes} {auth : Bool} (valid : h.Valid) (typ : t &&& 0xf = h.addr.atyp)
    (holds : buf.Holds (t :: (h.addr.body ++ (h.port ++ more)))) (verified : verifyHeader C dCtx buf t = .ok auth) :
    (∃ why, readHeader C dCtx buf = .error (.closed why)) ∨
      ∃ body buf', readHeader C dCtx buf = .ok (h, buf', auth) ∧ CutAs (t :: (h.addr.body ++ (h.port ++ more))) h auth body ∧
        buf'.Holds body ∧ buf'.idx = buf.idx := by
  have first : buf.byte 0 = .ok t := holds.byte [] t _
  have addr : readAddr buf t = .ok (h.addr, 1 + h.addr.body.length) := readAddr_wrote valid typ holds
  have port : buf.read (1 + h.addr.body.length) 2 = .ok h.port := by
    have read := Buffer.Holds.read (t :: h.addr.body) h.port more (b := buf) holds
    rwa [List.length_cons, Nat.add_comm, valid.2] at read
  have len := holds.len
  simp only [List.length_cons, List.length_append, valid.2] at len
  obtain ⟨k, tagged⟩ : ∃ k, (if auth = true then onetimeauthBytes else 0) = k := ⟨_, rfl⟩
  simp only [readHeader, first, orCrash_ok, ok_bind, verified, addr, port, tagged]
  by_cases short : buf.len < 1 + h.addr.body.length + 2 + k
  · exact .inl ⟨.shortHeader, by rw [if_pos short]⟩
  · have tagLen : (more.take k).length = k := by
      rw [List.length_take]
      omega
    have parts : t :: (h.addr.body ++ (h.port ++ more)) = (t :: (h.addr.body ++ (h.port ++ more.take k))) ++ more.drop k := by
      simp
    rw [parts] at holds
    obtain ⟨buf', moved, left, -, idx⟩ := holds.shift
    have end_ : (t :: (h.addr.body ++ (h.port ++ more.take k))).length = 1 + h.addr.body.length + 2 + k := by
      simp only [List.length_append, List.length_cons, valid.2, tagLen]
      omega
    have behind : buf.len - (1 + h.addr.body.length + 2 + k) = (more.drop k).length := by
      rw [List.length_drop]
      omega
    rw [end_] at moved
    refine .inr ⟨more.drop k, buf', ?_, ⟨t, _, more.take k, ⟨valid, typ, rfl⟩, ?_, tagLen.trans tagged.symm⟩, left, idx⟩
    · rw [if_neg short, behind, moved]
      rfl
    · simp

/-- What is read from the buffer lies inside the bytes. -/
theorem readHeader_ends (holds : buf.Holds (t :: rest)) (two : 2 ≤ buf.array.length)
    (safe : dCtx = none → ¬ Authenticates C.auth (t :: rest)) :
    (∃ why, readHeader C dCtx buf = .error (.closed why)) ∨
      ∃ h auth body buf', readHeader C dCtx buf = .ok (h, buf', auth) ∧ CutAs (t :: rest) h auth body ∧ buf'.Holds body ∧
        buf'.idx = buf.idx ∧ (auth = true → ∃ ctx, dCtx = some ctx) := by
  have first : buf.byte 0 = .ok t := holds.byte [] t rest
  rcases verifyHeader_ends holds two safe with ⟨why, closed⟩ | ⟨auth, verified, has⟩
  · refine .inl ⟨why, ?_⟩
    simp only [readHeader, first, orCrash_ok, ok_bind, closed, error_bind]
  cases size : headerLen (t :: rest) with
  | none =>
    refine .inl ⟨.invalidHeader, ?_⟩
    simp only [readHeader, first, orCrash_ok, ok_bind, verified, readAddr_none holds two size, error_bind]
  | some n =>
    obtain ⟨-, t', h, valid, typ, front⟩ := wrote_of_headerLen size
    have whole : t :: rest = t' :: (h.addr.body ++ (h.port ++ (t :: rest).drop n)) := by
      conv_lhs => rw [← List.take_append_drop n (t :: rest), front]
      simp
    obtain ⟨rfl, parts⟩ := List.cons.inj whole
    rw [parts] at holds ⊢
    rcases readHeader_whole valid typ holds verified with closed | ⟨body, buf', read, cut, left, idx⟩
    · exact .inl closed
    · exact .inr ⟨h, auth, body, buf', read, cut, left, idx, has⟩

/-- `ss_check_hash` on the first body. -/
theorem checkHash_ends {E : Encryptor P} {auth : Bool} {body : Bytes} (has : auth = true → ∃ ctx, dCtx = some ctx) (holds : buf.Holds body)
    (small : body.length < 2 ^ 31) :
    (∃ why, checkHash E auth dCtx buf {} = .error (.closed why)) ∨
      ∃ iv out chunk, checkHash E auth dCtx buf {} = .ok (out, chunk) ∧ out.Holds (payloadOf P iv auth body) ∧ out.idx = buf.idx := by
  cases auth with
  | false => exact .inr ⟨[], buf, {}, rfl, holds, rfl⟩
  | true =>
    obtain ⟨ctx, rfl⟩ := has rfl
    obtain ⟨r, call, verdict, next⟩ := ssCheckHash_spec E ctx (ChunkInv.zeroed P (ctx.iv.take E.ivLen)) holds.fits
      (by rw [holds.len]; exact small) (show 2 ≤ bufSize by decide) (show bufSize < 2 ^ 63 by decide) rfl
    rw [holds.bytes] at verdict
    simp only [checkHash, if_true, deref_some, orCrash_ok, ok_bind, call]
    by_cases zero : r.ret = 0
    · exact .inl ⟨.hashError, by rw [if_pos zero]⟩
    · refine .inr ⟨ctx.iv.take E.ivLen, r.buf, r.chunk, by rw [if_neg zero, pure_eq_ok], ⟨(next zero).2.1, ?_⟩, ssCheckHash_idx call⟩
      rw [CheckResult.verdict, if_neg zero, otaVerdict, List.nil_append] at verdict
      split at verdict
      · rw [Verdict.accepted.injEq, released_nil] at verdict
        exact verdict.1
      · cases verdict

/-- Without a context every byte is looked up in the table. -/
theorem decryptBuf_table (E : Encryptor P) (fits : buf.Fits) (tmp : Buffer) (ivCache : Cache Unit) :
    ∃ out, decryptBuf E buf none tmp ivCache = .ok (out, none) ∧ out.Holds (buf.bytes.map E.decTable) ∧ out.idx = buf.idx ∧
      out.array.length = buf.array.length := by
  have room : 0 + buf.len ≤ buf.array.length := by
    rw [Nat.zero_add]
    exact fits
  have size : (buf.bytes.map E.decTable).length = buf.len := by rw [List.length_map, Buffer.length_bytes fits]
  have kept : (splice buf.array 0 (buf.bytes.map E.decTable)).length = buf.array.length := length_splice (by omega)
  have load : buf.read 0 buf.len = .ok buf.bytes := Buffer.read_ok room
  refine ⟨{ buf with array := splice buf.array 0 (buf.bytes.map E.decTable) }, ?_, ⟨?_, ?_⟩, rfl, kept⟩
  · rw [decryptBuf, ssDecrypt, load, ok_bind, Buffer.write_ok (by omega)]
    rfl
  · rw [Buffer.Fits] at fits ⊢
    dsimp only
    omega
  · have self := window_splice_self buf.array (buf.bytes.map E.decTable) 0 (Nat.zero_le _)
    rwa [size] at self

/-- A fresh context drops the IV that comes first, and refuses one that is in the cache. -/
theorem decryptBuf_fresh {E : Encryptor P} (lawful : P.evp.Lawful) (fits : buf.Fits) (long : E.ivLen ≤ buf.len) (small : buf.len ≤ bufSize)
    (tmp : Buffer) (ivCache : Cache Unit) :
    (∃ why, decryptBuf E buf (some (encCtxInit E false [])) tmp ivCache = .error (.closed why)) ∨
      ∃ out ctx, decryptBuf E buf (some (encCtxInit E false [])) tmp ivCache = .ok (out, some ctx) ∧ out.Holds out.bytes ∧
        out.len = buf.len - E.ivLen ∧ out.idx = buf.idx ∧ buf.array.length ≤ out.array.length := by
  have size : bufSize = 2048 := rfl
  by_cases known : (admitIv E (encCtxInit E false []) (window buf.array 0 E.ivLen) ivCache).1 = true
  · have within : buf.len ≤ buf.array.length := fits
    obtain ⟨r, call, ret⟩ := ssDecrypt_replayed tmp rfl ⟨by omega, show bufSize < 2 ^ 63 by decide⟩ (by omega) known
    refine .inl ⟨.invalidCipher, ?_⟩
    rw [decryptBuf, call, orCrash_ok, ok_bind, if_pos (by rw [ret]; decide)]
  · have fresh : (encCtxInit E false []).init = false → E.method.remembersIv = true → window buf.array 0 E.ivLen ∉ ivCache.keys := by
      intro _ remembers mem
      refine known ?_
      rw [admitIv, if_pos (by rw [remembers]; rfl)]
      have hit := cacheKeyExist_iff.mpr mem
      split
      · rfl
      · rename_i looked
        rw [looked] at hit
        cases hit
    have limit : 2 ^ 38 ≤ E.method.streamLimit := by cases E.method <;> decide
    have range : InRange E ((encCtxInit E false []).ready E (window buf.array 0 E.ivLen) false) (buf.len - E.ivLen) bufSize := by
      refine ⟨by omega, by omega, fun _ => ?_⟩
      rw [EncCtx.ready, if_neg (show ¬ (encCtxInit E false []).init = true from Bool.false_ne_true), started_counter]
      omega
    obtain ⟨r, call, post, -⟩ := ssDecrypt_spec buf tmp (encCtxInit E false []) ivCache _ E.ivLen lawful fits rfl long rfl fresh range
    obtain ⟨c, after, -⟩ := post.ctx
    have holds : r.buf.Holds r.buf.bytes := ⟨post.fits, rfl⟩
    refine .inr ⟨r.buf, c, ?_, holds, ?_, post.idx, post.kept⟩
    · rw [decryptBuf, call, orCrash_ok, ok_bind, if_neg (by rw [post.ret]; decide), pure_eq_ok, after]
    · rw [holds.len, post.bytes, List.nil_append, length_cipherStep E lawful, List.length_drop, Buffer.length_bytes fits]

/-- There are bytes behind the IV. -/
theorem decryptBuf_ends {E : Encryptor P} (lawful : P.evp.Lawful) (fits : buf.Fits) (long : E.ivLen < buf.len) (small : buf.len ≤ bufSize)
    (tmp : Buffer) (ivCache : Cache Unit) :
    (∃ why, decryptBuf E buf (newContext E false []) tmp ivCache = .error (.closed why)) ∨
      ∃ out ctx t rest, decryptBuf E buf (newContext E false []) tmp ivCache = .ok (out, ctx) ∧ out.Holds (t :: rest) ∧
        (t :: rest).length ≤ bufSize ∧ out.idx = buf.idx ∧ buf.array.length ≤ out.array.length ∧
        (ctx = none → E.method = .table ∧ t :: rest = buf.bytes.map E.decTable) := by
  rw [newContext]
  split
  · rename_i table
    obtain ⟨out, decrypted, holds, idx, kept⟩ := decryptBuf_table E fits tmp ivCache
    have size := Buffer.length_bytes fits
    cases plain : buf.bytes with
    | nil =>
      rw [plain, List.length_nil] at size
      omega
    | cons x xs =>
      rw [plain, List.map_cons] at holds
      refine .inr ⟨out, none, _, _, decrypted, holds, ?_, idx, Nat.le_of_eq kept.symm, fun _ => ⟨table, rfl⟩⟩
      rw [plain] at size
      rw [List.length_cons, List.length_map, ← List.length_cons (a := x), size]
      exact small
  · rcases decryptBuf_fresh lawful fits (Nat.le_of_lt long) small tmp ivCache with closed | ⟨out, ctx, decrypted, holds, len, idx, kept⟩
    · exact .inl closed
    · have size := holds.len
      generalize out.bytes = plain at holds size
      cases plain with
      | nil =>
        rw [List.length_nil] at size
        omega
      | cons t rest => exact .inr ⟨out, some ctx, t, rest, decrypted, holds, by omega, idx, kept, nofun⟩

end

/-! ## Going on with a destination -/

/-- The bytes in use lie inside the allocation, also from the index on. -/
def Loaded (b : Buffer) : Prop := b.idx + b.len ≤ b.array.length ∧ b.len ≤ bufSize

/-- There is a remote with `χ`. -/
def There (r : Nat) (χ : RemoteT → Prop) (remotes : Pool RemoteT) : Prop := ∃ remote, remotes.cell r = some remote ∧ χ remote

/-- There is a server with `φ`, and the remotes are as `R` tells. -/
def Holding {P : Platform} (w : Nat) (φ : ServerT P → Prop) (R : Pool RemoteT → Prop) (s : State P) : Prop :=
  (∃ server, s.servers.cell w = some server ∧ φ server) ∧ R s.remotes

/-- The server with what it has received, and this remote. -/
def Owning {P : Platform} (remote : Option Nat) (server : ServerT P) : Prop :=
  server.remote = remote ∧ server.query = none ∧ Loaded server.buf

/-- The remote of `w` with what it is to send. -/
def OwnedBy (w : Nat) (remote : RemoteT) : Prop := remote.server = some w ∧ Loaded remote.buf

/-- A remote as `new_remote` makes it. -/
def Blank (server : Option Nat) (remote : RemoteT) : Prop :=
  remote.server = server ∧ remote.buf.idx = 0 ∧ remote.buf.len = 0 ∧ remote.buf.array.length = bufSize

/-- Nothing is known of the remotes. -/
def Anything (_ : Pool RemoteT) : Prop := True

section
variable {P : Platform} {C : Config P} {bad : Fault} {w r : Nat} {φ φ' : ServerT P → Prop} {χ χ' : RemoteT → Prop} {R : Pool RemoteT → Prop}

theorem getServer_holding :
    Triple bad (Holding w φ R) (getServer w) fun server s => Holding w (fun known => known = server) R s ∧ φ server := by
  intro s holding
  obtain ⟨⟨server, here, known⟩, others⟩ := holding
  rw [getServer_run here]
  refine ⟨nofun, fun a s' done => ?_⟩
  cases done
  exact ⟨⟨⟨server, here, rfl⟩, others⟩, known⟩

theorem setServer_holding {f : ServerT P → ServerT P} (fine : ∀ server, φ server → φ' (f server)) :
    Triple bad (Holding w φ R) (setServer w f) fun _ => Holding w φ' R := by
  intro s holding
  obtain ⟨⟨server, here, known⟩, others⟩ := holding
  rw [setServer_run here]
  refine ⟨nofun, fun a s' done => ?_⟩
  cases done
  refine ⟨⟨f server, ?_, fine server known⟩, others⟩
  dsimp only
  rw [Pool.cell_modify_self, here]
  rfl

theorem getRemote_holding : Triple bad (Holding w φ (There r χ)) (getRemote r) fun remote s => Holding w φ (There r χ) s ∧ χ remote := by
  intro s holding
  obtain ⟨remote, there, known⟩ := holding.2
  rw [getRemote_run there]
  refine ⟨nofun, fun a s' done => ?_⟩
  cases done
  exact ⟨holding, known⟩

theorem setRemote_holding {f : RemoteT → RemoteT} (fine : ∀ remote, χ remote → χ' (f remote)) :
    Triple bad (Holding w φ (There r χ)) (setRemote r f) fun _ => Holding w φ (There r χ') := by
  intro s holding
  obtain ⟨here, remote, there, known⟩ := holding
  rw [setRemote_run there]
  refine ⟨nofun, fun a s' done => ?_⟩
  cases done
  refine ⟨here, f remote, ?_, fine remote known⟩
  dsimp only
  rw [Pool.cell_modify_self, there]
  rfl

/-- Changes after which nothing needs to be known. -/
theorem setServer_any (f : ServerT P → ServerT P) :
    Triple bad (Holding w φ R) (setServer w f) fun _ => Holding w (fun _ => True) R := setServer_holding fun _ _ => trivial

theorem setRemote_any (f : RemoteT → RemoteT) :
    Triple bad (Holding w φ (There r χ)) (setRemote r f) fun _ => Holding w φ (There r fun _ => True) :=
  setRemote_holding fun _ _ => trivial

theorem setRemote_last (f : RemoteT → RemoteT) : Triple bad (Holding w φ (There r χ)) (setRemote r f) fun _ _ => True :=
  (setRemote_any f).consequence (fun _ here => here) fun _ _ _ => trivial

theorem data_holding {α : Type} {x : Except Fault α} {a : α} {pre : State P → Prop} (done : x = .ok a) :
    Triple bad pre (liftM x : Callback P α) fun b s => pre s ∧ b = a := by
  subst done
  have fine : (.ok a : Except Fault α) ≠ .error bad := nofun
  exact (Triple.lift fine).consequence (fun _ here => here) fun _ _ both => ⟨both.1, (Except.ok.inj both.2).symm⟩

theorem closeAndFreeServer_holding : Triple bad (Holding w (Owning none) R) (closeAndFreeServer C w) fun _ _ => True := by
  intro s holding
  obtain ⟨⟨server, here, own, quiet, -⟩, -⟩ := holding
  rw [closeAndFreeServer_run here (fun q asks => by rw [quiet] at asks; cases asks) fun r' has => by rw [own] at has; cases has]
  exact ⟨nofun, fun _ _ _ => trivial⟩

theorem closeBoth_holding : Triple bad (Holding w (Owning (some r)) (There r (OwnedBy w))) (closeBoth C (some r) w) fun _ _ => True := by
  refine Triple.bind (?_ : Triple bad _ _ fun _ => Holding w (Owning none) Anything) fun _ => closeAndFreeServer_holding
  intro s holding
  obtain ⟨⟨server, here, -, quiet, loaded⟩, remote, there, owner, -⟩ := holding
  rw [closeAndFreeRemote_run there fun w' points => by
    rw [owner] at points
    cases points
    exact ⟨server, here⟩]
  refine ⟨nofun, fun a s' done => ?_⟩
  cases done
  refine ⟨⟨{ server with remote := none }, ?_, rfl, quiet, loaded⟩, trivial⟩
  simp only [State.dropRemote, owner]
  rw [Pool.cell_modify_self, here]
  rfl

theorem sendPending_holding (send : SendResult) :
    Triple bad (Holding w (Owning (some r)) (There r (OwnedBy w))) (sendPending C r w send) fun _ _ => True := by
  refine Triple.bind getRemote_holding fun remote => Triple.of_fact (fun _ both => both.2) fun known => ?_
  refine Triple.consequence ?_ (fun _ both => both.1) fun _ _ done => done
  split
  · exact closeBoth_holding
  · refine Triple.bind (data_holding (Buffer.read_ok known.2.1)) fun _ => Triple.consequence ?_ (fun _ both => both.1) fun _ _ done => done
    cases send.on remote.buf.len with
    | error => exact closeBoth_holding
    | again => exact Triple.ret fun _ _ => trivial
    | count n =>
      dsimp only
      split
      · exact setRemote_last _
      · refine Triple.bind (setRemote_any _) fun _ => Triple.bind (setServer_any _) fun _ => ?_
        refine Triple.bind getServer_holding fun server => Triple.consequence ?_ (fun _ both => both.1) fun _ _ done => done
        refine Triple.when (fun _ => ?_) fun _ _ _ => trivial
        exact Triple.bind (setServer_any _) fun _ => setRemote_last _

theorem remoteSendCb_holding (peer : Bool) (send : SendResult) :
    Triple bad (Holding w (Owning (some r)) (There r (OwnedBy w))) (remoteSendCb C r peer send) fun _ _ => True := by
  refine Triple.bind getRemote_holding fun remote => Triple.of_fact (fun _ both => both.2) fun known => ?_
  rw [known.1]
  refine Triple.consequence ?_ (fun _ both => both.1) fun _ _ done => done
  dsimp only
  split
  · exact sendPending_holding send
  · split
    · refine Triple.bind (?_ : Triple bad _ _ fun _ => Holding w (Owning (some r)) (There r (OwnedBy w))) fun _ => ?_
      · exact setRemote_holding fun _ known => known
      split
      · refine Triple.bind (setServer_any _) fun _ => Triple.bind (setRemote_any _) fun _ => ?_
        exact Triple.bind (setServer_any _) fun _ => setRemote_last _
      · exact sendPending_holding send
    · exact closeBoth_holding

theorem newRemote_holding : Triple bad (Holding w φ Anything) (newRemote C) fun r => Holding w φ (There r (Blank none)) := by
  intro s holding
  rw [newRemote, bind_run (countRemotes_run 1), bind_run (get_run _), bind_run (modify_run _ _)]
  refine ⟨nofun, fun a s' done => ?_⟩
  cases done
  exact ⟨holding.1, _, Pool.cell_new_self, rfl, rfl, rfl, length_balloc _ _⟩

theorem SendtoResult.count_le {result : SendtoResult} {len n : Nat} (count : result.count len = some n) : n ≤ len := by
  cases result <;> cases count
  · exact Nat.le_refl _
  · omega

theorem get_holding {pre : State P → Prop} : Triple bad pre (get : Callback P (State P)) fun _ => pre :=
  Triple.get.consequence (fun _ here => here) fun _ _ both => both.1

theorem fastOpenSend_holding (d : Dial) :
    Triple bad (Holding (P := P) w (Owning none) R) (fastOpenSend w d) fun _ => Holding w (Owning none) R := by
  refine Triple.bind get_holding fun s => Triple.when (fun _ => ?_) fun _ _ here => here
  refine Triple.bind getServer_holding fun server => Triple.of_fact (fun _ both => both.2) fun known => ?_
  obtain ⟨own, quiet, loaded, small⟩ := known
  refine Triple.bind (data_holding (Buffer.read_ok loaded)) fun _ => Triple.consequence ?_ (fun _ both => both.1.1) fun _ _ done => done
  cases count : d.sendto.count server.buf.len with
  | some n =>
    have le := SendtoResult.count_le count
    refine setServer_holding fun server' same => ?_
    subst same
    refine ⟨own, quiet, ?_, ?_⟩
    · dsimp only
      omega
    · dsimp only
      omega
  | none =>
    have same : ∀ s, Holding w (fun known => known = server) R s → Holding w (Owning none) R s := by
      rintro s ⟨⟨_, here, rfl⟩, others⟩
      exact ⟨⟨_, here, own, quiet, loaded, small⟩, others⟩
    refine Triple.when (fun _ => Triple.modify fun s holding => ?_) fun _ => same
    exact same s holding

theorem connectToRemote_holding (d : Dial) :
    Triple bad (Holding (P := P) w (Owning none) Anything) (connectToRemote C w d) fun connected => match connected with
      | none => Holding w (Owning none) Anything
      | some (r, _) => Holding w (Owning none) (There r (Blank none)) := by
  rw [connectToRemote]
  split
  · exact Triple.ret fun _ here => here
  · refine Triple.bind newRemote_holding fun r => Triple.bind (fastOpenSend_holding d) fun _ => Triple.bind get_holding fun s => ?_
    split
    · exact Triple.ret fun _ here => here
    · cases d.connect with
      | failed => exact Triple.ret fun _ here => ⟨here.1, trivial⟩
      | inProgress => exact Triple.ret fun _ here => here
      | immediate peer send => exact Triple.ret fun _ here => here

/-- The payload fits into the buffer of the remote. -/
theorem attachRemote_holding : Triple bad (Holding (P := P) w (Owning none) (There r (Blank none))) (attachRemote w r fun _ => 0) fun _ =>
    Holding w (Owning (some r)) (There r (OwnedBy w)) := by
  have linked : Triple bad (Holding (P := P) w (Owning none) (There r (Blank none))) (link w r) fun _ =>
      Holding w (Owning (some r)) (There r (Blank (some w))) := by
    refine Triple.bind (setServer_holding fun _ known => ?_) fun _ => setRemote_holding fun _ known => ?_
    · exact ⟨rfl, known.2⟩
    · exact ⟨rfl, known.2⟩
  refine Triple.bind linked fun _ => Triple.bind getServer_holding fun server => Triple.of_fact (fun _ both => both.2) fun known => ?_
  obtain ⟨own, quiet, loaded, small⟩ := known
  refine Triple.consequence ?_ (fun _ both => both.1) fun _ _ done => done
  refine Triple.when (fun _ => ?_) fun _ s holding => ?_
  · have read : server.buf.read 0 server.buf.len = .ok (window server.buf.array 0 server.buf.len) := Buffer.read_ok (by omega)
    have size : (window server.buf.array 0 server.buf.len).length = server.buf.len := length_window (by omega)
    refine Triple.bind (data_holding read) fun data => Triple.of_fact (fun _ both => both.2) fun same => ?_
    refine Triple.consequence ?_ (fun _ both => both.1) fun _ _ done => done
    refine Triple.bind getRemote_holding fun remote => Triple.of_fact (fun _ both => both.2) fun blank => ?_
    obtain ⟨-, -, -, room⟩ := blank
    have fits : 0 + data.length ≤ remote.buf.array.length := by
      rw [same]
      omega
    refine Triple.bind (data_holding (Buffer.write_ok fits)) fun buf => Triple.of_fact (fun _ both => both.2) fun written => ?_
    refine Triple.consequence ?_ (fun _ both => both.1.1) fun _ _ done => done
    refine Triple.bind (setRemote_holding fun remote' known => (?_ : OwnedBy w _)) fun _ => setServer_holding fun server' same => ?_
    · refine ⟨known.1, ?_, small⟩
      rw [written]
      dsimp only
      rw [length_splice fits]
      omega
    · subst same
      refine ⟨own, quiet, Nat.zero_le _, Nat.zero_le _⟩
  · obtain ⟨⟨_, here, rfl⟩, remote, there, owner, index, len, room⟩ := holding
    exact ⟨⟨_, here, own, quiet, loaded, small⟩, remote, there, owner, by omega, by omega⟩

/-- Stage 0 goes on without a fault. -/
theorem handleRequest_holding (dst : Destination) (d : Dial) (query : Bool) :
    Triple bad (Holding (P := P) w (Owning none) Anything) (handleRequest C w dst d query) fun _ _ => True := by
  cases dst with
  | query host port =>
    refine Triple.bind (setServer_any _) fun _ => Triple.bind (?_ : Triple bad _ _ fun _ => Holding w (fun _ => True) Anything) fun _ =>
      (setServer_any _).consequence (fun _ here => here) fun _ _ _ => trivial
    rw [resolvQuery]
    split
    · refine Triple.bind get_holding fun s => Triple.bind (?_ : Triple bad _ _ fun _ => Holding w (fun _ => True) Anything) fun _ =>
        setServer_any _
      exact Triple.modify fun s holding => holding
    · exact Triple.ret fun _ here => here
  | sockaddr ip port =>
    refine Triple.bind (connectToRemote_holding d) fun connected => ?_
    cases connected with
    | none => exact closeAndFreeServer_holding
    | some found =>
      obtain ⟨r, inline⟩ := found
      refine Triple.bind attachRemote_holding fun _ => Triple.bind (?_ : Triple bad _ _ fun _ =>
        Holding w (Owning (some r)) (There r (OwnedBy w))) fun _ => ?_
      · exact setServer_holding fun _ known => known
      · cases inline with
        | some results => exact remoteSendCb_holding _ _
        | none => exact Triple.bind (setServer_any _) fun _ => setRemote_last _

end

/-! ## The whole of stage 0 -/

section
variable {P : Platform} {C : Config P} {w : Nat} {s : State P} {server : ServerT P} {segment : Segment} {buf : Buffer}

/-- The server was closed, once, and there is no remote that was not there before. -/
structure Rejected (w : Nat) (s s' : State P) : Prop where
  gone : s'.servers.cell w = none
  once : s'.servers.freed = s.servers.freed ++ [w]
  remotes : s'.remotes = s.remotes

/-- The callback goes on with a destination and a payload that are parts of `plain`. -/
def GoesOn (C : Config P) (w : Nat) (s : State P) (d : Dial) (query : Bool) (plain : Bytes) (run : Except Fault (Unit × State P)) : Prop :=
  ∃ h auth body iv buf dCtx chunk, CutAs plain h auth body ∧ buf.Holds (payloadOf P iv auth body) ∧
    run = handleRequest C w (destination C.text h) d query
      { s with servers := s.servers.modify w fun server => { server with buf, dCtx, auth, chunk } }

/-- How stage 0 may end: there are no more bytes than an IV, the server is closed, or there is
a destination. -/
inductive Handled (C : Config P) (w : Nat) (s : State P) (server : ServerT P) (segment : Segment) (e : RecvEvent) (d : Dial)
    (query : Bool) : Prop where
  | waits (buf : Buffer) (received : recvInto server.buf server.buf.len segment = .ok buf) (short : buf.len ≤ C.E.ivLen)
      (run : serverRecvCb C w e d query s = .ok ((), { s with servers := s.servers.modify w fun server => { server with buf } }))
  | closes (s' : State P) (run : serverRecvCb C w e d query s = .ok ((), s')) (rejected : Rejected w s s')
  | accepts (buf clear : Buffer) (dCtx : Option (EncCtx P)) (plain : Bytes) (s' : State P)
      (received : recvInto server.buf server.buf.len segment = .ok buf)
      (decrypted : decryptBuf C.E buf server.dCtx e.tmp e.ivCache = .ok (clear, dCtx)) (holds : clear.Holds plain)
      (goesOn : GoesOn C w s d query plain (serverRecvCb C w e d query s)) (run : serverRecvCb C w e d query s = .ok ((), s'))

/-- What has arrived is behind what was there. -/
theorem ServerT.Waiting.received (waits : server.Waiting C) (segment : Segment) :
    ∃ buf, recvInto server.buf server.buf.len segment = .ok buf ∧
      buf.Holds (server.buf.bytes ++ segment.bytes.take (bufSize - server.buf.len)) ∧ buf.array.length = bufSize ∧ buf.len ≤ bufSize := by
  have ivLen := C.E.ivLen_le
  have short := waits.short
  have room := waits.room
  have size : bufSize = 2048 := rfl
  have fits : server.buf.Fits := by
    rw [Buffer.Fits]
    omega
  have holds : server.buf.Holds server.buf.bytes := ⟨fits, rfl⟩
  have len := holds.len
  have fresh : server.buf.len + (segment.bytes.take (bufSize - server.buf.len)).length ≤ server.buf.array.length := by
    rw [List.length_take]
    omega
  obtain ⟨buf, appended, after, kept⟩ := holds.append (segment.bytes.take (bufSize - server.buf.len)) (by omega)
  refine ⟨buf, ?_, after, kept.trans room, ?_⟩
  · rw [Buffer.append, Buffer.write_ok fresh] at appended
    rw [recvInto, Buffer.write_ok fresh]
    exact appended
  · rw [after.len, List.length_append, List.length_take]
    omega

/-- With `table` nothing was there before. -/
theorem ServerT.Waiting.table (waits : server.Waiting C) (table : C.E.method = .table) :
    server.buf.bytes ++ segment.bytes.take (bufSize - server.buf.len) = segment.bytes := by
  have ivLen : C.E.ivLen = 0 := by rw [Encryptor.ivLen, table]; rfl
  have empty : server.buf.len = 0 := Nat.eq_zero_of_le_zero (ivLen ▸ waits.short)
  rw [Buffer.bytes, empty, window_nil, List.nil_append, Nat.sub_zero, List.take_of_length_le segment.le]

/-- Closing in stage 0. -/
theorem closeAndFreeServer_rejects (here : s.servers.cell w = some server) (waits : server.Waiting C) :
    ∃ s', closeAndFreeServer C w s = .ok ((), s') ∧ Rejected w s s' := by
  refine ⟨_, closeAndFreeServer_run here (fun q asks => ?_) (fun r has => ?_), Pool.cell_free_self, rfl, ?_⟩
  · rw [waits.query] at asks
    cases asks
  · rw [waits.remote] at has
    cases has
  · simp only [State.dropServer, waits.remote]

/-- With more bytes than an IV, the callback decrypts and reads. -/
theorem recvHeader_long (received : recvInto server.buf server.buf.len segment = .ok buf) (long : ¬ buf.len ≤ C.E.ivLen)
    (e : RecvEvent) (d : Dial) (query : Bool) (s : State P) :
    recvHeader C w server segment e d query s =
      orClose (decryptBuf C.E buf server.dCtx e.tmp e.ivCache) (closeAndFreeServer C w) (fun (buf, dCtx) =>
        orClose (readRequest C server buf dCtx) (closeAndFreeServer C w) fun (dst, buf, auth, chunk) => do
          setServer w fun server => { server with buf, dCtx, auth, chunk }
          handleRequest C w dst d query) s := by
  rw [recvHeader, bind_run (lift_run received s), if_neg long]

/-- Without a context the callback follows a null pointer. -/
theorem recvHeader_crashes (waits : server.Waiting C) (e : RecvEvent) (d : Dial) (query : Bool)
    (table : C.E.method = .table) (asks : Authenticates C.auth (segment.bytes.map C.E.decTable)) :
    recvHeader C w server segment e d query s = .error .nullPointer := by
  have ivLen : C.E.ivLen = 0 := by rw [Encryptor.ivLen, table]; rfl
  obtain ⟨buf, received, holds, room, small⟩ := waits.received segment
  rw [waits.table table] at holds
  have pos := segment.pos
  have len := holds.len
  have noCtx : newContext C.E false [] = none := if_pos table
  rw [recvHeader_long received (by omega), waits.dCtx]
  obtain ⟨out, decrypted, plain, -, kept⟩ := decryptBuf_table C.E holds.fits e.tmp e.ivCache
  rw [noCtx, decrypted]
  rw [holds.bytes] at plain
  cases clear : segment.bytes.map C.E.decTable with
  | nil =>
    rw [clear] at asks
    cases asks
  | cons t rest =>
    rw [clear] at asks plain
    have crashed := verifyHeader_crashes (C := C.toConfig) plain (by rw [kept, room]; decide) asks
    have first : out.byte 0 = .ok t := plain.byte [] t rest
    have read : readRequest C server out none = .error (.crashed .nullPointer) := by
      simp only [readRequest, readHeader, first, orCrash_ok, ok_bind, crashed, error_bind]
    change orClose (readRequest C server out none) _ _ s = _
    rw [read]
    rfl

/-- The rest of the callback runs to its end. -/
theorem handleRequest_runs (here : s.servers.cell w = some server) (waits : server.Waiting C) (loaded : Loaded buf)
    (dCtx : Option (EncCtx P)) (auth : Bool) (chunk : Chunk) (dst : Destination) (d : Dial) (query : Bool) :
    ∃ s', handleRequest C w dst d query { s with servers := s.servers.modify w fun server => { server with buf, dCtx, auth, chunk } } =
      .ok ((), s') := by
  have holding : Holding w (Owning none) Anything
      { s with servers := s.servers.modify w fun server => { server with buf, dCtx, auth, chunk } } := by
    refine ⟨⟨{ server with buf, dCtx, auth, chunk }, ?_, waits.remote, waits.query, loaded⟩, trivial⟩
    dsimp only
    rw [Pool.cell_modify_self, here]
    rfl
  cases run : handleRequest C w dst d query { s with servers := s.servers.modify w fun server => { server with buf, dCtx, auth, chunk } } with
  | error f => exact absurd run (handleRequest_holding dst d query _ holding).1
  | ok r => exact ⟨r.2, rfl⟩

/-- In every run, the first bytes of a client are handled safely, unless the method is `table` and
the bytes are a header with a tag. A tag is computed with `e_ctx`, which is null for `table`; with
a context of its own it can be computed. -/
theorem first_segment_iff (C : Config P) (lawful : P.evp.Lawful) {s : State P}
    (reach : (machine C).Reach (fun _ _ => True) (start C) s) {w : Nat} {server : ServerT P}
    (here : s.servers.cell w = some server) (zero : server.stage = 0) (e : RecvEvent) {segment : Segment}
    (arrived : e.recv = .data segment) (d : Dial) (query : Bool) :
    Handled C w s server segment e d query ↔ ¬ (C.E.method = .table ∧ Authenticates C.auth (segment.bytes.map C.E.decTable)) := by
  have waits : server.Waiting C := (between_of_reach reach).waiting w server here nofun zero
  have callback : serverRecvCb C w e d query s = recvHeader C w server segment e d query s := by
    rw [serverRecvCb, bind_run (getServer_run here), if_pos zero, arrived]
  constructor
  · rintro handled ⟨table, asks⟩
    have crashed := callback.trans (recvHeader_crashes waits e d query table asks)
    cases handled with
    | waits buf received short run => cases crashed.symm.trans run
    | closes s' run rejected => cases crashed.symm.trans run
    | accepts buf clear dCtx plain s' received decrypted holds goesOn run => cases crashed.symm.trans run
  · intro safe
    obtain ⟨buf, received, holds, room, small⟩ := waits.received segment
    obtain ⟨closed, close, rejected⟩ := closeAndFreeServer_rejects (C := C) here waits
    by_cases long : buf.len ≤ C.E.ivLen
    · refine .waits buf received long (callback.trans ?_)
      rw [recvHeader, bind_run (lift_run received s), if_pos long]
      exact setServer_run here _
    rw [recvHeader_long received long, waits.dCtx] at callback
    rcases decryptBuf_ends (E := C.E) lawful holds.fits (by omega) small e.tmp e.ivCache with
      ⟨why, refused⟩ | ⟨clear, dCtx, t, rest, decrypted, plain, within, idx, kept, table⟩
    · rw [refused] at callback
      exact .closes closed (callback.trans close) rejected
    rw [decrypted] at callback
    change _ = orClose (readRequest C server clear dCtx) _ _ s at callback
    have fine : dCtx = none → ¬ Authenticates C.auth (t :: rest) := by
      rintro none_ asks
      obtain ⟨method, clear⟩ := table none_
      rw [clear, holds.bytes, waits.table method] at asks
      exact safe ⟨method, asks⟩
    rcases readHeader_ends (C := C.toConfig) plain (by rw [room] at kept; exact Nat.le_trans (by decide) kept) fine with
      ⟨why, refused⟩ | ⟨h, auth, body, left, read, cut, behind, idx', has⟩
    · have stopped : readRequest C server clear dCtx = .error (.closed why) := by rw [readRequest, refused, error_bind]
      rw [stopped] at callback
      exact .closes closed (callback.trans close) rejected
    have small' := Nat.le_trans cut.length_body within
    rcases checkHash_ends (E := C.E) has behind (Nat.lt_of_le_of_lt small' (by decide)) with ⟨why, refused⟩ | ⟨iv, out, chunk, checked, payload, same⟩
    · have stopped : readRequest C server clear dCtx = .error (.closed why) := by
        simp only [readRequest, read, ok_bind, waits.chunk, refused, error_bind]
      rw [stopped] at callback
      exact .closes closed (callback.trans close) rejected
    have request : readRequest C server clear dCtx = .ok (destination C.text h, out, auth, chunk) := by
      simp only [readRequest, read, ok_bind, waits.chunk, checked, pure_eq_ok]
    rw [request] at callback
    change _ = (setServer w _ >>= fun _ => handleRequest C w _ d query) s at callback
    rw [bind_run (setServer_run here _)] at callback
    have index : out.idx = 0 := same.trans (idx'.trans (idx.trans ((recvInto_cases received).2.1.trans waits.index)))
    have loaded : Loaded out := by
      have len := payload.len
      have shorter := length_payloadOf (P := P) iv auth body
      have inside := payload.fits
      rw [Buffer.Fits] at inside
      exact ⟨by omega, by omega⟩
    obtain ⟨s', run⟩ := handleRequest_runs (C := C) here waits loaded dCtx auth chunk (destination C.text h) d query
    exact .accepts buf clear dCtx _ s' received (waits.dCtx ▸ decrypted) plain
      ⟨h, auth, body, iv, out, dCtx, chunk, cut, payload, callback⟩ (callback.trans run)

/-- ss-server with `table` and without `auth`. -/
def plainConfig : Config rc4Platform where
  E := unsortedTable
  text := { ntop4 := id, ntop6 := id, corkIpInit := fun _ => none, pton4 := fun _ => none, pton6 := fun _ => none }
  auth := false
  verbose := false
  fastOpen := false

/-- A client has been accepted. -/
theorem plainConfig_accepted : ∃ s server, (machine plainConfig).Reach (fun _ _ => True) (start plainConfig) s ∧
    s.servers.cell 0 = some server ∧ server.stage = 0 := by
  have checked : (machine plainConfig).leadsTo (start plainConfig) [.accept true []]
      (fun s => (s.servers.cell 0).any fun server => decide (server.stage = 0)) = true := by decide
  obtain ⟨s, ran, last⟩ := Machine.exists_of_leadsTo checked
  obtain ⟨server, here, zero⟩ := (Option.any_eq_true _ _).mp last
  exact ⟨s, server, .of_run .refl (fun _ _ _ => trivial) ran, here, of_decide_eq_true zero⟩

/-- The header `askForTen` with `ONETIMEAUTH_FLAG` and ten bytes for the tag. -/
def askWithTag : Segment where
  bytes := [0x11, 10, 0, 0, 1, 0, 80, 0, 0, 0, 0, 0, 0, 0, 0, 0, 0]

theorem first_segment_ten : ∃ s server, s.servers.cell 0 = some server ∧
    Handled plainConfig 0 s server askForTen { recv := .data askForTen } {} true := by
  obtain ⟨s, server, reach, here, zero⟩ := plainConfig_accepted
  exact ⟨s, server, here, (first_segment_iff plainConfig rc4_lawful reach here zero { recv := .data askForTen } rfl {} true).mpr
    (by decide)⟩

/-- A client that sets the flag makes ss-server follow a null pointer. -/
theorem flag_crashes : ∃ s server, (machine plainConfig).Reach (fun _ _ => True) (start plainConfig) s ∧ s.servers.cell 0 = some server ∧
    server.stage = 0 ∧ serverRecvCb plainConfig 0 { recv := .data askWithTag } {} true s = .error .nullPointer := by
  obtain ⟨s, server, reach, here, zero⟩ := plainConfig_accepted
  have waits := (between_of_reach reach).waiting 0 server here nofun zero
  refine ⟨s, server, reach, here, zero, ?_⟩
  rw [serverRecvCb, bind_run (getServer_run here), if_pos zero]
  exact recvHeader_crashes waits _ _ _ rfl (by decide)

end

end Shadowsocks.Server.Process
