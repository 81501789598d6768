import Shadowsocks.Relay.Session

/-!
# Receiving an encrypted stream

The downstream half of ss-local and ss-tunnel by itself: segments of the server's stream
arrive and are decrypted, and the client takes the plain text as it likes. Unlike the
server's stage 0, `remote_recv_cb` does not wait for a whole IV. So the stream comes
through exactly if its first segment is at least that long.
-/

namespace Shadowsocks
set_option autoImplicit false
open Lib

/-- The downstream pipe of a client and its decryption context. -/
structure Reception (P : Platform) where
  down : Pipe
  dCtx : Option (EncCtx P)

/-- Data from the server with all that `remote_recv_cb` learns while handling it, or the
client side becoming writable. -/
inductive DownEvent where
  | recv (segment : Segment) (tmp : Buffer) (ivCache : Cache Unit) (send : SendResult)
  | send (send : SendResult)

namespace DownEvent

/-- The bytes that arrive. -/
def arrival : DownEvent → Option Bytes
  | recv segment .. => some segment.bytes
  | send _ => none

/-- The result of the `send` of the event. -/
def result : DownEvent → SendResult
  | recv _ _ _ r => r
  | send r => r

/-- The cache does not hold the IV when the data arrives. -/
def IvFresh (iv : Bytes) : DownEvent → Prop
  | recv _ _ ivCache _ => iv ∉ ivCache.keys
  | send _ => True

end DownEvent

/-- The segments that arrive, in order. -/
def arrivals (es : List DownEvent) : List Bytes := es.filterMap DownEvent.arrival

namespace Reception
variable {P : Platform} (E : Encryptor P)

def enabled (r : Reception P) : DownEvent → Bool
  | .recv .. => r.down.filling
  | .send _ => r.down.draining

def fire (r : Reception P) : DownEvent → Except Stop (Reception P)
  | .recv segment tmp ivCache send => do
    let (down, dCtx) ← relayDecrypted E r.down r.dCtx segment { recv := .data segment, tmp, ivCache, send }
    pure { down, dCtx }
  | .send send => do
    let down ← r.down.drain send
    pure { r with down }

def machine : Machine (Reception P) DownEvent Stop where
  enabled := enabled
  fire := fire E

/-- Nothing has been received yet. -/
structure Ready (r : Reception P) : Prop where
  ctx : r.dCtx = some (encCtxInit E false [])
  produced : r.down.produced = []
  accepted : r.down.accepted = []
  idle : r.down.draining = false
  room : bufSize ≤ r.down.buf.array.length
  alloc : r.down.buf.array.length < 2 ^ 63

/-- The first `k` bytes of the plain text have been produced. -/
structure At (iv plain : Bytes) (k : Nat) (r : Reception P) : Prop where
  ctx : DecAt E iv plain k r.dCtx
  produced : r.down.produced = plain.take k
  ok : r.down.Ok
  sound : r.down.Sound

variable {E} {iv plain : Bytes} {r : Reception P}

/-- A first segment shorter than the IV: the length of the plain text wraps around, and
whatever is done with it ends the connection or the process. -/
theorem decryptBuf_short (buf tmp : Buffer) (ivCache : Cache Unit) (short : buf.len < E.ivLen)
    (alloc : buf.array.length < 2 ^ 63) :
    ∃ t, decryptBuf E buf (some (encCtxInit E false [])) tmp ivCache = .error t := by
  have ivShort := E.ivLen_le
  have wraps : 2 ^ 63 ≤ sizeSub buf.len E.ivLen := by
    rw [sizeSub, if_neg (by omega)]
    omega
  cases result : decryptBuf E buf (some (encCtxInit E false [])) tmp ivCache with
  | error t => exact ⟨t, rfl⟩
  | ok x =>
    exfalso
    obtain ⟨res, call, closed⟩ := bind_eq_ok.mp result
    rw [orCrash_eq_ok] at call
    -- the call itself returns only if the IV is known, and then with an error
    have bad : res.ret ≠ 0 := by
      obtain ⟨tmp', -, call⟩ := bind_eq_ok.mp call
      dsimp only at call
      obtain ⟨ivBytes, -, call⟩ := bind_eq_ok.mp call
      have fresh : (encCtxInit E false []).init = false := rfl
      simp only [fresh, Bool.false_eq_true, if_false] at call
      split at call
      · cases call
        exact (by decide : (-1 : Int) ≠ 0)
      · split at call
        · obtain ⟨xored, padded, -⟩ := bind_eq_ok.mp call
          obtain ⟨dst, -, padded⟩ := bind_eq_ok.mp padded
          obtain ⟨src, front, padded⟩ := bind_eq_ok.mp padded
          obtain ⟨m, read, -⟩ := bind_eq_ok.mp padded
          cases front
          rw [Buffer.read, load] at read
          split at read
          · rename_i inside
            omega
          · cases read
        · obtain ⟨updated, update, -⟩ := bind_eq_ok.mp call
          obtain ⟨input, read, -⟩ := bind_eq_ok.mp update
          rw [Buffer.read, load] at read
          split at read
          · rename_i inside
            omega
          · cases read
    rw [if_pos bad] at closed
    cases closed

theorem fire_short (segment : Segment) (tmp : Buffer) (ivCache : Cache Unit) (send : SendResult) (ready : Ready E r)
    (short : segment.bytes.length < E.ivLen) : ∃ t, fire E r (.recv segment tmp ivCache send) = .error t := by
  obtain ⟨buf, received, holds, -, size⟩ := Pipe.receive_spec segment ready.room
  obtain ⟨t, failed⟩ := decryptBuf_short buf tmp ivCache
    (by rw [holds.len]; exact short) (by rw [size]; exact ready.alloc)
  refine ⟨t, ?_⟩
  simp only [fire, relayDecrypted, received, ok_bind, ready.ctx, failed, error_bind]

/-- A segment that was decrypted to the next bytes of the plain text is handed on. -/
theorem relay_next {out : Buffer} {k n : Nat} {send : SendResult} (produced : r.down.produced = plain.take k)
    (same : r.down.accepted = r.down.produced) (idle : r.down.draining = false) (holds : out.Holds (window plain k n))
    (room : bufSize ≤ out.array.length) (works : send ≠ .failed) :
    ∃ down, ({ r.down with buf := out } : Pipe).produce.push send = .ok down ∧ down.produced = plain.take (k + n) ∧
      down.Ok ∧ down.Sound := by
  obtain ⟨down, pushed, made, sound⟩ :=
    Pipe.push_works (p := ({ r.down with buf := out } : Pipe).produce) holds.fits room idle works
  refine ⟨down, pushed, ?_, Pipe.push_ok (Pipe.Fresh.produce same out) idle pushed, sound⟩
  rw [made, take_add_window]
  dsimp only [Pipe.produce]
  rw [produced, holds.bytes]

/-- The first segment, if the IV is in it. -/
theorem fire_first (lawful : P.evp.Lawful) (ivLen : iv.length = E.ivLen) (limit : InLimit E plain.length) {n : Nat}
    {segment : Segment} (tmp : Buffer) {ivCache : Cache Unit} {send : SendResult} (ready : Ready E r)
    (bytes : segment.bytes = iv ++ window (cipherBody E iv plain) 0 n) (small : n < 2 ^ 61)
    (fresh : iv ∉ ivCache.keys) (works : send ≠ .failed) :
    ∃ r', fire E r (.recv segment tmp ivCache send) = .ok r' ∧ At E iv plain n r' := by
  obtain ⟨buf, received, holds, -, -⟩ := Pipe.receive_spec segment ready.room
  rw [bytes] at holds
  obtain ⟨out, ctx, decrypted, outHolds, at_, -, -, room⟩ :=
    decryptBuf_first lawful ivLen tmp holds (fun _ => fresh) small limit
  obtain ⟨down, pushed, made, ok, sound⟩ := relay_next (k := 0) (r := r) (by rw [ready.produced]; rfl)
    (by rw [ready.accepted, ready.produced]) ready.idle outHolds room works
  rw [Nat.zero_add] at made
  refine ⟨⟨down, ctx⟩, ?_, at_, made, ok, sound⟩
  simp only [fire, relayDecrypted, received, ok_bind, ready.ctx, decrypted, pushed, pure_eq_ok]

/-- Any later event. -/
theorem fire_next (lawful : P.evp.Lawful) (limit : InLimit E plain.length) {k : Nat} {e : DownEvent}
    (at_ : At E iv plain k r) (on : enabled r e = true) (works : e.result ≠ .failed)
    (arrived : ∀ bytes, e.arrival = some bytes → bytes = window (cipherBody E iv plain) k bytes.length) :
    ∃ r', fire E r e = .ok r' ∧ At E iv plain (k + (e.arrival.getD []).length) r' := by
  cases e with
  | recv segment tmp ivCache send =>
    have filling : r.down.filling = true := on
    have sends : send ≠ .failed := works
    have bytes := arrived segment.bytes rfl
    have le := segment.le
    obtain ⟨buf, received, holds, -, -⟩ := Pipe.receive_spec segment at_.sound.room
    rw [bytes] at holds
    obtain ⟨out, ctx, decrypted, outHolds, next, -, -, room⟩ := decryptBuf_next lawful tmp ivCache at_.ctx holds
      (by rw [bufSize] at le; omega) limit
    obtain ⟨down, pushed, made, ok, sound⟩ := relay_next at_.produced (at_.ok.delivered filling)
      (at_.ok.not_draining filling) outHolds room sends
    refine ⟨⟨down, ctx⟩, ?_, next, made, ok, sound⟩
    simp only [fire, relayDecrypted, received, ok_bind, decrypted, pushed, pure_eq_ok]
  | send send =>
    have draining : r.down.draining = true := on
    have sends : send ≠ .failed := works
    obtain ⟨down, drained, made, sound⟩ := Pipe.drain_works at_.sound draining sends
    refine ⟨⟨down, r.dCtx⟩, ?_, at_.ctx, ?_, Pipe.drain_ok at_.ok draining drained, sound⟩
    · simp only [fire, drained, ok_bind, pure_eq_ok]
    · rw [made]
      exact at_.produced

/-- From the first segment on, the rest of the stream comes through. -/
theorem run_next (lawful : P.evp.Lawful) (limit : InLimit E plain.length) {es : List DownEvent} {k : Nat}
    (at_ : At E iv plain k r) (works : ∀ e ∈ es, e.result ≠ .failed) (runs : (machine E).run r es ≠ none)
    (cut : (arrivals es).flatten = (cipherBody E iv plain).drop k) :
    ∃ r', (machine E).run r es = some (.ok r') ∧ At E iv plain plain.length r' := by
  induction es generalizing r k with
  | nil =>
    have size := length_cipherBody (E := E) lawful iv plain
    have beyond : plain.length ≤ k := by
      have len := congrArg List.length cut
      rw [List.length_drop, size] at len
      simp only [arrivals, List.filterMap_nil, List.flatten_nil, List.length_nil] at len
      omega
    refine ⟨r, rfl, ?_, ?_, at_.ok, at_.sound⟩
    · obtain ⟨c, eq, init, civ, pos⟩ := at_.ctx
      refine ⟨c, eq, init, civ, ?_⟩
      rw [pos, List.take_of_length_le (by omega), List.take_of_length_le (by omega)]
    · rw [at_.produced, List.take_of_length_le beyond, List.take_length]
  | cons e es ih =>
    simp only [Machine.run] at runs ⊢
    by_cases on : (machine E).enabled r e = true
    · rw [if_pos on] at runs ⊢
      -- the segment, if there is one, is the next part of the stream
      have here : ∀ bytes, e.arrival = some bytes →
          bytes = window (cipherBody E iv plain) k bytes.length := by
        intro bytes arrived
        rw [arrivals, List.filterMap_cons_some arrived, List.flatten_cons] at cut
        rw [window, ← cut, List.take_left' rfl]
      have later : (arrivals es).flatten = (cipherBody E iv plain).drop (k + (e.arrival.getD []).length) := by
        cases arrived : e.arrival with
        | none =>
          rw [arrivals, List.filterMap_cons_none arrived] at cut
          exact cut
        | some bytes =>
          rw [arrivals, List.filterMap_cons_some arrived, List.flatten_cons] at cut
          rw [Option.getD_some, ← List.drop_drop, ← cut, List.drop_left' rfl]
          rfl
      obtain ⟨r', fired, next⟩ := fire_next lawful limit at_ on (works e List.mem_cons_self) here
      have step : (machine E).fire r e = .ok r' := fired
      rw [step] at runs ⊢
      exact ih next (fun e he => works e (List.mem_cons_of_mem _ he)) runs later
    · rw [if_neg on] at runs
      exact absurd rfl runs

/-- Of all the ways to cut the stream, those come through whose first segment holds the whole IV,
and no others. A first segment without the whole IV is fatal. If it has the IV, the others may be
cut anywhere. -/
theorem run_iff (lawful : P.evp.Lawful) (ivLen : iv.length = E.ivLen) (limit : InLimit E plain.length)
    {es : List DownEvent} (ready : Ready E r) (works : ∀ e ∈ es, e.result ≠ .failed)
    (runs : (machine E).run r es ≠ none) (cut : (arrivals es).flatten = ciphertext E iv plain)
    (fresh : ∀ e ∈ es.head?, e.IvFresh iv) :
    (∃ r', (machine E).run r es = some (.ok r') ∧ r'.down.produced = plain ∧ r'.down.Intact) ↔
      ∀ first, (arrivals es).head? = some first → E.ivLen ≤ first.length := by
  cases es with
  | nil =>
    have nothing : iv ++ cipherBody E iv plain = [] := cut.symm
    have empty : plain = [] := by
      have size := length_cipherBody (E := E) lawful iv plain
      rw [List.append_eq_nil_iff] at nothing
      rw [nothing.2] at size
      exact List.eq_nil_of_length_eq_zero size.symm
    have ok : r.down.Ok := Pipe.Ok.idle (by rw [ready.produced, ready.accepted]) ready.idle
    constructor
    · intro _ first no
      cases no
    · intro _
      exact ⟨r, rfl, by rw [ready.produced, empty], ok.intact⟩
  | cons e es =>
    simp only [Machine.run] at runs ⊢
    by_cases on : (machine E).enabled r e = true
    · rw [if_pos on] at runs ⊢
      cases e with
      | send send =>
        have draining : r.down.draining = true := on
        rw [ready.idle] at draining
        cases draining
      | recv segment tmp ivCache send =>
        have first : (arrivals (.recv segment tmp ivCache send :: es)).head? = some segment.bytes := rfl
        have le := segment.le
        rw [bufSize] at le
        by_cases short : segment.bytes.length < E.ivLen
        · obtain ⟨t, failed⟩ := fire_short segment tmp ivCache send ready short
          have step : (machine E).fire r (.recv segment tmp ivCache send) = .error t := failed
          rw [step]
          constructor
          · rintro ⟨r', no, -⟩
            cases no
          · intro long
            have := long _ first
            omega
        · have whole : segment.bytes ++ (arrivals es).flatten = iv ++ cipherBody E iv plain := cut
          obtain ⟨front, behind⟩ := split_behind (by omega) whole
          obtain ⟨r', fired, at_⟩ := fire_first lawful ivLen limit tmp ready front (by omega)
            (fresh _ rfl) (works _ List.mem_cons_self)
          have step : (machine E).fire r (.recv segment tmp ivCache send) = .ok r' := fired
          rw [step] at runs ⊢
          obtain ⟨last, ran, done⟩ := run_next lawful limit at_
            (fun e he => works e (List.mem_cons_of_mem _ he)) runs behind
          refine ⟨fun _ bytes eq => ?_, fun _ => ⟨last, ran, ?_, done.ok.intact⟩⟩
          · rw [first] at eq
            cases eq
            omega
          · rw [done.produced, List.take_length]
    · rw [if_neg on] at runs
      exact absurd rfl runs

end Reception

end Shadowsocks
