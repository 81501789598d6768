import Shadowsocks.Lib.Machine
import Shadowsocks.Encrypt.Buffer

/-!
# Sockets, watchers and one direction of a relay

What `recv`, `send`, `connect` and the rest return is chosen by the environment; a
callback either leaves the connection open or stops it (`Stop`). One direction of a
relay is a `Pipe`: the buffer between two sockets, the read watcher of the source and
the write watcher of the sink. All three programs use a pipe in two ways. `push` hands
a fresh buffer to the sink from its start; `drain` is the body of the write callbacks.

`produced` and `accepted` are ghosts: everything ever put into the buffer for the sink,
and everything the sink has taken.
-/

namespace Shadowsocks
set_option autoImplicit false
open Lib

/-- `BUF_SIZE` of `local.c`, `tunnel.c` and `server.c`. -/
def bufSize : Nat := 2048

/-- The data of one successful `recv`. -/
structure Segment where
  bytes : Bytes
  pos : 0 < bytes.length := by decide
  le : bytes.length ≤ bufSize := by decide

inductive Recv where
  | data (segment : Segment)
  | eof
  | wouldBlock
  | failed

/-- The result of a `send`; `short n` takes `n` bytes, or all but one if there are not
more. -/
inductive SendResult where
  | full
  | short (n : Nat)
  | wouldBlock
  | failed
  deriving DecidableEq, Repr

/-- What a `send` of `len` bytes returns. -/
inductive Sent where
  | count (n : Nat)
  | again
  | error

/-- Sending no bytes returns 0 even if the socket is full. -/
def SendResult.on (r : SendResult) (len : Nat) : Sent :=
  match r with
  | .full => .count len
  | .short n => .count (min n (len - 1))
  | .wouldBlock => if len = 0 then .count 0 else .again
  | .failed => .error

/-- Why a connection was closed. -/
inductive Closing where
  | eof
  | recvFailed
  | sendFailed
  | nothingToSend
  | invalidCipher
  | hashError
  | protectFailed
  | connectFailed
  | notConnected
  | invalidRemoteAddr
  | unsupportedCmd
  | unsupportedAddrType
  | fakeReplyFailed
  | udpAssociate
  | addrNotSent
  | shortAuthHeader
  | authenticationError
  | invalidHeader
  | shortHeader
  | unresolved
  | invalidServer
  | timeout
  deriving DecidableEq, Repr

/-- The end of a connection: closed by the program, or the process is gone. -/
inductive Stop where
  | closed (why : Closing)
  | crashed (fault : Fault)
  deriving DecidableEq, Repr

/-- A computation on memory inside a callback. -/
def orCrash {α : Type} : Except Fault α → Except Stop α
  | .ok a => .ok a
  | .error f => .error (.crashed f)

@[simp] theorem orCrash_ok {α : Type} (a : α) : orCrash (.ok a) = .ok a := rfl

@[simp] theorem orCrash_error {α : Type} (f : Fault) : orCrash (.error f : Except Fault α) = .error (.crashed f) := rfl

theorem orCrash_eq_ok {α : Type} {x : Except Fault α} {a : α} : orCrash x = .ok a ↔ x = .ok a := by
  cases x <;> simp

theorem orCrash_avoids {α : Type} {x : Except Fault α} {f : Fault} (h : Avoids f x) : Avoids (.crashed f) (orCrash x) := by
  cases x with
  | ok a => exact avoids_ok a
  | error e =>
    intro same
    cases same
    exact h rfl

/-- No computation on memory closes the connection. -/
theorem orCrash_open {α : Type} (x : Except Fault α) (why : Closing) : Avoids (.closed why) (orCrash x) := by
  cases x with
  | ok a => exact avoids_ok a
  | error e => exact fun no => (by cases no)

/-- `connect`, with the results of the `getpeername` and `send` that follow at once when
it succeeds immediately. -/
inductive ConnectResult where
  | immediate (peer : Bool) (send : SendResult)
  | inProgress
  | failed
  deriving DecidableEq, Repr

/-- The data that is sent as soon as `connect` succeeds is taken whole. -/
def ConnectResult.whole : ConnectResult → Bool
  | .immediate _ (.short _) => false
  | .immediate _ .wouldBlock => false
  | _ => true

structure Pipe where
  buf : Buffer := {}
  filling : Bool := false
  draining : Bool := false
  produced : Bytes := []
  accepted : Bytes := []
  deriving DecidableEq, Repr

namespace Pipe

/-- `recv(fd, buf->array + len, BUF_SIZE - len, 0)` and the new length. -/
def receive (p : Pipe) (len : Nat) (segment : Segment) : Except Stop Pipe := do
  let bytes := segment.bytes.take (bufSize - len)
  let buf ← orCrash (p.buf.write len bytes)
  pure { p with buf := { buf with len := len + bytes.length } }

/-- The contents of the buffer are final: what `send` will be given. -/
def produce (p : Pipe) : Pipe := { p with produced := p.produced ++ p.buf.bytes }

/-- `ev_io_stop` of the source and `ev_io_start` of the sink. -/
def await (p : Pipe) : Pipe := { p with filling := false, draining := true }

/-- `ev_io_stop` of the sink and `ev_io_start` of the source. -/
def resume (p : Pipe) : Pipe := { p with filling := true, draining := false }

/-- `send(fd, buf->array, buf->len, 0)` of a fresh buffer. -/
def push (p : Pipe) (r : SendResult) : Except Stop Pipe := do
  let data ← orCrash (p.buf.read 0 p.buf.len)
  match r.on p.buf.len with
  | .again => pure { p with buf := { p.buf with idx := 0 } }.await
  | .error => .error (.closed .sendFailed)
  | .count s =>
    let p := { p with accepted := p.accepted ++ data.take s }
    if s < p.buf.len then pure { p with buf := { p.buf with len := p.buf.len - s, idx := s } }.await
    else pure p

/-- The body of the write callbacks: `send(fd, buf->array + buf->idx, buf->len, 0)`. -/
def drain (p : Pipe) (r : SendResult) : Except Stop Pipe :=
  if p.buf.len = 0 then .error (.closed .nothingToSend)
  else do
    let data ← orCrash (p.buf.read p.buf.idx p.buf.len)
    match r.on p.buf.len with
    | .again => pure p
    | .error => .error (.closed .sendFailed)
    | .count s =>
      let p := { p with accepted := p.accepted ++ data.take s }
      if s < p.buf.len then pure { p with buf := { p.buf with len := p.buf.len - s, idx := p.buf.idx + s } }
      else pure { p with buf := { p.buf with len := 0, idx := 0 } }.resume

/-! ## Nothing is lost -/

/-- The sink has accepted a prefix of what was produced for it. If something is
missing, it is what the buffer holds, the sink is waited for and the source is not
read. -/
def Intact (p : Pipe) : Prop :=
  p.accepted <+: p.produced ∧ (p.accepted.length < p.produced.length →
    p.produced = p.accepted ++ p.buf.pending ∧ p.draining = true ∧ p.filling = false)

instance (p : Pipe) : Decidable p.Intact := inferInstanceAs (Decidable (_ ∧ (_ → _)))

/-- The state of a pipe between callbacks. -/
def Ok (p : Pipe) : Prop := Lossless p.produced p.accepted p.buf.pending p.draining p.filling

/-- A fresh buffer that the sink has not been offered yet. -/
def Fresh (p : Pipe) : Prop := p.produced = p.accepted ++ p.buf.bytes

variable {p p' : Pipe}

theorem Ok.intact (h : p.Ok) : p.Intact := h.prefix_and_suffix

theorem Ok.not_draining (h : p.Ok) (on : p.filling = true) : p.draining = false := by
  unfold Ok Lossless at h
  cases draining : p.draining with
  | false => rfl
  | true => simp [draining, on] at h

theorem Ok.delivered (h : p.Ok) (on : p.filling = true) : p.accepted = p.produced := by
  unfold Ok at h
  rw [on] at h
  exact h.delivered

theorem Ok.idle (same : p.produced = p.accepted) (off : p.draining = false) : p.Ok := by
  rw [Ok, same, off]
  exact Lossless.idle

/-- While nothing is pending the buffer may be used for something else. -/
theorem Ok.reuse (h : p.Ok) (off : p.draining = false) (buf : Buffer) (filling : Bool) :
    ({ p with buf, filling } : Pipe).Ok := by
  unfold Ok Lossless at h
  rw [off] at h
  exact Ok.idle h off

/-- A buffer made for a sink that has taken everything before is fresh. -/
theorem Fresh.produce (same : p.accepted = p.produced) (buf : Buffer) : ({ p with buf } : Pipe).produce.Fresh := by
  rw [Fresh, Pipe.produce, same]

theorem on_count {r : SendResult} {len s : Nat} (h : r.on len = .count s) : s ≤ len := by
  cases r with
  | full => cases h; exact Nat.le_refl _
  | short n =>
    cases h
    omega
  | wouldBlock =>
    simp only [SendResult.on] at h
    split at h
    · cases h; exact Nat.zero_le _
    · cases h
  | failed => cases h

/-- What is pending after the sink took the first `s` bytes of the buffer. -/
theorem pending_take {b : Buffer} {s : Nat} (off : Nat) :
    ({ b with len := b.len - s, idx := off + s } : Buffer).pending = (window b.array off b.len).drop s := by
  rw [Buffer.pending, drop_window]

/-- The three outcomes of `push` that leave the connection open. -/
theorem push_cases {r : SendResult} (h : p.push r = .ok p') :
    (r.on p.buf.len = .again ∧ p' = { p with buf := { p.buf with idx := 0 } }.await) ∨
    (∃ s, r.on p.buf.len = .count s ∧ s < p.buf.len ∧ p' = { p with
      accepted := p.accepted ++ p.buf.bytes.take s, buf := { p.buf with len := p.buf.len - s, idx := s } }.await) ∨
    (r.on p.buf.len = .count p.buf.len ∧ p' = { p with accepted := p.accepted ++ p.buf.bytes.take p.buf.len }) := by
  unfold push at h
  obtain ⟨data, read, h⟩ := bind_eq_ok.mp h
  rw [orCrash_eq_ok, Buffer.read, load] at read
  split at read
  · cases read
    cases sent : r.on p.buf.len with
    | again => rw [sent] at h; cases h; exact .inl ⟨rfl, rfl⟩
    | error => rw [sent] at h; cases h
    | count s =>
      rw [sent] at h
      simp only [pure_eq_ok] at h
      split at h
      · rename_i part
        cases h
        exact .inr (.inl ⟨s, rfl, part, rfl⟩)
      · rename_i all
        have : s = p.buf.len := Nat.le_antisymm (on_count sent) (Nat.not_lt.mp all)
        cases h
        subst this
        exact .inr (.inr ⟨rfl, rfl⟩)
  · cases read

/-- The three outcomes of `drain` that leave the connection open. -/
theorem drain_cases {r : SendResult} (h : p.drain r = .ok p') : p.buf.len ≠ 0 ∧ (
    (r.on p.buf.len = .again ∧ p' = p) ∨
    (∃ s, r.on p.buf.len = .count s ∧ s < p.buf.len ∧ p' = { p with
      accepted := p.accepted ++ p.buf.pending.take s,
      buf := { p.buf with len := p.buf.len - s, idx := p.buf.idx + s } }) ∨
    (r.on p.buf.len = .count p.buf.len ∧ p' = { p with
      accepted := p.accepted ++ p.buf.pending.take p.buf.len, buf := { p.buf with len := 0, idx := 0 } }.resume)) := by
  unfold drain at h
  split at h
  · cases h
  · rename_i some_
    refine ⟨some_, ?_⟩
    obtain ⟨data, read, h⟩ := bind_eq_ok.mp h
    rw [orCrash_eq_ok, Buffer.read, load] at read
    split at read
    · cases read
      cases sent : r.on p.buf.len with
      | again => rw [sent] at h; cases h; exact .inl ⟨rfl, rfl⟩
      | error => rw [sent] at h; cases h
      | count s =>
        rw [sent] at h
        simp only [pure_eq_ok] at h
        split at h
        · rename_i part
          cases h
          exact .inr (.inl ⟨s, rfl, part, rfl⟩)
        · rename_i all
          have : s = p.buf.len := Nat.le_antisymm (on_count sent) (Nat.not_lt.mp all)
          cases h
          subst this
          exact .inr (.inr ⟨rfl, rfl⟩)
    · cases read

/-- What was accepted stays accepted, whatever `send` returns. -/
theorem push_grows {r : SendResult} (h : p.push r = .ok p') : p'.produced = p.produced ∧ p.accepted <+: p'.accepted := by
  obtain ⟨-, rfl⟩ | ⟨s, -, -, rfl⟩ | ⟨-, rfl⟩ := push_cases h
  · exact ⟨rfl, List.prefix_rfl⟩
  · exact ⟨rfl, List.prefix_append _ _⟩
  · exact ⟨rfl, List.prefix_append _ _⟩

theorem drain_grows {r : SendResult} (h : p.drain r = .ok p') : p'.produced = p.produced ∧ p.accepted <+: p'.accepted := by
  obtain ⟨-, ⟨-, rfl⟩ | ⟨s, -, -, rfl⟩ | ⟨-, rfl⟩⟩ := drain_cases h
  · exact ⟨rfl, List.prefix_rfl⟩
  · exact ⟨rfl, List.prefix_append _ _⟩
  · exact ⟨rfl, List.prefix_append _ _⟩

/-- Offering a fresh buffer leaves the pipe in order: all taken, or the rest is pending. -/
theorem push_ok {r : SendResult} (fresh : p.Fresh) (off : p.draining = false) (h : p.push r = .ok p') : p'.Ok := by
  obtain ⟨-, rfl⟩ | ⟨s, -, -, rfl⟩ | ⟨-, rfl⟩ := push_cases h
  · exact ⟨fresh, rfl⟩
  · have split : p.produced = p.accepted ++ p.buf.bytes := fresh
    have pending := pending_take (b := p.buf) (s := s) 0
    rw [Nat.zero_add] at pending
    refine ⟨?_, rfl⟩
    simp only [await]
    rw [pending, List.append_assoc, split]
    exact congrArg (p.accepted ++ ·) (List.take_append_drop s p.buf.bytes).symm
  · apply Ok.idle
    · have split : p.produced = p.accepted ++ p.buf.bytes := fresh
      dsimp only
      rw [split, Buffer.bytes, take_window]
    · exact off

/-- A write callback that runs because its watcher is active leaves the pipe in order. -/
theorem drain_ok {r : SendResult} (ok : p.Ok) (on : p.draining = true) (h : p.drain r = .ok p') : p'.Ok := by
  have split := ok
  unfold Ok at split
  rw [on] at split
  obtain ⟨-, ⟨-, rfl⟩ | ⟨s, -, -, rfl⟩ | ⟨-, rfl⟩⟩ := drain_cases h
  · exact ok
  · have pending := pending_take (b := p.buf) (s := s) p.buf.idx
    have := split.drain s
    rw [Ok]
    dsimp only
    rw [on, pending]
    exact this
  · apply Ok.idle
    · dsimp only [resume]
      rw [split.1, Buffer.pending, take_window]
    · rfl

/-- A `send` that follows an immediate `connect` and is not cut leaves nothing. -/
theorem drain_whole {peer : Bool} {r : SendResult} (whole : (ConnectResult.immediate peer r).whole = true)
    (h : p.drain r = .ok p') :
    p' = { p with accepted := p.accepted ++ p.buf.pending, buf := { p.buf with len := 0, idx := 0 } }.resume := by
  obtain ⟨some_, ⟨again, -⟩ | ⟨s, sent, part, -⟩ | ⟨-, rfl⟩⟩ := drain_cases h
  · -- `EAGAIN` and a partial send are the two results the condition excludes
    cases r with
    | wouldBlock => cases whole
    | short n => cases again
    | full => cases again
    | failed => cases again
  · cases r with
    | short n => cases whole
    | wouldBlock => cases whole
    | full => cases sent; exact absurd part (Nat.lt_irrefl _)
    | failed => cases sent
  · rw [Buffer.pending, take_window]

/-- A write callback that finds the buffer empty may go back to reading. -/
theorem resume_ok (ok : p.Ok) (on : p.draining = true) (empty : p.buf.len = 0) : p.resume.Ok := by
  unfold Ok at ok
  rw [on] at ok
  apply Ok.idle
  · dsimp only [resume]
    rw [ok.1, Buffer.pending, empty, window, List.take_zero, List.append_nil]
  · rfl

/-! ## No callback fails on a sound pipe -/

/-- `BUF_SIZE` bytes fit the buffer, and what is pending is inside the allocation and not
empty. -/
structure Sound (p : Pipe) : Prop where
  room : bufSize ≤ p.buf.array.length
  pending : p.draining = true → 0 < p.buf.len ∧ p.buf.idx + p.buf.len ≤ p.buf.array.length

/-- A segment is put over the start of the allocation. -/
theorem receive_eq (segment : Segment) (room : bufSize ≤ p.buf.array.length) : p.receive 0 segment =
    .ok { p with buf := { p.buf with array := splice p.buf.array 0 segment.bytes, len := segment.bytes.length } } := by
  have le := segment.le
  have all : segment.bytes.take (bufSize - 0) = segment.bytes := List.take_of_length_le le
  simp only [receive, all, Buffer.write_ok (show 0 + segment.bytes.length ≤ p.buf.array.length by omega), orCrash_ok,
    ok_bind, pure_eq_ok, Nat.zero_add]

theorem receive_spec (segment : Segment) (room : bufSize ≤ p.buf.array.length) :
    ∃ buf, p.receive 0 segment = .ok { p with buf } ∧ buf.Holds segment.bytes ∧ buf.idx = p.buf.idx ∧
      buf.array.length = p.buf.array.length := by
  have le := segment.le
  have size : (splice p.buf.array 0 segment.bytes).length = p.buf.array.length := length_splice (by omega)
  refine ⟨_, receive_eq segment room, ⟨?_, window_splice_self _ _ _ (Nat.zero_le _)⟩, rfl, size⟩
  dsimp only [Buffer.Fits]
  omega

/-- The same behind what the buffer holds already. -/
theorem receive_append {seen : Bytes} (segment : Segment) (holds : p.buf.Holds seen)
    (fits : seen.length + segment.bytes.length ≤ bufSize) (room : bufSize ≤ p.buf.array.length) :
    ∃ buf, p.receive p.buf.len segment = .ok { p with buf } ∧ buf.Holds (seen ++ segment.bytes) ∧
      buf.idx = p.buf.idx ∧ buf.array.length = p.buf.array.length := by
  have len := holds.len
  have all : segment.bytes.take (bufSize - p.buf.len) = segment.bytes := List.take_of_length_le (by omega)
  obtain ⟨buf, appended, holds', size⟩ := holds.append segment.bytes (by omega)
  obtain ⟨written, wrote, appended⟩ := bind_eq_ok.mp appended
  cases appended
  have same : written.len = p.buf.len := by
    obtain ⟨array, -, wrote⟩ := bind_eq_ok.mp wrote
    cases wrote
    rfl
  have idx := Buffer.write_idx wrote
  refine ⟨_, ?_, holds', idx, size⟩
  simp only [receive, all, wrote, orCrash_ok, ok_bind, pure_eq_ok, same]

/-- Whatever is received lies inside the allocation. -/
theorem receive_cases {segment : Segment} (h : p.receive 0 segment = .ok p') :
    ∃ buf, p' = { p with buf } ∧ buf.idx = p.buf.idx ∧ buf.Fits := by
  obtain ⟨written, wrote, h⟩ := bind_eq_ok.mp h
  rw [orCrash_eq_ok] at wrote
  have idx := Buffer.write_idx wrote
  have room := Buffer.write_room wrote
  cases h
  exact ⟨_, rfl, idx, room⟩

theorem on_works {r : SendResult} (works : r ≠ .failed) (len : Nat) :
    (r.on len = .again ∧ 0 < len) ∨ ∃ s, r.on len = .count s ∧ s ≤ len := by
  cases r with
  | full => exact .inr ⟨len, rfl, Nat.le_refl _⟩
  | short n => exact .inr ⟨min n (len - 1), rfl, by omega⟩
  | wouldBlock =>
    by_cases empty : len = 0
    · exact .inr ⟨0, if_pos empty, Nat.zero_le _⟩
    · exact .inl ⟨if_neg empty, by omega⟩
  | failed => exact absurd rfl works

/-- The sink takes all of a fresh buffer. -/
theorem push_full {piece : Bytes} (holds : p.buf.Holds piece) :
    p.push .full = .ok { p with accepted := p.accepted ++ piece } := by
  have all : piece.take p.buf.len = piece := by rw [holds.len, List.take_length]
  simp only [push, holds.readAll, orCrash_ok, ok_bind, SendResult.on, all, Nat.lt_irrefl, if_false, pure_eq_ok]

/-- The sink takes all of what is pending from the start of the buffer on. -/
theorem drain_full {piece : Bytes} (holds : p.buf.Holds piece) (start : p.buf.idx = 0) (pending : p.buf.len ≠ 0) :
    p.drain .full =
      .ok { p with accepted := p.accepted ++ piece, buf := { p.buf with len := 0, idx := 0 } }.resume := by
  have all : piece.take p.buf.len = piece := by rw [holds.len, List.take_length]
  simp only [drain, if_neg pending, start, holds.readAll, orCrash_ok, ok_bind, SendResult.on, all, Nat.lt_irrefl, if_false,
    pure_eq_ok]

/-- A fresh buffer is offered without failure. -/
theorem push_works {r : SendResult} (fits : p.buf.Fits) (room : bufSize ≤ p.buf.array.length)
    (off : p.draining = false) (works : r ≠ .failed) :
    ∃ p', p.push r = .ok p' ∧ p'.produced = p.produced ∧ p'.Sound := by
  have read : p.buf.read 0 p.buf.len = .ok p.buf.bytes := Buffer.read_ok (by rw [Nat.zero_add]; exact fits)
  have within : p.buf.len ≤ p.buf.array.length := fits
  unfold push
  rw [read, orCrash_ok, ok_bind]
  obtain ⟨again, pos⟩ | ⟨s, count, le⟩ := on_works works p.buf.len
  · rw [again]
    refine ⟨_, rfl, rfl, room, fun _ => ⟨pos, ?_⟩⟩
    simp only [await]
    omega
  · rw [count]
    dsimp only
    split
    · rename_i part
      refine ⟨_, rfl, rfl, room, fun _ => ⟨?_, ?_⟩⟩
      · simp only [await]
        omega
      · simp only [await]
        omega
    · refine ⟨_, rfl, rfl, room, fun on => ?_⟩
      dsimp only at on
      rw [off] at on
      cases on

/-- A write callback that runs because its watcher is active does not fail. -/
theorem drain_works {r : SendResult} (sound : p.Sound) (on : p.draining = true) (works : r ≠ .failed) :
    ∃ p', p.drain r = .ok p' ∧ p'.produced = p.produced ∧ p'.Sound := by
  obtain ⟨pos, within⟩ := sound.pending on
  unfold drain
  rw [if_neg (by omega), Buffer.read_ok within, orCrash_ok, ok_bind]
  obtain ⟨again, -⟩ | ⟨s, count, le⟩ := on_works works p.buf.len
  · rw [again]
    exact ⟨p, rfl, rfl, sound⟩
  · rw [count]
    dsimp only
    split
    · rename_i part
      refine ⟨_, rfl, rfl, sound.room, fun _ => ⟨?_, ?_⟩⟩
      · dsimp only
        omega
      · dsimp only
        omega
    · refine ⟨_, rfl, rfl, sound.room, fun no => ?_⟩
      cases no

end Pipe

end Shadowsocks
