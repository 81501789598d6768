import Shadowsocks.Lib.Machine
import Shadowsocks.Lib.Memory

/-!
# The packets of a session before its socket

`flow/PacketBuffer.c` and `structure/ChunkBuffer2.h`: packets in a ring of blocks. A packet lies in
one piece, behind a block with its length; where what is left at the end is too short for a packet,
the ring ends earlier. The buffer is a queue, whatever the order in which packets come and go.

`Layout` has the two shapes of the ring, straight and wrapped, `Filled` says that the packets
lie there, and `Ring` that the input and output of the ring are up to date. Each operation goes
from one shape to one of the two.
-/

namespace Shadowsocks.Tun2socks
set_option autoImplicit false
open Lib

/-- An `int` in memory. -/
def intBytes (n : Nat) : Bytes := [UInt8.ofNat n, UInt8.ofNat (n / 2 ^ 8), UInt8.ofNat (n / 2 ^ 16), UInt8.ofNat (n / 2 ^ 24)]

def intAt : Bytes → Nat
  | a :: b :: c :: d :: _ => a.toNat + b.toNat * 2 ^ 8 + c.toNat * 2 ^ 16 + d.toNat * 2 ^ 24
  | _ => 0

/-- `bdivide_up` by `sizeof(struct ChunkBuffer2_block)`, which is 4. -/
def bdivideUp (a : Nat) : Nat := if 0 < a % 4 then a / 4 + 1 else a / 4

/-- `ChunkBuffer2`. Destinations are offsets into `buffer`; `input_dest` and `input_avail` are none for
NULL and -1, and `output_dest` and `output_avail` too. -/
structure ChunkBuffer2 where
  buffer : Bytes
  size : Nat
  wrap : Nat
  start : Nat
  used : Nat
  mtu : Nat
  input : Option (Nat × Nat) := none
  output : Option (Nat × Nat) := none

/-- `ChunkBuffer2_calc_blocks`. -/
def calcBlocks (chunkLen num : Nat) : Option Nat :=
  let chunkDataBlocks := bdivideUp chunkLen
  if 2 ^ 31 - 1 - 1 < chunkDataBlocks then none else
  let chunkBlocks := 1 + chunkDataBlocks
  if 2 ^ 31 - 1 - 1 < num then none else
  let numChunks := num + 1
  if (2 ^ 31 - 1) / numChunks < chunkBlocks then none else
  some (chunkBlocks * numChunks)

namespace ChunkBuffer2

/-- `_ChunkBuffer2_end`. -/
def end_ (c : ChunkBuffer2) : Nat :=
  if c.wrap - c.start ≤ c.used then c.used - (c.wrap - c.start) else c.start + c.used

/-- `_ChunkBuffer2_update_input`. -/
def updateInput (c : ChunkBuffer2) : ChunkBuffer2 :=
  if c.size < c.end_ + 1 + c.mtu then { c with input := none } else
  let free := if c.wrap - c.start ≤ c.used then c.start - c.end_ else c.size - c.end_
  { c with input := if 0 < free then some (4 * (c.end_ + 1), (free - 1) * 4) else none }

/-- `_ChunkBuffer2_update_output`. -/
def updateOutput (c : ChunkBuffer2) : Except Fault ChunkBuffer2 :=
  if 0 < c.used then do
    let len ← load c.buffer (4 * c.start) 4
    pure { c with output := some (4 * (c.start + 1), intAt len) }
  else pure { c with output := none }

/-- `ChunkBuffer2_Init`. -/
def init (buffer : Bytes) (blocks mtu : Nat) : ChunkBuffer2 :=
  updateInput { buffer, size := blocks, wrap := blocks, start := 0, used := 0, mtu := bdivideUp mtu }

/-- `ChunkBuffer2_SubmitPacket`. -/
def submitPacket (c : ChunkBuffer2) (len : Nat) : Except Fault ChunkBuffer2 := do
  let blocklen := bdivideUp len
  let buffer ← store c.buffer (4 * c.end_) (intBytes len)
  let used := c.used + (1 + blocklen)
  let wrap := if used ≤ c.wrap - c.start ∧ c.size < c.end_ + 1 + blocklen + 1 + c.mtu then c.end_ + 1 + blocklen else c.wrap
  let c := updateInput { c with buffer, used, wrap }
  if used = 1 + blocklen then c.updateOutput else pure c

/-- `ChunkBuffer2_ConsumePacket`. -/
def consumePacket (c : ChunkBuffer2) : Except Fault ChunkBuffer2 := do
  let len ← load c.buffer (4 * c.start) 4
  let blocklen := bdivideUp (intAt len)
  let start := c.start + (1 + blocklen)
  let used := c.used - (1 + blocklen)
  let next := if start = c.wrap then { c with start := 0, wrap := c.size, used } else { c with start, used }
  (if c.wrap - c.start ≤ c.used then next.updateInput else next).updateOutput

end ChunkBuffer2

/-- `PacketBuffer`: where a packet is being received, and what is being sent. The last two fields are
ghosts: the packets that were received and those that were sent. -/
structure PacketBuffer where
  buf : ChunkBuffer2
  inputMtu : Nat
  receiving : Option Nat
  sending : Option (Nat × Nat) := none
  received : List Bytes := []
  sent : List Bytes := []

/-- What the two interfaces may do. -/
inductive PacketEvent where
  | write (off : Nat) (bs : Bytes)
  | inputDone (len : Nat)
  | outputDone

namespace PacketBuffer

/-- Where the next packet may go, if there is space for one. -/
def space (buf : ChunkBuffer2) (inputMtu : Nat) : Option Nat := (buf.input.filter fun input => inputMtu ≤ input.2).map Prod.fst

/-- `PacketBuffer_Init`, with the memory it has allocated. -/
def init (buffer : Bytes) (blocks inputMtu : Nat) : PacketBuffer where
  buf := .init buffer blocks inputMtu
  inputMtu
  receiving := (ChunkBuffer2.init buffer blocks inputMtu).input.map Prod.fst

/-- The interface stores a part of the packet. -/
def write (b : PacketBuffer) (off : Nat) (bs : Bytes) : Except Fault PacketBuffer := do
  let dest ← deref b.receiving
  let buffer ← store b.buf.buffer (dest + off) bs
  pure { b with buf := { b.buf with buffer } }

/-- `input_handler_done`. -/
def inputHandlerDone (b : PacketBuffer) (len : Nat) : Except Fault PacketBuffer := do
  let dest ← deref b.receiving
  let packet ← load b.buf.buffer dest len
  let buf ← b.buf.submitPacket len
  pure { b with
    buf
    receiving := space buf b.inputMtu
    sending := if b.buf.output.isNone then buf.output else b.sending
    received := b.received ++ [packet] }

/-- `output_handler_done`. -/
def outputHandlerDone (b : PacketBuffer) : Except Fault PacketBuffer := do
  let packet ← deref b.sending
  let packet ← load b.buf.buffer packet.1 packet.2
  let buf ← b.buf.consumePacket
  pure { b with
    buf
    receiving := if (space b.buf b.inputMtu).isNone then space buf b.inputMtu else b.receiving
    sending := buf.output
    sent := b.sent ++ [packet] }

end PacketBuffer

/-- Parts of a packet are stored, a packet has been received, or one has been sent. -/
def packetBufferMachine : Machine PacketBuffer PacketEvent Fault where
  enabled b e :=
    match e with
    | .write off bs => b.receiving.isSome && decide (off + bs.length ≤ b.inputMtu)
    | .inputDone len => b.receiving.isSome && decide (len ≤ b.inputMtu)
    | .outputDone => b.sending.isSome
  fire b e :=
    match e with
    | .write off bs => b.write off bs
    | .inputDone len => b.inputHandlerDone len
    | .outputDone => b.outputHandlerDone

/-! ## Packets in memory -/

/-- The blocks of a packet, with the one for its length. -/
def chunk (p : Bytes) : Nat := 1 + bdivideUp p.length

/-- How much of the ring the packets take. -/
def chunks (ps : List Bytes) : Nat := (ps.map chunk).sum

/-- The packets stand one behind the other, from a block on. -/
def Stored (mem : Bytes) : Nat → List Bytes → Prop
  | _, [] => True
  | off, p :: ps => window mem (4 * off) (4 + p.length) = intBytes p.length ++ p ∧ Stored mem (off + chunk p) ps

section
variable {mem bs : Bytes} {off n : Nat} {p : Bytes} {ps : List Bytes}

theorem le_bdivideUp (n : Nat) : n ≤ 4 * bdivideUp n ∧ 4 * bdivideUp n < n + 4 := by
  unfold bdivideUp
  split <;> omega

/-- A length is read back. -/
theorem intAt_intBytes (small : n < 2 ^ 32) : intAt (intBytes n) = n := by
  simp only [intBytes, intAt, UInt8.toNat_ofNat']
  omega

@[simp] theorem length_intBytes (n : Nat) : (intBytes n).length = 4 := rfl

theorem chunk_pos (p : Bytes) : 0 < chunk p := by
  unfold chunk
  omega

/-- A chunk has room for the packet and its length. -/
theorem length_lt_chunk (p : Bytes) : 4 + p.length ≤ 4 * chunk p := by
  have := (le_bdivideUp p.length).1
  unfold chunk
  omega

@[simp] theorem chunks_nil : chunks [] = 0 := rfl

@[simp] theorem chunks_cons : chunks (p :: ps) = chunk p + chunks ps := by
  simp [chunks]

@[simp] theorem chunks_append (ps qs : List Bytes) : chunks (ps ++ qs) = chunks ps + chunks qs := by
  simp [chunks]

/-- What is written behind the packets, or in front of them, leaves them alone. -/
theorem Stored.splice (stored : Stored mem off ps) (inside : n ≤ mem.length)
    (apart : 4 * (off + chunks ps) ≤ n ∨ n + bs.length ≤ 4 * off) : Stored (Lib.splice mem n bs) off ps := by
  induction ps generalizing off with
  | nil => trivial
  | cons p ps ih =>
    obtain ⟨first, rest⟩ := stored
    have length := length_lt_chunk p
    rw [chunks_cons] at apart
    constructor
    · rcases apart with below | above
      · rw [window_splice_below inside (by omega)]
        exact first
      · rw [window_splice_above inside (by omega)]
        exact first
    · exact ih rest (by omega)

/-- Packets lie one behind the other. -/
theorem stored_append {qs : List Bytes} : Stored mem off (ps ++ qs) ↔ Stored mem off ps ∧ Stored mem (off + chunks ps) qs := by
  induction ps generalizing off with
  | nil => simp [Stored]
  | cons p ps ih =>
    rw [List.cons_append, Stored, Stored, ih, chunks_cons, and_assoc, Nat.add_assoc]

/-- A length in front of the data makes a packet of them. -/
theorem stored_header (data : window mem (4 * (off + 1)) p.length = p) (inside : 4 * off ≤ mem.length) :
    Stored (Lib.splice mem (4 * off) (intBytes p.length)) off [p] := by
  refine ⟨?_, trivial⟩
  have header : window (Lib.splice mem (4 * off) (intBytes p.length)) (4 * off) 4 = intBytes p.length := window_splice_self _ _ _ inside
  have behind : window (Lib.splice mem (4 * off) (intBytes p.length)) (4 * off + 4) p.length = window mem (4 * off + 4) p.length :=
    window_splice_above inside (Nat.le_refl _)
  rw [window_add, header, behind]
  exact congrArg _ data

/-- The length of the first packet, and the packet. -/
theorem Stored.head (stored : Stored mem off (p :: ps)) :
    window mem (4 * off) 4 = intBytes p.length ∧ window mem (4 * (off + 1)) p.length = p := by
  have first := stored.1
  constructor
  · have header : window mem (4 * off) 4 = (window mem (4 * off) (4 + p.length)).take 4 := by
      rw [window, window, List.take_take, Nat.min_eq_left (by omega)]
    rw [header, first, List.take_left' (length_intBytes _)]
  · have data : window mem (4 * (off + 1)) p.length = (window mem (4 * off) (4 + p.length)).drop 4 := by
      rw [window, window, List.drop_take, List.drop_drop, Nat.add_sub_cancel_left, Nat.mul_add]
    rw [data, first, List.drop_left' (length_intBytes _)]

end

/-! ## The ring -/

/-- How the packets lie: one behind the other, or from `start` to the end of the ring and then from its beginning. -/
inductive Layout (c : ChunkBuffer2) : List Bytes → List Bytes → Prop where
  | straight {as : List Bytes} (wrap : c.wrap = c.size) (used : c.used = chunks as) (room : c.start + c.used + 1 + c.mtu ≤ c.size) :
      Layout c as []
  | wrapped {as bs : List Bytes} (some_ : as ≠ []) (wrap : c.wrap = c.start + chunks as) (inside : c.wrap ≤ c.size)
      (used : c.used = chunks as + chunks bs) (below : chunks bs ≤ c.start)
      (last : c.start + chunks as.dropLast + 1 + c.mtu ≤ c.size) (cut : c.size ≤ c.wrap + c.mtu) : Layout c as bs

/-- The packets `as ++ bs` are in the ring. -/
structure Filled (c : ChunkBuffer2) (as bs : List Bytes) : Prop where
  memory : c.buffer.length = 4 * c.size
  small : 4 * c.size < 2 ^ 31
  layout : Layout c as bs
  front : Stored c.buffer c.start as
  back : Stored c.buffer 0 bs

/-- Also, the destinations are up to date. -/
structure Ring (c : ChunkBuffer2) (as bs : List Bytes) : Prop extends Filled c as bs where
  input : c.input = c.updateInput.input
  output : c.output = as.head?.map fun p => (4 * (c.start + 1), p.length)

section
variable {c : ChunkBuffer2} {as bs : List Bytes} {p : Bytes}

theorem updateInput_eq (c : ChunkBuffer2) : c.updateInput = { c with input := c.updateInput.input } := by
  unfold ChunkBuffer2.updateInput
  split <;> rfl

/-- Where the next packet may be written, if anywhere. -/
theorem updateInput_input (c : ChunkBuffer2) : c.updateInput.input =
    if c.size < c.end_ + 1 + c.mtu then none else
    if 0 < (if c.wrap - c.start ≤ c.used then c.start - c.end_ else c.size - c.end_) then
      some (4 * (c.end_ + 1), ((if c.wrap - c.start ≤ c.used then c.start - c.end_ else c.size - c.end_) - 1) * 4)
    else none := by
  unfold ChunkBuffer2.updateInput
  split <;> rfl

theorem updateInput_congr (c : ChunkBuffer2) (buffer : Bytes) (input output : Option (Nat × Nat)) :
    ({ c with buffer, input, output } : ChunkBuffer2).updateInput.input = c.updateInput.input := by
  rw [updateInput_input, updateInput_input]
  rfl

theorem updateInput_updateInput (c : ChunkBuffer2) : c.updateInput.updateInput.input = c.updateInput.input := by
  rw [updateInput_eq c]
  exact updateInput_congr c _ _ _

theorem chunks_pos (some_ : as ≠ []) : 0 < chunks as := by
  cases as with
  | nil => exact absurd rfl some_
  | cons p ps =>
    have := chunk_pos p
    rw [chunks_cons]
    omega

/-- The ring is in use while it has a packet. -/
theorem Layout.used_pos (layout : Layout c as bs) : 0 < c.used ↔ as ≠ [] := by
  cases layout with
  | straight wrap used room =>
    rw [used]
    refine ⟨?_, chunks_pos⟩
    rintro positive rfl
    exact absurd positive (Nat.lt_irrefl 0)
  | wrapped some_ wrap inside used =>
    have positive := chunks_pos some_
    exact ⟨fun _ => some_, fun _ => by omega⟩

theorem Layout.congr (layout : Layout c as bs) (buffer : Bytes) (input output : Option (Nat × Nat)) :
    Layout { c with buffer, input, output } as bs := by
  cases layout with
  | straight wrap used room => exact .straight wrap used room
  | wrapped some_ wrap inside used below last cut => exact .wrapped some_ wrap inside used below last cut

/-- A new input changes no packet. -/
theorem Filled.updateInput (filled : Filled c as bs) : Filled c.updateInput as bs := by
  rw [updateInput_eq]
  exact { filled with layout := filled.layout.congr _ _ _ }

/-- While nothing is wrapped and the next packet fits behind the others, it is written there. -/
theorem input_straight (wrap : c.wrap = c.size) (room : c.start + c.used + 1 + c.mtu ≤ c.size) :
    c.end_ = c.start + c.used ∧ c.updateInput.input = some (4 * (c.start + c.used + 1), (c.size - (c.start + c.used) - 1) * 4) := by
  have end_ : c.end_ = c.start + c.used := if_neg (by omega)
  refine ⟨end_, ?_⟩
  rw [updateInput_input, end_, if_neg (show ¬ c.wrap - c.start ≤ c.used by omega), if_pos (show 0 < c.size - (c.start + c.used) by omega),
    if_neg (by omega)]

/-- Once the ring is wrapped, the free part ends where the packets of the front begin. -/
theorem input_wrapped (wrap : c.wrap = c.start + chunks as) (used : c.used = chunks as + chunks bs) (below : chunks bs ≤ c.start)
    (last : c.start + chunks as.dropLast + 1 + c.mtu ≤ c.size) :
    c.end_ = chunks bs ∧ c.updateInput.input =
      if chunks bs < c.start then some (4 * (chunks bs + 1), (c.start - chunks bs - 1) * 4) else none := by
  have end_ : c.end_ = chunks bs := by
    rw [ChunkBuffer2.end_, if_pos (by omega)]
    omega
  refine ⟨end_, ?_⟩
  rw [updateInput_input, end_, if_pos (show c.wrap - c.start ≤ c.used by omega),
    if_neg (show ¬ c.size < chunks bs + 1 + c.mtu by omega)]
  simp only [Nat.sub_pos_iff_lt]

theorem chunk_le_chunks {ps : List Bytes} (mem : p ∈ ps) : chunk p ≤ chunks ps := by
  obtain ⟨front, back, rfl⟩ := List.append_of_mem mem
  rw [chunks_append, chunks_cons]
  omega

/-- A packet lies in the ring, however long it is, so its length is an `int`. -/
theorem Filled.short (filled : Filled c as bs) : ∀ p ∈ as ++ bs, p.length < 2 ^ 32 := by
  intro p mem
  have bytes := length_lt_chunk p
  have small := filled.small
  have blocks : chunk p ≤ c.size := by
    cases filled.layout with
    | straight wrap used room =>
      rw [List.append_nil] at mem
      have part := chunk_le_chunks mem
      omega
    | wrapped some_ wrap inside used below last =>
      rcases List.mem_append.mp mem with front | back
      · have part := chunk_le_chunks front
        omega
      · have part := chunk_le_chunks back
        omega
  omega

/-- The length of the first packet, and the packet, can be read. -/
theorem Filled.first (filled : Filled c (p :: as) bs) : load c.buffer (4 * c.start) 4 = .ok (intBytes p.length) ∧
    load c.buffer (4 * (c.start + 1)) p.length = .ok p := by
  have length := length_lt_chunk p
  have memory := filled.memory
  have inside : c.start + chunk p ≤ c.size := by
    cases filled.layout with
    | straight wrap used room =>
      rw [chunks_cons] at used
      omega
    | wrapped some_ wrap inside used below last cut =>
      rw [chunks_cons] at wrap
      omega
  obtain ⟨header, data⟩ := filled.front.head
  constructor
  · rw [load_ok (by omega), header]
  · rw [load_ok (by omega), data]

/-- `update_output` finds the first packet. -/
theorem Filled.updateOutput (filled : Filled c as bs) (input : c.input = c.updateInput.input) :
    c.updateOutput = .ok { c with output := as.head?.map fun p => (4 * (c.start + 1), p.length) } ∧
      Ring { c with output := as.head?.map fun p => (4 * (c.start + 1), p.length) } as bs := by
  refine ⟨?_, { filled with layout := filled.layout.congr _ _ _, input := input.trans (updateInput_congr c _ _ _).symm, output := rfl }⟩
  cases as with
  | nil =>
    rw [ChunkBuffer2.updateOutput, if_neg fun positive => filled.layout.used_pos.mp positive rfl]
    rfl
  | cons p as =>
    rw [ChunkBuffer2.updateOutput, if_pos (filled.layout.used_pos.mpr (List.cons_ne_nil p as)), filled.first.1, ok_bind,
      intAt_intBytes (filled.short p List.mem_cons_self)]
    rfl

/-- Where there is space, it is in the ring, behind a block for the length, and there are no packets. -/
theorem Ring.space (ring : Ring c as bs) {dest avail : Nat} (input : c.input = some (dest, avail)) :
    dest = 4 * (c.end_ + 1) ∧ dest + avail ≤ c.buffer.length ∧ ∀ n, ∀ w : Bytes, 4 * c.end_ ≤ n → n + w.length ≤ dest + avail →
      Stored (splice c.buffer n w) c.start as ∧ Stored (splice c.buffer n w) 0 bs := by
  have same := ring.input
  have memory := ring.memory
  cases ring.layout with
  | straight wrap used room =>
    obtain ⟨end_, at_⟩ := input_straight wrap room
    rw [at_, input] at same
    cases same
    refine ⟨by omega, by omega, fun n w from_ upTo => ⟨ring.front.splice (by omega) (.inl (by omega)), trivial⟩⟩
  | wrapped some_ wrap edge used below last cut =>
    obtain ⟨end_, at_⟩ := input_wrapped wrap used below last
    rw [at_, input] at same
    split at same
    · cases same
      refine ⟨by omega, by omega, fun n w from_ upTo => ⟨?_, ?_⟩⟩
      · exact ring.front.splice (by omega) (.inr (by omega))
      · exact ring.back.splice (by omega) (.inl (by omega))
    · cases same

/-- What is received is stored in that space. -/
theorem Ring.write (ring : Ring c as bs) {dest avail off : Nat} {w : Bytes} (input : c.input = some (dest, avail))
    (fits : off + w.length ≤ avail) :
    store c.buffer (dest + off) w = .ok (splice c.buffer (dest + off) w) ∧
      Ring { c with buffer := splice c.buffer (dest + off) w } as bs := by
  obtain ⟨behind, inside, kept⟩ := ring.space input
  obtain ⟨front, back⟩ := kept (dest + off) w (by omega) (by omega)
  have room : dest + off + w.length ≤ c.buffer.length := by omega
  exact ⟨store_ok room, { ring with
    memory := (length_splice room).trans ring.memory
    layout := ring.layout.congr _ _ _
    input := ring.input.trans (updateInput_congr c _ _ _).symm
    front := front
    back := back }⟩

/-- Where the ring ends after a packet. -/
def ChunkBuffer2.nextWrap (c : ChunkBuffer2) (len : Nat) : Nat :=
  if c.used + (1 + bdivideUp len) ≤ c.wrap - c.start ∧ c.size < c.end_ + 1 + bdivideUp len + 1 + c.mtu then c.end_ + 1 + bdivideUp len
  else c.wrap

/-- `SubmitPacket` updates the destinations. -/
theorem Ring.submitted (ring : Ring c as bs) {buffer : Bytes} {as' bs' : List Bytes}
    (stored : store c.buffer (4 * c.end_) (intBytes p.length) = .ok buffer)
    (filled : Filled { c with buffer, used := c.used + chunk p, wrap := c.nextWrap p.length } as' bs')
    (first : as ≠ [] → as'.head? = as.head?) :
    ∃ c', c.submitPacket p.length = .ok c' ∧ Ring c' as' bs' ∧ c'.mtu = c.mtu ∧ c'.size = c.size ∧
      (c.output ≠ none → c'.output = c.output) := by
  generalize made : ({ c with buffer, used := c.used + chunk p, wrap := c.nextWrap p.length } : ChunkBuffer2) = next at filled
  have done : c.submitPacket p.length = if c.used + chunk p = chunk p then next.updateInput.updateOutput else .ok next.updateInput := by
    rw [ChunkBuffer2.submitPacket, stored, ← made]
    rfl
  have fields : next.updateInput.mtu = c.mtu ∧ next.updateInput.size = c.size ∧ next.updateInput.start = c.start ∧
      next.updateInput.output = c.output := by
    rw [updateInput_eq, ← made]
    exact ⟨rfl, rfl, rfl, rfl⟩
  obtain ⟨mtu, size, start, output⟩ := fields
  have here := (updateInput_updateInput next).symm
  by_cases empty : c.used = 0
  · obtain ⟨updated, ring'⟩ := filled.updateInput.updateOutput here
    rw [done, if_pos (by omega)]
    refine ⟨_, updated, ring', mtu, size, fun some_ => ?_⟩
    have none_ : as = [] := by
      by_contra some_
      have := ring.layout.used_pos.mpr some_
      omega
    exact absurd (by rw [ring.output, none_]; rfl) some_
  · rw [done, if_neg (by omega)]
    refine ⟨_, rfl, { filled.updateInput with input := here, output := ?_ }, mtu, size, fun _ => output⟩
    rw [output, ring.output, first (ring.layout.used_pos.mp (by omega)), start]

/-- A packet that has been stored behind a block for its length is submitted. -/
theorem Ring.submit (ring : Ring c as bs) {dest avail : Nat} (input : c.input = some (dest, avail)) (fits : p.length ≤ avail)
    (data : window c.buffer dest p.length = p) :
    ∃ c' as' bs', c.submitPacket p.length = .ok c' ∧ Ring c' as' bs' ∧ as' ++ bs' = as ++ bs ++ [p] ∧ c'.mtu = c.mtu ∧ c'.size = c.size ∧
      (c.output ≠ none → c'.output = c.output) := by
  have memory := ring.memory
  have same := ring.input
  have whole : chunk p = 1 + bdivideUp p.length := rfl
  have up := (le_bdivideUp p.length).2
  -- the length is stored in front of the packet
  obtain ⟨rfl, inside, kept⟩ := ring.space input
  have header : 4 * c.end_ + (intBytes p.length).length ≤ c.buffer.length := by
    rw [length_intBytes]
    omega
  obtain ⟨front, back⟩ := kept (4 * c.end_) (intBytes p.length) (Nat.le_refl _) (by rw [length_intBytes]; omega)
  have own := stored_header data (Nat.le_trans (Nat.le_add_right _ _) header)
  have size := (length_splice header).trans memory
  cases ring.layout with
  | straight wrap used room =>
    obtain ⟨end_, at_⟩ := input_straight wrap room
    rw [at_, input] at same
    obtain ⟨-, rfl⟩ := Prod.mk.inj (Option.some.inj same)
    have next : Filled { c with
        buffer := splice c.buffer (4 * c.end_) (intBytes p.length)
        used := c.used + chunk p
        wrap := c.nextWrap p.length } (as ++ [p]) [] := by
      refine ⟨size, ring.small, ?_, stored_append.mpr ⟨front, by rw [← used, ← end_]; exact own⟩, trivial⟩
      have total : c.used + chunk p = chunks (as ++ [p]) := by simp [used]
      unfold ChunkBuffer2.nextWrap
      split
      next cut =>
        have last : chunks (as ++ [p]).dropLast = c.used := by rw [List.dropLast_concat, used]
        refine .wrapped (by simp) ?_ ?_ ?_ (Nat.zero_le _) ?_ ?_ <;> dsimp only
        · omega
        · omega
        · exact total
        · rw [last]
          exact room
        · omega
      next uncut =>
        refine .straight wrap total ?_
        dsimp only
        omega
    obtain ⟨c', done, ring', rest⟩ := ring.submitted (store_ok header) next fun some_ => by
      obtain ⟨q, qs, rfl⟩ := List.exists_cons_of_ne_nil some_
      rfl
    exact ⟨c', _, _, done, ring', by simp, rest⟩
  | wrapped some_ wrap edge used below last cut =>
    obtain ⟨end_, at_⟩ := input_wrapped wrap used below last
    rw [at_, input] at same
    split at same
    next free =>
      obtain ⟨-, rfl⟩ := Prod.mk.inj (Option.some.inj same)
      have positive := chunks_pos some_
      have uncut : c.nextWrap p.length = c.wrap := if_neg (by omega)
      have next : Filled { c with
          buffer := splice c.buffer (4 * c.end_) (intBytes p.length)
          used := c.used + chunk p
          wrap := c.nextWrap p.length } as (bs ++ [p]) := by
        refine ⟨size, ring.small, ?_, front, stored_append.mpr ⟨back, by rw [Nat.zero_add, ← end_]; exact own⟩⟩
        rw [uncut]
        refine .wrapped some_ wrap edge ?_ ?_ last cut <;> dsimp only <;> simp only [chunks_append, chunks_cons, chunks_nil] <;> omega
      obtain ⟨c', done, ring', rest⟩ := ring.submitted (store_ok header) next fun _ => rfl
      exact ⟨c', _, _, done, ring', by simp, rest⟩
    · cases same

/-- The first packet is removed. Where the next packet may be stored, it still may. While nothing
is wrapped, the free part begins where it began. Once the ring is wrapped, it grows when `start`
moves; and with the last packet of the front `start` goes back to 0, and the ring is straight
again. -/
theorem Ring.consume (ring : Ring c (p :: as) bs) :
    ∃ c' as' bs', c.consumePacket = .ok c' ∧ Ring c' as' bs' ∧ as' ++ bs' = as ++ bs ∧ c'.mtu = c.mtu ∧ c'.size = c.size ∧
      c'.buffer = c.buffer ∧ ∀ dest avail, c.input = some (dest, avail) → ∃ more, avail ≤ more ∧ c'.input = some (dest, more) := by
  have positive := chunk_pos p
  have front := ring.front.2
  have done : c.consumePacket =
      (if c.wrap - c.start ≤ c.used then
        (if c.start + chunk p = c.wrap then { c with start := 0, wrap := c.size, used := c.used - chunk p }
          else { c with start := c.start + chunk p, used := c.used - chunk p } : ChunkBuffer2).updateInput
      else if c.start + chunk p = c.wrap then { c with start := 0, wrap := c.size, used := c.used - chunk p }
        else { c with start := c.start + chunk p, used := c.used - chunk p }).updateOutput := by
    rw [ChunkBuffer2.consumePacket, ring.first.1, ok_bind, intAt_intBytes (ring.short p List.mem_cons_self)]
    rfl
  cases ring.layout with
  | straight wrap used room =>
    rw [chunks_cons] at used
    have next : Filled { c with start := c.start + chunk p, used := c.used - chunk p } as [] := by
      refine ⟨ring.memory, ring.small, .straight wrap ?_ ?_, front, trivial⟩ <;> dsimp only <;> omega
    have here : c.input = ({ c with start := c.start + chunk p, used := c.used - chunk p } : ChunkBuffer2).updateInput.input := by
      have after := (@input_straight { c with start := c.start + chunk p, used := c.used - chunk p } wrap (by dsimp only; omega)).2
      have moved : c.start + chunk p + (c.used - chunk p) = c.start + c.used := by omega
      refine ring.input.trans ((input_straight wrap room).2.trans (.trans ?_ after.symm))
      dsimp only
      rw [moved]
    obtain ⟨updated, ring'⟩ := next.updateOutput here
    rw [if_neg (by omega), if_neg (by omega)] at done
    exact ⟨_, _, _, done.trans updated, ring', rfl, rfl, rfl, rfl, fun dest avail input => ⟨avail, Nat.le_refl _, input⟩⟩
  | wrapped some_ wrap edge used below last cut =>
    rw [chunks_cons] at used wrap
    rw [if_pos (by omega)] at done
    have same := ring.input
    rw [(input_wrapped (by rw [chunks_cons]; exact wrap) (by rw [chunks_cons]; exact used) below last).2] at same
    by_cases ends : as = []
    · -- the ring is straight again
      subst ends
      rw [chunks_nil] at used wrap
      rw [if_pos (by omega)] at done
      have room : 0 + (c.used - chunk p) + 1 + c.mtu ≤ c.size := by omega
      have next : Filled { c with start := 0, wrap := c.size, used := c.used - chunk p } bs [] := by
        refine ⟨ring.memory, ring.small, .straight rfl ?_ room, ring.back, trivial⟩
        dsimp only
        omega
      obtain ⟨updated, ring'⟩ := next.updateInput.updateOutput (updateInput_updateInput _).symm
      have after := (@input_straight { c with start := 0, wrap := c.size, used := c.used - chunk p } rfl room).2
      refine ⟨_, _, _, done.trans updated, ring', by simp, ?_, ?_, ?_, fun dest avail input => ?_⟩
      · rw [updateInput_eq]
      · rw [updateInput_eq]
      · rw [updateInput_eq]
      · rw [input] at same
        split at same
        · cases same
          refine ⟨(c.size - (0 + (c.used - chunk p)) - 1) * 4, by omega, after.trans ?_⟩
          have behind : 0 + (c.used - chunk p) = chunks bs := by omega
          dsimp only
          rw [behind]
        · cases same
    · rw [if_neg (by have := chunks_pos ends; omega)] at done
      rw [List.dropLast_cons_of_ne_nil ends, chunks_cons] at last
      have wrap' : c.wrap = c.start + chunk p + chunks as := by omega
      have used' : c.used - chunk p = chunks as + chunks bs := by omega
      have below' : chunks bs ≤ c.start + chunk p := by omega
      have last' : c.start + chunk p + chunks as.dropLast + 1 + c.mtu ≤ c.size := by omega
      have next : Filled { c with start := c.start + chunk p, used := c.used - chunk p } as bs :=
        ⟨ring.memory, ring.small, .wrapped ends wrap' edge used' below' last' cut, front, ring.back⟩
      have after := (@input_wrapped { c with start := c.start + chunk p, used := c.used - chunk p } as bs wrap' used' below' last').2
      obtain ⟨updated, ring'⟩ := next.updateInput.updateOutput (updateInput_updateInput _).symm
      refine ⟨_, _, _, done.trans updated, ring', rfl, ?_, ?_, ?_, fun dest avail input => ?_⟩
      · rw [updateInput_eq]
      · rw [updateInput_eq]
      · rw [updateInput_eq]
      · rw [input] at same
        split at same
        · cases same
          exact ⟨(c.start + chunk p - chunks bs - 1) * 4, by omega, after.trans (if_pos (by dsimp only; omega))⟩
        · cases same

end

/-! ## The queue -/

/-- The packets that were received and not yet sent are in the ring, in their order. `num` is how many there must be space for. -/
structure Queued (num : Nat) (b : PacketBuffer) (as bs : List Bytes) : Prop where
  ring : Ring b.buf as bs
  mtu : b.buf.mtu = bdivideUp b.inputMtu
  size : b.buf.size = (1 + b.buf.mtu) * (num + 1)
  receiving : b.receiving = PacketBuffer.space b.buf b.inputMtu
  sending : b.sending = b.buf.output
  received : b.received = b.sent ++ (as ++ bs)

section
variable {num : Nat} {b b' : PacketBuffer} {as bs : List Bytes}

/-- A packet is received only where there is room for the longest one. -/
theorem space_eq_some {buf : ChunkBuffer2} {n dest : Nat} :
    PacketBuffer.space buf n = some dest ↔ ∃ avail, buf.input = some (dest, avail) ∧ n ≤ avail := by
  simp [PacketBuffer.space, Option.filter_eq_some_iff]

theorem bdivideUp_le {m n : Nat} (le : m ≤ n) : bdivideUp m ≤ bdivideUp n := by
  have := (le_bdivideUp m).2
  have := (le_bdivideUp n).1
  omega

/-- What is received is stored in front of the memory's end, and away from the packets. -/
theorem Queued.store (queued : Queued num b as bs) {dest off : Nat} {w : Bytes} (here : b.receiving = some dest)
    (fits : ∀ input ∈ b.buf.input, off + w.length ≤ input.2) : dest + off + w.length ≤ b.buf.buffer.length ∧
      Lib.store b.buf.buffer (dest + off) w = .ok (splice b.buf.buffer (dest + off) w) ∧
      Queued num { b with buf := { b.buf with buffer := splice b.buf.buffer (dest + off) w } } as bs := by
  obtain ⟨avail, input, -⟩ := space_eq_some.mp (queued.receiving ▸ here)
  obtain ⟨stored, ring⟩ := queued.ring.write input (fits _ input)
  have inside := (queued.ring.space input).2.1
  have within := fits _ input
  dsimp only at within
  exact ⟨by omega, stored, { queued with ring := ring }⟩

/-- The space that is offered is enough for a packet of the MTU. -/
theorem Queued.wide (queued : Queued num b as bs) (on : b.receiving.isSome = true) : ∀ input ∈ b.buf.input, b.inputMtu ≤ input.2 := by
  obtain ⟨dest, here⟩ := Option.isSome_iff_exists.mp on
  obtain ⟨avail, input, wide⟩ := space_eq_some.mp (queued.receiving ▸ here)
  intro input' same
  cases (Option.mem_def.mp same).symm.trans input
  exact wide

/-- Writing to the free part changes no packet. -/
theorem Queued.write (queued : Queued num b as bs) {off : Nat} {w : Bytes} (on : b.receiving.isSome = true)
    (fits : off + w.length ≤ b.inputMtu) : ∃ b', b.write off w = .ok b' ∧ Queued num b' as bs ∧ b'.inputMtu = b.inputMtu ∧
      b'.received = b.received := by
  obtain ⟨dest, here⟩ := Option.isSome_iff_exists.mp on
  obtain ⟨-, stored, queued'⟩ := queued.store here fun input there => Nat.le_trans fits (queued.wide on input there)
  refine ⟨_, ?_, queued', rfl, rfl⟩
  rw [PacketBuffer.write, here, deref_some, ok_bind, stored]
  rfl

/-- A packet that has been received is behind the others. -/
theorem Queued.inputDone (queued : Queued num b as bs) {dest len : Nat} (here : b.receiving = some dest)
    (fits : ∀ input ∈ b.buf.input, len ≤ input.2) : ∃ c as' bs', as' ++ bs' = as ++ bs ++ [window b.buf.buffer dest len] ∧ b.inputHandlerDone len = .ok { b with
        buf := c
        receiving := PacketBuffer.space c b.inputMtu
        sending := if b.buf.output.isNone then c.output else b.sending
        received := b.received ++ [window b.buf.buffer dest len] } ∧
      Queued num { b with
        buf := c
        receiving := PacketBuffer.space c b.inputMtu
        sending := if b.buf.output.isNone then c.output else b.sending
        received := b.received ++ [window b.buf.buffer dest len] } as' bs' := by
  obtain ⟨avail, input, -⟩ := space_eq_some.mp (queued.receiving ▸ here)
  have inside := (queued.ring.space input).2.1
  have fits := fits _ input
  dsimp only at fits
  have length : (window b.buf.buffer dest len).length = len := length_window (by omega)
  obtain ⟨c, as', bs', submitted, ring, all, mtu, size, output⟩ :=
    @Ring.submit _ _ _ (window b.buf.buffer dest len) queued.ring _ _ input (by omega) (by rw [length])
  rw [length] at submitted
  refine ⟨c, as', bs', all, ?_, ring, mtu.trans queued.mtu, ?_, rfl, ?_, ?_⟩
  · rw [PacketBuffer.inputHandlerDone, here, deref_some, ok_bind, load_ok (by omega), ok_bind, submitted]
    rfl
  · rw [size, mtu]
    exact queued.size
  · dsimp only
    split
    · rfl
    next some_ =>
      rw [queued.sending]
      exact (output fun none_ => some_ (by rw [none_]; rfl)).symm
  · dsimp only
    rw [queued.received, all, List.append_assoc]

/-- The packet that has been sent is the first one. What is being received goes on, with no less space than before. -/
theorem Queued.outputDone (queued : Queued num b as bs) (on : b.sending.isSome = true) :
    ∃ b' as' bs', b.outputHandlerDone = .ok b' ∧ Queued num b' as' bs' ∧ (∃ p, b'.sent = b.sent ++ [p]) ∧
      b'.received = b.received ∧ b'.inputMtu = b.inputMtu ∧ b'.buf.buffer = b.buf.buffer ∧
      (∀ dest, b.receiving = some dest → b'.receiving = some dest) ∧
      ∀ dest avail, b.buf.input = some (dest, avail) → ∃ more, avail ≤ more ∧ b'.buf.input = some (dest, more) := by
  rw [queued.sending, queued.ring.output] at on
  cases as with
  | nil => cases on
  | cons p as =>
    have here : b.sending = some (4 * (b.buf.start + 1), p.length) := queued.sending.trans queued.ring.output
    obtain ⟨c, as', bs', consumed, ring, all, mtu, size, buffer, more⟩ := queued.ring.consume
    have kept : ∀ dest, PacketBuffer.space b.buf b.inputMtu = some dest → PacketBuffer.space c b.inputMtu = some dest := by
      intro dest here
      obtain ⟨avail, input, wide⟩ := space_eq_some.mp here
      obtain ⟨avail', wider, input'⟩ := more dest avail input
      exact space_eq_some.mpr ⟨avail', input', Nat.le_trans wide wider⟩
    have asked : (if (PacketBuffer.space b.buf b.inputMtu).isNone then PacketBuffer.space c b.inputMtu else b.receiving) =
        PacketBuffer.space c b.inputMtu := by
      rw [queued.receiving]
      cases here : PacketBuffer.space b.buf b.inputMtu with
      | none => rfl
      | some dest => exact (kept dest here).symm
    have done : b.outputHandlerDone = .ok { b with
        buf := c, receiving := PacketBuffer.space c b.inputMtu, sending := c.output, sent := b.sent ++ [p] } := by
      rw [PacketBuffer.outputHandlerDone, here, deref_some, ok_bind, queued.ring.first.2, ok_bind, consumed, ok_bind, asked]
      rfl
    refine ⟨_, as', bs', done, ⟨ring, mtu.trans queued.mtu, ?_, rfl, rfl, ?_⟩, ⟨p, rfl⟩, rfl, rfl, buffer, fun dest here => ?_, more⟩
    · rw [size, mtu]
      exact queued.size
    · dsimp only
      rw [queued.received, all]
      simp
    · exact kept dest (queued.receiving ▸ here)

theorem chunks_le {n : Nat} {ps : List Bytes} (lengths : ∀ p ∈ ps, bdivideUp p.length ≤ n) : chunks ps ≤ (1 + n) * ps.length := by
  induction ps with
  | nil => exact Nat.zero_le _
  | cons p ps ih =>
    have first := lengths p List.mem_cons_self
    have rest := ih fun q mem => lengths q (List.mem_cons_of_mem _ mem)
    rw [chunks_cons, List.length_cons, Nat.mul_succ, chunk]
    omega

/-- While it holds fewer packets than it was made for, another one is received, unless some of them are longer than
the MTU. -/
theorem Queued.room (queued : Queued num b as bs) (lengths : ∀ p ∈ as ++ bs, p.length ≤ b.inputMtu) (few : (as ++ bs).length < num) :
    b.receiving.isSome = true := by
  have mtu := (le_bdivideUp b.inputMtu).1
  rw [← queued.mtu] at mtu
  have same := queued.ring.input
  rw [queued.receiving]
  refine Option.isSome_iff_exists.mpr ?_
  cases queued.ring.layout with
  | straight wrap used room =>
    rw [(input_straight wrap room).2] at same
    exact ⟨_, space_eq_some.mpr ⟨_, same, by omega⟩⟩
  | wrapped some_ wrap edge used below last cut =>
    rw [(input_wrapped wrap used below last).2] at same
    -- the blocks of `num - 1` packets, and what is left at the end of the ring
    have all : chunks as + chunks bs ≤ (1 + b.buf.mtu) * (as ++ bs).length := by
      rw [← chunks_append]
      refine chunks_le fun p mem => ?_
      rw [queued.mtu]
      exact bdivideUp_le (lengths p mem)
    have most : (1 + b.buf.mtu) * ((as ++ bs).length + 2) ≤ b.buf.size := by
      rw [queued.size]
      exact Nat.mul_le_mul_left _ (by omega)
    rw [Nat.mul_add] at most
    rw [if_pos (by omega)] at same
    exact ⟨_, space_eq_some.mpr ⟨_, same, by omega⟩⟩

/-- The ring has room for one packet more than asked for. -/
theorem calcBlocks_eq {chunkLen blocks : Nat} (enough : calcBlocks chunkLen num = some blocks) :
    blocks = (1 + bdivideUp chunkLen) * (num + 1) := by
  unfold calcBlocks at enough
  dsimp only at enough
  split at enough
  · cases enough
  split at enough
  · cases enough
  split at enough
  · cases enough
  exact (Option.some.inj enough).symm

/-- A new buffer is empty. -/
theorem queued_init {buffer : Bytes} {blocks inputMtu : Nat} (enough : calcBlocks inputMtu num = some blocks)
    (memory : buffer.length = 4 * blocks) (small : 4 * blocks < 2 ^ 31) : Queued num (.init buffer blocks inputMtu) [] [] := by
  have size := calcBlocks_eq enough
  have mtu := (le_bdivideUp inputMtu).1
  have positive : 1 + bdivideUp inputMtu ≤ blocks := by
    rw [size]
    exact Nat.le_mul_of_pos_right _ (by omega)
  have filled : Filled { buffer, size := blocks, wrap := blocks, start := 0, used := 0, mtu := bdivideUp inputMtu } [] [] :=
    ⟨memory, small, .straight rfl rfl (by dsimp only; omega), trivial, trivial⟩
  have ring : Ring (ChunkBuffer2.init buffer blocks inputMtu) [] [] := by
    refine { filled.updateInput with input := (updateInput_updateInput _).symm, output := ?_ }
    rw [ChunkBuffer2.init, updateInput_eq]
    rfl
  have fields : (ChunkBuffer2.init buffer blocks inputMtu).mtu = bdivideUp inputMtu ∧
      (ChunkBuffer2.init buffer blocks inputMtu).size = blocks := by
    rw [ChunkBuffer2.init, updateInput_eq]
    exact ⟨rfl, rfl⟩
  refine ⟨ring, fields.1, ?_, ?_, ring.output.symm, rfl⟩
  · change (ChunkBuffer2.init buffer blocks inputMtu).size = (1 + (ChunkBuffer2.init buffer blocks inputMtu).mtu) * (num + 1)
    rw [fields.1, fields.2]
    exact size
  · have input : (ChunkBuffer2.init buffer blocks inputMtu).input = some (4 * (0 + 0 + 1), (blocks - (0 + 0) - 1) * 4) :=
      (@input_straight { buffer, size := blocks, wrap := blocks, start := 0, used := 0, mtu := bdivideUp inputMtu } rfl
        (by dsimp only; omega)).2
    have wide : inputMtu ≤ (blocks - (0 + 0) - 1) * 4 := by omega
    exact .trans (congrArg (Option.map Prod.fst) input) (space_eq_some.mpr ⟨_, input, wide⟩).symm

/-- Every step keeps the queue, and none leaves the buffer. What is received is no longer than the MTU. -/
theorem Queued.step (queued : Queued num b as bs) {e : PacketEvent} (on : packetBufferMachine.enabled b e = true) :
    ∃ b' as' bs', packetBufferMachine.fire b e = .ok b' ∧ Queued num b' as' bs' ∧ b'.inputMtu = b.inputMtu ∧
      ∀ p ∈ b'.received, p ∈ b.received ∨ p.length ≤ b.inputMtu := by
  cases e with
  | write off w =>
    obtain ⟨receiving, fits⟩ := Bool.and_eq_true_iff.mp on
    obtain ⟨b', done, queued', mtu, received⟩ := queued.write receiving (of_decide_eq_true fits)
    exact ⟨b', as, bs, done, queued', mtu, fun p mem => .inl (received ▸ mem)⟩
  | inputDone len =>
    obtain ⟨receiving, fits⟩ := Bool.and_eq_true_iff.mp on
    obtain ⟨dest, here⟩ := Option.isSome_iff_exists.mp receiving
    have fits := of_decide_eq_true fits
    obtain ⟨c, as', bs', -, done, queued'⟩ := queued.inputDone here fun input there => Nat.le_trans fits (queued.wide receiving input there)
    refine ⟨_, as', bs', done, queued', rfl, fun p mem => ?_⟩
    rcases List.mem_append.mp mem with old | new
    · exact .inl old
    · right
      rw [List.mem_singleton.mp new]
      exact Nat.le_trans (List.length_take_le _ _) fits
  | outputDone =>
    obtain ⟨b', as', bs', done, queued', -, received, mtu, -⟩ := queued.outputDone on
    exact ⟨b', as', bs', done, queued', mtu, fun p mem => .inl (received ▸ mem)⟩

/-- `PacketBuffer` is a queue that has space for `num` packets. Whatever comes and goes in whatever order, the packets that were received
are those that were sent and those that it holds, in order and unchanged; what it is sending is the first one that it holds; it receives
while it holds fewer than `num`; and it never leaves its memory, whose size in bytes is an `int`. -/
theorem packetBuffer_queue {buffer : Bytes} {blocks inputMtu : Nat} (enough : calcBlocks inputMtu num = some blocks)
    (memory : buffer.length = 4 * blocks) (small : 4 * blocks < 2 ^ 31)
    (reach : packetBufferMachine.Reach (fun _ _ => True) (.init buffer blocks inputMtu) b) :
    (∃ held, b.received = b.sent ++ held ∧ (held.length < num → b.receiving.isSome = true) ∧
      match held with
      | [] => b.sending = none
      | p :: _ => ∃ off, b.sending = some (off, p.length) ∧ load b.buf.buffer off p.length = .ok p) ∧
    ∀ e, packetBufferMachine.enabled b e = true → ∃ b', packetBufferMachine.fire b e = .ok b' := by
  obtain ⟨⟨as, bs, queued⟩, lengths⟩ := reach.invariant
    (fun b => (∃ as bs, Queued num b as bs) ∧ ∀ p ∈ b.received, p.length ≤ b.inputMtu)
    ⟨⟨[], [], queued_init enough memory small⟩, nofun⟩ (by
      rintro b e b' ⟨⟨as, bs, queued⟩, lengths⟩ on - fired
      obtain ⟨b'', as', bs', done, queued', mtu, received⟩ := queued.step on
      obtain rfl := Except.ok.inj (done.symm.trans fired)
      exact ⟨⟨as', bs', queued'⟩, fun p mem => mtu ▸ (received p mem).elim (lengths p) id⟩)
  have room := queued.room fun p mem => lengths p (by rw [queued.received]; exact List.mem_append_right _ mem)
  refine ⟨⟨as ++ bs, queued.received, room, ?_⟩, fun e on => ?_⟩
  · have sending := queued.sending.trans queued.ring.output
    cases as with
    | nil =>
      cases queued.ring.layout with
      | straight => exact sending
      | wrapped some_ => exact absurd rfl some_
    | cons p as => exact ⟨_, sending, queued.ring.first.2⟩
  · obtain ⟨b', -, -, done, -⟩ := queued.step on
    exact ⟨b', done⟩

end

/-- A packet of eight bytes. -/
def demoBytes (n : UInt8) : Bytes := List.replicate 8 n

/-- A buffer that was made for one packet holds two; the third is stored where the first was. -/
theorem packetBuffer_queue_wraps : ∃ b : PacketBuffer, ∃ held, b.received = [demoBytes 1, demoBytes 2, demoBytes 3] ∧ b.buf.start = 3 ∧
    b.receiving = none ∧ b.received = b.sent ++ held := by
  obtain ⟨b, run, checked⟩ := Machine.exists_of_leadsTo (show packetBufferMachine.leadsTo (.init (List.replicate 24 0) 6 8)
    [.write 0 (demoBytes 1), .inputDone 8, .write 0 (demoBytes 2), .inputDone 8, .outputDone, .write 0 (demoBytes 3), .inputDone 8]
    (fun b => decide (b.received = [demoBytes 1, demoBytes 2, demoBytes 3] ∧ b.buf.start = 3 ∧ b.receiving = none)) = true
    by decide +kernel)
  obtain ⟨received, start, full⟩ := of_decide_eq_true checked
  obtain ⟨⟨held, queue, -⟩, -⟩ := packetBuffer_queue (show calcBlocks 8 1 = some 6 by decide) List.length_replicate (by decide)
    (Machine.Reach.refl.of_run (fun _ _ _ => trivial) run)
  exact ⟨b, held, received, start, full, queue⟩

end Shadowsocks.Tun2socks
