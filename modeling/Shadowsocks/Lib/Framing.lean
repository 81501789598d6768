import Shadowsocks.Lib.Bytes

/-!
# Framed streams

A `Framing` recognises the complete frame at the front of a stream, which may depend
on how many frames came before, and says what it carries or that it is bad. `parse`
reads a whole stream: the contents of its good frames, what is left behind the last
of them, and whether it stopped at a bad one. `parse_append` is what makes reading a
stream piece by piece possible, and `parse_wire` says that a stream put together by a
sender, cut anywhere, parses to the frames that are complete before the cut.
-/

namespace Shadowsocks.Lib
set_option autoImplicit false

/-- `next i s` is `none` while the frame number `i` at the front of `s` is incomplete;
otherwise it is the length of the frame and its content, `none` for a bad one. -/
structure Framing (α β : Type) where
  next : Nat → List α → Option (Nat × Option β)
  next_pos : ∀ {i s n c}, next i s = some (n, c) → 0 < n ∧ n ≤ s.length
  next_append : ∀ {i s n c} t, next i s = some (n, c) → next i (s ++ t) = some (n, c)

/-- The reading of a stream. -/
structure Parsed (α β : Type) where
  frames : List β
  rest : List α
  ok : Bool

namespace Framing
variable {α β : Type} (F : Framing α β)

/-- Read frames from number `i` on until one is incomplete or bad. -/
def parse (i : Nat) (s : List α) : Parsed α β :=
  match h : F.next i s with
  | none => { frames := [], rest := s, ok := true }
  | some (_, none) => { frames := [], rest := s, ok := false }
  | some (n, some c) =>
    let p := parse (i + 1) (s.drop n)
    { p with frames := c :: p.frames }
termination_by s.length
decreasing_by
  have := F.next_pos h
  rw [List.length_drop]
  omega

variable {F} {i n : Nat} {s : List α} {c : β}

theorem parse_none (h : F.next i s = none) : F.parse i s = { frames := [], rest := s, ok := true } := by
  rw [parse]
  split <;> simp_all

theorem parse_bad (h : F.next i s = some (n, none)) : F.parse i s = { frames := [], rest := s, ok := false } := by
  rw [parse]
  split <;> simp_all

theorem parse_good (h : F.next i s = some (n, some c)) :
    F.parse i s = { F.parse (i + 1) (s.drop n) with frames := c :: (F.parse (i + 1) (s.drop n)).frames } := by
  rw [parse]
  split <;> simp_all

/-- The induction over the frames of a stream. -/
theorem parse_induction {motive : Nat → List α → Prop} (i : Nat) (s : List α)
    (incomplete : ∀ i s, F.next i s = none → motive i s)
    (bad : ∀ i s n, F.next i s = some (n, none) → motive i s)
    (good : ∀ i s n c, F.next i s = some (n, some c) → motive (i + 1) (s.drop n) → motive i s) : motive i s := by
  match h : F.next i s with
  | none => exact incomplete i s h
  | some (n, none) => exact bad i s n h
  | some (n, some c) => exact good i s n c h (parse_induction (i + 1) (s.drop n) incomplete bad good)
termination_by s.length
decreasing_by
  have := F.next_pos h
  rw [List.length_drop]
  omega

theorem next_nil (i : Nat) : F.next i [] = none := by
  match h : F.next i ([] : List α) with
  | none => rfl
  | some (n, c) =>
    have := F.next_pos h
    simp only [List.length_nil] at this
    omega

/-- What is left over is an incomplete frame. -/
theorem next_rest (i : Nat) (s : List α) (ok : (F.parse i s).ok = true) :
    F.next (i + (F.parse i s).frames.length) (F.parse i s).rest = none := by
  induction i, s using parse_induction (F := F) with
  | incomplete i s h => rw [parse_none h]; exact h
  | bad i s n h => rw [parse_bad h] at ok; cases ok
  | good i s n c h ih =>
    rw [parse_good h] at ok ⊢
    have := ih ok
    simp only [List.length_cons]
    rwa [show i + ((F.parse (i + 1) (s.drop n)).frames.length + 1) =
      i + 1 + (F.parse (i + 1) (s.drop n)).frames.length by omega]

/-- More input is read from where the reading stopped. -/
theorem parse_append (i : Nat) (s t : List α) (ok : (F.parse i s).ok = true) :
    F.parse i (s ++ t) =
      { F.parse (i + (F.parse i s).frames.length) ((F.parse i s).rest ++ t) with
        frames := (F.parse i s).frames ++
          (F.parse (i + (F.parse i s).frames.length) ((F.parse i s).rest ++ t)).frames } := by
  induction i, s using parse_induction (F := F) with
  | incomplete i s h => rw [parse_none h]; simp
  | bad i s n h => rw [parse_bad h] at ok; cases ok
  | good i s n c h ih =>
    have more := F.next_append t h
    have bound := F.next_pos h
    rw [parse_good h] at ok ⊢
    rw [parse_good more, List.drop_append_of_le_length bound.2, ih ok]
    simp only [List.length_cons, List.cons_append]
    rw [show i + ((F.parse (i + 1) (s.drop n)).frames.length + 1) =
      i + 1 + (F.parse (i + 1) (s.drop n)).frames.length by omega]

/-- The new input does not complete the frame that was begun. -/
theorem parse_append_none {t : List α} (ok : (F.parse i s).ok = true)
    (h : F.next (i + (F.parse i s).frames.length) ((F.parse i s).rest ++ t) = none) :
    F.parse i (s ++ t) = { frames := (F.parse i s).frames, rest := (F.parse i s).rest ++ t, ok := true } := by
  rw [parse_append i s t ok, parse_none h, List.append_nil]

/-- The new input completes the frame that was begun, and ends with it. -/
theorem parse_append_frame {t : List α} (ok : (F.parse i s).ok = true)
    (h : F.next (i + (F.parse i s).frames.length) ((F.parse i s).rest ++ t) =
      some (((F.parse i s).rest ++ t).length, some c)) :
    F.parse i (s ++ t) = { frames := (F.parse i s).frames ++ [c], rest := [], ok := true } := by
  rw [parse_append i s t ok, parse_good h, List.drop_length, parse_none (next_nil _)]

/-- The new input completes a bad frame. -/
theorem parse_append_stop {t : List α} (ok : (F.parse i s).ok = true)
    (h : F.next (i + (F.parse i s).frames.length) ((F.parse i s).rest ++ t) = some (n, none)) :
    (F.parse i (s ++ t)).ok = false := by
  rw [parse_append i s t ok, parse_bad h]

/-- A bad frame stays bad whatever follows. -/
theorem parse_append_bad (i : Nat) (s t : List α) (bad : (F.parse i s).ok = false) :
    (F.parse i (s ++ t)).ok = false := by
  induction i, s using parse_induction (F := F) with
  | incomplete i s h => rw [parse_none h] at bad; cases bad
  | bad i s n h => rw [parse_bad (F.next_append t h)]
  | good i s n c h ih =>
    rw [parse_good h] at bad
    rw [parse_good (F.next_append t h), List.drop_append_of_le_length (F.next_pos h).2]
    exact ih bad

/-! ## Sending -/

/-- The frames of a sender, numbered from `i` on. -/
def wire (encode : Nat → β → List α) (i : Nat) : List β → List α
  | [] => []
  | c :: cs => encode i c ++ wire encode (i + 1) cs

/-- How many of the frames are complete within the first `n` elements of the stream. -/
def arrived (encode : Nat → β → List α) (i : Nat) : List β → Nat → Nat
  | [], _ => 0
  | c :: cs, n =>
    if (encode i c).length ≤ n then arrived encode (i + 1) cs (n - (encode i c).length) + 1 else 0

/-- The receiver recognises the sender's frame, and no proper part of it. -/
structure Encodes (F : Framing α β) (encode : Nat → β → List α) (c : β) : Prop where
  whole : ∀ i, F.next i (encode i c) = some ((encode i c).length, some c)
  part : ∀ i n, n < (encode i c).length → F.next i ((encode i c).take n) = none

theorem parse_wire {encode : Nat → β → List α} {cs : List β} (good : ∀ c ∈ cs, Encodes F encode c) (i n : Nat) :
    (F.parse i ((wire encode i cs).take n)).ok = true ∧
      (F.parse i ((wire encode i cs).take n)).frames = cs.take (arrived encode i cs n) := by
  induction cs generalizing i n with
  | nil =>
    simp [wire, arrived, parse_none (F.next_nil i)]
  | cons c cs ih =>
    have hc := good c List.mem_cons_self
    simp only [wire, arrived]
    by_cases all : (encode i c).length ≤ n
    · rw [if_pos all, List.take_append, List.take_of_length_le all, parse_good (F.next_append _ (hc.whole i)),
        List.drop_left]
      have := ih (fun d hd => good d (List.mem_cons_of_mem _ hd)) (i + 1) (n - (encode i c).length)
      exact ⟨this.1, by simp only [this.2, List.take_succ_cons]⟩
    · rw [if_neg all, List.take_append_of_le_length (by omega), parse_none (hc.part i n (by omega))]
      exact ⟨rfl, rfl⟩

theorem arrived_all {encode : Nat → β → List α} {cs : List β} {i n : Nat} (all : (wire encode i cs).length ≤ n) :
    arrived encode i cs n = cs.length := by
  induction cs generalizing i n with
  | nil => rfl
  | cons c cs ih =>
    simp only [wire, List.length_append] at all
    rw [arrived, if_pos (by omega), ih (by omega), List.length_cons]

end Framing

end Shadowsocks.Lib
