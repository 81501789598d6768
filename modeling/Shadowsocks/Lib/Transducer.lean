import Shadowsocks.Lib.Bytes

/-!
# Stream transformers fed in pieces

A `Transducer` maps an input stream to an output stream and keeps a state between
calls; its one law says that feeding `xs ++ ys` is feeding `xs` and then `ys`. Any
cutting of the input then gives the same output and the same final state
(`flatten_runs`), and a pair of mutually inverse transducers undoes
any cutting on one side by any cutting on the other (`Inverse.flatten_runs`).
-/

namespace Shadowsocks.Lib
set_option autoImplicit false

structure Transducer (α β : Type) where
  State : Type
  run : State → List α → List β × State
  run_nil : ∀ s, run s [] = ([], s)
  run_append : ∀ s xs ys,
    run s (xs ++ ys) = ((run s xs).1 ++ (run (run s xs).2 ys).1, (run (run s xs).2 ys).2)

namespace Transducer
variable {α β : Type}

/-- One call per piece, in order. -/
def runs (T : Transducer α β) : T.State → List (List α) → List (List β) × T.State
  | s, [] => ([], s)
  | s, xs :: xss => ((T.run s xs).1 :: (T.runs (T.run s xs).2 xss).1, (T.runs (T.run s xs).2 xss).2)

theorem runs_eq (T : Transducer α β) (s : T.State) (xss : List (List α)) :
    (T.runs s xss).1.flatten = (T.run s xss.flatten).1 ∧ (T.runs s xss).2 = (T.run s xss.flatten).2 := by
  induction xss generalizing s with
  | nil => simp [runs, T.run_nil]
  | cons xs xss ih =>
    obtain ⟨out, state⟩ := ih (T.run s xs).2
    simp only [runs, List.flatten_cons, T.run_append, out, state, and_self]

/-- The output does not depend on the cutting. -/
theorem flatten_runs (T : Transducer α β) (s : T.State) (xss : List (List α)) :
    (T.runs s xss).1.flatten = (T.run s xss.flatten).1 :=
  (T.runs_eq s xss).1

/-- Every piece of output is as long as the piece of input it answers. -/
def LengthPreserving (T : Transducer α β) : Prop :=
  ∀ s xs, (T.run s xs).1.length = xs.length

theorem LengthPreserving.runs {T : Transducer α β} (h : T.LengthPreserving) (s : T.State)
    (xss : List (List α)) : (T.runs s xss).1.map List.length = xss.map List.length := by
  induction xss generalizing s with
  | nil => rfl
  | cons xs xss ih => simp only [Transducer.runs, List.map_cons, h s xs, ih]

theorem LengthPreserving.flatten_runs {T : Transducer α β} (h : T.LengthPreserving) (s : T.State)
    (xss : List (List α)) : (T.runs s xss).1.flatten.length = xss.flatten.length := by
  rw [T.flatten_runs, h]

/-- `U` started in `t` undoes `T` started in `s`. -/
def Inverse (T : Transducer α β) (U : Transducer β α) (s : T.State) (t : U.State) : Prop :=
  ∀ xs, (U.run t (T.run s xs).1).1 = xs

/-- Whatever the cutting of the plain stream and whatever the cutting of the
transformed one, the pieces come back in order. -/
theorem Inverse.flatten_runs {T : Transducer α β} {U : Transducer β α} {s : T.State} {t : U.State}
    (h : T.Inverse U s t) {xss : List (List α)} {yss : List (List β)}
    (cut : yss.flatten = (T.runs s xss).1.flatten) : (U.runs t yss).1.flatten = xss.flatten := by
  rw [U.flatten_runs, cut, T.flatten_runs, h]

end Transducer

/-! ## Calls that can fail -/

section
variable {ε σ α β : Type}

/-- One call for each argument; what a call leaves behind is where the next one starts. -/
def feed (call : σ → α → Except ε β) (next : β → σ) : σ → List α → Except ε (List β)
  | _, [] => pure []
  | s, a :: as => do
    let b ← call s a
    let bs ← feed call next (next b) as
    pure (b :: bs)

/-- Calls that leave the state as it is are made one by one. -/
theorem feed_map {call : σ → α → Except ε β} {next : β → σ} {s : σ} {result : α → β} {args : List α}
    (one : ∀ a ∈ args, call s a = .ok (result a)) (kept : ∀ a ∈ args, next (result a) = s) :
    feed call next s args = .ok (args.map result) := by
  induction args with
  | nil => rfl
  | cons a args ih =>
    have rest := ih (fun a mem => one a (List.mem_cons_of_mem _ mem)) fun a mem => kept a (List.mem_cons_of_mem _ mem)
    have here := one a List.mem_cons_self
    rw [feed, here]
    change (do let bs ← feed call next (next (result a)) args; pure (result a :: bs)) = _
    rw [kept a List.mem_cons_self, rest]
    rfl

end

/-! ## Keystream exclusive-or -/

/-- `xs` exclusive-or the keystream bytes from position `pos` on. -/
def xorAt (ks : Nat → UInt8) : Nat → Bytes → Bytes
  | _, [] => []
  | pos, x :: xs => (x ^^^ ks pos) :: xorAt ks (pos + 1) xs

@[simp] theorem length_xorAt (ks : Nat → UInt8) (pos : Nat) (xs : Bytes) :
    (xorAt ks pos xs).length = xs.length := by
  induction xs generalizing pos with
  | nil => rfl
  | cons x xs ih => simp [xorAt, ih]

theorem xorAt_append (ks : Nat → UInt8) (pos : Nat) (xs ys : Bytes) :
    xorAt ks pos (xs ++ ys) = xorAt ks pos xs ++ xorAt ks (pos + xs.length) ys := by
  induction xs generalizing pos with
  | nil => rfl
  | cons x xs ih =>
    simp only [List.cons_append, xorAt, ih, List.length_cons]
    rw [show pos + 1 + xs.length = pos + (xs.length + 1) by omega]

theorem xorAt_xorAt (ks : Nat → UInt8) (pos : Nat) (xs : Bytes) : xorAt ks pos (xorAt ks pos xs) = xs := by
  induction xs generalizing pos with
  | nil => rfl
  | cons x xs ih => rw [xorAt, xorAt, ih, UInt8.xor_assoc, UInt8.xor_self, UInt8.xor_zero]

end Shadowsocks.Lib
