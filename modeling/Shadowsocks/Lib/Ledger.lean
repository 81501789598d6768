import Mathlib.Data.List.Induction
import Mathlib.Data.List.Perm.Subperm
import Mathlib.Tactic.Common

/-!
# Requests and answers

A ledger lists requests and answers in the order in which they were made. It is
`Settled` when each answer is to a request that was open at the time. The answers are then
among the requests, each no more often than it was asked.
-/

namespace Shadowsocks.Lib
set_option autoImplicit false

/-- Something is asked, or answered. -/
inductive Entry (κ : Type) where
  | ask (k : κ)
  | answer (k : κ)
  deriving DecidableEq, Repr

abbrev Ledger (κ : Type) := List (Entry κ)

namespace Ledger
variable {κ : Type}

/-- What has been asked, in this order. -/
def asked : Ledger κ → List κ
  | [] => []
  | .ask k :: l => k :: asked l
  | .answer _ :: l => asked l

/-- What has been answered. -/
def answered : Ledger κ → List κ
  | [] => []
  | .ask _ :: l => answered l
  | .answer k :: l => k :: answered l

@[simp] theorem asked_append (l l' : Ledger κ) : asked (l ++ l') = asked l ++ asked l' := by
  induction l with
  | nil => rfl
  | cons e l ih => cases e <;> simp [asked, ih]

@[simp] theorem answered_append (l l' : Ledger κ) : answered (l ++ l') = answered l ++ answered l' := by
  induction l with
  | nil => rfl
  | cons e l ih => cases e <;> simp [answered, ih]

variable [DecidableEq κ]

/-- Every answer is to a request made before it and not answered before it. -/
def Settled (l : Ledger κ) : Prop :=
  ∀ before k after, l = before ++ .answer k :: after → (answered before).count k < (asked before).count k

variable {l : Ledger κ} {k : κ}

theorem settled_nil : Settled ([] : Ledger κ) := by
  intro before k after split
  cases before <;> cases split

/-- One entry more: an answer needs an open request. -/
theorem Settled.concat {e : Entry κ} (h : Settled l)
    (open_ : ∀ k, e = .answer k → (answered l).count k < (asked l).count k) : Settled (l ++ [e]) := by
  intro before k after split
  rcases List.eq_nil_or_concat after with rfl | ⟨after', last, rfl⟩
  · obtain ⟨rfl, same⟩ := List.append_inj' split rfl
    exact open_ k (List.singleton_inj.mp same)
  · rw [List.concat_eq_append, ← List.cons_append, ← List.append_assoc] at split
    obtain ⟨rfl, -⟩ := List.append_inj' split rfl
    exact h before k after' rfl

/-- Asking is always in order. -/
theorem Settled.ask (h : Settled l) : Settled (l ++ [.ask k]) :=
  h.concat fun _ no => by cases no

/-- Answering is, while less has been answered than asked. -/
theorem Settled.answer (h : Settled l) (open_ : (answered l).count k < (asked l).count k) : Settled (l ++ [.answer k]) :=
  h.concat fun k' same => by cases same; exact open_

/-- The answers are, as a multiset, among the requests. -/
theorem Settled.subperm (h : Settled l) : (answered l).Subperm (asked l) := by
  rw [List.subperm_ext_iff]
  intro k _
  -- induction on the length of the ledger: its last entry is an answer to `k` or is not
  induction l using List.reverseRecOn with
  | nil => exact Nat.le_refl _
  | append_singleton l e ih =>
    have earlier : Settled l := fun before k' after split => h before k' (after ++ [e]) (by rw [split]; simp)
    have before : (answered l).count k ≤ (asked l).count k := by
      by_cases mem : k ∈ answered l
      · exact ih earlier mem
      · rw [List.count_eq_zero.mpr mem]
        exact Nat.zero_le _
    rw [answered_append, asked_append, List.count_append, List.count_append]
    cases e with
    | ask k' => exact Nat.le_add_right_of_le before
    | answer k' =>
      by_cases same : k' = k
      · subst same
        have open_ := h l k' [] rfl
        simp only [answered, asked, List.count_cons_self, List.count_nil]
        omega
      · simp only [answered, asked, List.count_cons_of_ne same, List.count_nil]
        omega

end Ledger

end Shadowsocks.Lib
