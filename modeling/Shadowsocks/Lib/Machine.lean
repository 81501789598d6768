import Mathlib.Tactic.Common

/-!
# Event-driven machines

A machine is a partial step function: an event may fire in a state where it is
enabled, and firing it gives the next state or stops the machine for good. `Reach`
collects the states between events, along runs whose events all satisfy a side
condition; `Reach.invariant` is the induction every safety property goes through.
-/

namespace Shadowsocks.Lib
set_option autoImplicit false

structure Machine (σ ε τ : Type) where
  enabled : σ → ε → Bool
  fire : σ → ε → Except τ σ

namespace Machine
variable {σ ε τ : Type}

/-- The states reached from `start` by enabled events that satisfy `allowed`. -/
inductive Reach (M : Machine σ ε τ) (allowed : σ → ε → Prop) (start : σ) : σ → Prop where
  | refl : Reach M allowed start start
  | step {s s' : σ} {e : ε} : Reach M allowed start s → M.enabled s e = true → allowed s e →
      M.fire s e = .ok s' → Reach M allowed start s'

variable {M : Machine σ ε τ} {allowed : σ → ε → Prop} {start : σ}

/-- A property of the initial state that every allowed step keeps holds throughout. -/
theorem Reach.invariant {s : σ} (h : Reach M allowed start s) (Inv : σ → Prop) (init : Inv start)
    (keep : ∀ s e s', Inv s → M.enabled s e = true → allowed s e → M.fire s e = .ok s' → Inv s') : Inv s := by
  induction h with
  | refl => exact init
  | step _ on ok fired ih => exact keep _ _ _ ih on ok fired

/-- A run all of whose steps are allowed in another sense as well. -/
theorem Reach.mono {allowed' : σ → ε → Prop} {s : σ} (h : Reach M allowed start s)
    (may : ∀ s e, Reach M allowed start s → allowed s e → allowed' s e) : Reach M allowed' start s := by
  induction h with
  | refl => exact .refl
  | step before on ok fired ih => exact .step ih on (may _ _ before ok) fired

/-- The run of a whole list of events, refused where one of them is not enabled. -/
def run (M : Machine σ ε τ) : σ → List ε → Option (Except τ σ)
  | s, [] => some (.ok s)
  | s, e :: es =>
    if M.enabled s e then
      match M.fire s e with
      | .ok s' => M.run s' es
      | .error t => some (.error t)
    else none

theorem run_fire {s s' : σ} {e : ε} (es : List ε) (on : M.enabled s e = true) (fired : M.fire s e = .ok s') :
    M.run s (e :: es) = M.run s' es := by
  rw [run, if_pos on, fired]

/-- Where a list of allowed events can be run, it leads to a reachable state. -/
theorem Reach.of_run {es : List ε} {s t : σ} (from_ : Reach M allowed start s)
    (may : ∀ e ∈ es, ∀ s, allowed s e) (h : M.run s es = some (.ok t)) : Reach M allowed start t := by
  induction es generalizing s with
  | nil => cases h; exact from_
  | cons e es ih =>
    simp only [run] at h
    split at h
    · rename_i on
      cases fired : M.fire s e with
      | ok s' =>
        rw [fired] at h
        exact ih (.step from_ on (may e List.mem_cons_self s) fired) (fun e he => may e (List.mem_cons_of_mem _ he)) h
      | error t' => rw [fired] at h; simp at h
    · cases h

/-- A run of a machine whose events stand for allowed events of `M`. -/
theorem Reach.of_lifted_run {ε' : Type} {N : Machine σ ε' τ} {lift : ε' → ε}
    (on : ∀ s e, N.enabled s e = true → M.enabled s (lift e) = true ∧ allowed s (lift e))
    (fire : ∀ s e, N.fire s e = M.fire s (lift e)) {es : List ε'} {s t : σ} (from_ : Reach M allowed start s)
    (h : N.run s es = some (.ok t)) : Reach M allowed start t := by
  induction es generalizing s with
  | nil => cases h; exact from_
  | cons e es ih =>
    simp only [run] at h
    split at h
    · rename_i enabled
      obtain ⟨enabled', may⟩ := on s e enabled
      cases fired : N.fire s e with
      | ok s' =>
        rw [fired] at h
        exact ih (.step from_ enabled' may ((fire s e).symm.trans fired)) h
      | error t' => rw [fired] at h; simp at h
    · cases h

/-- The machine that also refuses an event for which `check` fails. -/
def restrict (M : Machine σ ε τ) (check : σ → ε → Bool) : Machine σ ε τ where
  enabled s e := M.enabled s e && check s e
  fire := M.fire

theorem Reach.of_restrict {check : σ → ε → Bool} (may : ∀ s e, check s e = true → allowed s e) {es : List ε} {s t : σ}
    (from_ : Reach M allowed start s) (h : (M.restrict check).run s es = some (.ok t)) : Reach M allowed start t := by
  have on : ∀ s e, (M.restrict check).enabled s e = true → M.enabled s (id e) = true ∧ allowed s (id e) := by
    intro s e both
    obtain ⟨enabled, fine⟩ := Bool.and_eq_true_iff.mp both
    exact ⟨enabled, may s e fine⟩
  exact Reach.of_lifted_run on (fun _ _ => rfl) from_ h

/-- The run of a list of events leads to an open state in which `p` holds. -/
def leadsTo (M : Machine σ ε τ) (s : σ) (es : List ε) (p : σ → Bool) : Bool :=
  match M.run s es with
  | some (.ok t) => p t
  | _ => false

theorem exists_of_leadsTo {s : σ} {es : List ε} {p : σ → Bool} (h : M.leadsTo s es p = true) :
    ∃ t, M.run s es = some (.ok t) ∧ p t = true := by
  unfold leadsTo at h
  split at h
  · rename_i t ran
    exact ⟨t, ran, h⟩
  · cases h

/-- Firing ends the machine with `t`. -/
def stopsWith [DecidableEq τ] (t : τ) : Except τ σ → Bool
  | .ok _ => false
  | .error t' => t' = t

theorem eq_error_of_stopsWith [DecidableEq τ] {t : τ} {x : Except τ σ} (h : stopsWith t x = true) : x = .error t := by
  cases x with
  | ok s => cases h
  | error t' => rw [of_decide_eq_true h]

/-- Events are offered one after the other; one that is not enabled is passed over. -/
def offers (M : Machine σ ε τ) : σ → List ε → Except τ σ
  | s, [] => .ok s
  | s, e :: es =>
    if M.enabled s e then
      match M.fire s e with
      | .ok s' => M.offers s' es
      | .error t => .error t
    else M.offers s es

theorem offers_fire {s s' : σ} {e : ε} (es : List ε) (on : M.enabled s e = true) (fired : M.fire s e = .ok s') :
    M.offers s (e :: es) = M.offers s' es := by
  rw [offers, if_pos on, fired]

theorem offers_stop {s : σ} {e : ε} {t : τ} (es : List ε) (on : M.enabled s e = true)
    (stopped : M.fire s e = .error t) : M.offers s (e :: es) = .error t := by
  rw [offers, if_pos on, stopped]

theorem offers_skip {s : σ} {e : ε} (es : List ε) (off : M.enabled s e = false) :
    M.offers s (e :: es) = M.offers s es := by
  rw [offers, off]
  rfl

/-- `P` holds whenever an event of the list fires; one that is not enabled is passed over. -/
def Throughout (M : Machine σ ε τ) (P : σ → ε → Prop) : σ → List ε → Prop
  | _, [] => True
  | s, e :: es =>
    if M.enabled s e then P s e ∧ ∀ s', M.fire s e = .ok s' → M.Throughout P s' es
    else M.Throughout P s es

/-- What holds throughout holds of the first event. -/
theorem Throughout.first {P : σ → ε → Prop} {s : σ} {e : ε} {es : List ε} (all : M.Throughout P s (e :: es))
    (on : M.enabled s e = true) : P s e := by
  rw [Throughout, if_pos on] at all
  exact all.1

/-- It holds throughout the rest. -/
theorem Throughout.rest {P : σ → ε → Prop} {s s' : σ} {e : ε} {es : List ε} (all : M.Throughout P s (e :: es))
    (on : M.enabled s e = true) (fired : M.fire s e = .ok s') : M.Throughout P s' es := by
  rw [Throughout, if_pos on] at all
  exact all.2 s' fired

/-- Two steps that lead to related states, or that both stop their machine. -/
inductive Both {σ' τ' : Type} (Rel : σ → σ' → Prop) : Except τ σ → Except τ' σ' → Prop where
  | go {s : σ} {t : σ'} (related : Rel s t) : Both Rel (.ok s) (.ok t)
  | stop (e : τ) (e' : τ') : Both Rel (.error e) (.error e')

/-- Two machines over the same events that go along with each other: related states
enable the same events, and firing one leads to related states or stops both. -/
structure Alongside {σ' τ' : Type} (M : Machine σ ε τ) (N : Machine σ' ε τ') (Rel : σ → σ' → Prop) : Prop where
  enabled : ∀ s t e, Rel s t → M.enabled s e = N.enabled t e
  fire : ∀ s t e, Rel s t → M.enabled s e = true → Both Rel (M.fire s e) (N.fire t e)

/-- What says the same in related states holds throughout the one run iff throughout the other. -/
theorem Alongside.throughout {σ' τ' : Type} {N : Machine σ' ε τ'} {Rel : σ → σ' → Prop} (along : Alongside M N Rel)
    {P : σ → ε → Prop} {Q : σ' → ε → Prop}
    (same : ∀ s t e, Rel s t → M.enabled s e = true → (P s e ↔ Q t e)) {s : σ} {t : σ'} (related : Rel s t) (es : List ε) :
    M.Throughout P s es ↔ N.Throughout Q t es := by
  induction es generalizing s t with
  | nil => exact Iff.rfl
  | cons e es ih =>
    unfold Throughout
    rw [← along.enabled s t e related]
    split
    · rename_i on
      refine and_congr (same s t e related on) ?_
      have both := along.fire s t e related on
      generalize M.fire s e = x at both
      generalize N.fire t e = y at both
      cases both with
      | go related' => simpa using ih related'
      | stop => simp
    · exact ih related

/-- `N` is the part of `M` that `view` shows: on states with `good`, the events `lift e`
of `M` do to the view what the events `e` of `N` do. -/
structure Shows {σ' ε' : Type} (M : Machine σ ε τ) (N : Machine σ' ε' τ) (view : σ → σ') (lift : ε' → ε)
    (good : σ → Prop) : Prop where
  enabled : ∀ s e, good s → M.enabled s (lift e) = N.enabled (view s) e
  fire : ∀ s e, good s → N.fire (view s) e = (M.fire s (lift e)).map view
  keeps : ∀ s e s', good s → M.fire s (lift e) = .ok s' → good s'

/-- Runs of such events are runs of `N`. -/
theorem Shows.run {σ' ε' : Type} {N : Machine σ' ε' τ} {view : σ → σ'} {lift : ε' → ε} {good : σ → Prop}
    (shows : Shows M N view lift good) {s : σ} (fine : good s) (es : List ε') :
    N.run (view s) es = (M.run s (es.map lift)).map (Except.map view) := by
  induction es generalizing s with
  | nil => rfl
  | cons e es ih =>
    simp only [Machine.run, List.map_cons, ← shows.enabled s e fine, shows.fire s e fine]
    split
    · cases fired : M.fire s (lift e) with
      | ok s' => exact ih (shows.keeps s e s' fine fired)
      | error t => rfl
    · rfl

end Machine

/-! ## Outgoing data of a relay -/

/-- What has been `produced` for a socket is what it has `accepted` followed by what
is `pending`; something is pending only while the buffer is being drained, and then
nothing more is put into it. -/
def Lossless {α : Type} (produced accepted pending : List α) (draining filling : Bool) : Prop :=
  if draining then produced = accepted ++ pending ∧ filling = false else produced = accepted

namespace Lossless
variable {α : Type} {produced accepted pending : List α} {draining filling : Bool}

/-- Nothing is lost, duplicated or reordered; what is missing is pending. -/
theorem prefix_and_suffix (h : Lossless produced accepted pending draining filling) :
    accepted <+: produced ∧ (accepted.length < produced.length →
      produced = accepted ++ pending ∧ draining = true ∧ filling = false) := by
  unfold Lossless at h
  cases draining with
  | false =>
    simp only [Bool.false_eq_true, if_false] at h
    subst h
    exact ⟨List.prefix_rfl, fun short => absurd short (Nat.lt_irrefl _)⟩
  | true =>
    simp only [if_true] at h
    exact ⟨⟨pending, h.1.symm⟩, fun _ => ⟨h.1, rfl, h.2⟩⟩

theorem idle {l pending : List α} {filling : Bool} : Lossless l l pending false filling := rfl

/-- While the buffer may be filled, everything produced has been accepted. -/
theorem delivered (h : Lossless produced accepted pending draining true) : accepted = produced := by
  unfold Lossless at h
  cases draining with
  | false => exact h.symm
  | true => exact absurd h.2 (by simp)

/-- A fresh buffer of which the socket took the first `n` elements. -/
theorem offer {l bs : List α} (n : Nat) : Lossless (l ++ bs) (l ++ bs.take n) (bs.drop n) true false := by
  refine ⟨?_, rfl⟩
  rw [List.append_assoc, List.take_append_drop]

/-- The socket took `n` more elements of what was pending. -/
theorem drain (h : Lossless produced accepted pending true filling) (n : Nat) :
    Lossless produced (accepted ++ pending.take n) (pending.drop n) true filling := by
  refine ⟨?_, h.2⟩
  rw [List.append_assoc, List.take_append_drop, h.1]

/-- The socket took all that was pending. -/
theorem finish (h : Lossless produced accepted pending true filling) {rest : List α} {on : Bool} :
    Lossless produced (accepted ++ pending) rest false on := h.1

end Lossless

end Shadowsocks.Lib
