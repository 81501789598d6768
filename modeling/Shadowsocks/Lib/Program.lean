import Mathlib.Tactic.Common

/-!
# Pre- and postconditions of code with a state

Code that changes a state and may fail is `StateT σ (Except ε)`. `Triple bad pre m post`
says that `m`, from a state with `pre`, does not fail with `bad`, and that its result and
the state it leaves have `post`. Other failures are not excluded; they leave no state.
`Leads pre m post` excludes no failure at all.
-/

namespace Shadowsocks.Lib
set_option autoImplicit false

section
variable {σ ε α β : Type} {bad : ε}

/-- A program runs its first part, and its second part from the state that this leaves. -/
theorem bind_run {m : StateT σ (Except ε) α} {k : α → StateT σ (Except ε) β} {s s' : σ} {a : α} (done : m s = .ok (a, s')) :
    (m >>= k) s = k a s' := by
  have unfolded : (m >>= k) s = m s >>= fun r => k r.1 r.2 := rfl
  rw [unfolded, done]
  rfl

theorem get_run (s : σ) : (get : StateT σ (Except ε) σ) s = .ok (s, s) := rfl

/-- A computation without a state leaves the state as it is. -/
theorem lift_run {x : Except ε α} {a : α} (done : x = .ok a) (s : σ) : (liftM x : StateT σ (Except ε) α) s = .ok (a, s) := by
  rw [done]
  rfl

theorem modify_run (f : σ → σ) (s : σ) : (modify f : StateT σ (Except ε) Unit) s = .ok ((), f s) := rfl

/-- From a state with `pre` the program does not stop with `bad`, and if it returns, `post` holds
of what it returns and of the state it leaves. -/
def Triple (bad : ε) (pre : σ → Prop) (m : StateT σ (Except ε) α) (post : α → σ → Prop) : Prop :=
  ∀ s, pre s → m s ≠ .error bad ∧ ∀ a s', m s = .ok (a, s') → post a s'

namespace Triple
variable {pre pre' : σ → Prop} {m : StateT σ (Except ε) α} {post post' : α → σ → Prop}

/-- A triple may be asked of more states, and be used for less. -/
theorem consequence (triple : Triple bad pre' m post') (stronger : ∀ s, pre s → pre' s) (weaker : ∀ a s, post' a s → post a s) :
    Triple bad pre m post := fun s here =>
  ⟨(triple s (stronger s here)).1, fun a s' done => weaker a s' ((triple s (stronger s here)).2 a s' done)⟩

theorem ret {a : α} (here : ∀ s, pre s → post a s) : Triple bad pre (pure a) post := by
  intro s holds
  refine ⟨nofun, fun b s' done => ?_⟩
  cases done
  exact here s holds

/-- What the first part ensures is what the second one may use. -/
theorem bind {mid : α → σ → Prop} {k : α → StateT σ (Except ε) β} {post : β → σ → Prop} (first : Triple bad pre m mid)
    (rest : ∀ a, Triple bad (mid a) (k a) post) : Triple bad pre (m >>= k) post := by
  intro s holds
  obtain ⟨safe, after⟩ := first s holds
  have unfolded : (m >>= k) s = m s >>= fun r => k r.1 r.2 := rfl
  rw [unfolded]
  cases done : m s with
  | error e => exact ⟨fun same => safe (by rw [done, Except.error.inj same]), nofun⟩
  | ok r => exact rest r.1 r.2 (after r.1 r.2 done)

/-- A fact about the state that the precondition implies. -/
theorem of_fact {fact : Prop} (known : ∀ s, pre s → fact) (rest : fact → Triple bad pre m post) : Triple bad pre m post :=
  fun s holds => rest (known s holds) s holds

theorem modify {f : σ → σ} {post : Unit → σ → Prop} (here : ∀ s, pre s → post () (f s)) :
    Triple bad pre (modify f : StateT σ (Except ε) Unit) post := by
  intro s holds
  refine ⟨nofun, fun a s' done => ?_⟩
  cases done
  exact here s holds

/-- Reading the state tells what it is. -/
theorem get : Triple bad pre (MonadState.get : StateT σ (Except ε) σ) fun t s => pre s ∧ t = s := by
  intro s holds
  refine ⟨nofun, fun a s' done => ?_⟩
  cases done
  exact ⟨holds, rfl⟩

/-- A computation without the state, of which only success matters. -/
theorem lift {x : Except ε α} (safe : x ≠ .error bad) :
    Triple bad pre (liftM x : StateT σ (Except ε) α) fun a s => pre s ∧ x = .ok a := by
  intro s holds
  cases x with
  | error e => exact ⟨fun same => safe (by rw [Except.error.inj same]), nofun⟩
  | ok b =>
    refine ⟨nofun, fun a s' done => ?_⟩
    cases done
    exact ⟨holds, rfl⟩

/-- A failure that is not the bad one ensures anything. -/
theorem fail {e : ε} (other : e ≠ bad) : Triple bad pre (throw e : StateT σ (Except ε) α) post :=
  fun _ _ => ⟨fun same => other (Except.error.inj same), nofun⟩

/-- Code that is not reached. -/
theorem unreachable (never : ∀ s, ¬ pre s) : Triple bad pre m post := fun s holds => absurd holds (never s)

/-- A part that can be skipped. -/
theorem when {c : Prop} [Decidable c] {m : StateT σ (Except ε) Unit} {post : Unit → σ → Prop} (then_ : c → Triple bad pre m post)
    (else_ : ¬ c → ∀ s, pre s → post () s) : Triple bad pre (if c then m else pure ()) post := by
  split
  · exact then_ ‹_›
  · exact ret (else_ ‹_›)

end Triple

/-! ## What is left if nothing fails -/

/-- From a state with `pre`, what `m` leaves has `post`, unless it fails. -/
def Leads (pre : σ → Prop) (m : StateT σ (Except ε) α) (post : α → σ → Prop) : Prop :=
  ∀ s, pre s → ∀ a s', m s = .ok (a, s') → post a s'

namespace Leads
variable {pre pre' : σ → Prop} {m : StateT σ (Except ε) α} {post post' : α → σ → Prop}

/-- The same rules where failures are of no concern. -/
theorem consequence (leads : Leads pre' m post') (stronger : ∀ s, pre s → pre' s) (weaker : ∀ a s, post' a s → post a s) :
    Leads pre m post := fun s here a s' done => weaker a s' (leads s (stronger s here) a s' done)

theorem ret {a : α} (here : ∀ s, pre s → post a s) : Leads pre (pure a : StateT σ (Except ε) α) post := by
  intro s holds b s' done
  cases done
  exact here s holds

/-- Composition of two programs. -/
theorem bind {mid : α → σ → Prop} {k : α → StateT σ (Except ε) β} {post : β → σ → Prop} (first : Leads pre m mid)
    (rest : ∀ a, Leads (mid a) (k a) post) : Leads pre (m >>= k) post := by
  intro s holds b t finished
  have unfolded : (m >>= k) s = m s >>= fun r => k r.1 r.2 := rfl
  rw [unfolded] at finished
  cases done : m s with
  | error e =>
    rw [done] at finished
    cases finished
  | ok r =>
    rw [done] at finished
    exact rest r.1 r.2 (first s holds r.1 r.2 done) b t finished

/-- A fact about the state that the precondition implies. -/
theorem of_fact {fact : Prop} (known : ∀ s, pre s → fact) (rest : fact → Leads pre m post) : Leads pre m post :=
  fun s holds => rest (known s holds) s holds

/-- The state that is read is the one that is there. -/
theorem get : Leads pre (MonadState.get : StateT σ (Except ε) σ) fun t s => pre s ∧ t = s := by
  intro s holds a s' done
  cases done
  exact ⟨holds, rfl⟩

theorem modify {f : σ → σ} {post : Unit → σ → Prop} (here : ∀ s, pre s → post () (f s)) :
    Leads pre (modify f : StateT σ (Except ε) Unit) post := by
  intro s holds a s' done
  cases done
  exact here s holds

/-- What a computation returns is known to be its result. -/
theorem lift {x : Except ε α} : Leads pre (liftM x : StateT σ (Except ε) α) fun a s => pre s ∧ x = .ok a := by
  intro s holds a s' done
  cases x with
  | error e => cases done
  | ok b =>
    cases done
    exact ⟨holds, rfl⟩

theorem fail {e : ε} : Leads pre (throw e : StateT σ (Except ε) α) post := fun _ _ _ _ done => by cases done

/-- A branch is taken only where its condition holds. -/
theorem ite {c : Prop} [Decidable c] {m' : StateT σ (Except ε) α} (pos : c → Leads pre m post) (neg : ¬ c → Leads pre m' post) :
    Leads pre (if c then m else m') post := by
  split
  · exact pos ‹_›
  · exact neg ‹_›

/-- The first part keeps a property that the rest starts from. -/
theorem seq {k : α → StateT σ (Except ε) β} {post : β → σ → Prop} (first : Leads pre m fun _ => pre)
    (rest : ∀ a, Leads pre (k a) post) : Leads pre (m >>= k) post := bind first rest

end Leads

end

end Shadowsocks.Lib
