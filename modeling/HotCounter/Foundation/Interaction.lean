import Mathlib

/-!
# Programs that interact with a shared world, and rules for them

A `Prog` performs effects one at a time and continues with the reply. Every point of it carries
the program's own volatile state, so that an observer can see where an interrupted program
stands. A `Script` is a program as a function of that state: it is a monad, and its `do` blocks
read like the imperative code they model. `Script.Keeps` says that a script keeps a property of
its own state at every point, whatever the effects reply.

The environment may move the shared world between any two effects. `Safe` says that whatever
it does within its `rely`, every effect of the program keeps the `guar`antee and the program
ends in its postcondition. It is stable under the environment (`Safe.rely`), composes along
`bind` (`Safe.bind`), and is proved effect by effect from assertions that the environment
respects (`Safe.op`, `Safe.ret`).
-/

namespace HotCounter

namespace Foundation

/-- A program with volatile state in `σ` and effects `ε` whose replies are `ρ`. -/
inductive Prog (σ : Type) {ε : Type} (ρ : ε → Type) (α : Type)
  | ret (s : σ) (a : α)
  | op (s : σ) (e : ε) (k : ρ e → Prog σ ρ α)

namespace Prog

variable {σ ε α β : Type} {ρ : ε → Type}

/-- The volatile state at a point, if a program that ends there goes on with state `next`. -/
def stateWith (next : σ → α → σ) : Prog σ ρ α → σ
  | .ret s a => next s a
  | .op s _ _ => s

/-- The volatile state at a point. -/
def state (p : Prog σ ρ α) : σ := p.stateWith fun s _ => s

/-- Sequencing. -/
def bind (p : Prog σ ρ α) (f : σ → α → Prog σ ρ β) : Prog σ ρ β :=
  match p with
  | .ret s a => f s a
  | .op s e k => .op s e fun r => (k r).bind f

@[simp]
theorem state_ret (s : σ) (a : α) : (ret s a : Prog σ ρ α).state = s := rfl

@[simp]
theorem state_op (s : σ) (e : ε) (k : ρ e → Prog σ ρ α) : (op s e k).state = s := rfl

@[simp]
theorem ret_bind (s : σ) (a : α) (f : σ → α → Prog σ ρ β) : (ret s a).bind f = f s a := rfl

@[simp]
theorem op_bind (s : σ) (e : ε) (k : ρ e → Prog σ ρ α) (f : σ → α → Prog σ ρ β) :
    (op s e k).bind f = op s e fun r => (k r).bind f := rfl

/-- Running on after a program is running on after its last part. -/
theorem stateWith_bind (p : Prog σ ρ α) (f : σ → α → Prog σ ρ β) (next : σ → β → σ) :
    (p.bind f).stateWith next = p.stateWith fun s a => (f s a).stateWith next := by
  cases p <;> rfl

end Prog

/-- A program as a function of its volatile state. -/
def Script (σ : Type) {ε : Type} (ρ : ε → Type) (α : Type) : Type := σ → Prog σ ρ α

namespace Script

variable {σ ε α β : Type} {ρ : ε → Type}

instance : Monad (Script σ ρ) where
  pure a := fun s => .ret s a
  bind x f := fun s => (x s).bind fun s a => f a s

instance : MonadStateOf σ (Script σ ρ) where
  get := fun s => .ret s s
  set s := fun _ => .ret s ()
  modifyGet f := fun s => .ret (f s).2 (f s).1

/-- Perform one effect. -/
def perform (e : ε) : Script σ ρ (ρ e) := fun s => .op s e fun r => .ret s r

@[simp]
theorem pure_apply (a : α) (s : σ) : (pure a : Script σ ρ α) s = .ret s a := rfl

@[simp]
theorem bind_apply (x : Script σ ρ α) (f : α → Script σ ρ β) (s : σ) :
    (x >>= f) s = (x s).bind fun s a => f a s := rfl

@[simp]
theorem get_apply (s : σ) : (get : Script σ ρ σ) s = .ret s s := rfl

@[simp]
theorem modify_apply (f : σ → σ) (s : σ) :
    (modify f : Script σ ρ PUnit) s = .ret (f s) ⟨⟩ := rfl

@[simp]
theorem ite_apply (p : Prop) [Decidable p] (x y : Script σ ρ α) (s : σ) :
    (if p then x else y) s = if p then x s else y s := by
  split <;> rfl

@[simp]
theorem perform_apply (e : ε) (s : σ) :
    (perform e : Script σ ρ (ρ e)) s = .op s e fun r => .ret s r := rfl

end Script

/-! ### What holds at every point -/

namespace Prog

variable {σ ε α β : Type} {ρ : ε → Type} {P : σ → Prop}

/-- `P` holds of the volatile state at every point, whatever the effects reply. -/
def Always (P : σ → Prop) : Prog σ ρ α → Prop
  | .ret s _ => P s
  | .op s _ k => P s ∧ ∀ r, (k r).Always P

/-- What always holds holds of the state at the present point. -/
theorem Always.state {p : Prog σ ρ α} (h : p.Always P) : P p.state := by
  cases p with
  | ret s a => exact h
  | op s e k => exact h.1

/-- What always holds of a program and of what follows it always holds of both in sequence. -/
theorem Always.bind {f : σ → α → Prog σ ρ β} (hf : ∀ s a, P s → (f s a).Always P) :
    ∀ {p : Prog σ ρ α}, p.Always P → (p.bind f).Always P
  | .ret s a, h => hf s a h
  | .op _ _ _, h => ⟨h.1, fun r => Always.bind hf (h.2 r)⟩

end Prog

namespace Script

variable {σ ε α β : Type} {ρ : ε → Type} {P : σ → Prop}

/-- Started where `P` holds, the script keeps it at every point. -/
def Keeps (P : σ → Prop) (x : Script σ ρ α) : Prop := ∀ s, P s → (x s).Always P

theorem Keeps.pure (a : α) : Keeps P (pure a : Script σ ρ α) := fun _ hs => hs

/-- A request to the environment leaves the state alone. -/
theorem Keeps.perform (e : ε) : Keeps P (perform e : Script σ ρ (ρ e)) := fun _ hs =>
  ⟨hs, fun _ => hs⟩

/-- A change of the state keeps what the function keeps. -/
theorem Keeps.modify {f : σ → σ} (hf : ∀ s, P s → P (f s)) :
    Keeps P (modify f : Script σ ρ PUnit) := fun s hs => hf s hs

/-- Scripts that keep an invariant keep it in sequence. -/
theorem Keeps.bind {x : Script σ ρ α} {f : α → Script σ ρ β} (hx : Keeps P x)
    (hf : ∀ a, Keeps P (f a)) : Keeps P (x >>= f) := fun s hs =>
  (hx s hs).bind fun t a ht => hf a t ht

/-- After `get` the script knows that `P` holds of what it got. -/
theorem Keeps.get_bind {f : σ → Script σ ρ α} (hf : ∀ s, P s → Keeps P (f s)) :
    Keeps P (get >>= f) := fun s hs => hf s hs s hs

/-- A test between two scripts keeps what both keep. -/
theorem Keeps.ite {p : Prop} [Decidable p] {x y : Script σ ρ α} (hx : p → Keeps P x)
    (hy : ¬ p → Keeps P y) : Keeps P (if p then x else y) := by
  split
  · exact hx ‹_›
  · exact hy ‹_›

end Script

/-! ### Rely and guarantee -/

/-- How a program meets its world: what an effect does, which effects are faults, how the world
shows the program's volatile state, what the environment may do and what the program must keep
to. -/
structure Setting (σ : Type) {ε : Type} (ρ : ε → Type) (W : Type) where
  step : (e : ε) → W → ρ e → W → Prop
  fault : ε → Prop
  expose : σ → W → W
  rely : W → W → Prop
  guar : W → W → Prop
  rely_refl : ∀ w, rely w w
  rely_trans : ∀ {u v w}, rely u v → rely v w → rely u w

namespace Setting

variable {σ ε α β W : Type} {ρ : ε → Type} (S : Setting σ ρ W)

/-- Whatever the environment does, no effect is a fault, every effect keeps the guarantee and
the program ends in `Q`. The world shows `next s a` once the program has returned `a` in
state `s`. -/
def Safe (next : σ → α → σ) (Q : σ → α → W → Prop) : Prog σ ρ α → W → Prop
  | .ret s a, w => ∀ w', S.rely w w' → Q s a w'
  | .op _ e k, w => ¬ S.fault e ∧ ∀ w', S.rely w w' → ∀ r w'', S.step e w' r w'' →
      S.guar w' (S.expose ((k r).stateWith next) w'') ∧
        Safe next Q (k r) (S.expose ((k r).stateWith next) w'')

variable {S} {next : σ → α → σ} {Q : σ → α → W → Prop}

/-- The environment cannot make a program unsafe. -/
theorem Safe.rely {p : Prog σ ρ α} {w w' : W} (h : S.Safe next Q p w) (hw : S.rely w w') :
    S.Safe next Q p w' := by
  cases p with
  | ret s a => exact fun v hv => h v (S.rely_trans hw hv)
  | op s e k => exact ⟨h.1, fun v hv => h.2 v (S.rely_trans hw hv)⟩

/-- A program that has ended is in its postcondition. -/
theorem Safe.of_ret {s : σ} {a : α} {w : W} (h : S.Safe next Q (.ret s a) w) : Q s a w :=
  h w (S.rely_refl w)

/-- One effect of a safe program. -/
theorem Safe.step {s : σ} {e : ε} {k : ρ e → Prog σ ρ α} {w w' : W} {r : ρ e}
    (h : S.Safe next Q (.op s e k) w) (hw : S.step e w r w') :
    S.guar w (S.expose ((k r).stateWith next) w') ∧
      S.Safe next Q (k r) (S.expose ((k r).stateWith next) w') :=
  h.2 w (S.rely_refl w) r w' hw

/-- A program that returns needs a postcondition that the environment respects. -/
theorem Safe.ret {A : W → Prop} {s : σ} {a : α} {w : W} (h : A w)
    (hstable : ∀ {w w'}, A w → S.rely w w' → A w') (hQ : ∀ w, A w → Q s a w) :
    S.Safe next Q (.ret s a) w :=
  fun w' hw => hQ w' (hstable h hw)

/-- An effect is performed in any world that the environment may have made of a stable
assertion. -/
theorem Safe.op {A : W → Prop} {s : σ} {e : ε} {k : ρ e → Prog σ ρ α} {w : W} (h : A w)
    (hfault : ¬ S.fault e) (hstable : ∀ {w w'}, A w → S.rely w w' → A w')
    (hstep : ∀ w r w', A w → S.step e w r w' →
      S.guar w (S.expose ((k r).stateWith next) w') ∧
        S.Safe next Q (k r) (S.expose ((k r).stateWith next) w')) :
    S.Safe next Q (.op s e k) w :=
  ⟨hfault, fun w' hw r w'' hs => hstep w' r w'' (hstable h hw) hs⟩

/-- Two programs in a row. -/
theorem Safe.bind {next : σ → β → σ} {Q : σ → β → W → Prop} {f : σ → α → Prog σ ρ β} :
    ∀ {p : Prog σ ρ α} {w : W},
      S.Safe (fun s a => (f s a).stateWith next) (fun s a w => S.Safe next Q (f s a) w) p w →
        S.Safe next Q (p.bind f) w
  | .ret s a, w, h => h w (S.rely_refl w)
  | .op s e k, w, h => ⟨h.1, fun w' hw r w'' hs => by
    have hstep := h.2 w' hw r w'' hs
    rw [Prog.stateWith_bind]
    exact ⟨hstep.1, Safe.bind hstep.2⟩⟩

end Setting

end Foundation

end HotCounter
