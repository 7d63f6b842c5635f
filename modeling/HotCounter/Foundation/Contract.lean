import HotCounter.Foundation.Interaction

/-!
# Contracts of a program whose effects are watched

In a `Setting` the world shows the program's volatile state. A `Contract` is for worlds that do
not: an effect is told instead in which volatile state the program performs it, so that an
observer can note what the program was about when it did something.

`Meets` says that whatever the environment does, no effect is a fault, every effect keeps its
`promise`, and the program ends in its postcondition. It has the same rules as `Setting.Safe`;
since nothing is shown, programs compose without regard to what comes next (`Meets.bind`).
-/

namespace HotCounter

namespace Foundation

/-- What an effect does when it is performed in a volatile state, which effects are faults, what
the environment may do and what every effect must keep to. -/
structure Contract (σ : Type) {ε : Type} (ρ : ε → Type) (W : Type) where
  step : σ → (e : ε) → W → ρ e → W → Prop
  fault : ε → Prop
  rely : W → W → Prop
  promise : (e : ε) → W → ρ e → W → Prop
  rely_refl : ∀ w, rely w w
  rely_trans : ∀ {u v w}, rely u v → rely v w → rely u w

/-- Programs that agree after every reply. -/
theorem Prog.op_congr {σ ε α : Type} {ρ : ε → Type} {s : σ} {e : ε} {k k' : ρ e → Prog σ ρ α}
    (h : ∀ r, k r = k' r) : op s e k = op s e k' := congrArg (op s e) (funext h)

namespace Contract

variable {σ ε α β W : Type} {ρ : ε → Type} (C : Contract σ ρ W)

/-- Whatever the environment does, no effect is a fault, every effect keeps its promise and the
program ends in `Q`. -/
def Meets (Q : σ → α → W → Prop) : Prog σ ρ α → W → Prop
  | .ret s a, w => ∀ w', C.rely w w' → Q s a w'
  | .op s e k, w => ¬ C.fault e ∧ ∀ w', C.rely w w' → ∀ r w'', C.step s e w' r w'' →
      C.promise e w' r w'' ∧ Meets Q (k r) w''

variable {C} {Q : σ → α → W → Prop}

/-- The environment cannot break a contract. -/
theorem Meets.rely {p : Prog σ ρ α} {w w' : W} (h : C.Meets Q p w) (hw : C.rely w w') :
    C.Meets Q p w' := by
  cases p with
  | ret s a => exact fun v hv => h v (C.rely_trans hw hv)
  | op s e k => exact ⟨h.1, fun v hv => h.2 v (C.rely_trans hw hv)⟩

theorem Meets.of_ret {s : σ} {a : α} {w : W} (h : C.Meets Q (.ret s a) w) : Q s a w :=
  h w (C.rely_refl w)

/-- One effect. -/
theorem Meets.step {s : σ} {e : ε} {k : ρ e → Prog σ ρ α} {w w' : W} {r : ρ e}
    (h : C.Meets Q (.op s e k) w) (hw : C.step s e w r w') :
    C.promise e w r w' ∧ C.Meets Q (k r) w' :=
  h.2 w (C.rely_refl w) r w' hw

theorem Meets.ret {A : W → Prop} {s : σ} {a : α} {w : W} (h : A w)
    (hstable : ∀ {w w'}, A w → C.rely w w' → A w') (hQ : ∀ w, A w → Q s a w) :
    C.Meets Q (.ret s a) w :=
  fun w' hw => hQ w' (hstable h hw)

/-- An effect is performed in any world that the environment may have made of a stable
assertion. -/
theorem Meets.op {A : W → Prop} {s : σ} {e : ε} {k : ρ e → Prog σ ρ α} {w : W} (h : A w)
    (hfault : ¬ C.fault e) (hstable : ∀ {w w'}, A w → C.rely w w' → A w')
    (hstep : ∀ w r w', A w → C.step s e w r w' → C.promise e w r w' ∧ C.Meets Q (k r) w') :
    C.Meets Q (.op s e k) w :=
  ⟨hfault, fun w' hw r w'' hs => hstep w' r w'' (hstable h hw) hs⟩

theorem Meets.mono {Q' : σ → α → W → Prop} (hQ : ∀ s a w, Q s a w → Q' s a w) :
    ∀ {p : Prog σ ρ α} {w : W}, C.Meets Q p w → C.Meets Q' p w
  | .ret s a, _, h => fun w' hw => hQ s a w' (h w' hw)
  | .op _ _ _, _, h => ⟨h.1, fun w' hw r w'' hs =>
    let hstep := h.2 w' hw r w'' hs
    ⟨hstep.1, Meets.mono hQ hstep.2⟩⟩

/-- Two programs in a row. -/
theorem Meets.bind {Q : σ → β → W → Prop} {f : σ → α → Prog σ ρ β} :
    ∀ {p : Prog σ ρ α} {w : W},
      C.Meets (fun s a w => C.Meets Q (f s a) w) p w → C.Meets Q (p.bind f) w
  | .ret _ _, w, h => h w (C.rely_refl w)
  | .op _ _ _, _, h => ⟨h.1, fun w' hw r w'' hs =>
    let hstep := h.2 w' hw r w'' hs
    ⟨hstep.1, Meets.bind hstep.2⟩⟩

end Contract

end Foundation

end HotCounter
