import UpClientZenoh.Execution

/-!
# Simulations

A system whose events stand for events of another one, an abstract system that says what the
first is for. An event may stand for none of them, or for several.

`Simulates` : what an event that meets a condition stands for is a run of the abstract system
from every related state to a related one. Then so it is for the events of every run that all
meet the condition (`Run.simulates`), and what holds at the end of every abstract run can be
read off the related state.

`Occurs` speaks of one event of a run with the events before it and the state it meets.
-/

namespace Execution

variable {σ τ ε η : Type*}

/-! ## One event of a run -/

section Occurs

variable (step : σ → ε → Option σ) (s : σ)

/-- Among the events is one for which `p` holds, with the events before it and the state it
meets. -/
def Occurs (es : List ε) (p : List ε → σ → ε → Prop) : Prop :=
  ∃ before e after t, es = before ++ e :: after ∧ Run step s before t ∧ p before t e

variable {step s} {es : List ε} {p q : List ε → σ → ε → Prop}

theorem Occurs.snoc (h : Occurs step s es p) (e : ε) : Occurs step s (es ++ [e]) p := by
  obtain ⟨before, e', after, t, rfl, hrun, hp⟩ := h
  exact ⟨before, e', after ++ [e], t, by simp, hrun, hp⟩

theorem Occurs.last {t : σ} {e : ε} (hrun : Run step s es t) (hp : p es t e) :
    Occurs step s (es ++ [e]) p :=
  ⟨es, e, [], t, rfl, hrun, hp⟩

theorem Occurs.imp (h : Occurs step s es p) (hpq : ∀ before t e, p before t e → q before t e) :
    Occurs step s es q := by
  obtain ⟨before, e, after, t, hes, hrun, hp⟩ := h
  exact ⟨before, e, after, t, hes, hrun, hpq before t e hp⟩

end Occurs

/-! ## Simulations -/

section Simulates

variable (step : σ → ε → Option σ) (step' : τ → η → Option τ)

/-- What the events of a sequence stand for, up to the first that is refused. -/
def trace (f : σ → ε → List η) : σ → List ε → List η
  | _, [] => []
  | s, e :: es =>
    f s e ++
      match step s e with
      | some s' => trace f s' es
      | none => []

/-- What an event that satisfies `p` stands for leads from each related state to a related
one. -/
def Simulates (p : σ → ε → Prop) (f : σ → ε → List η) (R : σ → τ → Prop) : Prop :=
  ∀ ⦃s e s' a⦄, R s a → p s e → step s e = some s' → ∃ a', Run step' a (f s e) a' ∧ R s' a'

variable {step step'}

/-- What the events of a run stand for is a run. -/
theorem Run.simulates {p : σ → ε → Prop} {f : σ → ε → List η} {R : σ → τ → Prop}
    (h : Simulates step step' p f R) {s s' : σ} {es : List ε} (hrun : Run step s es s')
    (hp : Along step p s es) {a : τ} (ha : R s a) :
    ∃ a', Run step' a (trace step f s es) a' ∧ R s' a' := by
  induction hrun generalizing a with
  | nil => exact ⟨a, .nil a, ha⟩
  | @cons s t u e es hstep _ ih =>
    obtain ⟨b, hb, hRb⟩ := h ha hp.1 hstep
    obtain ⟨c, hc, hRc⟩ := ih (hp.2 t hstep) hRb
    have htrace : trace step f s (e :: es) = f s e ++ trace step f t es := by
      rw [trace, hstep]
    exact ⟨c, htrace ▸ hb.append hc, hRc⟩

end Simulates

end Execution
