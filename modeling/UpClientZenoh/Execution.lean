import Mathlib.Data.List.Basic

/-!
# Executions

A system moves from state to state by events, and may refuse an event (`step s e = none`).
Interleavings are events that name the agent that moves.

`Run` is a finite execution, `Along p` says that `p` holds of each event of a sequence in
the state it meets. An invariant that `step` preserves under a condition on its events
holds at the end of every run whose events meet that condition (`Run.preserves`), also one
that speaks of the events so far (`Run.invariant_events`), and two conditions that agree
wherever the invariant holds agree along every sequence (`along_congr`).
-/

namespace Execution

variable {σ ε : Type*} (step : σ → ε → Option σ)

/-- The events lead from one state to another, none of them refused. -/
inductive Run : σ → List ε → σ → Prop
  | nil (s : σ) : Run s [] s
  | cons {s s' t : σ} {e : ε} {es : List ε} (hstep : step s e = some s') (hrun : Run s' es t) :
      Run s (e :: es) t

/-- `p` holds of every event in the state it meets, up to the first that is refused. -/
def Along (p : σ → ε → Prop) : σ → List ε → Prop
  | _, [] => True
  | s, e :: es => p s e ∧ ∀ s', step s e = some s' → Along p s' es

/-- `step` keeps `I` on events that satisfy `p`. -/
def Preserves (p : σ → ε → Prop) (I : σ → Prop) : Prop :=
  ∀ ⦃s e s'⦄, I s → p s e → step s e = some s' → I s'

/-- `Q` holds of the state an event leads to. -/
def After (Q : σ → Prop) (s : σ) (e : ε) : Prop :=
  ∀ s', step s e = some s' → Q s'

variable {step} {p q : σ → ε → Prop} {I : σ → Prop}

theorem Along.cons {s s' : σ} {e : ε} {es : List ε} (hp : p s e) (hstep : step s e = some s')
    (h : Along step p s' es) : Along step p s (e :: es) := by
  refine ⟨hp, fun t ht => ?_⟩
  rw [hstep] at ht
  cases ht
  exact h

theorem after_iff_of_step {Q : σ → Prop} {s s' : σ} {e : ε} (h : step s e = some s') :
    After step Q s e ↔ Q s' := by
  unfold After
  rw [h]
  exact ⟨fun hQ => hQ s' rfl, fun hQ t ht => Option.some.inj ht ▸ hQ⟩

/-- Where an invariant that `p` keeps holds, events that satisfy `p` satisfy `q`. -/
theorem Along.mono (hI : Preserves step p I) (hpq : ∀ s e, I s → p s e → q s e) {s : σ}
    {es : List ε} (h : Along step p s es) (hs : I s) : Along step q s es := by
  induction es generalizing s with
  | nil => trivial
  | cons e es ih => exact ⟨hpq s e hs h.1, fun s' hstep => ih (h.2 s' hstep) (hI hs h.1 hstep)⟩

/-- A preserved invariant holds at the end of a run. -/
theorem Run.preserves (hI : Preserves step p I) {s t : σ} {es : List ε} (hrun : Run step s es t)
    (hs : I s) (hp : Along step p s es) : I t := by
  induction hrun with
  | nil => exact hs
  | cons hstep _ ih => exact ih (hI hs hp.1 hstep) (hp.2 _ hstep)

theorem Run.append {s t u : σ} {es fs : List ε} (h : Run step s es t) (h' : Run step t fs u) :
    Run step s (es ++ fs) u := by
  induction h with
  | nil => exact h'
  | cons hstep _ ih => exact .cons hstep (ih h')

/-- An invariant that speaks of the events so far. -/
theorem Run.invariant_events {J : List ε → σ → Prop} {s t : σ} {es : List ε} (hnil : J [] s)
    (hsnoc : ∀ fs u e v, Run step s fs u → J fs u → p u e → step u e = some v → J (fs ++ [e]) v)
    (hrun : Run step s es t) (hp : Along step p s es) : J es t := by
  have hprefix {fs gs : List ε} {u w : σ} (hbefore : Run step s fs u) (hJ : J fs u)
      (hafter : Run step u gs w) (hp : Along step p u gs) : J (fs ++ gs) w := by
    induction hafter generalizing fs with
    | nil => rwa [List.append_nil]
    | @cons u v _ e _ hstep _ ih =>
      have hone : Run step s (fs ++ [e]) v := hbefore.append (.cons hstep (.nil v))
      have hrest := ih hone (hsnoc fs u e v hbefore hJ hp.1 hstep) (hp.2 v hstep)
      rwa [List.append_assoc] at hrest
  exact hprefix (.nil s) hnil hrun hp

/-- A condition on the events alone. -/
theorem along_of_forall_mem {q : ε → Prop} {es : List ε} (h : ∀ e ∈ es, q e) (s : σ) :
    Along step (fun _ e => q e) s es := by
  induction es generalizing s with
  | nil => trivial
  | cons e es ih =>
    obtain ⟨he, hes⟩ := List.forall_mem_cons.1 h
    exact ⟨he, fun s' _ => ih hes s'⟩

/-- An invariant that every event preserves holds at the end of a run. -/
theorem Run.invariant (hI : Preserves step (fun _ _ => True) I) {s t : σ} {es : List ε}
    (hrun : Run step s es t) (hs : I s) : I t :=
  hrun.preserves hI hs (along_of_forall_mem (fun _ _ => trivial) s)

/-- Conditions that agree wherever an invariant holds, and keep it, agree along every
sequence of events. -/
theorem along_congr (hI : Preserves step p I) (hpq : ∀ s e, I s → (p s e ↔ q s e)) {s : σ}
    (hs : I s) (es : List ε) : Along step p s es ↔ Along step q s es := by
  induction es generalizing s with
  | nil => exact Iff.rfl
  | cons e es ih =>
    rw [Along, Along, ← hpq s e hs]
    exact and_congr_right fun hp =>
      forall_congr' fun s' => imp_congr_right fun hstep => ih (hI hs hp hstep)

/-- An invariant that an event preserves if and only if the event satisfies `q` holds after
each event if and only if each event satisfies `q`. -/
theorem along_after_iff {J : σ → Prop} (hJ : Preserves step (fun _ _ => True) J)
    (hq : ∀ s e, J s → I s → (After step I s e ↔ q s e)) {s : σ} (hs : J s) (hI : I s)
    (es : List ε) : Along step (After step I) s es ↔ Along step q s es := by
  have hpreserves : Preserves step (After step I) fun s => J s ∧ I s :=
    fun s e s' h hafter hstep => ⟨hJ h.1 trivial hstep, hafter s' hstep⟩
  exact along_congr hpreserves (fun s e h => hq s e h.1 h.2) ⟨hs, hI⟩ es

end Execution
