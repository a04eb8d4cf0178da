import Mathlib.Logic.Function.Basic
import UpClientZenoh.Simulation

/-!
# Message passing

Agents that take events one after another, each in a state of its own, and send messages. An
event can be the receipt of messages, which must have been sent. A message is not taken out of
the network when it is received : it can be received again, later than younger ones, or never.

`Protocol.local_of_run` : what every event of an agent preserves holds of each agent. For what
depends on the messages, `Protocol.causes_of_run` is the rule. If an event after which a
state property and a message property are to hold may rely on them for the agent and for what
it receives, they hold of all agents and all messages. Both may speak of the events so far.
-/

namespace MessagePassing

open Execution

variable {Agent σ ε μ : Type*}

/-- What the agents do on an event : the messages received, the state after it, and the
messages sent. -/
structure Protocol (Agent σ ε μ : Type*) where
  needs : Agent → ε → List μ
  step : Agent → σ → ε → Option (σ × List μ)

/-- The states of the agents, and all messages that were sent. -/
structure System (Agent σ μ : Type*) where
  state : Agent → σ
  sent : List μ

namespace Protocol

variable [DecidableEq Agent] [DecidableEq μ] (p : Protocol Agent σ ε μ)

/-- An agent takes an event. -/
def next (s : System Agent σ μ) (e : Agent × ε) : Option (System Agent σ μ) :=
  if ∀ m ∈ p.needs e.1 e.2, m ∈ s.sent then
    (p.step e.1 (s.state e.1) e.2).map fun r =>
      ⟨Function.update s.state e.1 r.1, r.2 ++ s.sent⟩
  else none

variable {p}

theorem next_eq_some {s s' : System Agent σ μ} {e : Agent × ε} :
    p.next s e = some s' ↔ (∀ m ∈ p.needs e.1 e.2, m ∈ s.sent) ∧
      ∃ st new, p.step e.1 (s.state e.1) e.2 = some (st, new) ∧
        s' = ⟨Function.update s.state e.1 st, new ++ s.sent⟩ := by
  unfold next
  split_ifs with h
  · simp only [Option.map_eq_some_iff, Prod.exists, eq_comm (b := s')]
    exact (and_iff_right h).symm
  · exact iff_of_false (by simp) fun hneeds => h hneeds.1

/-- An event whose messages were sent happens if its agent can take it. -/
theorem exists_next_iff {s : System Agent σ μ} {agent : Agent} {e : ε}
    (hneeds : ∀ m ∈ p.needs agent e, m ∈ s.sent) :
    (∃ s', p.next s (agent, e) = some s') ↔ ∃ r, p.step agent (s.state agent) e = some r := by
  constructor
  · rintro ⟨s', h⟩
    obtain ⟨-, st, new, hstep, -⟩ := next_eq_some.1 h
    exact ⟨(st, new), hstep⟩
  · rintro ⟨⟨st, new⟩, hstep⟩
    exact ⟨_, next_eq_some.2 ⟨hneeds, st, new, hstep, rfl⟩⟩

/-- What every event of an agent preserves holds of each agent. -/
theorem local_of_run {I : Agent → σ → Prop}
    (hI : ∀ agent st e st' new, I agent st → p.step agent st e = some (st', new) → I agent st')
    {s s' : System Agent σ μ} {es : List (Agent × ε)} (hrun : Run p.next s es s')
    (hs : ∀ agent, I agent (s.state agent)) (agent : Agent) : I agent (s'.state agent) := by
  have hpreserves : Preserves p.next (fun _ _ => True)
      fun s : System Agent σ μ => ∀ agent, I agent (s.state agent) := by
    intro s e s' hs _ hnext
    obtain ⟨-, st, new, hstep, rfl⟩ := next_eq_some.1 hnext
    exact (Function.forall_update_iff _ fun agent st => I agent st).2
      ⟨hI _ _ _ _ _ (hs _) hstep, fun agent _ => hs agent⟩
  exact hrun.invariant hpreserves hs agent

variable {J : List (Agent × ε) → Agent → σ → Prop} {M : List (Agent × ε) → μ → Prop}

/-- A state property and a message property, which may speak of the events so far and are
kept by the passing of events. If an event establishes both, relying on the first for its
agent and on the second for the messages it receives, they hold throughout. -/
theorem causes_of_run {s₀ : System Agent σ μ}
    (hJmono : ∀ es e agent st, J es agent st → J (es ++ [e]) agent st)
    (hMmono : ∀ es e m, M es m → M (es ++ [e]) m)
    (hstep : ∀ es s agent e st new, Run p.next s₀ es s → J es agent (s.state agent) →
      (∀ m ∈ p.needs agent e, M es m) → p.step agent (s.state agent) e = some (st, new) →
      J (es ++ [(agent, e)]) agent st ∧ ∀ m ∈ new, M (es ++ [(agent, e)]) m)
    (hJ : ∀ agent, J [] agent (s₀.state agent)) (hM : ∀ m ∈ s₀.sent, M [] m)
    {s : System Agent σ μ} {es : List (Agent × ε)} (hrun : Run p.next s₀ es s) :
    (∀ agent, J es agent (s.state agent)) ∧ ∀ m ∈ s.sent, M es m := by
  refine Run.invariant_events
    (J := fun es (s : System Agent σ μ) => (∀ agent, J es agent (s.state agent)) ∧
      ∀ m ∈ s.sent, M es m) ⟨hJ, hM⟩ ?_ hrun (along_of_forall_mem (q := fun _ => True)
        (fun _ _ => trivial) s₀)
  rintro es s ⟨agent, e⟩ s' hbefore ⟨hstates, hsent⟩ - hnext
  obtain ⟨hneeds, st, new, hlocal, rfl⟩ := next_eq_some.1 hnext
  obtain ⟨hst, hnew⟩ := hstep es s agent e st new hbefore (hstates agent)
    (fun m hm => hsent m (hneeds m hm)) hlocal
  refine ⟨(Function.forall_update_iff _ (J (es ++ [(agent, e)]))).2 ⟨hst, fun agent' _ =>
    hJmono es _ agent' _ (hstates agent')⟩, fun m hm => ?_⟩
  · rcases List.mem_append.1 hm with hm | hm
    · exact hnew m hm
    · exact hMmono es _ m (hsent m hm)

end Protocol

end MessagePassing
