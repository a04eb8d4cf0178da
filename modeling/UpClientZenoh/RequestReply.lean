import Mathlib.Data.List.Nodup
import Mathlib.Data.Prod.Basic
import UpClientZenoh.Execution

/-!
# Requests and replies

What a service is for that takes calls and gives each at most one result, without saying how.

A call is made once, with an id. A server gets it delivered with a ticket, as often as it
comes, and keeps under each id the ticket that came in last. An answer goes to the ticket that
is kept under an id, which then is no longer kept. A call is finished once, with an answer to
one of its tickets or with none.

`Sound` : no call is finished twice, no ticket is answered twice, and a result is an answer to
the call whose result it is. Every event keeps it (`preserves_sound`).
-/

namespace RequestReply

open Execution

variable {Call Id Server Ticket Answer : Type*}

/-- The calls, deliveries, answers and results so far, newest first, and the tickets that the
servers keep. -/
structure Service (Call Id Server Ticket Answer : Type*) where
  made : List (Call × Id)
  delivered : List (Ticket × Call)
  pending : Server → Id → Option Ticket
  answered : List (Ticket × Answer)
  finished : List (Call × Option Answer)

inductive Event (Call Id Server Ticket Answer : Type*)
  | make (call : Call) (id : Id)
  | deliver (server : Server) (id : Id) (ticket : Ticket) (call : Call)
  | answer (server : Server) (id : Id) (ticket : Ticket) (answer : Answer)
  | finish (call : Call) (result : Option Answer)

namespace Service

/-- A service without calls. -/
def init : Service Call Id Server Ticket Answer where
  made := []
  delivered := []
  pending _ _ := none
  answered := []
  finished := []

variable [DecidableEq Id] [DecidableEq Server] (s : Service Call Id Server Ticket Answer)

omit [DecidableEq Id] [DecidableEq Server] in
/-- When an event can happen. -/
def Enabled : Event Call Id Server Ticket Answer → Prop
  | .make call _ => call ∉ s.made.map Prod.fst
  | .deliver _ id ticket call => (call, id) ∈ s.made ∧ ticket ∉ s.delivered.map Prod.fst
  | .answer server id ticket _ => s.pending server id = some ticket
  | .finish call result => call ∈ s.made.map Prod.fst ∧ call ∉ s.finished.map Prod.fst ∧
      ∀ answer ∈ result, ∃ ticket, (ticket, call) ∈ s.delivered ∧ (ticket, answer) ∈ s.answered

/-- The server keeps a ticket under the id, or no longer keeps one. -/
def keep (server : Server) (id : Id) (ticket : Option Ticket) : Server → Id → Option Ticket :=
  Function.update s.pending server (Function.update (s.pending server) id ticket)

theorem keep_apply (server server' : Server) (id id' : Id) (ticket : Option Ticket) :
    s.keep server id ticket server' id' =
      if server' = server ∧ id' = id then ticket else s.pending server' id' := by
  unfold keep
  by_cases hserver : server' = server
  · subst hserver
    by_cases hid : id' = id <;> simp [hid]
  · simp [hserver]

/-- What an event leaves. -/
def after : Event Call Id Server Ticket Answer → Service Call Id Server Ticket Answer
  | .make call id => { s with made := (call, id) :: s.made }
  | .deliver server id ticket call =>
    { s with
      delivered := (ticket, call) :: s.delivered
      pending := s.keep server id (some ticket) }
  | .answer server id ticket answer =>
    { s with
      answered := (ticket, answer) :: s.answered
      pending := s.keep server id none }
  | .finish call result => { s with finished := (call, result) :: s.finished }

/-- What was delivered stays. -/
theorem mem_delivered_after {s : Service Call Id Server Ticket Answer} {p : Ticket × Call}
    (h : p ∈ s.delivered) (e : Event Call Id Server Ticket Answer) :
    p ∈ (s.after e).delivered := by
  cases e with
  | deliver => exact List.mem_cons_of_mem _ h
  | make | answer | finish => exact h

/-- What was answered stays. -/
theorem mem_answered_after {s : Service Call Id Server Ticket Answer} {p : Ticket × Answer}
    (h : p ∈ s.answered) (e : Event Call Id Server Ticket Answer) :
    p ∈ (s.after e).answered := by
  cases e with
  | answer => exact List.mem_cons_of_mem _ h
  | make | deliver | finish => exact h

open Classical in
/-- The service after an event that can happen. -/
noncomputable def step (e : Event Call Id Server Ticket Answer) :
    Option (Service Call Id Server Ticket Answer) :=
  if s.Enabled e then some (s.after e) else none

variable {s} in
theorem step_eq_some {s' : Service Call Id Server Ticket Answer}
    {e : Event Call Id Server Ticket Answer} :
    s.step e = some s' ↔ s.Enabled e ∧ s.after e = s' := by
  unfold step
  split_ifs with h <;> simp [h]

/-- A run of one event. -/
theorem run_singleton {e : Event Call Id Server Ticket Answer} (h : s.Enabled e) :
    Run step s [e] (s.after e) :=
  .cons (step_eq_some.2 ⟨h, rfl⟩) (.nil _)

/-! ## What holds in every run -/

omit [DecidableEq Id] [DecidableEq Server] in
/-- Calls are finished once and tickets answered once, by what was made, delivered and kept. -/
structure Sound : Prop where
  made : (s.made.map Prod.fst).Nodup
  delivered : (s.delivered.map Prod.fst).Nodup
  answered : (s.answered.map Prod.fst).Nodup
  finished : (s.finished.map Prod.fst).Nodup
  /-- A ticket that is kept under an id is of a call with the id, and not answered. -/
  pending : ∀ server id ticket, s.pending server id = some ticket →
    (∃ call, (ticket, call) ∈ s.delivered ∧ (call, id) ∈ s.made) ∧
      ticket ∉ s.answered.map Prod.fst
  /-- A ticket is kept in one place. -/
  distinct : ∀ server server' id id' ticket, s.pending server id = some ticket →
    s.pending server' id' = some ticket → server = server' ∧ id = id'
  /-- An answer is to a ticket of a call. -/
  ticket : ∀ ticket answer, (ticket, answer) ∈ s.answered →
    ∃ call id, (ticket, call) ∈ s.delivered ∧ (call, id) ∈ s.made
  /-- A result is an answer to a ticket of its own call. -/
  result : ∀ call answer, (call, some answer) ∈ s.finished →
    ∃ ticket, (ticket, call) ∈ s.delivered ∧ (ticket, answer) ∈ s.answered

omit [DecidableEq Id] [DecidableEq Server] in
theorem sound_init : (init : Service Call Id Server Ticket Answer).Sound := by
  constructor <;> simp [init]

variable {s}

/-- A list that names each thing once has one entry for it. -/
theorem eq_of_mem {α β : Type*} {l : List (α × β)} (h : (l.map Prod.fst).Nodup) {a : α} {b b' : β}
    (hb : (a, b) ∈ l) (hb' : (a, b') ∈ l) : b = b' :=
  (Prod.mk.inj (List.inj_on_of_nodup_map h hb hb' rfl)).2

omit [DecidableEq Id] [DecidableEq Server] in
theorem Sound.finished_unique (hs : s.Sound) {call : Call} {result result' : Option Answer}
    (h : (call, result) ∈ s.finished) (h' : (call, result') ∈ s.finished) : result = result' :=
  eq_of_mem hs.finished h h'

omit [DecidableEq Id] [DecidableEq Server] in
theorem Sound.answered_unique (hs : s.Sound) {ticket : Ticket} {answer answer' : Answer}
    (h : (ticket, answer) ∈ s.answered) (h' : (ticket, answer') ∈ s.answered) :
    answer = answer' :=
  eq_of_mem hs.answered h h'

theorem Sound.make (hs : s.Sound) {call : Call} {id : Id} (h : s.Enabled (.make call id)) :
    (s.after (.make call id)).Sound := by
  refine ⟨List.nodup_cons.2 ⟨h, hs.made⟩, hs.delivered, hs.answered, hs.finished, ?_, hs.distinct,
    ?_, hs.result⟩
  · intro server id' ticket hpending
    obtain ⟨⟨call', hdelivered, hmade⟩, hanswered⟩ := hs.pending server id' ticket hpending
    exact ⟨⟨call', hdelivered, List.mem_cons_of_mem _ hmade⟩, hanswered⟩
  · intro ticket answer hmem
    obtain ⟨call', id', hdelivered, hmade⟩ := hs.ticket ticket answer hmem
    exact ⟨call', id', hdelivered, List.mem_cons_of_mem _ hmade⟩

theorem Sound.deliver (hs : s.Sound) {server : Server} {id : Id} {ticket : Ticket} {call : Call}
    (h : s.Enabled (.deliver server id ticket call)) :
    (s.after (.deliver server id ticket call)).Sound := by
  obtain ⟨hmade, hnew⟩ := h
  have hold {ticket' : Ticket} {call' : Call} (hmem : (ticket', call') ∈ s.delivered) :
      ticket' ≠ ticket := by
    rintro rfl
    exact hnew (List.mem_map_of_mem (f := Prod.fst) hmem)
  have hunanswered : ticket ∉ s.answered.map Prod.fst := by
    intro hmem
    obtain ⟨⟨_, answer⟩, hanswered, rfl⟩ := List.mem_map.1 hmem
    obtain ⟨call', -, hdelivered, -⟩ := hs.ticket _ answer hanswered
    exact hold hdelivered rfl
  have hkept {server' : Server} {id' : Id} {ticket' : Ticket}
      (h : (s.after (.deliver server id ticket call)).pending server' id' = some ticket') :
      (server' = server ∧ id' = id ∧ ticket' = ticket) ∨ s.pending server' id' = some ticket' := by
    change s.keep server id (some ticket) server' id' = some ticket' at h
    rw [keep_apply] at h
    split_ifs at h with heq
    · exact Or.inl ⟨heq.1, heq.2, (Option.some.inj h).symm⟩
    · exact Or.inr h
  refine ⟨hs.made, List.nodup_cons.2 ⟨hnew, hs.delivered⟩, hs.answered, hs.finished, ?_, ?_, ?_, ?_⟩
  · intro server' id' ticket' hpending
    rcases hkept hpending with ⟨rfl, rfl, rfl⟩ | hpending
    · exact ⟨⟨call, List.mem_cons_self, hmade⟩, hunanswered⟩
    · obtain ⟨⟨call', hdelivered, hmade'⟩, hanswered⟩ := hs.pending server' id' ticket' hpending
      exact ⟨⟨call', List.mem_cons_of_mem _ hdelivered, hmade'⟩, hanswered⟩
  · intro server₁ server₂ id₁ id₂ ticket' h₁ h₂
    have hnotKept {server' : Server} {id' : Id} (h : s.pending server' id' = some ticket) :
        False := by
      obtain ⟨⟨call', hdelivered, -⟩, -⟩ := hs.pending server' id' ticket h
      exact hold hdelivered rfl
    rcases hkept h₁ with ⟨hserver₁, hid₁, hticket₁⟩ | hold₁ <;>
      rcases hkept h₂ with ⟨hserver₂, hid₂, hticket₂⟩ | hold₂
    · exact ⟨hserver₁.trans hserver₂.symm, hid₁.trans hid₂.symm⟩
    · exact (hnotKept (hticket₁ ▸ hold₂)).elim
    · exact (hnotKept (hticket₂ ▸ hold₁)).elim
    · exact hs.distinct _ _ _ _ _ hold₁ hold₂
  · intro ticket' answer hmem
    obtain ⟨call', id', hdelivered, hmade'⟩ := hs.ticket ticket' answer hmem
    exact ⟨call', id', List.mem_cons_of_mem _ hdelivered, hmade'⟩
  · intro call' answer hmem
    obtain ⟨ticket', hdelivered, hanswered⟩ := hs.result call' answer hmem
    exact ⟨ticket', List.mem_cons_of_mem _ hdelivered, hanswered⟩

theorem Sound.answer (hs : s.Sound) {server : Server} {id : Id} {ticket : Ticket} {answer : Answer}
    (h : s.Enabled (.answer server id ticket answer)) :
    (s.after (.answer server id ticket answer)).Sound := by
  obtain ⟨⟨call, hdelivered, hmade⟩, hnew⟩ := hs.pending server id ticket h
  have hkept {server' : Server} {id' : Id} {ticket' : Ticket}
      (h' : (s.after (.answer server id ticket answer)).pending server' id' = some ticket') :
      s.pending server' id' = some ticket' ∧ ticket' ≠ ticket := by
    change s.keep server id none server' id' = some ticket' at h'
    rw [keep_apply] at h'
    split_ifs at h' with heq
    refine ⟨h', ?_⟩
    rintro rfl
    exact heq (hs.distinct _ _ _ _ _ h' h)
  refine ⟨hs.made, hs.delivered, List.nodup_cons.2 ⟨hnew, hs.answered⟩, hs.finished, ?_, ?_, ?_, ?_⟩
  · intro server' id' ticket' hpending
    obtain ⟨hpending, hne⟩ := hkept hpending
    obtain ⟨hcall, hanswered⟩ := hs.pending server' id' ticket' hpending
    exact ⟨hcall, List.mem_cons.not.2 (not_or.2 ⟨hne, hanswered⟩)⟩
  · exact fun _ _ _ _ _ h₁ h₂ => hs.distinct _ _ _ _ _ (hkept h₁).1 (hkept h₂).1
  · intro ticket' answer' hmem
    rcases List.mem_cons.1 hmem with heq | hmem
    · cases heq
      exact ⟨call, id, hdelivered, hmade⟩
    · exact hs.ticket ticket' answer' hmem
  · intro call' answer' hmem
    obtain ⟨ticket', hdelivered', hanswered⟩ := hs.result call' answer' hmem
    exact ⟨ticket', hdelivered', List.mem_cons_of_mem _ hanswered⟩

theorem Sound.finish (hs : s.Sound) {call : Call} {result : Option Answer}
    (h : s.Enabled (.finish call result)) : (s.after (.finish call result)).Sound := by
  obtain ⟨-, hnew, hresult⟩ := h
  refine ⟨hs.made, hs.delivered, hs.answered, List.nodup_cons.2 ⟨hnew, hs.finished⟩, hs.pending,
    hs.distinct, hs.ticket, ?_⟩
  intro call' answer hmem
  rcases List.mem_cons.1 hmem with heq | hmem
  · obtain ⟨rfl, rfl⟩ := Prod.mk.inj heq
    exact hresult answer rfl
  · exact hs.result call' answer hmem

theorem preserves_sound : Preserves step (fun _ _ => True)
    (Sound : Service Call Id Server Ticket Answer → Prop) := by
  intro s e s' hs _ hstep
  obtain ⟨henabled, rfl⟩ := step_eq_some.1 hstep
  cases e with
  | make => exact hs.make henabled
  | deliver => exact hs.deliver henabled
  | answer => exact hs.answer henabled
  | finish => exact hs.finish henabled

end Service

end RequestReply
