import UpClientZenoh.Simulation
import UpClientZenoh.Teardown

/-!
# What becomes of queries

A clone of a query is pending under an id, was answered, was displaced by a younger clone under
its id, or was never stored, as its header was rejected.

`fate_of_run` : in every reachable state each clone has one of these fates and no other, and was
dropped if and only if it was answered. `leaks_of_run` : the destructor leaves behind the clones
that were not answered and the queryables of the registered listeners, and nothing else.
-/

open Execution

namespace UpClientZenoh

namespace ZenohUTransport

variable {UUID UUri Listener : Type} {P : Platform} {X : Externals UUID UUri}

/-! ## Fates -/

inductive Fate
  | pending
  | answered
  | displaced
  | unread
  deriving DecidableEq, Repr

/-- The id under which a clone was stored. -/
def idOf (query : Handle) : List (Observation UUID UUri Listener) → Option Bytes
  | [] => none
  | .stored uuidStr query' :: history =>
    if query' = query then some uuidStr else idOf query history
  | _ :: history => idOf query history

/-- What became of a clone. -/
def fate (t : ZenohUTransport UUID UUri Listener) (query : Handle) : Fate :=
  if replies query t.history ≠ 0 then .answered
  else
    match idOf query t.history with
    | none => .unread
    | some uuidStr => if t.queryMap.lookup uuidStr = some query then .pending else .displaced

variable (X) in
/-- The call takes the clone `query` of a query, and rejects its header. -/
def Rejects (query : Handle) (t : ZenohUTransport UUID UUri Listener)
    (call : Call P UUID UUri Listener) : Prop :=
  ∃ message arg answer header, call = .QueryHandler message arg answer ∧
    query = t.queries.next ∧ headerOf message = some header ∧
    parseHeader P X message.stray header = .returned none

variable (X) in
/-- After the calls a clone has the fate. One that was displaced was neither answered nor is it
the last one that was stored under its id. -/
def Has [DecidableEq Listener] (calls : List (Call P UUID UUri Listener))
    (t : ZenohUTransport UUID UUri Listener) (query : Handle) : Fate → Prop
  | .pending => ∃ uuidStr, t.queryMap.lookup uuidStr = some query
  | .answered => replies query t.history ≠ 0
  | .displaced => replies query t.history = 0 ∧
      ∃ uuidStr, .stored uuidStr query ∈ t.history ∧ lastStored uuidStr t.history ≠ some query
  | .unread => (∀ uuidStr, .stored uuidStr query ∉ t.history) ∧
      Occurs (step X) init calls fun _ => Rejects X query

theorem fate_eq_answered_iff {t : ZenohUTransport UUID UUri Listener} {query : Handle} :
    fate t query = .answered ↔ replies query t.history ≠ 0 := by
  unfold fate
  split_ifs with hreplies
  · exact iff_of_true rfl hreplies
  · cases idOf query t.history with
    | none => exact iff_of_false (by simp) hreplies
    | some uuidStr =>
      dsimp only
      split_ifs <;> exact iff_of_false (by simp) hreplies

/-- The clones that were stored, each under one id, and those that were answered. -/
structure Fated (t : ZenohUTransport UUID UUri Listener) : Prop where
  stored : ∀ uuidStr query, .stored uuidStr query ∈ t.history → query < t.queries.next
  once : ∀ uuidStr uuidStr' query, .stored uuidStr query ∈ t.history →
    .stored uuidStr' query ∈ t.history → uuidStr = uuidStr'
  replied : ∀ query, replies query t.history ≠ 0 → ∃ uuidStr, .stored uuidStr query ∈ t.history
  /-- The last one under an id is pending until it is answered. -/
  kept : ∀ uuidStr query, lastStored uuidStr t.history = some query →
    replies query t.history = 0 → t.queryMap.lookup uuidStr = some query

theorem fated_init : Fated (init : ZenohUTransport UUID UUri Listener) where
  stored _ _ h := by cases h
  once _ _ _ h := by cases h
  replied _ h := absurd rfl h
  kept _ _ h := by cases h

/-- The last one that was stored was stored. -/
theorem mem_of_lastStored {uuidStr : Bytes} {query : Handle}
    {history : List (Observation UUID UUri Listener)}
    (h : lastStored uuidStr history = some query) : .stored uuidStr query ∈ history := by
  induction history with
  | nil => cases h
  | cons o history ih =>
    cases o with
    | stored uuidStr' query' =>
      rw [lastStored] at h
      split_ifs at h with heq
      · obtain rfl := Option.some.inj h
        rw [heq]
        exact List.mem_cons_self
      · exact List.mem_cons_of_mem _ (ih h)
    | put | received | replied => exact List.mem_cons_of_mem _ (ih h)

theorem mem_of_idOf {uuidStr : Bytes} {query : Handle}
    {history : List (Observation UUID UUri Listener)} (h : idOf query history = some uuidStr) :
    .stored uuidStr query ∈ history := by
  induction history with
  | nil => cases h
  | cons o history ih =>
    cases o with
    | stored uuidStr' query' =>
      rw [idOf] at h
      split_ifs at h with heq
      · obtain rfl := Option.some.inj h
        rw [heq]
        exact List.mem_cons_self
      · exact List.mem_cons_of_mem _ (ih h)
    | put | received | replied => exact List.mem_cons_of_mem _ (ih h)

theorem idOf_ne_none {uuidStr : Bytes} {query : Handle}
    {history : List (Observation UUID UUri Listener)} (h : .stored uuidStr query ∈ history) :
    idOf query history ≠ none := by
  induction history with
  | nil => cases h
  | cons o history ih =>
    rcases List.mem_cons.1 h with rfl | hold
    · simp [idOf]
    · cases o with
      | stored uuidStr' query' =>
        rw [idOf]
        split_ifs
        · exact Option.some_ne_none uuidStr'
        · exact ih hold
      | put | received | replied => exact ih hold

section Steps

variable {t t' : ZenohUTransport UUID UUri Listener}

/-- What is neither stored nor answered leaves the fates alone. -/
theorem Fated.congr (h : Fated t) (hmap : t'.queryMap = t.queryMap)
    (hnext : t.queries.next ≤ t'.queries.next)
    (hlast : ∀ uuidStr, lastStored uuidStr t'.history = lastStored uuidStr t.history)
    (hreplies : ∀ query, replies query t'.history = replies query t.history)
    (hstored : ∀ uuidStr query, .stored uuidStr query ∈ t'.history ↔
      .stored uuidStr query ∈ t.history) : Fated t' := by
  refine ⟨fun uuidStr query hmem => ?_, ?_, ?_, ?_⟩
  · exact (h.stored uuidStr query ((hstored uuidStr query).1 hmem)).trans_le hnext
  · simpa only [hstored] using h.once
  · simpa only [hstored, hreplies] using h.replied
  · simpa only [hlast, hreplies, hmap] using h.kept

theorem Fated.of_sameQueries (h : Fated t) (hsame : SameQueries t t') : Fated t' := by
  rcases hsame.history with hhistory | ⟨o, ho, hhistory⟩
  · exact h.congr hsame.queryMap (by rw [hsame.queries]) (by simp [hhistory]) (by simp [hhistory])
      (by simp [hhistory])
  · refine h.congr hsame.queryMap (by rw [hsame.queries]) (fun uuidStr => ?_) (fun query => ?_)
      fun uuidStr query => ?_ <;> rw [hhistory]
    · exact lastStored_quiet ho uuidStr t.history
    · exact replies_quiet ho query t.history
    · rw [List.mem_cons]
      refine or_iff_right ?_
      rintro rfl
      exact ho

theorem Fated.cloneQuery (h : Fated t) : Fated t.cloneQuery :=
  h.congr rfl next_lt_next_cloneQuery.le (fun _ => rfl) (fun _ => rfl) fun _ _ => Iff.rfl

/-- A clone is stored under an id for the first time. -/
theorem Fated.afterStore (h : Fated t) (uuidStr : Bytes) : Fated (afterStore uuidStr t) := by
  have hnext : t.queries.next < (ZenohUTransport.afterStore uuidStr t).queries.next :=
    next_lt_next_cloneQuery
  have hmem {id : Bytes} {query : Handle}
      (hstored : .stored id query ∈ (ZenohUTransport.afterStore uuidStr t).history) :
      (id = uuidStr ∧ query = t.queries.next) ∨ .stored id query ∈ t.history := by
    rcases List.mem_cons.1 hstored with heq | hold
    · cases heq
      exact Or.inl ⟨rfl, rfl⟩
    · exact Or.inr hold
  have hnew {id : Bytes} (hstored : .stored id t.queries.next ∈ t.history) : False :=
    Nat.lt_irrefl _ (h.stored id _ hstored)
  refine ⟨fun id query hstored => ?_, fun id id' query hstored hstored' => ?_,
    fun query hreplies => ?_, fun id query hlast hreplies => ?_⟩
  · rcases hmem hstored with ⟨-, rfl⟩ | hold
    · exact hnext
    · exact (h.stored id query hold).trans hnext
  · rcases hmem hstored with ⟨rfl, rfl⟩ | hold <;> rcases hmem hstored' with ⟨rfl, heq⟩ | hold'
    · rfl
    · exact (hnew hold').elim
    · exact (hnew (heq ▸ hold)).elim
    · exact h.once id id' query hold hold'
  · obtain ⟨id, hold⟩ := h.replied query hreplies
    exact ⟨id, List.mem_cons_of_mem _ hold⟩
  · change (if uuidStr = id then some t.queries.next else lastStored id t.history) = some query
      at hlast
    change (t.queryMap.insert uuidStr t.queries.next).lookup id = some query
    split_ifs at hlast with heq
    · rw [← heq, AList.lookup_insert, hlast]
    · rw [AList.lookup_insert_ne (Ne.symm heq)]
      exact h.kept id query hlast hreplies

/-- An answered clone is no longer pending. -/
theorem Fated.afterReply (h : Fated t) {uuidStr : Bytes} {query : Handle}
    (hpending : t.queryMap.lookup uuidStr = some query)
    (hstored : .stored uuidStr query ∈ t.history) (payload : UPayload) (header : Bytes)
    (enc : Encoding) : Fated (afterReply uuidStr query payload header enc t) := by
  have hnext : (ZenohUTransport.afterReply uuidStr query payload header enc t).queries.next =
      t.queries.next := Ledger.next_release _ _
  have hold {id : Bytes} {query' : Handle} (hmem : .stored id query' ∈
      (ZenohUTransport.afterReply uuidStr query payload header enc t).history) :
      .stored id query' ∈ t.history := (List.mem_cons.1 hmem).resolve_left (by simp)
  have hreplies (query' : Handle) : replies query' (ZenohUTransport.afterReply uuidStr query
      payload header enc t).history = replies query' t.history + if query = query' then 1 else 0 :=
    rfl
  refine ⟨fun id query' hmem => ?_, fun id id' query' hmem hmem' => ?_, fun query' hne => ?_,
    fun id query' hlast hzero => ?_⟩
  · rw [hnext]
    exact h.stored id query' (hold hmem)
  · exact h.once id id' query' (hold hmem) (hold hmem')
  · by_cases heq : query = query'
    · subst heq
      exact ⟨uuidStr, List.mem_cons_of_mem _ hstored⟩
    · rw [hreplies, if_neg heq] at hne
      obtain ⟨id, hmem⟩ := h.replied query' hne
      exact ⟨id, List.mem_cons_of_mem _ hmem⟩
  · rw [hreplies, Nat.add_eq_zero_iff] at hzero
    have hlookup := h.kept id query' hlast hzero.1
    have hne : id ≠ uuidStr := by
      rintro rfl
      have heq := Option.some.inj (hpending.symm.trans hlookup)
      simp [heq] at hzero
    exact (AList.lookup_erase_ne hne).trans hlookup

end Steps

/-! ## Runs -/

section Runs

variable [DecidableEq Listener]

theorem fated_exec {t : ZenohUTransport UUID UUri Listener} (hsound : QueriesSound t)
    (h : Fated t) (call : Call P UUID UUri Listener) : Fated (exec X t call).2 := by
  rcases exec_queries X t call with
    hsame | ⟨query, arg, answer, -, ⟨-, -, heq⟩ | ⟨a, -, heq | heq⟩⟩ |
      ⟨uuidStr, query, payload, header, enc, hpending, heq⟩
  · exact h.of_sameQueries hsame
  · rw [heq]
    exact h.cloneQuery
  · rw [heq]
    exact h.afterStore _
  · rw [heq]
    exact (h.afterStore _).congr rfl le_rfl (fun _ => rfl) (fun _ => rfl) (by simp [observe])
  · rw [heq]
    have hlast := (hsound.pending uuidStr query hpending).1
    exact h.afterReply hpending (mem_of_lastStored hlast) payload header enc

theorem preserves_fated : Preserves (step (P := P) X) (fun _ _ => True)
    fun t : ZenohUTransport UUID UUri Listener => QueriesSound t ∧ Fated t := by
  rintro t call t' ⟨hsound, h⟩ - hstep
  have hsound' := queriesSound_exec X hsound call
  have h' := fated_exec (X := X) hsound h call
  rw [exec_snd_of_step hstep] at hsound' h'
  exact ⟨hsound', h'⟩

/-- A call that returns and clones a query without decoding its header rejects the header. -/
theorem rejects_of_step {t t' : ZenohUTransport UUID UUri Listener} {message : Incoming P}
    {arg : UUri × Listener} {answer : UCode}
    (hstep : step X t (.QueryHandler message arg answer) = some t')
    (hheader : headerOf message ≠ none) (hnone : ∀ a, ¬Decodes X message a) :
    Rejects X t.queries.next t (.QueryHandler message arg answer) := by
  obtain ⟨header, hheader⟩ := Option.ne_none_iff_exists'.1 hheader
  refine ⟨message, arg, answer, header, rfl, rfl, hheader, ?_⟩
  have hreturned : (QueryHandler P X message arg answer t).1 = .returned () := by
    rcases exec_of_step hstep with hexec | ⟨_, _, _, heq, -⟩
    · exact congrArg Prod.fst hexec
    · cases heq
  unfold QueryHandler at hreturned
  rw [hheader] at hreturned
  dsimp only at hreturned
  rcases hparse : parseHeader P X message.stray header with (_ | a) | _ | _ | _ | _
  · rfl
  · exact absurd ⟨header, hheader, hparse⟩ (hnone a)
  all_goals
    rw [hparse] at hreturned
    cases hreturned

/-- Each clone was stored, or is of a query whose header was rejected. -/
def StoredOrRejected (X : Externals UUID UUri) (calls : List (Call P UUID UUri Listener))
    (t : ZenohUTransport UUID UUri Listener) : Prop :=
  ∀ query < t.queries.next, (∃ uuidStr, .stored uuidStr query ∈ t.history) ∨
    Occurs (step X) init calls fun _ => Rejects X query

theorem storedOrRejected_step {calls : List (Call P UUID UUri Listener)}
    {t t' : ZenohUTransport UUID UUri Listener} {call : Call P UUID UUri Listener}
    (hrun : Run (step X) init calls t) (h : StoredOrRejected X calls t)
    (hstep : step X t call = some t') : StoredOrRejected X (calls ++ [call]) t' := by
  -- what was stored is still in the history
  have hold (hgrows : ∀ o ∈ t.history, o ∈ t'.history) {query : Handle}
      (hlt : query < t.queries.next) : (∃ uuidStr, .stored uuidStr query ∈ t'.history) ∨
        Occurs (step X) init (calls ++ [call]) fun _ => Rejects X query :=
    (h query hlt).imp (fun ⟨uuidStr, hmem⟩ => ⟨uuidStr, hgrows _ hmem⟩) (·.snoc call)
  have hclone {query : Handle} (hlt : query < t.cloneQuery.queries.next) :
      query < t.queries.next ∨ query = t.queries.next := by
    rw [next_cloneQuery] at hlt
    exact Nat.lt_succ_iff_lt_or_eq.1 hlt
  intro query hlt
  have hexec := exec_snd_of_step hstep
  rcases exec_queries X t call with
    hsame | ⟨message, arg, answer, rfl, ⟨hheader, hnone, heq⟩ | ⟨a, -, heq | heq⟩⟩ |
      ⟨uuidStr, query', payload, header, enc, -, heq⟩ <;> rw [hexec] at *
  · refine hold (fun o ho => ?_) (by rwa [hsame.queries] at hlt)
    rcases hsame.history with hhistory | ⟨o', -, hhistory⟩ <;> rw [hhistory]
    · exact ho
    · exact List.mem_cons_of_mem _ ho
  · rw [heq] at hlt
    rcases hclone hlt with hlt | rfl
    · exact hold (fun o ho => heq ▸ ho) hlt
    · exact Or.inr (.last hrun (rejects_of_step hstep hheader hnone))
  · rw [heq] at hlt
    rcases hclone hlt with hlt | rfl
    · exact hold (fun o ho => heq ▸ List.mem_cons_of_mem _ ho) hlt
    · rw [heq]
      exact Or.inl ⟨_, List.mem_cons_self⟩
  · rw [heq] at hlt
    rcases hclone hlt with hlt | rfl
    · exact hold (fun o ho => heq ▸ List.mem_cons_of_mem _ (List.mem_cons_of_mem _ ho)) hlt
    · rw [heq]
      exact Or.inl ⟨_, List.mem_cons_of_mem _ List.mem_cons_self⟩
  · refine hold (fun o ho => heq ▸ List.mem_cons_of_mem _ ho) ?_
    rw [heq] at hlt
    exact (Ledger.next_release _ _) ▸ hlt

omit [DecidableEq Listener] in
theorem Fated.idOf_of_stored {t : ZenohUTransport UUID UUri Listener} (h : Fated t)
    {uuidStr : Bytes} {query : Handle} (hstored : .stored uuidStr query ∈ t.history) :
    idOf query t.history = some uuidStr := by
  obtain ⟨uuidStr', hid⟩ := Option.ne_none_iff_exists'.1 (idOf_ne_none hstored)
  rw [hid, h.once uuidStr' uuidStr query (mem_of_idOf hid) hstored]

/-- A clone has one fate. -/
theorem Fated.has_iff {calls : List (Call P UUID UUri Listener)}
    {t : ZenohUTransport UUID UUri Listener} (h : Fated t) (hsound : QueriesSound t)
    (hrejected : StoredOrRejected X calls t) {query : Handle} (hlt : query < t.queries.next)
    {f : Fate} : Has X calls t query f ↔ f = fate t query := by
  have hlast {uuidStr : Bytes} (hlookup : t.queryMap.lookup uuidStr = some query) :
      lastStored uuidStr t.history = some query ∧ replies query t.history = 0 :=
    ⟨(hsound.pending uuidStr query hlookup).1, (hsound.pending uuidStr query hlookup).2.2⟩
  constructor
  · intro hf
    unfold fate
    cases f with
    | pending =>
      obtain ⟨uuidStr, hlookup⟩ := hf
      obtain ⟨hlast, hzero⟩ := hlast hlookup
      rw [if_neg (not_not.2 hzero), h.idOf_of_stored (mem_of_lastStored hlast)]
      exact (if_pos hlookup).symm
    | answered => exact (if_pos hf).symm
    | displaced =>
      obtain ⟨hzero, uuidStr, hstored, hne⟩ := hf
      rw [if_neg (not_not.2 hzero), h.idOf_of_stored hstored]
      exact (if_neg fun hlookup => hne (hlast hlookup).1).symm
    | unread =>
      have hnone : idOf query t.history = none := by
        by_contra hsome
        obtain ⟨uuidStr, hid⟩ := Option.ne_none_iff_exists'.1 hsome
        exact hf.1 uuidStr (mem_of_idOf hid)
      have hzero : replies query t.history = 0 := by
        by_contra hne
        obtain ⟨uuidStr, hstored⟩ := h.replied query hne
        exact hf.1 uuidStr hstored
      rw [if_neg (not_not.2 hzero), hnone]
  · rintro rfl
    unfold fate
    split_ifs with hreplies
    · exact hreplies
    · rw [not_not] at hreplies
      cases hid : idOf query t.history with
      | none =>
        have hnot (uuidStr : Bytes) : .stored uuidStr query ∉ t.history :=
          fun hstored => idOf_ne_none hstored hid
        exact ⟨hnot, (hrejected query hlt).resolve_left fun ⟨uuidStr, hmem⟩ => hnot uuidStr hmem⟩
      | some uuidStr =>
        dsimp only
        split_ifs with hlookup
        · exact ⟨uuidStr, hlookup⟩
        · exact ⟨hreplies, uuidStr, mem_of_idOf hid, fun hlast =>
            hlookup (h.kept uuidStr query hlast hreplies)⟩

variable {calls : List (Call P UUID UUri Listener)} {t : ZenohUTransport UUID UUri Listener}
  (hrun : Run (step X) init calls t)

include hrun

/-- In every reachable state a clone has one fate and no other, and was dropped once if it was
answered and never otherwise. -/
theorem fate_of_run (query : Handle) : (query < t.queries.next → ∃! f, Has X calls t query f) ∧
    t.queries.released.count query = if fate t query = .answered then 1 else 0 := by
  obtain ⟨hsound, hfated⟩ := hrun.invariant preserves_fated ⟨queriesSound_init, fated_init⟩
  have hnil : StoredOrRejected X ([] : List (Call P UUID UUri Listener)) init :=
    fun query hlt => absurd hlt (Nat.not_lt_zero query)
  have hrejected : StoredOrRejected X calls t :=
    Run.invariant_events (J := StoredOrRejected X) hnil
      (fun _ _ _ _ hbefore h _ hstep => storedOrRejected_step hbefore h hstep) hrun
      (along_of_forall_mem (q := fun _ => True) (fun _ _ => trivial) init)
  have hiff (hlt : query < t.queries.next) {f : Fate} :
      Has X calls t query f ↔ f = fate t query := hfated.has_iff hsound hrejected hlt
  refine ⟨fun hlt => ⟨fate t query, (hiff hlt).2 rfl, fun f hf => (hiff hlt).1 hf⟩, ?_⟩
  obtain ⟨hcount, honce⟩ := hsound.answered query
  rw [hcount]
  split_ifs with hfate <;> rw [fate_eq_answered_iff] at hfate <;> omega

omit [DecidableEq Listener] hrun in
/-- What is live and not walked by the destructor is a queryable. -/
theorem Owned.live_notMem_walked_iff (ht : Owned X t) {h : Handle} :
    t.entities.Live h ∧ h ∉ t.walked ↔ ∃ key, h ∈ (t.container key).queryVector := by
  constructor
  · rintro ⟨hlive, hwalked⟩
    have hlt : h < t.entities.entries.length := hlive.1
    have hholds : t.entities.Holds h t.entities.entries[h] :=
      ⟨hlive, List.getElem?_eq_getElem hlt⟩
    rw [mem_walked, not_or] at hwalked
    cases hentity : t.entities.entries[h] with
    | publisher key =>
      rw [hentity] at hholds
      exact absurd ⟨key, (ht.publisher key h).2 hholds⟩ hwalked.1
    | subscriber key arg =>
      rw [hentity] at hholds
      exact absurd ⟨key, (ht.listener false key h).2 ⟨arg, hholds⟩⟩ hwalked.2
    | queryable key arg =>
      rw [hentity] at hholds
      exact ⟨key, (ht.listener true key h).2 ⟨arg, hholds⟩⟩
  · rintro ⟨key, hmem⟩
    obtain ⟨arg, hholds⟩ := (ht.listener true key h).1 hmem
    refine ⟨hholds.1, fun hwalked => ?_⟩
    rcases mem_walked.1 hwalked with ⟨key', hlookup⟩ | ⟨key', hsub⟩
    · exact Entity.publisher_ne_ofListener (((ht.publisher key' h).1 hlookup).unique hholds)
    · obtain ⟨arg', hholds'⟩ := (ht.listener false key' h).1 hsub
      exact absurd (Entity.ofListener_inj.1 (hholds'.unique hholds)).1 (by simp)

/-- The destructor leaves behind the clones that were not answered, and the queryables of the
registered listeners. -/
theorem leaks_of_run :
    (∀ query, t.teardown.queries.Live query ↔
      query < t.queries.next ∧ fate t query ≠ .answered) ∧
      ∀ h, t.teardown.entities.Live h ↔ ∃ key, h ∈ (t.container key).queryVector := by
  have hsound : QueriesSound t := hrun.invariant (preserves_queriesSound X _) queriesSound_init
  have howned : Owned X t := hrun.invariant preserves_owned (owned_init X)
  refine ⟨fun query => ?_, fun h => ?_⟩
  · have hreleased : query ∉ t.queries.released ↔ fate t query ≠ .answered := by
      rw [← List.count_eq_zero, (hsound.answered query).1, ne_eq, fate_eq_answered_iff, not_not]
    rw [queries_teardown, Ledger.Live, hreleased]
    exact Iff.rfl
  · rw [entities_teardown, Ledger.live_releaseAll]
    exact howned.live_notMem_walked_iff

end Runs

/-- A method has two requests with one id, of which the younger one is answered. -/
def displacedRequest : List (Call ⟨.eight, .little⟩ (UInt64 × UInt64) Bytes Bool) :=
  [.registerListener methodUri false true, .QueryHandler request (methodUri, false) .OK,
    .QueryHandler request (methodUri, false) .OK,
    .send methodUri ⟨some [7]⟩ (.builder (0, 0) 3 0) false true]

theorem run_displacedRequest : ∃ t, Run (step .sample) init displacedRequest t ∧
    t.queries.next = 2 ∧ fate t 0 = .displaced ∧ fate t 1 = .answered :=
  ⟨_, .cons rfl (.cons rfl (.cons rfl (.cons rfl (.nil _)))), rfl, rfl, rfl⟩

theorem fate_of_displacedRequest : ∃ t, Run (step .sample) init displacedRequest t ∧
    (∃! f, Has .sample displacedRequest t 0 f) ∧
      t.queries.released.count 0 = if fate t 0 = .answered then 1 else 0 := by
  obtain ⟨t, hrun, hnext, -⟩ := run_displacedRequest
  obtain ⟨hfate, hcount⟩ := fate_of_run hrun 0
  exact ⟨t, hrun, hfate (by simp [hnext]), hcount⟩

theorem leaks_of_displacedRequest : ∃ t, Run (step .sample) init displacedRequest t ∧
    (∀ query, t.teardown.queries.Live query ↔
      query < t.queries.next ∧ fate t query ≠ .answered) ∧
      ∀ h, t.teardown.entities.Live h ↔ ∃ key, h ∈ (t.container key).queryVector := by
  obtain ⟨t, hrun, -⟩ := run_displacedRequest
  exact ⟨t, hrun, leaks_of_run hrun⟩

end ZenohUTransport

end UpClientZenoh
