import UpClientZenoh.ParserSafety
import UpClientZenoh.ZenohUTransport

/-!
# Pending queries

`queryMap_` : `QueryHandler` clones each query and stores the clone under the id of its
header, `sendQueryable` replies on the clone found under an id, drops it and erases it.

`replies_of_run` : every reply is made on the clone stored last under its id, a clone is
replied on at most once and dropped exactly then, and a failed send changes nothing. It
holds along every run, by an invariant that reads `queryMap_` and the clones off the history
(`QueriesSound`).
-/

open Execution

namespace UpClientZenoh

/-! ## Histories -/

section Histories

variable {UUID UUri Listener : Type}

/-- An observation that has nothing to do with queries. -/
def Observation.Quiet : Observation UUID UUri Listener → Prop
  | .put _ _ _ _ => True
  | .received _ _ _ _ none _ => True
  | _ => False

/-- The query stored last under an id. -/
def lastStored (uuidStr : Bytes) : List (Observation UUID UUri Listener) → Option Handle
  | [] => none
  | .stored uuidStr' query :: history =>
    if uuidStr' = uuidStr then some query else lastStored uuidStr history
  | _ :: history => lastStored uuidStr history

/-- The number of successful replies on a query. -/
def replies (query : Handle) : List (Observation UUID UUri Listener) → ℕ
  | [] => 0
  | .replied _ query' _ _ _ :: history =>
    replies query history + if query' = query then 1 else 0
  | _ :: history => replies query history

/-- A listener accepted the query, whose header has the attributes. -/
def Accepted (history : List (Observation UUID UUri Listener)) (query : Handle)
    (attributes : UAttributes UUID UUri) : Prop :=
  ∃ uri listener payload, .received uri listener payload attributes (some query) .OK ∈ history

theorem lastStored_quiet {o : Observation UUID UUri Listener} (h : o.Quiet) (uuidStr : Bytes)
    (history : List (Observation UUID UUri Listener)) :
    lastStored uuidStr (o :: history) = lastStored uuidStr history := by
  cases o with
  | put | received => rfl
  | stored | replied => exact h.elim

theorem replies_quiet {o : Observation UUID UUri Listener} (h : o.Quiet) (query : Handle)
    (history : List (Observation UUID UUri Listener)) :
    replies query (o :: history) = replies query history := by
  cases o with
  | put | received => rfl
  | stored | replied => exact h.elim

theorem accepted_quiet {o : Observation UUID UUri Listener} (h : o.Quiet)
    {history : List (Observation UUID UUri Listener)} {query : Handle}
    {attributes : UAttributes UUID UUri} (ha : Accepted (o :: history) query attributes) :
    Accepted history query attributes := by
  obtain ⟨uri, listener, payload, hmem⟩ := ha
  rcases List.mem_cons.1 hmem with rfl | hmem
  · exact h.elim
  · exact ⟨uri, listener, payload, hmem⟩

theorem Accepted.cons {history : List (Observation UUID UUri Listener)} {query : Handle}
    {attributes : UAttributes UUID UUri} (h : Accepted history query attributes)
    (o : Observation UUID UUri Listener) : Accepted (o :: history) query attributes := by
  obtain ⟨uri, listener, payload, hmem⟩ := h
  exact ⟨uri, listener, payload, List.mem_cons_of_mem _ hmem⟩

end Histories

namespace ZenohUTransport

variable {UUID UUri Listener : Type} {P : Platform} (X : Externals UUID UUri)

/-! ## What a call does to the queries -/

/-- The queries are those of `t`. -/
structure SameQueries (t t' : ZenohUTransport UUID UUri Listener) : Prop where
  queryMap : t'.queryMap = t.queryMap
  queries : t'.queries = t.queries
  history : t'.history = t.history ∨ ∃ o : Observation UUID UUri Listener, o.Quiet ∧
    t'.history = o :: t.history

theorem SameQueries.refl (t : ZenohUTransport UUID UUri Listener) : SameQueries t t :=
  ⟨rfl, rfl, Or.inl rfl⟩

/-- What `sendQueryable` leaves where it replies. -/
def afterReply (uuidStr : Bytes) (query : Handle) (payload : UPayload) (header : Bytes)
    (enc : Encoding) (t : ZenohUTransport UUID UUri Listener) :
    ZenohUTransport UUID UUri Listener :=
  ((t.observe (.replied uuidStr query payload header enc)).dropQuery query).eraseQuery uuidStr

/-- What `QueryHandler` leaves where it stores. -/
def afterStore (uuidStr : Bytes) (t : ZenohUTransport UUID UUri Listener) :
    ZenohUTransport UUID UUri Listener :=
  t.cloneQuery.storeQuery uuidStr t.queries.next

theorem initPublisher_queries (uri : UUri) (handleInfo : Option Handle) (declared : Bool)
    (t : ZenohUTransport UUID UUri Listener) :
    let t' := (initPublisher X uri handleInfo declared t).2
    t'.queryMap = t.queryMap ∧ t'.queries = t.queries ∧ t'.history = t.history := by
  unfold initPublisher
  cases handleInfo with
  | none => cases declared <;> exact ⟨rfl, rfl, rfl⟩
  | some pub => exact ⟨rfl, rfl, rfl⟩

/-- A send leaves the queries alone, or replies on one. -/
theorem send_queries (uri : UUri) (payload : UPayload) (attributes : UAttributes UUID UUri)
    (declared sent : Bool) (t : ZenohUTransport UUID UUri Listener) :
    let r := send P X uri payload attributes declared sent t
    (SameQueries t r.2 ∧ (X.isRPCMethod uri = true → r.1 ≠ .returned .OK)) ∨
    ∃ query header enc, t.queryMap.lookup (X.serializeToString attributes.id) = some query ∧
      r = (.returned .OK,
        afterReply (X.serializeToString attributes.id) query payload header enc t) := by
  intro r
  have hr : r = send P X uri payload attributes declared sent t := rfl
  unfold send at hr
  split_ifs at hr with hpayload hrpc
  · rw [hr]
    exact Or.inl ⟨.refl t, fun _ => by simp⟩
  · obtain ⟨hmap, hqueries, hhistory⟩ :=
      initPublisher_queries X uri (findPublisher X uri t) declared t
    refine Or.inl ⟨?_, fun h => absurd (h.symm.trans hrpc) (by simp)⟩
    rw [hr]
    rcases sendPublish_cases X uri payload attributes declared sent t with
      ⟨-, h | h⟩ | ⟨pub, header, enc, -, -, -, -, -, h⟩ <;> rw [h]
    · exact .refl t
    · exact ⟨hmap, hqueries, Or.inl hhistory⟩
    · exact ⟨hmap, hqueries, Or.inr ⟨.put pub payload header enc, trivial, congrArg _ hhistory⟩⟩
  · rw [hr]
    rcases sendQueryable_cases X payload attributes sent t with
      ⟨hne, h⟩ | ⟨query, header, enc, -, hlookup, -, -, -, h⟩
    · rw [h]
      exact Or.inl ⟨.refl t, fun _ => hne⟩
    · exact Or.inr ⟨query, header, enc, hlookup, h⟩

theorem undeclare_queries (handle : Handle) (t : ZenohUTransport UUID UUri Listener) :
    let t' := t.undeclare handle
    t'.queryMap = t.queryMap ∧ t'.queries = t.queries ∧ t'.history = t.history := by
  unfold undeclare
  dsimp only
  split <;> exact ⟨rfl, rfl, rfl⟩

variable [DecidableEq Listener]

theorem sameQueries_unregisterListener (uri : UUri) (listener : Listener)
    (t : ZenohUTransport UUID UUri Listener) :
    SameQueries t (unregisterListener X uri listener t).2 := by
  have hundeclare (key : ℕ) (c : ListenerContainer Listener) (handle : Handle) :
      SameQueries t ((t.setContainer key c).undeclare handle) := by
    obtain ⟨hmap, hqueries, hhistory⟩ := undeclare_queries handle (t.setContainer key c)
    exact ⟨hmap, hqueries, Or.inl hhistory⟩
  have hset {t' : ZenohUTransport UUID UUri Listener} (h : SameQueries t t') (key : ℕ)
      (c : ListenerContainer Listener) : SameQueries t (t'.setContainer key c) :=
    ⟨h.queryMap, h.queries, h.history⟩
  unfold unregisterListener
  dsimp only
  split
  · exact .refl t
  split
  · exact .refl t
  unfold eraseHandle
  split_ifs
  all_goals
    split
    · exact hset (.refl t) _ _
    · exact hset (hundeclare _ _ _) _ _

/-- What a call can do to the queries : nothing, clone one and perhaps store it and hand it
to a listener, or reply on one. -/
theorem exec_queries (t : ZenohUTransport UUID UUri Listener) (call : Call P UUID UUri Listener) :
    SameQueries t (exec X t call).2 ∨
    (∃ query arg answer, call = .QueryHandler query arg answer ∧
      ((headerOf query ≠ none ∧ (∀ a, ¬Decodes X query a) ∧ (exec X t call).2 = t.cloneQuery) ∨
      ∃ a, Decodes X query a ∧
        ((exec X t call).2 = afterStore (X.serializeToString a.id) t ∨
        (exec X t call).2 = (afterStore (X.serializeToString a.id) t).observe
          (.received arg.1 arg.2 query.payload a (some t.queries.next) answer)))) ∨
    ∃ uuidStr query payload header enc, t.queryMap.lookup uuidStr = some query ∧
      (exec X t call).2 = afterReply uuidStr query payload header enc t := by
  cases call with
  | send uri payload attributes declared sent =>
    rcases send_queries (P := P) X uri payload attributes declared sent t with
      ⟨h, -⟩ | ⟨query, header, enc, hlookup, h⟩
    · exact Or.inl h
    · exact Or.inr (Or.inr ⟨_, query, payload, header, enc, hlookup, congrArg Prod.snd h⟩)
  | registerListener uri listener declared =>
    refine Or.inl ?_
    change SameQueries t (registerListener X uri listener declared t).2
    unfold registerListener
    dsimp only
    split_ifs <;> exact ⟨rfl, rfl, Or.inl rfl⟩
  | unregisterListener uri listener =>
    exact Or.inl (sameQueries_unregisterListener X uri listener t)
  | SubHandler sample arg answer =>
    refine Or.inl ?_
    change SameQueries t (SubHandler P X sample arg answer t).2
    rcases SubHandler_cases X sample arg answer t with h | ⟨_, _, _, _, -, -, -, h⟩
    · rw [h]
      exact .refl t
    · rw [h]
      exact ⟨rfl, rfl, Or.inr ⟨.received _ _ _ _ none _, trivial, rfl⟩⟩
  | QueryHandler query arg answer =>
    change SameQueries t (QueryHandler P X query arg answer t).2 ∨ _
    rcases QueryHandler_cases X query arg answer t with
      ⟨-, h⟩ | h | ⟨a, ha, ⟨-, h⟩ | ⟨-, h⟩⟩
    · rw [h]
      exact Or.inl (.refl t)
    · exact Or.inr (Or.inl ⟨query, arg, answer, rfl, Or.inl h⟩)
    · exact Or.inr (Or.inl
        ⟨query, arg, answer, rfl, Or.inr ⟨a, ha, Or.inl (congrArg Prod.snd h)⟩⟩)
    · exact Or.inr (Or.inl
        ⟨query, arg, answer, rfl, Or.inr ⟨a, ha, Or.inr (congrArg Prod.snd h)⟩⟩)

/-! ## The invariant -/

/-- What `queryMap_` and the clones are in terms of the history. -/
structure QueriesSound (t : ZenohUTransport UUID UUri Listener) : Prop where
  /-- A pending query is the one stored last under its id, and not answered. -/
  pending : ∀ uuidStr query, t.queryMap.lookup uuidStr = some query →
    lastStored uuidStr t.history = some query ∧ query < t.queries.next ∧
      replies query t.history = 0
  /-- A query is pending under one id. -/
  distinct : ∀ uuidStr uuidStr' query, t.queryMap.lookup uuidStr = some query →
    t.queryMap.lookup uuidStr' = some query → uuidStr = uuidStr'
  /-- A query is dropped when it is replied on, and replied on at most once. -/
  answered : ∀ query, t.queries.released.count query = replies query t.history ∧
    replies query t.history ≤ 1
  issued : ∀ query, replies query t.history ≠ 0 → query < t.queries.next
  accepted : ∀ query attributes, Accepted t.history query attributes → query < t.queries.next

omit [DecidableEq Listener] in
theorem queriesSound_init : QueriesSound (init : ZenohUTransport UUID UUri Listener) where
  pending _ _ h := by simp [init] at h
  distinct _ _ _ h := by simp [init] at h
  answered _ := ⟨rfl, Nat.zero_le _⟩
  issued _ h := absurd rfl h
  accepted _ _ h := by
    obtain ⟨_, _, _, hmem⟩ := h
    simp [init] at hmem

variable {X}

section Updates

omit [DecidableEq Listener]

variable {t t' : ZenohUTransport UUID UUri Listener}

theorem QueriesSound.of_sameQueries (ht : QueriesSound t) (h : SameQueries t t') :
    QueriesSound t' := by
  have hlast (uuidStr : Bytes) : lastStored uuidStr t'.history = lastStored uuidStr t.history := by
    rcases h.history with h | ⟨o, ho, h⟩ <;> rw [h]
    exact lastStored_quiet ho _ _
  have hreplies (query : Handle) : replies query t'.history = replies query t.history := by
    rcases h.history with h | ⟨o, ho, h⟩ <;> rw [h]
    exact replies_quiet ho _ _
  have haccepted {query : Handle} {a : UAttributes UUID UUri} (ha : Accepted t'.history query a) :
      Accepted t.history query a := by
    rcases h.history with h | ⟨o, ho, h⟩ <;> rw [h] at ha
    · exact ha
    · exact accepted_quiet ho ha
  refine ⟨?_, ?_, ?_, ?_, fun query a ha => ?_⟩
  · rw [h.queryMap, h.queries]
    simpa only [hlast, hreplies] using ht.pending
  · rw [h.queryMap]
    exact ht.distinct
  · rw [h.queries]
    simpa only [hreplies] using ht.answered
  · rw [h.queries]
    simpa only [hreplies] using ht.issued
  · rw [h.queries]
    exact ht.accepted query a (haccepted ha)

theorem lt_next_cloneQuery {query : Handle} (h : query < t.queries.next) :
    query < t.cloneQuery.queries.next := by
  rw [show t.cloneQuery.queries.next = t.queries.next + 1 from Ledger.next_alloc _ _]
  exact Nat.lt_succ_of_lt h

theorem next_cloneQuery : t.cloneQuery.queries.next = t.queries.next + 1 :=
  Ledger.next_alloc _ _

theorem next_lt_next_cloneQuery : t.queries.next < t.cloneQuery.queries.next := by
  rw [next_cloneQuery]
  exact Nat.lt_succ_self _

theorem QueriesSound.cloneQuery (ht : QueriesSound t) : QueriesSound t.cloneQuery := by
  refine ⟨fun uuidStr query h => ?_, ht.distinct, ht.answered, fun query h => ?_,
    fun query a h => ?_⟩
  · obtain ⟨hlast, hlt, hreplies⟩ := ht.pending uuidStr query h
    exact ⟨hlast, lt_next_cloneQuery hlt, hreplies⟩
  · exact lt_next_cloneQuery (ht.issued query h)
  · exact lt_next_cloneQuery (ht.accepted query a h)

theorem QueriesSound.afterStore (ht : QueriesSound t) (uuidStr : Bytes) :
    QueriesSound (afterStore uuidStr t) := by
  have hnew : replies t.queries.next t.history = 0 := by
    by_contra h
    exact absurd (ht.issued _ h) (Nat.lt_irrefl _)
  have hlookup {uuidStr' : Bytes} {query : Handle}
      (h : (ZenohUTransport.afterStore uuidStr t).queryMap.lookup uuidStr' = some query) :
      (uuidStr' = uuidStr ∧ query = t.queries.next) ∨
        (uuidStr' ≠ uuidStr ∧ t.queryMap.lookup uuidStr' = some query) := by
    by_cases heq : uuidStr' = uuidStr
    · subst heq
      exact Or.inl ⟨rfl, (Option.some.inj ((AList.lookup_insert _).symm.trans h)).symm⟩
    · exact Or.inr ⟨heq, (AList.lookup_insert_ne heq).symm.trans h⟩
  refine ⟨fun uuidStr' query h => ?_, fun id id' query h h' => ?_, ht.answered, fun query h => ?_,
    fun query a h => ?_⟩
  · rcases hlookup h with ⟨rfl, rfl⟩ | ⟨hne, h⟩
    · exact ⟨if_pos rfl, next_lt_next_cloneQuery, hnew⟩
    · obtain ⟨hlast, hlt, hreplies⟩ := ht.pending uuidStr' query h
      exact ⟨(if_neg hne.symm).trans hlast, lt_next_cloneQuery hlt, hreplies⟩
  · have hold {uuidStr' : Bytes} (hq : t.queryMap.lookup uuidStr' = some t.queries.next) : False :=
      absurd (ht.pending _ _ hq).2.1 (Nat.lt_irrefl _)
    rcases hlookup h with ⟨hid, rfl⟩ | ⟨-, hq⟩ <;> rcases hlookup h' with ⟨hid', hnext⟩ | ⟨-, hq'⟩
    · rw [hid, hid']
    · exact (hold hq').elim
    · rw [hnext] at hq
      exact (hold hq).elim
    · exact ht.distinct _ _ _ hq hq'
  · exact lt_next_cloneQuery (ht.issued query h)
  · obtain ⟨uri, listener, payload, hmem⟩ := h
    exact lt_next_cloneQuery (ht.accepted query a
      ⟨uri, listener, payload, (List.mem_cons.1 hmem).resolve_left (by simp)⟩)

/-- Handing a stored query to a listener. -/
theorem QueriesSound.received (ht : QueriesSound t) {query : Handle} (hlt : query < t.queries.next)
    (uri : UUri) (listener : Listener) (payload : UPayload) (a : UAttributes UUID UUri)
    (answer : UCode) :
    QueriesSound (t.observe (.received uri listener payload a (some query) answer)) := by
  refine ⟨ht.pending, ht.distinct, ht.answered, ht.issued, ?_⟩
  rintro query' a' ⟨uri', listener', payload', hmem⟩
  rcases List.mem_cons.1 hmem with heq | hmem
  · cases heq
    exact hlt
  · exact ht.accepted query' a' ⟨uri', listener', payload', hmem⟩

theorem QueriesSound.afterReply (ht : QueriesSound t) {uuidStr : Bytes} {query : Handle}
    (hquery : t.queryMap.lookup uuidStr = some query) (payload : UPayload) (header : Bytes)
    (enc : Encoding) : QueriesSound (afterReply uuidStr query payload header enc t) := by
  obtain ⟨-, hlt, hreplies⟩ := ht.pending uuidStr query hquery
  have hlookup {uuidStr' : Bytes} {query' : Handle} (h : (ZenohUTransport.afterReply uuidStr query
      payload header enc t).queryMap.lookup uuidStr' = some query') :
      query' ≠ query ∧ t.queryMap.lookup uuidStr' = some query' := by
    have hne : uuidStr' ≠ uuidStr := by
      rintro rfl
      have hnone : (t.queryMap.erase uuidStr').lookup uuidStr' = none := AList.lookup_erase _ _
      rw [show (ZenohUTransport.afterReply uuidStr' query payload header enc t).queryMap =
        t.queryMap.erase uuidStr' from rfl, hnone] at h
      cases h
    have h' : t.queryMap.lookup uuidStr' = some query' := (AList.lookup_erase_ne hne).symm.trans h
    refine ⟨?_, h'⟩
    rintro rfl
    exact hne (ht.distinct _ _ _ h' hquery)
  have hreplied (query' : Handle) : replies query' (ZenohUTransport.afterReply uuidStr query
      payload header enc t).history = replies query' t.history + if query = query' then 1 else 0 :=
    rfl
  have hnext : (ZenohUTransport.afterReply uuidStr query payload header enc t).queries.next =
      t.queries.next := Ledger.next_release _ _
  have hreleased :
      (ZenohUTransport.afterReply uuidStr query payload header enc t).queries.released =
        t.queries.released ++ [query] := Ledger.released_release hlt
  refine ⟨fun uuidStr' query' h => ?_, fun id id' query' h h' => ?_, fun query' => ?_,
    fun query' h => ?_, ?_⟩
  · obtain ⟨hne, h⟩ := hlookup h
    obtain ⟨hlast, hlt', hzero⟩ := ht.pending uuidStr' query' h
    refine ⟨hlast, by rwa [hnext], ?_⟩
    rw [hreplied, hzero, if_neg hne.symm]
  · exact ht.distinct _ _ _ (hlookup h).2 (hlookup h').2
  · obtain ⟨hcount, honce⟩ := ht.answered query'
    rw [hreplied, hreleased, List.count_append, List.count_singleton, hcount]
    by_cases heq : query = query'
    · subst heq
      simp [hreplies]
    · simpa [heq] using honce
  · rw [hnext]
    by_cases heq : query = query'
    · rwa [← heq]
    · rw [hreplied, if_neg heq, add_zero] at h
      exact ht.issued query' h
  · rintro query' a ⟨uri, listener, payload', hmem⟩
    rw [hnext]
    exact ht.accepted query' a
      ⟨uri, listener, payload', (List.mem_cons.1 hmem).resolve_left (by simp)⟩

end Updates

variable (X)

theorem queriesSound_exec {t : ZenohUTransport UUID UUri Listener} (ht : QueriesSound t)
    (call : Call P UUID UUri Listener) : QueriesSound (exec X t call).2 := by
  rcases exec_queries X t call with
    h | ⟨query, arg, answer, -, ⟨-, -, h⟩ | ⟨a, -, h | h⟩⟩ |
      ⟨uuidStr, query, payload, header, enc, hquery, h⟩
  · exact ht.of_sameQueries h
  · rw [h]
    exact ht.cloneQuery
  · rw [h]
    exact ht.afterStore _
  · rw [h]
    exact (ht.afterStore _).received next_lt_next_cloneQuery _ _ _ _ _
  · rw [h]
    exact ht.afterReply hquery payload header enc

theorem preserves_queriesSound (p : ZenohUTransport UUID UUri Listener →
    Call P UUID UUri Listener → Prop) : Preserves (step X) p QueriesSound := by
  intro t call t' ht _ hstep
  have ht' := queriesSound_exec X ht call
  rwa [exec_snd_of_step hstep] at ht'

/-! ## Replies -/

omit [DecidableEq Listener] in
/-- A query comes in whose header has the id. -/
def ArrivesWithId (id : UUID) (call : Call P UUID UUri Listener) : Prop :=
  match call with
  | .QueryHandler query _ _ => ∃ header a, headerOf query = some header ∧
      parseHeader P X query.stray header = .returned (some a) ∧ a.id = id
  | _ => False

/-- An id that is not in `queryMap_` stays out until a query with that id comes in. -/
theorem preserves_absent (hinj : Function.Injective X.serializeToString) (id : UUID) :
    Preserves (step X) (fun _ (call : Call P UUID UUri Listener) => ¬ArrivesWithId X id call)
      fun t => t.queryMap.lookup (X.serializeToString id) = none := by
  intro t call t' ht hcall hstep
  have ht' : t' = (exec X t call).2 := (exec_snd_of_step hstep).symm
  rw [ht']
  have hstored {query : Incoming P} {a : UAttributes UUID UUri} {arg : UUri × Listener}
      {answer : UCode} (hc : call = .QueryHandler query arg answer) (ha : Decodes X query a) :
      (afterStore (X.serializeToString a.id) t).queryMap.lookup (X.serializeToString id) =
        none := by
    refine (AList.lookup_insert_ne fun hid => hcall ?_).trans ht
    obtain ⟨header, hheader, hparse⟩ := ha
    rw [hc]
    exact ⟨header, a, hheader, hparse, (hinj hid).symm⟩
  rcases exec_queries X t call with
    h | ⟨query, arg, answer, hc, ⟨-, -, h⟩ | ⟨a, ha, h | h⟩⟩ |
      ⟨uuidStr, query, payload, header, enc, hquery, h⟩
  · rwa [h.queryMap]
  · rwa [h]
  · rw [h]
    exact hstored hc ha
  · rw [h]
    exact hstored hc ha
  · rw [h]
    by_cases heq : X.serializeToString id = uuidStr
    · rw [← heq]
      exact AList.lookup_erase _ _
    · exact (AList.lookup_erase_ne heq).trans ht

/-- What holds of a send on an RPC URI. -/
structure RepliesOnce (uri : UUri) (payload : UPayload) (attributes : UAttributes UUID UUri)
    (declared sent : Bool) (t : ZenohUTransport UUID UUri Listener) : Prop where
  /-- A reply is made on the query stored last under the id. -/
  replied : (send P X uri payload attributes declared sent t).1 = .returned .OK →
    ∃ query header enc, lastStored (X.serializeToString attributes.id) t.history = some query ∧
      (send P X uri payload attributes declared sent t).2.history =
        .replied (X.serializeToString attributes.id) query payload header enc :: t.history
  /-- Then the id is absent until a query with that id comes in, and another reply fails. -/
  absent : (send P X uri payload attributes declared sent t).1 = .returned .OK →
    ∀ calls t', Run (step (P := P) X) (send P X uri payload attributes declared sent t).2 calls t' →
      (∀ call ∈ calls, ¬ArrivesWithId X attributes.id call) →
      t'.queryMap.lookup (X.serializeToString attributes.id) = none ∧
        ∀ uri' payload' attributes' declared' sent', X.isRPCMethod uri' = true →
          attributes'.id = attributes.id →
          (send P X uri' payload' attributes' declared' sent' t').1 ≠ .returned .OK
  /-- A send that fails changes nothing. -/
  failed : (send P X uri payload attributes declared sent t).1 ≠ .returned .OK →
    (send P X uri payload attributes declared sent t).2.queryMap = t.queryMap ∧
      (send P X uri payload attributes declared sent t).2.queries = t.queries

omit [DecidableEq Listener] in
/-- A send on an RPC URI whose id is not pending fails. -/
theorem send_ne_OK {t : ZenohUTransport UUID UUri Listener} {uri : UUri}
    (hrpc : X.isRPCMethod uri = true) {attributes : UAttributes UUID UUri}
    (habsent : t.queryMap.lookup (X.serializeToString attributes.id) = none) (payload : UPayload)
    (declared sent : Bool) :
    (send P X uri payload attributes declared sent t).1 ≠ .returned .OK := by
  rcases send_queries (P := P) X uri payload attributes declared sent t with
    ⟨-, h⟩ | ⟨query, header, enc, hlookup, -⟩
  · exact h hrpc
  · rw [habsent] at hlookup
    cases hlookup

theorem QueriesSound.repliesOnce (hinj : Function.Injective X.serializeToString)
    {t : ZenohUTransport UUID UUri Listener} (ht : QueriesSound t) {uri : UUri}
    (hrpc : X.isRPCMethod uri = true) (payload : UPayload) (attributes : UAttributes UUID UUri)
    (declared sent : Bool) : RepliesOnce (P := P) X uri payload attributes declared sent t := by
  rcases send_queries (P := P) X uri payload attributes declared sent t with
    ⟨hsame, hne⟩ | ⟨query, header, enc, hlookup, h⟩
  · exact ⟨fun hok => absurd hok (hne hrpc), fun hok => absurd hok (hne hrpc),
      fun _ => ⟨hsame.queryMap, hsame.queries⟩⟩
  · refine ⟨fun _ => ⟨query, header, enc, (ht.pending _ _ hlookup).1, ?_⟩, ?_, ?_⟩
    · rw [h]
      rfl
    · intro _ calls t' hrun hcalls
      rw [h] at hrun
      have habsent := hrun.preserves (preserves_absent X hinj attributes.id)
        (AList.lookup_erase _ _) (along_of_forall_mem hcalls _)
      refine ⟨habsent, fun uri' payload' attributes' declared' sent' hrpc' hid => ?_⟩
      rw [← hid] at habsent
      exact send_ne_OK X hrpc' habsent payload' declared' sent'
    · intro hne
      rw [h] at hne
      exact absurd rfl hne

/-- In every reachable state a clone has been replied on at most once and dropped exactly
when it was, and sends on RPC URIs keep it so. -/
theorem replies_of_run (hinj : Function.Injective X.serializeToString)
    {calls : List (Call P UUID UUri Listener)} {t : ZenohUTransport UUID UUri Listener}
    (hrun : Run (step X) init calls t) :
    (∀ query, replies query t.history ≤ 1 ∧
        t.queries.released.count query = replies query t.history) ∧
      ∀ uri payload attributes declared sent, X.isRPCMethod uri = true →
        RepliesOnce (P := P) X uri payload attributes declared sent t := by
  have ht := hrun.invariant (preserves_queriesSound X _) queriesSound_init
  refine ⟨fun query => ⟨(ht.answered query).2, (ht.answered query).1⟩, ?_⟩
  intro uri payload attributes declared sent hrpc
  exact ht.repliesOnce X hinj hrpc payload attributes declared sent

/-- The header of a request with the id `(0, 0)`. -/
def requestHeader : Buffer ⟨.eight, .little⟩ where
  bytes := 1 :: 16 :: List.replicate 7 0 ++ List.replicate 16 0 ++
    (2 :: 4 :: List.replicate 7 0 ++ [2, 0, 0, 0]) ++ (3 :: 4 :: List.replicate 7 0 ++ [0, 0, 0, 0])
  size_le := by decide

/-- A query with `requestHeader`. -/
def request : Incoming ⟨.eight, .little⟩ where
  attachment := some (some requestHeader)
  payload := ⟨none⟩
  stray := MessageParser.zeroStray

/-- `/rpc.`, the URI of a method. -/
def methodUri : Bytes :=
  [47, 114, 112, 99, 46]

/-- The request is handed to a listener and answered. -/
def answeredRequest : List (Call ⟨.eight, .little⟩ (UInt64 × UInt64) Bytes Bool) :=
  [.QueryHandler request (methodUri, false) .OK,
    .send methodUri ⟨some [7]⟩ (.builder (0, 0) 3 0) false true]

/-- The state after `answeredRequest`. -/
def afterAnsweredRequest : ZenohUTransport (UInt64 × UInt64) Bytes Bool :=
  (send ⟨.eight, .little⟩ .sample methodUri ⟨some [7]⟩ (.builder (0, 0) 3 0) false true
    (QueryHandler ⟨.eight, .little⟩ .sample request (methodUri, false) .OK init).2).2

theorem run_answeredRequest :
    Run (step .sample) init answeredRequest afterAnsweredRequest :=
  .cons rfl (.cons rfl (.nil _))

theorem replies_of_answeredRequest :
    (∀ query, replies query afterAnsweredRequest.history ≤ 1 ∧
        afterAnsweredRequest.queries.released.count query =
          replies query afterAnsweredRequest.history) ∧
      ∀ uri payload attributes declared sent, Externals.sample.isRPCMethod uri = true →
        RepliesOnce (P := ⟨.eight, .little⟩) .sample uri payload attributes declared sent
          afterAnsweredRequest :=
  replies_of_run .sample Externals.sample_serialize_injective run_answeredRequest

end ZenohUTransport

end UpClientZenoh
