import UpClientZenoh.TypeDiscipline

/-!
# Responses and the URIs of their requests

`sendQueryable` looks the query up by the id of the response, in one table for the queries of
all methods, and does not use the URI it is given.

`pending_arrived` : a pending query is the last one that came in with its id, and it came in
at a queryable of some method's URI. `answersArrival_of_run` : so that is where a response
goes, whichever method `send` names, and to the method it names if no query with the id came
in at another. A response whose id is not pending is refused.
-/

open MemoryAccess Execution

namespace UpClientZenoh

namespace ZenohUTransport

variable {UUID UUri Listener : Type} {P : Platform} (X : Externals UUID UUri)

/-! ## Arrivals -/

/-- The message decodes to attributes with the id. -/
def HasId (uuidStr : Bytes) (message : Incoming P) : Prop :=
  ∃ a, Decodes X message a ∧ X.serializeToString a.id = uuidStr

/-- The call is no query with the id. -/
def PassesId (uuidStr : Bytes) : Call P UUID UUri Listener → Prop
  | .QueryHandler message _ _ => ¬HasId X uuidStr message
  | _ => True

variable [DecidableEq Listener]

/-- Of the calls with the id the last is a query at a queryable of the URI and the listener,
and it was cloned as `query`. The listener got it, if it is a request. -/
def ArrivedLast (calls : List (Call P UUID UUri Listener)) (uuidStr : Bytes) (query : Handle)
    (uri : UUri) (listener : Listener) : Prop :=
  ∃ before message answer after s a,
    calls = before ++ .QueryHandler message (uri, listener) answer :: after ∧
    Run (step X) init before s ∧ Listens true uri listener s ∧ s.queries.next = query ∧
    Decodes X message a ∧ X.serializeToString a.id = uuidStr ∧
    (a.type = X.REQUEST →
      Received s (QueryHandler P X message (uri, listener) answer s).2 uri a) ∧
    ∀ call ∈ after, PassesId X uuidStr call

variable {X}

/-- A call without the id leaves the last query with the id as it is. -/
theorem ArrivedLast.snoc {calls : List (Call P UUID UUri Listener)} {uuidStr : Bytes}
    {query : Handle} {uri : UUri} {listener : Listener}
    (h : ArrivedLast X calls uuidStr query uri listener) {call : Call P UUID UUri Listener}
    (hcall : PassesId X uuidStr call) :
    ArrivedLast X (calls ++ [call]) uuidStr query uri listener := by
  obtain ⟨before, message, answer, after, s, a, rfl, hbefore, hlistens, hquery, ha, hid, hreceived,
    hafter⟩ := h
  refine ⟨before, message, answer, after ++ [call], s, a, by simp, hbefore, hlistens, hquery, ha,
    hid, hreceived, ?_⟩
  simpa [or_imp, forall_and] using And.intro hafter hcall

/-- A query that is stored is the last with its id. -/
theorem ArrivedLast.stored {calls : List (Call P UUID UUri Listener)}
    {t : ZenohUTransport UUID UUri Listener} (hrun : Run (step X) init calls t)
    {message : Incoming P} {arg : UUri × Listener} {answer : UCode}
    (hlistens : Listens true arg.1 arg.2 t) {a : UAttributes UUID UUri}
    (ha : Decodes X message a) :
    ArrivedLast X (calls ++ [.QueryHandler message arg answer]) (X.serializeToString a.id)
      t.queries.next arg.1 arg.2 := by
  refine ⟨calls, message, answer, [], t, a, rfl, hrun, hlistens, rfl, ha, rfl, fun htype => ?_,
    by simp⟩
  exact (received_QueryHandler_iff X message arg answer t arg.1 a).2 ⟨rfl, ha, htype.symm⟩

variable (X)

end ZenohUTransport

end UpClientZenoh
