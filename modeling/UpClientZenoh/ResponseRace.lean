import Mathlib.Logic.Function.Basic
import UpClientZenoh.PendingQueries
import UpClientZenoh.Simulation

/-!
# Response race

Threads that respond while queries come in. `sendQueryable` holds no lock. Its lookup in
`queryMap_`, its read of the entry by `operator[]`, its reply with the drop of the query, and its
erasure of the entry are one step each, and steps of other threads and of `QueryHandler` fall
between them. An entry that is gone when it is read comes back with an empty query.

`serial_of_run` : if no thread takes up an id, and no query comes in under it, while another
thread is responding to it (`InTurn`), then the calls return and do what they would one after
another, each at the moment it fails or replies. So a query is replied on and dropped at most
once. `repliesTwice_of_overlap` : a thread that takes up an id while another one is about to
reply on its query can lead to two replies and two drops of the query.
-/

open Execution

namespace UpClientZenoh

open MessageBuilder ZenohUTransport

variable {Thread UUID UUri Listener : Type} {P : Platform} (X : Externals UUID UUri)

/-! ## Responders -/

/-- The arguments of a `send`. -/
structure SendCall (UUID UUri : Type) where
  uri : UUri
  payload : UPayload
  attributes : UAttributes UUID UUri

namespace SendCall

variable (r : SendCall UUID UUri)

def uuidStr : Bytes :=
  X.serializeToString r.attributes.id

/-- `send` comes to the lookup in `queryMap_`. -/
structure Checked : Prop where
  rpc : X.isRPCMethod r.uri = true
  payload : ¬(r.payload.size = 0 ∨ r.payload.data = none)
  type : X.RESPONSE = r.attributes.type

instance : Decidable (r.Checked X) :=
  decidable_of_iff (X.isRPCMethod r.uri = true ∧ ¬(r.payload.size = 0 ∨ r.payload.data = none) ∧
    X.RESPONSE = r.attributes.type) ⟨fun h => ⟨h.1, h.2.1, h.2.2⟩, fun h => ⟨h.1, h.2, h.3⟩⟩

end SendCall

/-- Where a thread is in `sendQueryable`. An empty query is `none`. -/
inductive Responding (UUID UUri : Type)
  | found (response : SendCall UUID UUri)
  | taken (response : SendCall UUID UUri) (query : Option Handle)
  | replied (response : SendCall UUID UUri)

def Responding.response : Responding UUID UUri → SendCall UUID UUri
  | found r | taken r _ | replied r => r

/-- The transport, and where each thread is. -/
structure Responders (Thread UUID UUri Listener : Type) where
  transport : ZenohUTransport UUID UUri Listener
  /-- The ids that have an empty query in `queryMap_`, whatever the transport has. -/
  emptied : List Bytes
  responding : Thread → Option (Responding UUID UUri)
  /-- What the calls return, settled when they fail or reply, the last one first. -/
  codes : List (Thread × UCode)

/-- A `QueryHandler`, or a step of a `send` on an RPC method. `sent` is the outcome of
`z_query_reply`. -/
inductive ResponderStep (P : Platform) (Thread UUID UUri Listener : Type)
  | QueryHandler (query : Incoming P) (arg : UUri × Listener) (answer : UCode)
  | find (thread : Thread) (response : SendCall UUID UUri)
  | take (thread : Thread)
  | reply (thread : Thread) (sent : Bool)
  | erase (thread : Thread)

/-- The id under which `QueryHandler` stores the query. -/
def storedUnder (query : Incoming P) : Option Bytes :=
  match headerOf query with
  | none => none
  | some header =>
    match parseHeader P X query.stray header with
    | .returned (some a) => some (X.serializeToString a.id)
    | _ => none

namespace Responders

/-- No thread responds. -/
def init : Responders Thread UUID UUri Listener where
  transport := .init
  emptied := []
  responding _ := none
  codes := []

/-- The entry of `queryMap_` under an id. -/
def entry (s : Responders Thread UUID UUri Listener) (uuidStr : Bytes) : Option (Option Handle) :=
  if uuidStr ∈ s.emptied then some none else (s.transport.queryMap.lookup uuidStr).map some

section Step

variable [DecidableEq Thread]

def goTo (s : Responders Thread UUID UUri Listener) (thread : Thread)
    (p : Responding UUID UUri) : Responders Thread UUID UUri Listener :=
  { s with responding := Function.update s.responding thread (some p) }

/-- The call of the thread is over. -/
def finish (s : Responders Thread UUID UUri Listener) (thread : Thread) (code : UCode) :
    Responders Thread UUID UUri Listener :=
  { s with
    responding := Function.update s.responding thread none
    codes := (thread, code) :: s.codes }

/-- The step of a `QueryHandler` that returns, or of a thread. Sends on topics are no steps of
this system, and zenoh sends no reply on an empty query. -/
def step (s : Responders Thread UUID UUri Listener) :
    ResponderStep P Thread UUID UUri Listener → Option (Responders Thread UUID UUri Listener)
  | .QueryHandler query arg answer =>
    match ZenohUTransport.QueryHandler P X query arg answer s.transport with
    | (.returned _, t) => some
      { s with
        transport := t
        emptied := s.emptied.filter fun uuidStr => ¬storedUnder X query = some uuidStr }
    | _ => none
  | .find thread r =>
    match s.responding thread with
    | some _ => none
    | none =>
      if X.isRPCMethod r.uri = false then none
      else if r.payload.size = 0 ∨ r.payload.data = none then some (s.finish thread .UNAVAILABLE)
      else if X.RESPONSE ≠ r.attributes.type then
        match wrongMessageType X r.attributes.type .terminated UCode.INVALID_ARGUMENT with
        | .returned code => some (s.finish thread code)
        | _ => none
      else
        match s.entry (r.uuidStr X) with
        | none => some (s.finish thread .UNAVAILABLE)
        | some _ => some (s.goTo thread (.found r))
  | .take thread =>
    match s.responding thread with
    | some (.found r) =>
      match s.entry (r.uuidStr X) with
      | some query => some (s.goTo thread (.taken r query))
      -- `operator[]` inserts an empty query
      | none => some ({ s with emptied := r.uuidStr X :: s.emptied }.goTo thread (.taken r none))
    | _ => none
  | .reply thread sent =>
    match s.responding thread with
    | some (.taken r query) =>
      match encoding X r.attributes with
      | none => some (s.finish thread .INTERNAL)
      | some encoding =>
        match (buildHeader P X r.attributes).val with
        | .returned header =>
          if header = [] then some (s.finish thread .INTERNAL)
          else if sent = false then some (s.finish thread .INTERNAL)
          else
            match query with
            | none => none
            | some query =>
              let t := s.transport.observe
                (.replied (r.uuidStr X) query r.payload header encoding)
              some
                { s with
                  transport := t.dropQuery query
                  responding := Function.update s.responding thread (some (.replied r))
                  codes := (thread, .OK) :: s.codes }
        | _ => none
    | _ => none
  | .erase thread =>
    match s.responding thread with
    | some (.replied r) => some
      { s with
        transport := s.transport.eraseQuery (r.uuidStr X)
        emptied := s.emptied.filter (¬· = r.uuidStr X)
        responding := Function.update s.responding thread none }
    | _ => none

end Step

/-- No thread responds to the id. -/
def Free (s : Responders Thread UUID UUri Listener) (uuidStr : Bytes) : Prop :=
  ∀ thread, ∀ p ∈ s.responding thread, p.response.uuidStr X ≠ uuidStr

/-- No thread takes up an id, and no query comes in under it, while a thread responds to it. -/
def InTurn (s : Responders Thread UUID UUri Listener) :
    ResponderStep P Thread UUID UUri Listener → Prop
  | .QueryHandler query _ _ => ∀ uuidStr ∈ storedUnder X query, s.Free X uuidStr
  | .find _ r => s.Free X (r.uuidStr X)
  | _ => True

end Responders

/-! ## One call after another -/

/-- A transport and what the calls returned, the last one first. -/
abbrev Serial (Thread UUID UUri Listener : Type) :=
  ZenohUTransport UUID UUri Listener × List (Thread × UCode)

/-- A complete `QueryHandler` or `send`. -/
inductive SerialCall (P : Platform) (Thread UUID UUri Listener : Type)
  | QueryHandler (query : Incoming P) (arg : UUri × Listener) (answer : UCode)
  | send (thread : Thread) (response : SendCall UUID UUri) (sent : Bool)

def Serial.step (a : Serial Thread UUID UUri Listener) :
    SerialCall P Thread UUID UUri Listener → Option (Serial Thread UUID UUri Listener)
  | .QueryHandler query arg answer =>
    match ZenohUTransport.QueryHandler P X query arg answer a.1 with
    | (.returned _, t) => some (t, a.2)
    | _ => none
  | .send thread r sent =>
    match ZenohUTransport.send P X r.uri r.payload r.attributes true sent a.1 with
    | (.returned code, t) => some (t, (thread, code) :: a.2)
    | _ => none

/-- A call stands where it fails or replies. -/
def serialCalls (s : Responders Thread UUID UUri Listener) :
    ResponderStep P Thread UUID UUri Listener → List (SerialCall P Thread UUID UUri Listener)
  | .QueryHandler query arg answer => [.QueryHandler query arg answer]
  | .find thread r =>
    if r.Checked X ∧ s.entry (r.uuidStr X) ≠ none then [] else [.send thread r true]
  | .reply thread sent =>
    match s.responding thread with
    | some (.taken r _) => [.send thread r sent]
    | _ => []
  | .take _ | .erase _ => []

/-! ## The relation -/

variable {X}

namespace Responding

/-- What a thread has found is there. A query that it takes is the one that is there, and one
that it has replied on is gone from the serial map. -/
def Sound (X : Externals UUID UUri) (queryMap serialMap : AList fun _ : Bytes => Handle) :
    Responding UUID UUri → Prop
  | found r => queryMap.lookup (r.uuidStr X) ≠ none
  | taken r query => query ≠ none ∧ queryMap.lookup (r.uuidStr X) = query
  | replied r => serialMap.lookup (r.uuidStr X) = none

theorem Sound.congr {queryMap serialMap queryMap' serialMap' : AList fun _ : Bytes => Handle}
    {p : Responding UUID UUri} (h : p.Sound X queryMap serialMap)
    (hmap : queryMap'.lookup (p.response.uuidStr X) = queryMap.lookup (p.response.uuidStr X))
    (hserial : serialMap'.lookup (p.response.uuidStr X) =
      serialMap.lookup (p.response.uuidStr X)) : p.Sound X queryMap' serialMap' := by
  cases p with
  | found r => exact fun hnone => h (hmap.symm.trans hnone)
  | taken r query => exact ⟨h.1, hmap.trans h.2⟩
  | replied r => exact hserial.trans h

end Responding

namespace Responders

/-- The serial transport is ahead of the one of the threads by the erasures that are still to
come. -/
structure Serialized (X : Externals UUID UUri) (s : Responders Thread UUID UUri Listener)
    (a : Serial Thread UUID UUri Listener) : Prop where
  queries : a.1.queries = s.transport.queries
  history : a.1.history = s.transport.history
  codes : a.2 = s.codes
  emptied : s.emptied = []
  distinct : ∀ thread, ∀ p ∈ s.responding thread, ∀ thread', ∀ p' ∈ s.responding thread',
    p.response.uuidStr X = p'.response.uuidStr X → thread = thread'
  checked : ∀ thread, ∀ p ∈ s.responding thread, p.response.Checked X
  sound : ∀ thread, ∀ p ∈ s.responding thread, p.Sound X s.transport.queryMap a.1.queryMap
  /-- Only the ids of replies have an erasure to come. -/
  pending : ∀ uuidStr, (∀ thread r, s.responding thread = some (.replied r) →
    r.uuidStr X ≠ uuidStr) → a.1.queryMap.lookup uuidStr = s.transport.queryMap.lookup uuidStr

theorem serialized_init :
    Serialized X (init : Responders Thread UUID UUri Listener) (.init, []) where
  queries := rfl
  history := rfl
  codes := rfl
  emptied := rfl
  distinct _ _ h := by cases h
  checked _ _ h := by cases h
  sound _ _ h := by cases h
  pending _ _ := rfl

section Relation

variable {s : Responders Thread UUID UUri Listener} {a : Serial Thread UUID UUri Listener}

theorem Serialized.entry (h : Serialized X s a) (uuidStr : Bytes) :
    s.entry uuidStr = (s.transport.queryMap.lookup uuidStr).map some := by
  simp [Responders.entry, h.emptied]

/-- Where no thread has replied under an id the entries of the id agree. -/
theorem Serialized.lookup_of_free (h : Serialized X s a) {uuidStr : Bytes}
    (hfree : s.Free X uuidStr) :
    a.1.queryMap.lookup uuidStr = s.transport.queryMap.lookup uuidStr :=
  h.pending uuidStr fun thread r hr => hfree thread (.replied r) hr

/-- Nor do they differ where the one thread that responds to the id has not replied yet. -/
theorem Serialized.lookup_of_responding (h : Serialized X s a) {thread : Thread}
    {p : Responding UUID UUri} (hp : p ∈ s.responding thread) (hnot : ∀ r, p ≠ .replied r) :
    a.1.queryMap.lookup (p.response.uuidStr X) =
      s.transport.queryMap.lookup (p.response.uuidStr X) := by
  refine h.pending _ fun thread' r hr heq => ?_
  obtain rfl := h.distinct thread' (.replied r) hr thread p hp heq
  exact hnot r (Option.some.inj (hp.symm.trans hr))

variable [DecidableEq Thread]

/-- A thread moves on with an id that no other thread responds to, and nothing changes but the
entries of the id. -/
theorem Serialized.update (h : Serialized X s a) {thread : Thread} {uuidStr : Bytes}
    (hothers : ∀ thread' ≠ thread, ∀ p ∈ s.responding thread', p.response.uuidStr X ≠ uuidStr)
    (hown : ∀ p ∈ s.responding thread, p.response.uuidStr X = uuidStr)
    {t t' : ZenohUTransport UUID UUri Listener} (hqueries : t'.queries = t.queries)
    (hhistory : t'.history = t.history)
    (hmap : ∀ id ≠ uuidStr, t.queryMap.lookup id = s.transport.queryMap.lookup id)
    (hserial : ∀ id ≠ uuidStr, t'.queryMap.lookup id = a.1.queryMap.lookup id)
    {o : Option (Responding UUID UUri)} (hnew : ∀ p ∈ o, p.response.uuidStr X = uuidStr ∧
      p.response.Checked X ∧ p.Sound X t.queryMap t'.queryMap)
    (hpending : (∀ r, o ≠ some (.replied r)) →
      t'.queryMap.lookup uuidStr = t.queryMap.lookup uuidStr)
    (codes : List (Thread × UCode)) :
    Serialized X
      ⟨t, s.emptied, Function.update s.responding thread o, codes⟩ (t', codes) := by
  have hresponding {thread' : Thread} {p : Responding UUID UUri}
      (hp : p ∈ Function.update s.responding thread o thread') :
      (thread' = thread ∧ p ∈ o) ∨ (thread' ≠ thread ∧ p ∈ s.responding thread') := by
    by_cases heq : thread' = thread
    · subst heq
      exact Or.inl ⟨rfl, by rwa [Function.update_self] at hp⟩
    · exact Or.inr ⟨heq, by rwa [Function.update_of_ne heq] at hp⟩
  refine ⟨hqueries, hhistory, rfl, h.emptied, ?_, ?_, ?_, fun id hid => ?_⟩
  · intro thread₁ p₁ hp₁ thread₂ p₂ hp₂ heq
    rcases hresponding hp₁ with ⟨hthread₁, hnew₁⟩ | ⟨hne₁, hold₁⟩ <;>
      rcases hresponding hp₂ with ⟨hthread₂, hnew₂⟩ | ⟨hne₂, hold₂⟩
    · exact hthread₁.trans hthread₂.symm
    · exact absurd (heq.symm.trans (hnew p₁ hnew₁).1) (hothers thread₂ hne₂ p₂ hold₂)
    · exact absurd (heq.trans (hnew p₂ hnew₂).1) (hothers thread₁ hne₁ p₁ hold₁)
    · exact h.distinct thread₁ p₁ hold₁ thread₂ p₂ hold₂ heq
  · intro thread' p hp
    rcases hresponding hp with ⟨-, hp⟩ | ⟨-, hp⟩
    · exact (hnew p hp).2.1
    · exact h.checked thread' p hp
  · intro thread' p hp
    rcases hresponding hp with ⟨-, hp⟩ | ⟨hne, hp⟩
    · exact (hnew p hp).2.2
    · have hid := hothers thread' hne p hp
      exact (h.sound thread' p hp).congr (hmap _ hid) (hserial _ hid)
  · by_cases heq : id = uuidStr
    · subst heq
      refine hpending fun r ho => ?_
      exact hid thread r ((Function.update_self ..).trans ho) (hnew (.replied r) ho).1
    · rw [hserial id heq, hmap id heq]
      refine h.pending id fun thread' r hr => ?_
      by_cases hthread : thread' = thread
      · subst hthread
        exact fun hid' => heq (hid'.symm.trans (hown (.replied r) hr))
      · exact hid thread' r ((Function.update_of_ne hthread ..).trans hr)

/-- A thread that responds moves on with its own response. -/
theorem Serialized.advance (h : Serialized X s a) {thread : Thread} {p : Responding UUID UUri}
    (hp : p ∈ s.responding thread) {t t' : ZenohUTransport UUID UUri Listener}
    (hqueries : t'.queries = t.queries) (hhistory : t'.history = t.history)
    (hmap : ∀ id ≠ p.response.uuidStr X,
      t.queryMap.lookup id = s.transport.queryMap.lookup id)
    (hserial : ∀ id ≠ p.response.uuidStr X,
      t'.queryMap.lookup id = a.1.queryMap.lookup id)
    {o : Option (Responding UUID UUri)}
    (hnew : ∀ p' ∈ o, p'.response = p.response ∧ p'.Sound X t.queryMap t'.queryMap)
    (hpending : (∀ r, o ≠ some (.replied r)) → t'.queryMap.lookup (p.response.uuidStr X) =
      t.queryMap.lookup (p.response.uuidStr X)) (codes : List (Thread × UCode)) :
    Serialized X
      ⟨t, s.emptied, Function.update s.responding thread o, codes⟩ (t', codes) := by
  refine h.update (fun thread' hne p' hp' heq => ?_) (fun p' hp' => ?_) hqueries hhistory hmap
    hserial (fun p' hp' => ?_) hpending codes
  · exact hne (h.distinct thread' p' hp' thread p hp heq)
  · rw [Option.some.inj (hp'.symm.trans hp)]
  · obtain ⟨hresponse, hsound⟩ := hnew p' hp'
    rw [hresponse]
    exact ⟨rfl, h.checked thread p hp, hsound⟩

end Relation

/-! ## Steps -/

section Steps

/-- `QueryHandler` stores its clone under the id of the query. -/
theorem queryMap_QueryHandler (query : Incoming P) (arg : UUri × Listener) (answer : UCode)
    (t : ZenohUTransport UUID UUri Listener) :
    (ZenohUTransport.QueryHandler P X query arg answer t).2.queryMap =
      match storedUnder X query with
      | none => t.queryMap
      | some uuidStr => t.queryMap.insert uuidStr t.queries.next := by
  unfold ZenohUTransport.QueryHandler storedUnder
  cases headerOf query with
  | none => rfl
  | some header =>
    dsimp only
    rcases parseHeader P X query.stray header with ⟨_ | a⟩ | _ | _ | _ | _
    · rfl
    · dsimp only
      split_ifs <;> rfl
    all_goals rfl

/-- Apart from that it does not depend on what is in `queryMap_`. -/
theorem QueryHandler_congr {t t' : ZenohUTransport UUID UUri Listener}
    (hqueries : t'.queries = t.queries) (hhistory : t'.history = t.history) (query : Incoming P)
    (arg : UUri × Listener) (answer : UCode) :
    let r := ZenohUTransport.QueryHandler P X query arg answer t
    let r' := ZenohUTransport.QueryHandler P X query arg answer t'
    r'.1 = r.1 ∧ r'.2.queries = r.2.queries ∧ r'.2.history = r.2.history := by
  dsimp only [ZenohUTransport.QueryHandler]
  cases headerOf query with
  | none => exact ⟨rfl, hqueries, hhistory⟩
  | some header =>
    dsimp only
    rcases parseHeader P X query.stray header with ⟨_ | a⟩ | _ | _ | _ | _
    case returned.some =>
      dsimp only
      split_ifs <;> simp [cloneQuery, storeQuery, observe, hqueries, hhistory]
    all_goals simp [cloneQuery, hqueries, hhistory]

variable [DecidableEq Thread] {s s' : Responders Thread UUID UUri Listener}
  {a : Serial Thread UUID UUri Listener}

/-- The event is matched by the calls that stand for it. -/
def Matches (X : Externals UUID UUri) (s : Responders Thread UUID UUri Listener)
    (a : Serial Thread UUID UUri Listener) (e : ResponderStep P Thread UUID UUri Listener)
    (s' : Responders Thread UUID UUri Listener) : Prop :=
  ∃ a', Run (Serial.step X) a (serialCalls X s e) a' ∧ Serialized X s' a'

theorem matches_QueryHandler (h : Serialized X s a) {query : Incoming P} {arg : UUri × Listener}
    {answer : UCode} (hturn : s.InTurn X (.QueryHandler query arg answer))
    (hstep : step X s (.QueryHandler query arg answer) = some s') :
    Matches X s a (.QueryHandler query arg answer) s' := by
  obtain ⟨hexit, hqueries, hhistory⟩ :=
    QueryHandler_congr (X := X) h.queries h.history query arg answer
  have hmap := queryMap_QueryHandler (X := X) query arg answer s.transport
  have hserial := queryMap_QueryHandler (X := X) query arg answer a.1
  rw [step] at hstep
  rcases hr : ZenohUTransport.QueryHandler P X query arg answer s.transport with ⟨exit, t⟩
  rcases hr' : ZenohUTransport.QueryHandler P X query arg answer a.1 with ⟨exit', t'⟩
  rw [hr] at hstep hexit hqueries hhistory hmap
  rw [hr'] at hexit hqueries hhistory hserial
  dsimp only at hexit hqueries hhistory hmap hserial
  rcases exit with _ | _ | _ | _ | _
  case returned =>
    cases hstep
    refine ⟨(t', a.2), .cons (by rw [Serial.step, hr', hexit]) (.nil _), ?_⟩
    have hother {id : Bytes} (hid : storedUnder X query ≠ some id) :
        t.queryMap.lookup id = s.transport.queryMap.lookup id ∧
          t'.queryMap.lookup id = a.1.queryMap.lookup id := by
      rw [hmap, hserial]
      cases hstored : storedUnder X query with
      | none => exact ⟨rfl, rfl⟩
      | some uuidStr =>
        have hne : id ≠ uuidStr := fun heq => hid (hstored.trans (congrArg some heq.symm))
        exact ⟨AList.lookup_insert_ne hne, AList.lookup_insert_ne hne⟩
    refine ⟨hqueries, hhistory, h.codes, by simp [h.emptied], h.distinct, h.checked, ?_, ?_⟩
    · intro thread p hp
      obtain ⟨hmap', hserial'⟩ := hother fun hstored => hturn _ hstored thread p hp rfl
      exact (h.sound thread p hp).congr hmap' hserial'
    · intro id hid
      by_cases hstored : storedUnder X query = some id
      · rw [hserial, hmap, hstored, h.queries]
        dsimp only
        rw [AList.lookup_insert, AList.lookup_insert]
      · obtain ⟨hmap', hserial'⟩ := hother hstored
        rw [hserial', hmap']
        exact h.pending id hid
  all_goals cases hstep

/-- How the first step of a `send` ends. -/
theorem find_cases {thread : Thread} {r : SendCall UUID UUri}
    (hstep : step (P := P) X s (.find thread r) = some s') :
    s.responding thread = none ∧ X.isRPCMethod r.uri = true ∧
      ((r.Checked X ∧ s.entry (r.uuidStr X) ≠ none ∧ s' = s.goTo thread (.found r)) ∨
        (¬(r.Checked X ∧ s.entry (r.uuidStr X) ≠ none) ∧ ∃ code, s' = s.finish thread code ∧
          ∀ t : ZenohUTransport UUID UUri Listener,
            (r.Checked X → t.queryMap.lookup (r.uuidStr X) = none) →
            ZenohUTransport.send P X r.uri r.payload r.attributes true true t =
              (.returned code, t))) := by
  rw [step] at hstep
  cases hresponding : s.responding thread with
  | some p =>
    rw [hresponding] at hstep
    cases hstep
  | none =>
    rw [hresponding] at hstep
    dsimp only at hstep
    split_ifs at hstep with hrpc hpayload htype
    · refine ⟨rfl, by simpa using hrpc, Or.inr ⟨fun h => h.1.payload hpayload, .UNAVAILABLE,
        (Option.some.inj hstep).symm, fun t _ => ?_⟩⟩
      rw [ZenohUTransport.send, if_pos hpayload]
    · refine ⟨rfl, by simpa using hrpc, Or.inr ⟨fun h => htype h.1.type, ?_⟩⟩
      rcases hwrong : wrongMessageType X r.attributes.type .terminated UCode.INVALID_ARGUMENT with
        code | _ | _ | _ | _ <;> rw [hwrong] at hstep
      · refine ⟨code, (Option.some.inj hstep).symm, fun t _ => ?_⟩
        rw [ZenohUTransport.send, if_neg hpayload, if_neg hrpc, sendQueryable, if_pos htype, hwrong]
      all_goals cases hstep
    · have hchecked : r.Checked X := ⟨by simpa using hrpc, hpayload, not_not.1 htype⟩
      refine ⟨rfl, hchecked.rpc, ?_⟩
      cases hentry : s.entry (r.uuidStr X) with
      | some query =>
        rw [hentry] at hstep
        exact Or.inl ⟨hchecked, by simp, (Option.some.inj hstep).symm⟩
      | none =>
        rw [hentry] at hstep
        refine Or.inr ⟨by simp, .UNAVAILABLE, (Option.some.inj hstep).symm, fun t hnone => ?_⟩
        have hlookup : t.queryMap.lookup (X.serializeToString r.attributes.id) = none :=
          hnone hchecked
        rw [ZenohUTransport.send, if_neg hpayload, if_neg hrpc, sendQueryable, if_neg htype]
        dsimp only
        rw [hlookup]

theorem matches_find (h : Serialized X s a) {thread : Thread} {r : SendCall UUID UUri}
    (hturn : s.InTurn (P := P) X (.find thread r))
    (hstep : step (P := P) X s (.find thread r) = some s') :
    Matches (P := P) X s a (.find thread r) s' := by
  obtain ⟨hidle, -, hcases⟩ := find_cases hstep
  obtain ⟨t', codes⟩ := a
  obtain rfl : codes = s.codes := h.codes
  have hfree : s.Free X (r.uuidStr X) := hturn
  have hothers : ∀ thread' ≠ thread, ∀ p ∈ s.responding thread',
      p.response.uuidStr X ≠ r.uuidStr X := fun thread' _ => hfree thread'
  have hown : ∀ p ∈ s.responding thread, p.response.uuidStr X = r.uuidStr X := by
    simp [hidle]
  have hlookup := h.lookup_of_free hfree
  have hupdate {o : Option (Responding UUID UUri)} :=
    h.update (o := o) hothers hown h.queries h.history (fun _ _ => rfl) (fun _ _ => rfl)
  rcases hcases with ⟨hchecked, hentry, rfl⟩ | ⟨hnot, code, rfl, hsend⟩
  · have hfound : s.transport.queryMap.lookup (r.uuidStr X) ≠ none := by
      rw [h.entry] at hentry
      simpa using hentry
    refine ⟨(t', s.codes), ?_, hupdate ?_ (fun _ => hlookup) s.codes⟩
    · rw [serialCalls, if_pos ⟨hchecked, hentry⟩]
      exact .nil _
    · rintro p ⟨⟩
      exact ⟨rfl, hchecked, hfound⟩
  · refine ⟨(t', (thread, code) :: s.codes), ?_,
      hupdate (by simp) (fun _ => hlookup) ((thread, code) :: s.codes)⟩
    rw [serialCalls, if_neg hnot]
    refine .cons ?_ (.nil _)
    have hnone (hchecked : r.Checked X) : t'.queryMap.lookup (r.uuidStr X) = none := by
      rw [hlookup]
      by_contra hfound
      refine hnot ⟨hchecked, ?_⟩
      rw [h.entry]
      simpa using hfound
    rw [Serial.step, hsend t' hnone]

theorem matches_take (h : Serialized X s a) {thread : Thread}
    (hstep : step (P := P) X s (.take thread) = some s') :
    Matches (P := P) X s a (.take thread) s' := by
  rw [step] at hstep
  rcases hresponding : s.responding thread with _ | r | ⟨r, query⟩ | r <;>
    rw [hresponding] at hstep
  case some.found =>
    have hfound : s.transport.queryMap.lookup (r.uuidStr X) ≠ none :=
      h.sound thread (.found r) hresponding
    obtain ⟨query, hquery⟩ := Option.ne_none_iff_exists'.1 hfound
    have hentry : s.entry (r.uuidStr X) = some (some query) := by rw [h.entry, hquery]; rfl
    dsimp only at hstep
    rw [hentry] at hstep
    cases hstep
    obtain ⟨t', codes⟩ := a
    obtain rfl : codes = s.codes := h.codes
    refine ⟨_, .nil _, h.advance hresponding h.queries h.history (fun _ _ => rfl)
      (fun _ _ => rfl) ?_ (fun _ => ?_) s.codes⟩
    · rintro p ⟨⟩
      exact ⟨rfl, Option.some_ne_none query, hquery⟩
    · exact h.lookup_of_responding hresponding (by simp)
  all_goals cases hstep

theorem send_of_checked {r : SendCall UUID UUri} (h : r.Checked X) (sent : Bool)
    (t : ZenohUTransport UUID UUri Listener) :
    ZenohUTransport.send P X r.uri r.payload r.attributes true sent t =
      sendQueryable P X r.payload r.attributes sent t := by
  rw [ZenohUTransport.send, if_neg h.payload, if_neg (by simp [h.rpc])]

/-- How a reply ends : without effect, or with the reply and the drop of the query. -/
theorem reply_cases {thread : Thread} {sent : Bool}
    (hstep : step (P := P) X s (.reply thread sent) = some s') :
    ∃ r query, s.responding thread = some (.taken r query) ∧
      ((s' = s.finish thread .INTERNAL ∧ ∀ (t : ZenohUTransport UUID UUri Listener) q,
          r.Checked X → t.queryMap.lookup (r.uuidStr X) = some q →
          ZenohUTransport.send P X r.uri r.payload r.attributes true sent t =
            (.returned .INTERNAL, t)) ∨
        ∃ q header enc, query = some q ∧
          s' =
            { s with
              transport := (s.transport.observe
                (.replied (r.uuidStr X) q r.payload header enc)).dropQuery q
              responding := Function.update s.responding thread (some (.replied r))
              codes := (thread, .OK) :: s.codes } ∧
          ∀ t : ZenohUTransport UUID UUri Listener,
            r.Checked X → t.queryMap.lookup (r.uuidStr X) = some q →
            ZenohUTransport.send P X r.uri r.payload r.attributes true sent t =
              (.returned .OK, afterReply (r.uuidStr X) q r.payload header enc t)) := by
  rw [step] at hstep
  rcases hresponding : s.responding thread with _ | r | ⟨r, query⟩ | r <;>
    rw [hresponding] at hstep
  case some.taken =>
    have hsend {t : ZenohUTransport UUID UUri Listener} {q : Handle} (hchecked : r.Checked X)
        (hlookup : t.queryMap.lookup (r.uuidStr X) = some q) :
        ZenohUTransport.send P X r.uri r.payload r.attributes true sent t =
          match encoding X r.attributes with
          | none => (.returned .INTERNAL, t)
          | some enc =>
            match (buildHeader P X r.attributes).val with
            | .returned header =>
              if header = [] then (.returned .INTERNAL, t)
              else if sent = false then (.returned .INTERNAL, t)
              else (.returned .OK, afterReply (r.uuidStr X) q r.payload header enc t)
            | _ => (.terminated, t) := by
      rw [SendCall.uuidStr] at hlookup
      rw [send_of_checked hchecked, sendQueryable, if_neg (not_not.2 hchecked.type)]
      dsimp only
      rw [hlookup]
      rfl
    refine ⟨r, query, rfl, ?_⟩
    dsimp only at hstep
    cases henc : encoding X r.attributes with
    | none =>
      rw [henc] at hsend hstep
      exact Or.inl ⟨(Option.some.inj hstep).symm, fun t q => hsend⟩
    | some enc =>
      rw [henc] at hsend hstep
      dsimp only at hsend hstep
      rcases hheader : (buildHeader P X r.attributes).val with header | _ | _ | _ | _ <;>
        rw [hheader] at hsend hstep
      case returned =>
        dsimp only at hsend hstep
        split_ifs at hsend hstep with hempty hsent
        · exact Or.inl ⟨(Option.some.inj hstep).symm, fun t q => hsend⟩
        · exact Or.inl ⟨(Option.some.inj hstep).symm, fun t q => hsend⟩
        · cases query with
          | none => cases hstep
          | some q =>
            exact Or.inr ⟨q, header, enc, rfl, (Option.some.inj hstep).symm, fun t => hsend⟩
      all_goals cases hstep
  all_goals cases hstep

theorem matches_reply (h : Serialized X s a) {thread : Thread} {sent : Bool}
    (hstep : step (P := P) X s (.reply thread sent) = some s') :
    Matches (P := P) X s a (.reply thread sent) s' := by
  obtain ⟨r, query, hresponding, hcases⟩ := reply_cases hstep
  obtain ⟨t', codes⟩ := a
  obtain rfl : codes = s.codes := h.codes
  have hcalls : serialCalls (P := P) X s (.reply thread sent) = [.send thread r sent] := by
    rw [serialCalls, hresponding]
  have hchecked : r.Checked X := h.checked thread (.taken r query) hresponding
  obtain ⟨hsome, hquery⟩ := h.sound thread (.taken r query) hresponding
  have hlookup := h.lookup_of_responding hresponding (by simp)
  rcases hcases with ⟨rfl, hsend⟩ | ⟨q, header, enc, rfl, rfl, hsend⟩
  · obtain ⟨q, rfl⟩ := Option.ne_none_iff_exists'.1 hsome
    refine ⟨(t', (thread, .INTERNAL) :: s.codes), ?_, h.advance hresponding h.queries h.history
      (fun _ _ => rfl) (fun _ _ => rfl) (by simp) (fun _ => hlookup) _⟩
    rw [hcalls]
    exact .cons (by rw [Serial.step, hsend t' q hchecked (hlookup.trans hquery)]) (.nil _)
  · let o : Observation UUID UUri Listener := .replied (r.uuidStr X) q r.payload header enc
    refine ⟨(((t'.observe o).dropQuery q).eraseQuery (r.uuidStr X), (thread, .OK) :: s.codes), ?_,
      h.advance (t := (s.transport.observe o).dropQuery q) hresponding
        (congrArg (Ledger.release · q) h.queries) (congrArg (List.cons o) h.history)
        (fun _ _ => rfl) (fun id hne => ?_) ?_ (fun hnot => absurd rfl (hnot r)) _⟩
    · rw [hcalls]
      exact .cons (by rw [Serial.step, hsend t' hchecked (hlookup.trans hquery)]; rfl) (.nil _)
    · exact AList.lookup_erase_ne hne
    · rintro p ⟨⟩
      exact ⟨rfl, AList.lookup_erase _ _⟩

theorem matches_erase (h : Serialized X s a) {thread : Thread}
    (hstep : step (P := P) X s (.erase thread) = some s') :
    Matches (P := P) X s a (.erase thread) s' := by
  rw [step] at hstep
  rcases hresponding : s.responding thread with _ | r | ⟨r, query⟩ | r <;>
    rw [hresponding] at hstep
  case some.replied =>
    cases hstep
    obtain ⟨t', codes⟩ := a
    obtain rfl : codes = s.codes := h.codes
    have hgone : t'.queryMap.lookup (r.uuidStr X) = none :=
      h.sound thread (.replied r) hresponding
    have hemptied : (s.emptied.filter (¬· = r.uuidStr X)) = s.emptied := by simp [h.emptied]
    rw [hemptied]
    refine ⟨_, .nil _, h.advance (t := s.transport.eraseQuery (r.uuidStr X)) hresponding h.queries
      h.history (fun id hne => ?_) (fun _ _ => rfl) (by simp) (fun _ => ?_) s.codes⟩
    · exact AList.lookup_erase_ne hne
    · have herased : (s.transport.eraseQuery (r.uuidStr X)).queryMap.lookup (r.uuidStr X) = none :=
        AList.lookup_erase _ _
      exact hgone.trans herased.symm
  all_goals cases hstep

/-- What an event in turn stands for leads from each related state to a related one. -/
theorem simulates_serial : Simulates (step (P := P) X) (Serial.step X) (InTurn X) (serialCalls X)
    (Serialized X : Responders Thread UUID UUri Listener → _ → Prop) := by
  intro s e s' a h hturn hstep
  cases e with
  | QueryHandler => exact matches_QueryHandler h hturn hstep
  | find => exact matches_find h hturn hstep
  | take => exact matches_take h hstep
  | reply => exact matches_reply h hstep
  | erase => exact matches_erase h hstep

end Steps

/-! ## Runs -/

section Runs

variable [DecidableEq Thread]

omit [DecidableEq Thread] in
theorem preserves_queriesSound_serial : Preserves (Serial.step (P := P) X) (fun _ _ => True)
    fun a : Serial Thread UUID UUri Listener => QueriesSound a.1 := by
  classical
  intro a call a' ha _ hstep
  cases call with
  | QueryHandler query arg answer =>
    have hsound := queriesSound_exec X ha (.QueryHandler query arg answer)
    rw [Serial.step] at hstep
    rw [exec] at hsound
    rcases hr : ZenohUTransport.QueryHandler P X query arg answer a.1 with
      ⟨_ | _ | _ | _ | _, t⟩ <;> rw [hr] at hstep hsound
    case returned =>
      cases hstep
      exact hsound
    all_goals cases hstep
  | send thread r sent =>
    have hsound := queriesSound_exec (P := P) X ha (.send r.uri r.payload r.attributes true sent)
    rw [Serial.step] at hstep
    rw [exec] at hsound
    rcases hr : ZenohUTransport.send P X r.uri r.payload r.attributes true sent a.1 with
      ⟨_ | _ | _ | _ | _, t⟩ <;> rw [hr] at hstep hsound
    case returned =>
      cases hstep
      exact hsound
    all_goals cases hstep

variable {es : List (ResponderStep P Thread UUID UUri Listener)}
  {s : Responders Thread UUID UUri Listener} (hrun : Run (step X) init es s)
  (hturn : Along (step X) (InTurn X) init es)

include hrun hturn

/-- In every interleaving in turn the calls return and do what they would one after another.
When no call is under way `queryMap_` is the same. -/
theorem serial_of_run : ∃ a, Run (Serial.step X) (.init, [])
      (trace (step X) (serialCalls X) init es) a ∧
    a.2 = s.codes ∧ a.1.queries = s.transport.queries ∧ a.1.history = s.transport.history ∧
    ((∀ thread, s.responding thread = none) →
      ∀ uuidStr, s.entry uuidStr = (a.1.queryMap.lookup uuidStr).map some) := by
  obtain ⟨a, hserial, h⟩ := hrun.simulates simulates_serial hturn serialized_init
  refine ⟨a, hserial, h.codes, h.queries, h.history, fun hidle uuidStr => ?_⟩
  rw [h.entry, h.lookup_of_free]
  simp [Free, hidle]

/-- In every interleaving in turn a query is dropped when it is replied on, and replied on at
most once. -/
theorem repliesOnce_of_run (query : Handle) :
    s.transport.queries.released.count query = replies query s.transport.history ∧
      replies query s.transport.history ≤ 1 := by
  obtain ⟨a, hserial, h⟩ := hrun.simulates simulates_serial hturn serialized_init
  have hsound := (hserial.invariant preserves_queriesSound_serial queriesSound_init).answered query
  rwa [h.queries, h.history] at hsound

end Runs

/-- A response to the id, to the listener's method. -/
def plainResponse (id : UInt64 × UInt64) : SendCall (UInt64 × UInt64) Bytes :=
  ⟨methodUri, ⟨some [7]⟩, .builder id 3 0⟩

/-- One thread answers the request. Meanwhile another one fails on an id without a query. -/
def inTurnSteps : List (ResponderStep ⟨.eight, .little⟩ Bool (UInt64 × UInt64) Bytes Bool) :=
  [.QueryHandler request (methodUri, false) .OK, .find false (plainResponse (0, 0)),
    .find true (plainResponse (1, 0)), .take false, .reply false true, .erase false]

theorem along_inTurnSteps : Along (step .sample) (InTurn .sample)
    (init : Responders Bool (UInt64 × UInt64) Bytes Bool) inTurnSteps := by
  have hfree {uuidStr : Bytes} :
      (init : Responders Bool (UInt64 × UInt64) Bytes Bool).Free .sample uuidStr := by
    rintro thread p ⟨⟩
  refine .cons (fun _ _ => hfree) rfl (.cons ?_ rfl (.cons ?_ rfl (.cons trivial rfl
    (.cons trivial rfl (.cons trivial rfl trivial)))))
  · rintro thread p ⟨⟩
  · rintro (_ | _) p ⟨⟩
    decide

theorem run_inTurnSteps : ∃ s, Run (step .sample)
    (init : Responders Bool (UInt64 × UInt64) Bytes Bool) inTurnSteps s :=
  ⟨_, .cons rfl (.cons rfl (.cons rfl (.cons rfl (.cons rfl (.cons rfl (.nil _))))))⟩

theorem serial_of_inTurnSteps :
    ∃ s, Run (step .sample) (init : Responders Bool (UInt64 × UInt64) Bytes Bool) inTurnSteps s ∧
      ∃ a, Run (Serial.step .sample) (.init, [])
          (trace (step .sample) (serialCalls .sample) init inTurnSteps) a ∧
        a.2 = s.codes ∧ a.1.queries = s.transport.queries ∧ a.1.history = s.transport.history ∧
        ((∀ thread, s.responding thread = none) →
          ∀ uuidStr, s.entry uuidStr = (a.1.queryMap.lookup uuidStr).map some) := by
  obtain ⟨s, hrun⟩ := run_inTurnSteps
  exact ⟨s, hrun, serial_of_run hrun along_inTurnSteps⟩

theorem repliesOnce_of_inTurnSteps :
    ∃ s, Run (step .sample) (init : Responders Bool (UInt64 × UInt64) Bytes Bool) inTurnSteps s ∧
      s.transport.queries.released.count 0 = replies 0 s.transport.history ∧
        replies 0 s.transport.history ≤ 1 := by
  obtain ⟨s, hrun⟩ := run_inTurnSteps
  exact ⟨s, hrun, repliesOnce_of_run hrun along_inTurnSteps 0⟩

/-! ## An overlap -/

section Overlap

variable [DecidableEq Thread] {s : Responders Thread UUID UUri Listener} {thread : Thread}
  {r : SendCall UUID UUri}

theorem step_find (hidle : s.responding thread = none) (hchecked : r.Checked X)
    (hentry : s.entry (r.uuidStr X) ≠ none) :
    step (P := P) X s (.find thread r) = some (s.goTo thread (.found r)) := by
  obtain ⟨query, hquery⟩ := Option.ne_none_iff_exists'.1 hentry
  rw [step, hidle]
  dsimp only
  rw [if_neg (by simp [hchecked.rpc]), if_neg hchecked.payload, if_neg (not_not.2 hchecked.type),
    hquery]

theorem step_take (hfound : s.responding thread = some (.found r)) {query : Option Handle}
    (hentry : s.entry (r.uuidStr X) = some query) :
    step (P := P) X s (.take thread) = some (s.goTo thread (.taken r query)) := by
  rw [step, hfound]
  dsimp only
  rw [hentry]

/-- The attributes have an encoding and a header. -/
def Sendable (P : Platform) (X : Externals UUID UUri) (r : SendCall UUID UUri) : Prop :=
  encoding X r.attributes ≠ none ∧
    ∃ header, (buildHeader P X r.attributes).val = .returned header ∧ header ≠ []

theorem step_reply {q : Handle} (htaken : s.responding thread = some (.taken r (some q)))
    (hsendable : Sendable P X r) :
    ∃ header enc s', step (P := P) X s (.reply thread true) = some s' ∧
      s'.transport =
        (s.transport.observe (.replied (r.uuidStr X) q r.payload header enc)).dropQuery q ∧
      ∀ thread' ≠ thread, s'.responding thread' = s.responding thread' := by
  obtain ⟨henc, header, hheader, hne⟩ := hsendable
  obtain ⟨enc, henc⟩ := Option.ne_none_iff_exists'.1 henc
  rw [step, htaken]
  dsimp only
  rw [henc]
  dsimp only
  rw [hheader]
  dsimp only
  rw [if_neg hne, if_neg (by decide)]
  exact ⟨header, enc, _, rfl, rfl, fun thread' hthread' => Function.update_of_ne hthread' ..⟩

/-- Where a thread is about to reply on a query, another one that takes up the id can lead to
two replies on the query and two drops of it. -/
theorem repliesTwice_of_overlap {es : List (ResponderStep P Thread UUID UUri Listener)}
    (hrun : Run (step X) init es s) (hturn : Along (step X) (InTurn X) init es) {thread' : Thread}
    {r' : SendCall UUID UUri} {query : Option Handle}
    (htaken : s.responding thread = some (.taken r query))
    (hidle : s.responding thread' = none) (hchecked : r'.Checked X)
    (hid : r'.uuidStr X = r.uuidStr X) (hsendable : Sendable P X r)
    (hsendable' : Sendable P X r') :
    ∃ q s', query = some q ∧ Run (step (P := P) X) s
        [.find thread' r', .take thread', .reply thread true, .reply thread' true] s' ∧
      replies q s'.transport.history = 2 ∧ s'.transport.queries.released.count q = 2 := by
  obtain ⟨a, hserial, h⟩ := hrun.simulates simulates_serial hturn serialized_init
  have hsound := hserial.invariant preserves_queriesSound_serial queriesSound_init
  obtain ⟨hsome, hlookup⟩ := h.sound thread (.taken r query) htaken
  obtain ⟨q, rfl⟩ := Option.ne_none_iff_exists'.1 hsome
  obtain ⟨-, hlt, hnone⟩ := hsound.pending (r.uuidStr X) q
    ((h.lookup_of_responding htaken (by simp)).trans hlookup)
  have hcount := (hsound.answered q).1
  rw [h.queries] at hlt hcount
  rw [h.history] at hcount hnone
  have hentry : s.entry (r'.uuidStr X) = some (some q) := by rw [h.entry, hid, hlookup]; rfl
  have hne : thread ≠ thread' := by
    rintro rfl
    rw [hidle] at htaken
    cases htaken
  obtain ⟨s₁, h₁, htransport₁, hthread, hthread'⟩ : ∃ s₁, Run (step (P := P) X) s
      [.find thread' r', .take thread'] s₁ ∧ s₁.transport = s.transport ∧
      s₁.responding thread = some (.taken r (some q)) ∧
      s₁.responding thread' = some (.taken r' (some q)) := by
    have hfind := step_find (P := P) hidle hchecked (by simp [hentry])
    have htake := step_take (P := P) (s := s.goTo thread' (.found r')) (Function.update_self ..)
      hentry
    refine ⟨_, .cons hfind (.cons htake (.nil _)), rfl, ?_, Function.update_self ..⟩
    simpa only [goTo, Function.update_of_ne hne] using htaken
  obtain ⟨header, enc, s₂, h₂, htransport₂, hothers⟩ := step_reply hthread hsendable
  obtain ⟨header', enc', s₃, h₃, htransport₃, -⟩ :=
    step_reply ((hothers thread' hne.symm).trans hthread') hsendable'
  have hreplied : s₃.transport = (((s.transport.observe
      (.replied (r.uuidStr X) q r.payload header enc)).dropQuery q).observe
      (.replied (r'.uuidStr X) q r'.payload header' enc')).dropQuery q := by
    rw [htransport₃, htransport₂, htransport₁]
  refine ⟨q, s₃, rfl, h₁.append (.cons h₂ (.cons h₃ (.nil _))), ?_, ?_⟩
  · rw [hreplied]
    simp [replies, dropQuery, observe, hnone]
  · have hlt' : q < (s.transport.queries.release q).next := by rwa [Ledger.next_release]
    rw [hreplied]
    simp [dropQuery, observe, Ledger.released_release hlt', Ledger.released_release hlt, hcount,
      hnone]

end Overlap

theorem repliesTwice_of_overtaken :
    ∃ s, Run (step .sample) (init : Responders Bool (UInt64 × UInt64) Bytes Bool)
        [.QueryHandler request (methodUri, false) .OK, .find false (plainResponse (0, 0)),
          .take false] s ∧
      ∃ q s', some 0 = some q ∧ Run (step (P := ⟨.eight, .little⟩) .sample) s
          [.find true (plainResponse (0, 0)), .take true, .reply false true, .reply true true] s' ∧
        replies q s'.transport.history = 2 ∧ s'.transport.queries.released.count q = 2 := by
  obtain ⟨s, hrun, htaken, hidle⟩ :
      ∃ s, Run (step .sample) (init : Responders Bool (UInt64 × UInt64) Bytes Bool)
          [.QueryHandler request (methodUri, false) .OK, .find false (plainResponse (0, 0)),
            .take false] s ∧
        s.responding false = some (.taken (plainResponse (0, 0)) (some 0)) ∧
        s.responding true = none :=
    ⟨_, .cons rfl (.cons rfl (.cons rfl (.nil _))), rfl, rfl⟩
  have hturn : Along (step .sample) (InTurn .sample)
      (init : Responders Bool (UInt64 × UInt64) Bytes Bool)
      [.QueryHandler request (methodUri, false) .OK, .find false (plainResponse (0, 0)),
        .take false] := by
    refine .cons (fun _ _ => ?_) rfl (.cons ?_ rfl (.cons trivial rfl trivial)) <;>
      rintro thread p ⟨⟩
  have hsendable : Sendable ⟨.eight, .little⟩ .sample (plainResponse (0, 0)) :=
    ⟨by decide, _, rfl, by decide⟩
  exact ⟨s, hrun, repliesTwice_of_overlap hrun hturn htaken hidle (by decide) rfl hsendable
    hsendable⟩

end Responders

end UpClientZenoh
