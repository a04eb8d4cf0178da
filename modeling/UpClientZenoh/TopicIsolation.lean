import UpClientZenoh.PublishDelivery
import UpClientZenoh.ZenohRpcClient

/-!
# Topic isolation

A put or a get goes to the subscribers or queryables on its key expression (`Reached`), which
is the decimal numeral of a hash. A receiver never compares the URI.

`isolated_of_run` : in every reachable state, what is published or invoked on a URI does not
reach a listener that is registered only for URIs with another hash (`Isolated`), if the URIs
with the first hash were all methods or all topics. Without the condition on the kinds an
unregistration may undeclare the handle of another listener and leave its own.
-/

open Execution

namespace UpClientZenoh

open MessageParser ZenohRpcClient

namespace ZenohUTransport

variable {UUID UUri Listener : Type} {P : Platform} {X : Externals UUID UUri}

/-! ## Containers of one kind -/

variable (X) in
/-- The handles of the key are of one kind, and parallel to its listeners. -/
structure AlignedAt (rpc : Bool) (key : ℕ) (t : ZenohUTransport UUID UUri Listener) : Prop where
  empty : (t.container key).vector (!rpc) = []
  declared : List.Forall₂ (DeclaredFor X t rpc key) ((t.container key).vector rpc)
    (t.container key).listenerVector

/-- Registrations for the key are of one kind. -/
def RegistersKind (X : Externals UUID UUri) (rpc : Bool) (key : ℕ)
    (call : Call P UUID UUri Listener) : Prop :=
  ∀ uri listener declared, call = .registerListener uri listener declared →
    X.uriHash uri = key → X.isRPCMethod uri = rpc

section Updates

variable {rpc : Bool} {key : ℕ} {t t' : ZenohUTransport UUID UUri Listener}

theorem alignedAt_init : AlignedAt X rpc key (init : ZenohUTransport UUID UUri Listener) := by
  refine ⟨by simp [container, init], ?_⟩
  have hvector : ((init : ZenohUTransport UUID UUri Listener).container key).vector rpc = [] := by
    simp [container, init]
  rw [hvector]
  exact .nil

theorem AlignedAt.mono (h : AlignedAt X rpc key t) (hcontainer : t'.container key = t.container key)
    (hmono : ∀ handle ∈ (t.container key).vector rpc, ∀ listener,
      DeclaredFor X t rpc key handle listener → DeclaredFor X t' rpc key handle listener) :
    AlignedAt X rpc key t' := by
  have hall := (List.forall₂_and_left _ _).2 ⟨fun _ hk => hk, h.declared⟩
  refine ⟨by rw [hcontainer]; exact h.empty, ?_⟩
  rw [hcontainer]
  exact hall.imp fun handle listener hd => hmono handle hd.1 listener hd.2

theorem AlignedAt.of_onlyPublishes (h : AlignedAt X rpc key t) (honly : OnlyPublishes t t') :
    AlignedAt X rpc key t' := by
  have hsame := honly.sameListeners
  exact h.mono (hsame.container_eq key) fun _ _ _ hd => hd.of_sameListeners hsame

theorem AlignedAt.failedRegister (h : AlignedAt X rpc key t) (uri : UUri) (listener : Listener) :
    AlignedAt X rpc key
      (((t.newArg uri listener).deleteArg t.args.next).deleteArg t.args.next) :=
  h.mono rfl fun _ _ _ hd => hd.failedRegister uri listener

/-- An accepted registration of the kind appends its handle and its listener. -/
theorem AlignedAt.afterRegister (h : AlignedAt X rpc key t) {uri : UUri} (listener : Listener)
    (hkind : X.uriHash uri = key → X.isRPCMethod uri = rpc) :
    AlignedAt X rpc key (afterRegister X uri listener t) := by
  have hcontainer := container_afterRegister X uri listener t key
  by_cases hkey : key = X.uriHash uri
  · obtain rfl := hkind hkey.symm
    subst hkey
    rw [if_pos rfl] at hcontainer
    refine ⟨?_, ?_⟩
    · rw [hcontainer, ListenerContainer.vector_push, if_neg (by simp)]
      exact h.empty
    · rw [hcontainer, ListenerContainer.vector_push, if_pos rfl,
        ListenerContainer.listenerVector_push]
      refine forall₂_append_singleton (h.declared.imp fun _ _ hd => ?_)
        (declaredFor_next uri listener t)
      exact hd.afterRegister uri listener
  · rw [if_neg hkey] at hcontainer
    exact h.mono hcontainer fun _ _ _ hd => hd.afterRegister uri listener

/-- An unregistration takes its handle out of the vector of the kind. -/
theorem AlignedAt.unregistered (h : AlignedAt X rpc key t) (howned : Owned X t)
    {key' index : ℕ} {handle : Handle}
    (hhandle : (t.container key').handleVector[index]? = some handle)
    (hun : Unregistered key' index handle t t') : AlignedAt X rpc key t' := by
  have hcontainer := hun.container key
  by_cases hkey : key = key'
  · subst hkey
    rw [if_pos rfl] at hcontainer
    rw [ListenerContainer.handleVector_eq] at hhandle
    -- the vector of the other kind is empty, and has no handle
    have hkind : (t.container key).kind = rpc := by
      by_contra hne
      rw [Bool.eq_not_of_ne hne, h.empty] at hhandle
      simp at hhandle
    rw [hkind] at hhandle
    obtain ⟨hlt, rfl⟩ := List.getElem?_eq_some_iff.1 hhandle
    have herased : ∀ k ∈ ((t.container key).vector rpc).eraseIdx index,
        k ≠ ((t.container key).vector rpc)[index] :=
      fun k hk => ((mem_eraseIdx_of_nodup (howned.distinct rpc key) hlt).1 hk).2
    refine ⟨?_, ?_⟩
    · rw [hcontainer, ListenerContainer.vector_removeAt, hkind, if_neg (by simp)]
      exact h.empty
    · rw [hcontainer, ListenerContainer.vector_removeAt, hkind, if_pos rfl,
        ListenerContainer.listenerVector_removeAt]
      refine ((List.forall₂_and_left _ _).2 ⟨herased, forall₂_eraseIdx h.declared index⟩).imp ?_
      exact fun k listener hd => hd.2.of_released hd.1 hun.entities hun.args
  · rw [if_neg hkey] at hcontainer
    refine h.mono hcontainer fun k hk listener hd => hd.of_released ?_ hun.entities hun.args
    -- the handle of another key
    rintro rfl
    obtain ⟨arg, hholds⟩ := (howned.listener rpc key k).1 hk
    obtain ⟨arg', hholds'⟩ := howned.holds_handle hhandle
    exact hkey (Entity.ofListener_inj.1 (hholds.unique hholds')).2.1

end Updates

theorem preserves_alignedAt [DecidableEq Listener] (rpc : Bool) (key : ℕ) :
    Preserves (step X) (fun _ (call : Call P UUID UUri Listener) => RegistersKind X rpc key call)
      (fun t => Owned X t ∧ AlignedAt X rpc key t) := by
  intro t call t' ht hkind hstep
  refine ⟨preserves_owned ht.1 trivial hstep, ?_⟩
  rcases step_cases X hstep with h | ⟨uri, listener, -, rfl⟩ | ⟨uri, listener, rfl, -, rfl⟩ |
    ⟨uri, listener, index, handle, -, -, hhandle, hun⟩
  · exact ht.2.of_onlyPublishes h
  · exact ht.2.failedRegister uri listener
  · exact ht.2.afterRegister listener (hkind uri listener true rfl)
  · exact ht.2.unregistered ht.1 hhandle hun

/-! ## Delivery -/

/-- The argument that the closure of a queryable holds. -/
def queryArg (t : ZenohUTransport UUID UUri Listener) (h : Handle) : Option (UUri × Listener) :=
  match t.entities.entries[h]? with
  | some (.queryable _ arg) => t.args.entries[arg]?
  | _ => none

variable (X) in
/-- The callbacks of the queryables, one after another, each with its query. One that does not
return is the last. -/
def deliverQuery (query : Handle → Incoming P) (answer : Handle → UCode) :
    List Handle → ZenohUTransport UUID UUri Listener →
      Exit Unit × ZenohUTransport UUID UUri Listener
  | [], t => (.returned (), t)
  | h :: handles, t =>
    match queryArg t h with
    | none => (.undefined, t)
    | some arg =>
      match QueryHandler P X (query h) arg (answer h) t with
      | (.returned _, t) => deliverQuery query answer handles t
      | (exit, t) => (exit, t)

/-- The subscribers, or the queryables, that zenoh hands a message on the key expression to :
the live ones declared on it, each once. -/
structure Reached (t : ZenohUTransport UUID UUri Listener) (rpc : Bool) (key : ℕ)
    (handles : List Handle) : Prop where
  nodup : handles.Nodup
  mem : ∀ h, h ∈ handles ↔ ∃ arg, t.entities.Holds h (.ofListener rpc key arg)

/-- A put that a send makes is on the key of its URI. -/
theorem key_of_send {uri : UUri} {payload : UPayload} {a : UAttributes UUID UUri}
    {declared sent : Bool} {t t' : ZenohUTransport UUID UUri Listener} (howned : Owned X t)
    (hsend : send P X uri payload a declared sent t = (.returned .OK, t')) {pub : Handle}
    {put : UPayload} {header : Bytes} {encoding : Encoding} {key : ℕ}
    (hhistory : t'.history = .put pub put header encoding :: t.history)
    (hpub : t'.entities.entries[pub]? = some (.publisher key)) : key = X.uriHash uri := by
  by_cases hrpc : X.isRPCMethod uri = false
  · obtain ⟨pub', header', encoding', -, hlookup, hhistory'⟩ := send_publish hrpc hsend
    have honly : OnlyPublishes t t' := by
      have h := onlyPublishes_send (P := P) X uri payload a declared sent t
      rwa [hsend] at h
    have hholds := ((howned.of_onlyPublishes honly).publisher _ _).1 hlookup
    obtain ⟨hput, -⟩ := List.cons.inj (hhistory.symm.trans hhistory')
    obtain ⟨rfl, -⟩ := Observation.put.inj hput
    exact Entity.publisher.inj (Option.some.inj (hpub.symm.trans hholds.2))
  · unfold send at hsend
    rw [if_neg hrpc] at hsend
    split_ifs at hsend
    · cases hsend
    · rcases sendQueryable_cases X payload a sent t with ⟨hne, -⟩ | ⟨q, h, enc, -, -, -, -, -, hr⟩
      · exact absurd (congrArg Prod.fst hsend) hne
      · rw [hr] at hsend
        have ht' := (Prod.mk.inj hsend).2
        rw [← ht'] at hhistory
        cases (List.cons.inj hhistory).1

/-- Where the listener has none of the handles of a key, no message on the key reaches it. -/
theorem ne_of_reached {rpc rpc' : Bool} {key : ℕ} {t : ZenohUTransport UUID UUri Listener}
    (haligned : AlignedAt X rpc key t) (howned : Owned X t) {listener : Listener}
    (hlistener : (key, listener) ∉ t.registered) {handles : List Handle}
    (hreached : Reached t rpc' key handles) {h : Handle} (hh : h ∈ handles) {arg : Handle}
    (hentry : t.entities.entries[h]? = some (.ofListener rpc' key arg)) {p : UUri × Listener}
    (hp : t.args.entries[arg]? = some p) : p.2 ≠ listener := by
  have hmem : h ∈ (t.container key).vector rpc' := (howned.listener rpc' key h).2
    ((hreached.mem h).1 hh)
  have hrpc : rpc' = rpc := by
    by_contra hne
    rw [Bool.eq_not_of_ne hne, haligned.empty] at hmem
    exact List.not_mem_nil hmem
  subst hrpc
  obtain ⟨i, hi⟩ := List.mem_iff_getElem?.1 hmem
  obtain ⟨listener', hl, -, arg', uri, hentry', harg', -, -⟩ :=
    exists_getElem?_of_forall₂ haligned.declared.flip hi
  obtain ⟨-, -, rfl⟩ := Entity.ofListener_inj.1 (Option.some.inj (hentry.symm.trans hentry'))
  obtain rfl := Option.some.inj (hp.symm.trans harg')
  rintro rfl
  exact hlistener (mem_registered.2 (List.mem_of_getElem? hl))

/-! ## Isolation -/

variable [DecidableEq Listener]

/-- A callback that calls another listener. -/
structure PassesBy (listener : Listener) (t t' : ZenohUTransport UUID UUri Listener) : Prop where
  entities : t'.entities = t.entities
  args : t'.args = t.args
  received : receivedBy listener t'.history = receivedBy listener t.history

theorem PassesBy.callbackArg {listener : Listener} {t t' : ZenohUTransport UUID UUri Listener}
    (h : PassesBy listener t t') (k : Handle) : t'.callbackArg k = t.callbackArg k := by
  unfold ZenohUTransport.callbackArg
  rw [h.entities, h.args]

theorem PassesBy.queryArg {listener : Listener} {t t' : ZenohUTransport UUID UUri Listener}
    (h : PassesBy listener t t') (k : Handle) : t'.queryArg k = t.queryArg k := by
  unfold ZenohUTransport.queryArg
  rw [h.entities, h.args]

theorem passesBy_SubHandler {listener : Listener} (sample : Option (Incoming P))
    {arg : Option (UUri × Listener)} (harg : ∀ p, arg = some p → p.2 ≠ listener) (answer : UCode)
    (t : ZenohUTransport UUID UUri Listener) :
    PassesBy listener t (SubHandler P X sample arg answer t).2 := by
  rcases SubHandler_cases X sample arg answer t with
    h | ⟨message, uri, listener', a, -, hsome, -, h⟩
  · rw [h]
    exact ⟨rfl, rfl, rfl⟩
  · rw [h]
    refine ⟨rfl, rfl, ?_⟩
    exact (receivedBy_received listener t.history (uri, listener') _ _ _ _).trans
      (if_neg (harg _ hsome))

theorem passesBy_QueryHandler {listener : Listener} (query : Incoming P)
    {arg : UUri × Listener} (harg : arg.2 ≠ listener) (answer : UCode)
    (t : ZenohUTransport UUID UUri Listener) :
    PassesBy listener t (QueryHandler P X query arg answer t).2 := by
  rcases QueryHandler_cases X query arg answer t with
    ⟨-, h⟩ | ⟨-, -, h⟩ | ⟨a, -, ⟨-, h⟩ | ⟨-, h⟩⟩
  · rw [h]
    exact ⟨rfl, rfl, rfl⟩
  · rw [h]
    exact ⟨rfl, rfl, rfl⟩
  · rw [h]
    exact ⟨rfl, rfl, rfl⟩
  · rw [h]
    refine ⟨rfl, rfl, ?_⟩
    exact (receivedBy_received listener _ arg _ _ _ _).trans (if_neg harg)

/-- A put whose subscribers call other listeners. -/
theorem receivedBy_deliver {listener : Listener} (sample : Handle → Incoming P)
    (answer : Handle → UCode) {handles : List Handle} {t : ZenohUTransport UUID UUri Listener}
    (hargs : ∀ h ∈ handles, ∀ p, callbackArg t h = some p → p.2 ≠ listener) :
    receivedBy listener (deliver X sample answer handles t).2.history =
      receivedBy listener t.history := by
  induction handles generalizing t with
  | nil => rfl
  | cons h handles ih =>
    obtain ⟨hh, hhandles⟩ := List.forall_mem_cons.1 hargs
    have hpass := passesBy_SubHandler (X := X) (some (sample h)) hh (answer h) t
    unfold deliver
    generalize SubHandler P X (some (sample h)) (callbackArg t h) (answer h) t = r at hpass ⊢
    obtain ⟨exit, t'⟩ := r
    cases exit with
    | returned =>
      refine (ih fun k hk p hp => hhandles k hk p ?_).trans hpass.received
      rwa [hpass.callbackArg] at hp
    | terminated | threw | undefined | unfinished => exact hpass.received

/-- A get whose queryables call other listeners. -/
theorem receivedBy_deliverQuery {listener : Listener} (query : Handle → Incoming P)
    (answer : Handle → UCode) {handles : List Handle} {t : ZenohUTransport UUID UUri Listener}
    (hargs : ∀ h ∈ handles, ∀ p, queryArg t h = some p → p.2 ≠ listener) :
    receivedBy listener (deliverQuery X query answer handles t).2.history =
      receivedBy listener t.history := by
  induction handles generalizing t with
  | nil => rfl
  | cons h handles ih =>
    obtain ⟨hh, hhandles⟩ := List.forall_mem_cons.1 hargs
    unfold deliverQuery
    cases harg : queryArg t h with
    | none => rfl
    | some arg =>
      have hpass := passesBy_QueryHandler (X := X) (query h) (hh arg harg) (answer h) t
      dsimp only
      generalize QueryHandler P X (query h) arg (answer h) t = r at hpass ⊢
      obtain ⟨exit, t'⟩ := r
      cases exit with
      | returned =>
        refine (ih fun k hk p hp => hhandles k hk p ?_).trans hpass.received
        rwa [hpass.queryArg] at hp
      | terminated | threw | undefined | unfinished => exact hpass.received

/-- Nothing that any transport publishes or any client invokes on the URI reaches the listener
here, whatever else is in memory and whatever the listeners answer. -/
structure Isolated (P : Platform) (X : Externals UUID UUri) (t : ZenohUTransport UUID UUri Listener)
    (uri : UUri) (listener : Listener) : Prop where
  published : ∀ (calls : List (Call P UUID UUri Listener))
    (s s' : ZenohUTransport UUID UUri Listener) payload a declared sent,
    Run (step X) init calls s → send P X uri payload a declared sent s = (.returned .OK, s') →
    ∀ pub put (header : Buffer P) encoding key,
    s'.history = .put pub put header.bytes encoding :: s.history →
    s'.entities.entries[pub]? = some (.publisher key) →
    ∀ handles, Reached t false key handles →
    ∀ (stray : Handle → Stray) (answer : Handle → UCode),
      receivedBy listener
          (deliver X (fun h => ⟨some (some header), put, stray h⟩) answer handles t).2.history =
        receivedBy listener t.history
  invoked : ∀ (c c' : ZenohRpcClient) payload a accepted channel,
    invokeMethod P X uri payload a accepted c = (.returned (some channel), c') →
    ∀ key value (header : Buffer P), c'.gets = ⟨key, value, header.bytes⟩ :: c.gets →
    ∀ handles, Reached t true key handles →
    ∀ (stray : Handle → Stray) (answer : Handle → UCode),
      receivedBy listener (deliverQuery X (fun h => ⟨some (some header), value, stray h⟩) answer
          handles t).2.history =
        receivedBy listener t.history

/-- In every reachable state, what is published or invoked on a URI does not reach a listener
whose URIs have another hash, if registrations for the hash of the first URI were of one
kind. -/
theorem isolated_of_run {calls : List (Call P UUID UUri Listener)}
    {t : ZenohUTransport UUID UUri Listener} (hrun : Run (step X) init calls t) {uri uri' : UUri}
    (hhash : X.uriHash uri ≠ X.uriHash uri') {rpc : Bool}
    (hkind : ∀ call ∈ calls, RegistersKind X rpc (X.uriHash uri) call) {listener : Listener}
    (honly : ∀ uri'', (uri'', listener) ∈ tableAfter X calls →
      X.serializeUri uri'' = X.serializeUri uri') : Isolated P X t uri listener := by
  obtain ⟨howned, haligned⟩ := hrun.preserves (preserves_alignedAt rpc (X.uriHash uri))
    ⟨owned_init X, alignedAt_init⟩ (along_of_forall_mem hkind init)
  have hlistener : (X.uriHash uri, listener) ∉ t.registered := by
    rw [(tabled_of_run hrun).2.mem_registered]
    rintro ⟨⟨uri'', l⟩, hmem, hkey, rfl⟩
    exact hhash (hkey.symm.trans (congrArg X.hash (honly uri'' hmem)))
  constructor
  · intro calls' s s' payload a declared sent hrun' hsend pub put header encoding key hhistory hpub
      handles hreached stray answer
    obtain rfl := key_of_send (tabled_of_run hrun').1 hsend hhistory hpub
    refine receivedBy_deliver _ answer fun h hh p hp => ?_
    obtain ⟨arg, hholds⟩ := (hreached.mem h).1 hh
    rw [callbackArg, hholds.2] at hp
    exact ne_of_reached haligned howned hlistener hreached hh hholds.2 hp
  · intro c c' payload a accepted channel hinvoke key value header hgets handles hreached stray
      answer
    have hkey : key = X.uriHash uri := by
      rcases invokeMethod_cases (P := P) (X := X) uri payload a accepted c with
        ⟨-, -, hne⟩ | ⟨header', -, ⟨-, hr⟩ | ⟨-, hr⟩⟩
      · exact absurd (congrArg Prod.fst hinvoke) (hne channel)
      · rw [hinvoke] at hr
        cases congrArg Prod.fst hr
      · rw [hinvoke] at hr
        have hget := hgets.symm.trans (congrArg (fun r => r.2.gets) hr)
        exact congrArg Get.key (List.cons.inj hget).1
    subst hkey
    refine receivedBy_deliverQuery _ answer fun h hh p hp => ?_
    obtain ⟨arg, hholds⟩ := (hreached.mem h).1 hh
    rw [queryArg, hholds.2] at hp
    exact ne_of_reached haligned howned hlistener hreached hh hholds.2 hp

theorem isolated_oneListener :
    Isolated ⟨.eight, .little⟩ .sample oneListener [98] false :=
  have hkind : ∀ call ∈ oneRegistration,
      RegistersKind .sample false (Externals.sample.uriHash [98]) call := by
    intro call hcall uri listener declared heq
    rw [oneRegistration, List.mem_singleton, heq] at hcall
    cases hcall
    decide
  have honly : ∀ uri, (uri, false) ∈ tableAfter .sample oneRegistration →
      Externals.sample.serializeUri uri = Externals.sample.serializeUri [97] := by
    intro uri hmem
    have htable : tableAfter .sample oneRegistration = [([97], false)] := rfl
    rw [htable, List.mem_singleton] at hmem
    exact (Prod.mk.inj hmem).1
  isolated_of_run run_oneRegistration
    (show Externals.sample.uriHash [98] ≠ Externals.sample.uriHash [97] by decide) hkind honly

/-- The header of a message with type 1, with an id and a priority of zeros. -/
def publishHeader : Buffer ⟨.eight, .little⟩ where
  bytes := 1 :: 16 :: List.replicate 7 0 ++ List.replicate 16 0 ++
    (2 :: 4 :: List.replicate 7 0 ++ [1, 0, 0, 0]) ++ (3 :: 4 :: List.replicate 7 0 ++ [0, 0, 0, 0])
  size_le := by decide

/-- Every string has the same hash. -/
def collidingExternals : Externals (UInt64 × UInt64) Bytes :=
  { Externals.sample with hash := fun _ => 0 }

/-- A listener of the topic `b`. -/
def otherTopic : List (Call ⟨.eight, .little⟩ (UInt64 × UInt64) Bytes Bool) :=
  [.registerListener [98] false true]

/-- Only the topic `b` has the hash one. The topic `a` and a method have the hash zero. -/
def mixedExternals : Externals (UInt64 × UInt64) Bytes :=
  { Externals.sample with hash := fun bs => if bs = [98] then 1 else 0 }

/-- The listener of the method is unregistered beside a listener of `a`, and registered for
`b`. -/
def mixedKinds : List (Call ⟨.eight, .little⟩ (UInt64 × UInt64) Bytes Bool) :=
  [.registerListener methodUri true true, .registerListener [97] false true,
    .unregisterListener methodUri true, .registerListener [98] true true]

/-- A topic with the hash of another, and a method with the hash of a topic. -/
theorem not_isolated :
    (collidingExternals.serializeUri [97] ≠ collidingExternals.serializeUri [98] ∧
      ∃ t : ZenohUTransport (UInt64 × UInt64) Bytes Bool,
      Run (step collidingExternals) init otherTopic t ∧
      tableAfter collidingExternals otherTopic = [([98], false)] ∧
      ¬Isolated ⟨.eight, .little⟩ collidingExternals t [97] false) ∧
    (mixedExternals.uriHash methodUri ≠ mixedExternals.uriHash [98] ∧
      ∃ t : ZenohUTransport (UInt64 × UInt64) Bytes Bool,
      Run (step mixedExternals) init mixedKinds t ∧
      tableAfter mixedExternals mixedKinds = [([97], false), ([98], true)] ∧
      ¬Isolated ⟨.eight, .little⟩ mixedExternals t methodUri true) := by
  refine ⟨⟨by decide, ?_⟩, by decide, ?_⟩
  · have hrun : Run (step collidingExternals) init otherTopic _ := .cons rfl (.nil _)
    refine ⟨_, hrun, rfl, fun hisolated => ?_⟩
    have hsend : send ⟨.eight, .little⟩ collidingExternals [97] ⟨some [7]⟩ (.builder (0, 0) 1 0)
        true true (init : ZenohUTransport _ _ Bool) = (.returned .OK, _) := rfl
    have hreached : Reached _ false 0 [0] :=
      ⟨by simp, fun h => (tabled_of_run hrun).1.listener false 0 h⟩
    have hreceived := hisolated.published [] _ _ _ _ _ _ (.nil _) hsend 0 ⟨some [7]⟩ publishHeader
      .TEXT_PLAIN 0 rfl rfl [0] hreached (fun _ => zeroStray) fun _ => .OK
    cases hreceived
  · have hrun : Run (step mixedExternals) init mixedKinds _ :=
      .cons rfl (.cons rfl (.cons rfl (.cons rfl (.nil _))))
    refine ⟨_, hrun, rfl, fun hisolated => ?_⟩
    have hinvoke : invokeMethod ⟨.eight, .little⟩ mixedExternals methodUri ⟨none⟩
        (.builder (0, 0) 2 0) true ZenohRpcClient.init = (.returned (some 0), _) := rfl
    have hreached : Reached _ true 0 [0] :=
      ⟨by simp, fun h => (tabled_of_run hrun).1.listener true 0 h⟩
    have hreceived := hisolated.invoked _ _ _ _ _ _ hinvoke 0 ⟨none⟩ requestHeader rfl [0] hreached
      (fun _ => zeroStray) fun _ => .OK
    cases hreceived

end ZenohUTransport

end UpClientZenoh
