import UpClientZenoh.ZenohUTransport
import Mathlib.Data.List.Forall2
import Mathlib.Data.Set.Insert

/-!
# Listener table

`registerListener` and `unregisterListener` against a set of pairs of a URI key and a
listener (`registered`).

`meetsTable_iff` : along every run the calls do what they should do to that set, and say so
by their status, if and only if zenoh accepts the declaration for each new pair
(`DeclarationsSucceed`) and each `unregisterListener` on a key of the table finds the listener
at a position that the handle vector has (`UnregistersKnown`). A registration whose
declaration fails does not come to its status, and on a known key an unknown listener is
reported as unregistered.
-/

open Execution

namespace UpClientZenoh

/-! ## Containers -/

theorem eraseIdx_of_idxOf? {α : Type*} [DecidableEq α] {xs : List α} {x : α} {i : ℕ}
    (h : xs.idxOf? x = some i) : xs.eraseIdx i = xs.erase x := by
  rw [List.erase_eq_eraseIdx, h]

theorem mem_eraseIdx_of_nodup {α : Type*} [DecidableEq α] {xs : List α} (h : xs.Nodup) {i : ℕ}
    (hi : i < xs.length) {x : α} : x ∈ xs.eraseIdx i ↔ x ∈ xs ∧ x ≠ xs[i] := by
  rw [← h.erase_getElem _ hi, h.mem_erase_iff, and_comm]

/-- What is declared for a listener : a queryable for a method, else a subscriber. -/
def Entity.ofListener (rpc : Bool) (key : ℕ) (arg : Handle) : Entity :=
  if rpc = false then .subscriber key arg else .queryable key arg

/-- A subscriber or a queryable. -/
def Entity.IsListener : Entity → Prop
  | .publisher _ => False
  | .subscriber _ _ => True
  | .queryable _ _ => True

namespace ListenerContainer

variable {Listener : Type} (c : ListenerContainer Listener)

/-- The container with a listener and its handle added. -/
def push (rpc : Bool) (handle : Handle) (listener : Listener) : ListenerContainer Listener :=
  if rpc = false then
    { c with
      subVector := c.subVector ++ [handle]
      listenerVector := c.listenerVector ++ [listener] }
  else
    { c with
      queryVector := c.queryVector ++ [handle]
      listenerVector := c.listenerVector ++ [listener] }

/-- The vector `unregisterListener` takes a handle from. -/
def handleVector : List Handle :=
  if c.subVector ≠ [] then c.subVector else c.queryVector

/-- The container without the listener and the handle at a position. -/
def removeAt (index : ℕ) : ListenerContainer Listener :=
  if c.subVector ≠ [] then
    { c with
      subVector := c.subVector.eraseIdx index
      listenerVector := c.listenerVector.eraseIdx index }
  else
    { c with
      queryVector := c.queryVector.eraseIdx index
      listenerVector := c.listenerVector.eraseIdx index }

@[simp] theorem listenerVector_empty : (empty : ListenerContainer Listener).listenerVector = [] :=
  rfl

@[simp] theorem listenerVector_push (rpc : Bool) (handle : Handle) (listener : Listener) :
    (c.push rpc handle listener).listenerVector = c.listenerVector ++ [listener] := by
  unfold push
  split_ifs <;> rfl

@[simp] theorem listenerVector_removeAt (index : ℕ) :
    (c.removeAt index).listenerVector = c.listenerVector.eraseIdx index := by
  unfold removeAt
  split_ifs <;> rfl

theorem nodup_push {c : ListenerContainer Listener} (h : c.listenerVector.Nodup)
    {listener : Listener} (hnew : listener ∉ c.listenerVector) (rpc : Bool) (handle : Handle) :
    (c.push rpc handle listener).listenerVector.Nodup := by
  rw [listenerVector_push]
  exact List.nodup_append_comm.1 (List.nodup_cons.2 ⟨hnew, h⟩)

theorem nodup_removeAt {c : ListenerContainer Listener} (h : c.listenerVector.Nodup)
    (index : ℕ) : (c.removeAt index).listenerVector.Nodup := by
  rw [listenerVector_removeAt]
  exact h.sublist (List.eraseIdx_sublist _ _)

/-- A listener comes with one handle. -/
theorem length_push {c : ListenerContainer Listener}
    (h : c.listenerVector.length = c.subVector.length + c.queryVector.length) (rpc : Bool)
    (handle : Handle) (listener : Listener) :
    (c.push rpc handle listener).listenerVector.length =
      (c.push rpc handle listener).subVector.length +
        (c.push rpc handle listener).queryVector.length := by
  unfold push
  split_ifs <;> simp <;> omega

/-- A listener goes with one handle. -/
theorem length_removeAt {c : ListenerContainer Listener}
    (h : c.listenerVector.length = c.subVector.length + c.queryVector.length) {index : ℕ}
    (hhandle : index < c.handleVector.length) (hlistener : index < c.listenerVector.length) :
    (c.removeAt index).listenerVector.length =
      (c.removeAt index).subVector.length + (c.removeAt index).queryVector.length := by
  unfold handleVector at hhandle
  unfold removeAt
  split_ifs at hhandle ⊢
  all_goals
    dsimp only
    rw [List.length_eraseIdx_of_lt hlistener, List.length_eraseIdx_of_lt hhandle]
    omega

end ListenerContainer

namespace ZenohUTransport

variable {UUID UUri Listener : Type} {P : Platform} (X : Externals UUID UUri)

/-! ## What calls leave alone -/

/-- The listeners and their handles are those of `t` : at most a publisher is new. -/
structure SameListeners (t t' : ZenohUTransport UUID UUri Listener) : Prop where
  listenerMap : t'.listenerMap = t.listenerMap
  args : t'.args = t.args
  entities : t'.entities = t.entities ∨ ∃ key, t'.entities = t.entities.alloc (.publisher key)

/-- The listeners are those of `t`, and a publisher is declared for a key that has none, if
any. -/
structure OnlyPublishes (t t' : ZenohUTransport UUID UUri Listener) : Prop where
  listenerMap : t'.listenerMap = t.listenerMap
  args : t'.args = t.args
  publishers : (t'.pubHandleMap = t.pubHandleMap ∧ t'.entities = t.entities) ∨
    ∃ key, t.pubHandleMap.lookup key = none ∧
      t'.pubHandleMap = t.pubHandleMap.insert key t.entities.next ∧
      t'.entities = t.entities.alloc (.publisher key)

theorem OnlyPublishes.sameListeners {t t' : ZenohUTransport UUID UUri Listener}
    (h : OnlyPublishes t t') : SameListeners t t' := by
  refine ⟨h.listenerMap, h.args, ?_⟩
  rcases h.publishers with ⟨-, heq⟩ | ⟨key, -, -, heq⟩
  · exact Or.inl heq
  · exact Or.inr ⟨key, heq⟩

theorem OnlyPublishes.refl (t : ZenohUTransport UUID UUri Listener) : OnlyPublishes t t :=
  ⟨rfl, rfl, Or.inl ⟨rfl, rfl⟩⟩

/-- What is declared stays. -/
theorem OnlyPublishes.holds {t t' : ZenohUTransport UUID UUri Listener} (h : OnlyPublishes t t')
    (k : Handle) (e : Entity) (hholds : t.entities.Holds k e) : t'.entities.Holds k e := by
  rcases h.publishers with ⟨-, heq⟩ | ⟨key, -, -, heq⟩
  · rwa [heq]
  · rw [heq, Ledger.holds_alloc]
    exact Or.inl hholds

theorem onlyPublishes_initPublisher (uri : UUri) (declared : Bool)
    (t : ZenohUTransport UUID UUri Listener) :
    OnlyPublishes t (initPublisher X uri (findPublisher X uri t) declared t).2 := by
  unfold initPublisher
  cases hfind : findPublisher X uri t with
  | none =>
    cases declared with
    | false => exact .refl t
    | true => exact ⟨rfl, rfl, Or.inr ⟨_, hfind, rfl, rfl⟩⟩
  | some pub => exact .refl t

theorem onlyPublishes_send (uri : UUri) (payload : UPayload) (attributes : UAttributes UUID UUri)
    (declared sent : Bool) (t : ZenohUTransport UUID UUri Listener) :
    OnlyPublishes t (send P X uri payload attributes declared sent t).2 := by
  have hinit := onlyPublishes_initPublisher X uri declared t
  unfold send
  split_ifs with hpayload hrpc
  · exact .refl t
  · rcases sendPublish_cases X uri payload attributes declared sent t with
      ⟨-, h | h⟩ | ⟨pub, header, enc, -, -, -, -, -, h⟩
    · rw [h]
      exact .refl t
    · rw [h]
      exact hinit
    · rw [h]
      exact ⟨hinit.listenerMap, hinit.args, hinit.publishers⟩
  · rcases sendQueryable_cases X payload attributes sent t with
      ⟨-, h⟩ | ⟨query, header, enc, -, -, -, -, -, h⟩
    · rw [h]
      exact .refl t
    · rw [h]
      exact ⟨rfl, rfl, Or.inl ⟨rfl, rfl⟩⟩

theorem onlyPublishes_SubHandler (sample : Option (Incoming P)) (arg : Option (UUri × Listener))
    (answer : UCode) (t : ZenohUTransport UUID UUri Listener) :
    OnlyPublishes t (SubHandler P X sample arg answer t).2 := by
  rcases SubHandler_cases X sample arg answer t with h | ⟨_, _, _, _, -, -, -, h⟩
  · rw [h]
    exact .refl t
  · rw [h]
    exact ⟨rfl, rfl, Or.inl ⟨rfl, rfl⟩⟩

theorem onlyPublishes_QueryHandler (query : Incoming P) (arg : UUri × Listener) (answer : UCode)
    (t : ZenohUTransport UUID UUri Listener) :
    OnlyPublishes t (QueryHandler P X query arg answer t).2 := by
  rcases QueryHandler_cases X query arg answer t with
    ⟨-, h⟩ | ⟨-, -, h⟩ | ⟨_, -, ⟨-, h⟩ | ⟨-, h⟩⟩
  all_goals
    rw [h]
    exact ⟨rfl, rfl, Or.inl ⟨rfl, rfl⟩⟩

/-- Calls other than the two registrations at most declare a publisher. -/
theorem exec_publishes [DecidableEq Listener] (t : ZenohUTransport UUID UUri Listener)
    (call : Call P UUID UUri Listener) :
    OnlyPublishes t (exec X t call).2 ∨
      (∃ uri listener declared, call = .registerListener uri listener declared) ∨
      ∃ uri listener, call = .unregisterListener uri listener := by
  cases call with
  | send uri payload attributes declared sent =>
    exact Or.inl (onlyPublishes_send X uri payload attributes declared sent t)
  | registerListener uri listener declared => exact Or.inr (Or.inl ⟨_, _, _, rfl⟩)
  | unregisterListener uri listener => exact Or.inr (Or.inr ⟨_, _, rfl⟩)
  | SubHandler sample arg answer => exact Or.inl (onlyPublishes_SubHandler X sample arg answer t)
  | QueryHandler query arg answer =>
    exact Or.inl (onlyPublishes_QueryHandler X query arg answer t)

/-! ## The table -/

/-- The container of a key, an empty one if there is none. -/
def container (t : ZenohUTransport UUID UUri Listener) (key : ℕ) : ListenerContainer Listener :=
  (t.listenerMap.lookup key).getD .empty

/-- The registered pairs of a key and a listener. -/
def registered (t : ZenohUTransport UUID UUri Listener) : Set (ℕ × Listener) :=
  {p | p.2 ∈ (t.container p.1).listenerVector}

/-- The subscribers and queryables that are declared and not undeclared. -/
def liveListeners (t : ZenohUTransport UUID UUri Listener) : Set Handle :=
  {h | t.entities.Live h ∧ ∃ e ∈ t.entities.entries[h]?, Entity.IsListener e}

theorem mem_registered {t : ZenohUTransport UUID UUri Listener} {key : ℕ} {listener : Listener} :
    (key, listener) ∈ t.registered ↔ listener ∈ (t.container key).listenerVector :=
  Iff.rfl

theorem container_of_lookup {t : ZenohUTransport UUID UUri Listener} {key : ℕ}
    {c : ListenerContainer Listener} (h : t.listenerMap.lookup key = some c) :
    t.container key = c := by
  rw [container, h, Option.getD_some]

theorem notMem_registered_of_lookup {t : ZenohUTransport UUID UUri Listener} {key : ℕ}
    (h : t.listenerMap.lookup key = none) (listener : Listener) :
    (key, listener) ∉ t.registered := by
  rw [mem_registered, container, h, Option.getD_none, ListenerContainer.listenerVector_empty]
  exact List.not_mem_nil

theorem mem_registered_of_idxOf? [DecidableEq Listener] {t : ZenohUTransport UUID UUri Listener}
    {key : ℕ} {listener : Listener} {index : ℕ}
    (h : (t.container key).listenerVector.idxOf? listener = some index) :
    (key, listener) ∈ t.registered := by
  rw [mem_registered, ← List.isSome_idxOf?, h]
  rfl

theorem container_setContainer (t : ZenohUTransport UUID UUri Listener) (key : ℕ)
    (c : ListenerContainer Listener) (key' : ℕ) :
    (t.setContainer key c).container key' = if key' = key then c else t.container key' := by
  unfold container setContainer
  split_ifs with h
  · rw [h, AList.lookup_insert, Option.getD_some]
  · rw [AList.lookup_insert_ne h]

theorem SameListeners.container_eq {t t' : ZenohUTransport UUID UUri Listener}
    (h : SameListeners t t') (key : ℕ) : t'.container key = t.container key := by
  unfold container
  rw [h.listenerMap]

theorem SameListeners.registered_eq {t t' : ZenohUTransport UUID UUri Listener}
    (h : SameListeners t t') : t'.registered = t.registered := by
  unfold registered container
  rw [h.listenerMap]

theorem SameListeners.liveListeners_eq {t t' : ZenohUTransport UUID UUri Listener}
    (h : SameListeners t t') : t'.liveListeners = t.liveListeners := by
  unfold liveListeners
  rcases h.entities with heq | ⟨key, heq⟩
  · rw [heq]
  · rw [heq]
    ext h
    constructor
    · rintro ⟨hlive, e, he, hlistener⟩
      rcases Ledger.live_alloc.1 hlive with hlive | rfl
      · refine ⟨hlive, e, ?_, hlistener⟩
        rwa [Ledger.entries_alloc, List.getElem?_append_left hlive.1] at he
      · rw [Ledger.getElem?_alloc_next, Option.mem_some_iff] at he
        subst he
        exact hlistener.elim
    · rintro ⟨hlive, e, he, hlistener⟩
      exact ⟨Ledger.live_alloc.2 (Or.inl hlive), e, Ledger.getElem?_alloc he, hlistener⟩

/-! ## What registration does -/

/-- What is left after the handle of a listener is undeclared. -/
structure Unregistered (key index : ℕ) (handle : Handle)
    (t t' : ZenohUTransport UUID UUri Listener) : Prop where
  container : ∀ key', t'.container key' =
    if key' = key then (t.container key).removeAt index else t.container key'
  entities : t'.entities = t.entities.release handle
  args : t'.args.entries = t.args.entries
  closed : t'.args = (t.undeclare handle).args
  pubHandleMap : t'.pubHandleMap = t.pubHandleMap

theorem entities_undeclare (handle : Handle) (t : ZenohUTransport UUID UUri Listener) :
    (t.undeclare handle).entities = t.entities.release handle := by
  unfold undeclare
  dsimp only
  split <;> rfl

theorem args_undeclare (handle : Handle) (t : ZenohUTransport UUID UUri Listener) :
    (t.undeclare handle).args.entries = t.args.entries := by
  unfold undeclare
  dsimp only
  split
  · exact Ledger.entries_release _ _
  · exact Ledger.entries_release _ _
  · rfl

theorem listenerMap_undeclare (handle : Handle) (t : ZenohUTransport UUID UUri Listener) :
    (t.undeclare handle).listenerMap = t.listenerMap := by
  unfold undeclare
  dsimp only
  split <;> rfl

theorem pubHandleMap_undeclare (handle : Handle) (t : ZenohUTransport UUID UUri Listener) :
    (t.undeclare handle).pubHandleMap = t.pubHandleMap := by
  unfold undeclare
  dsimp only
  split <;> rfl

theorem args_undeclare_setContainer (handle key : ℕ) (c : ListenerContainer Listener)
    (t : ZenohUTransport UUID UUri Listener) :
    ((t.setContainer key c).undeclare handle).args = (t.undeclare handle).args := by
  unfold undeclare setContainer
  dsimp only
  split <;> rfl

theorem unregistered_of_eraseHandle {key index : ℕ} {handle : Handle}
    {c : ListenerContainer Listener} {t : ZenohUTransport UUID UUri Listener}
    (hc : t.container key = c) (hhandle : c.handleVector[index]? = some handle) :
    let c' := { c with listenerVector := c.listenerVector.eraseIdx index }
    (eraseHandle key index c' (t.setContainer key c')).1 = .returned .OK ∧
      Unregistered key index handle t (eraseHandle key index c' (t.setContainer key c')).2 := by
  intro c'
  have hcontainer (c₁ c₂ : ListenerContainer Listener) (key' : ℕ) :
      (((t.setContainer key c₁).undeclare handle).setContainer key c₂).container key' =
        if key' = key then c₂ else t.container key' := by
    rw [container_setContainer]
    split_ifs with h
    · rfl
    · unfold container
      rw [listenerMap_undeclare]
      exact (container_setContainer t key c₁ key').trans (if_neg h)
  unfold eraseHandle
  unfold ListenerContainer.handleVector at hhandle
  split_ifs at hhandle ⊢ with hsub
  all_goals
    have hhandle' := hhandle
    simp only [c'] at hhandle' ⊢
    rw [hhandle']
    refine ⟨rfl, fun key' => ?_, entities_undeclare _ _, args_undeclare _ _,
      args_undeclare_setContainer _ _ _ _, pubHandleMap_undeclare _ _⟩
    rw [hcontainer, hc, ListenerContainer.removeAt]
  · rw [if_pos hsub]
  · rw [if_neg hsub]

section Registration

/-- The state after an accepted registration. -/
def afterRegister (uri : UUri) (listener : Listener) (t : ZenohUTransport UUID UUri Listener) :
    ZenohUTransport UUID UUri Listener :=
  let key := X.uriHash uri
  ((t.newArg uri listener).declare (.ofListener (X.isRPCMethod uri) key t.args.next)).setContainer
    key ((t.container key).push (X.isRPCMethod uri) t.entities.next listener)

/-- A registration that fails takes no argument away from where it was. -/
theorem getElem?_args_failedRegister (uri : UUri) (listener : Listener)
    {t : ZenohUTransport UUID UUri Listener} {arg : Handle} {p : UUri × Listener}
    (h : t.args.entries[arg]? = some p) :
    (((t.newArg uri listener).deleteArg t.args.next).deleteArg
      t.args.next).args.entries[arg]? = some p := by
  simp only [deleteArg, newArg, Ledger.entries_release]
  exact Ledger.getElem?_alloc h

theorem container_afterRegister (uri : UUri) (listener : Listener)
    (t : ZenohUTransport UUID UUri Listener) (key : ℕ) :
    (afterRegister X uri listener t).container key =
      if key = X.uriHash uri then
        (t.container (X.uriHash uri)).push (X.isRPCMethod uri) t.entities.next listener
      else t.container key :=
  container_setContainer ((t.newArg uri listener).declare
    (.ofListener (X.isRPCMethod uri) (X.uriHash uri) t.args.next)) _ _ key

variable [DecidableEq Listener]

/-- A registration is refused, fails and deletes its argument twice, or adds the listener and
its handle. -/
theorem registerListener_cases (uri : UUri) (listener : Listener) (declared : Bool)
    (t : ZenohUTransport UUID UUri Listener) :
    let r := registerListener X uri listener declared t
    ((X.uriHash uri, listener) ∈ t.registered ∧ r = (.returned .INVALID_ARGUMENT, t)) ∨
    ((X.uriHash uri, listener) ∉ t.registered ∧ declared = false ∧
      r = (.undefined,
        ((t.newArg uri listener).deleteArg t.args.next).deleteArg t.args.next)) ∨
    ((X.uriHash uri, listener) ∉ t.registered ∧ declared = true ∧
      r = (.returned .OK, afterRegister X uri listener t)) := by
  intro r
  have hr : r = registerListener X uri listener declared t := rfl
  unfold registerListener at hr
  rw [mem_registered]
  by_cases hmem : listener ∈ (t.container (X.uriHash uri)).listenerVector
  · refine Or.inl ⟨hmem, ?_⟩
    rw [hr]
    exact if_pos hmem
  · refine Or.inr ?_
    have hr' := hr.trans (if_neg hmem)
    unfold afterRegister Entity.ofListener ListenerContainer.push
    generalize X.isRPCMethod uri = rpc at hr' ⊢
    cases declared with
    | false => exact Or.inl ⟨hmem, rfl, by cases rpc <;> exact hr'⟩
    | true => exact Or.inr ⟨hmem, rfl, by cases rpc <;> exact hr'⟩

/-- An `unregisterListener` knows no such key, knows the key and not the listener, runs past
the end of the handle vector, or removes the listener and undeclares a handle. -/
theorem unregisterListener_cases (uri : UUri) (listener : Listener)
    (t : ZenohUTransport UUID UUri Listener) :
    let r := unregisterListener X uri listener t
    let key := X.uriHash uri
    (t.listenerMap.lookup key = none ∧ r = (.returned .INVALID_ARGUMENT, t)) ∨
    ((∃ c, t.listenerMap.lookup key = some c) ∧
      (((key, listener) ∉ t.registered ∧ r = (.returned .OK, t)) ∨
      ∃ index, (t.container key).listenerVector.idxOf? listener = some index ∧
        (((t.container key).handleVector[index]? = none ∧ r.1 = .undefined) ∨
        ∃ handle, (t.container key).handleVector[index]? = some handle ∧
          r.1 = .returned .OK ∧ Unregistered key index handle t r.2))) := by
  intro r key
  have hr : r = unregisterListener X uri listener t := rfl
  unfold unregisterListener at hr
  dsimp only at hr
  cases hlookup : t.listenerMap.lookup (X.uriHash uri) with
  | none =>
    rw [hlookup] at hr
    exact Or.inl ⟨rfl, hr⟩
  | some c =>
    rw [hlookup] at hr
    dsimp only at hr
    have hc : t.container key = c := container_of_lookup hlookup
    refine Or.inr ⟨⟨c, rfl⟩, ?_⟩
    unfold eraseListener at hr
    cases hindex : c.listenerVector.idxOf? listener with
    | none =>
      rw [hindex] at hr
      refine Or.inl ⟨?_, hr⟩
      rw [mem_registered, hc]
      exact List.idxOf?_eq_none_iff.1 hindex
    | some index =>
      rw [hindex, Option.map_some] at hr
      dsimp only at hr
      rw [hr]
      refine Or.inr ⟨index, by rw [hc, hindex], ?_⟩
      cases hhandle : (t.container key).handleVector[index]? with
      | none =>
        refine Or.inl ⟨rfl, ?_⟩
        rw [hc] at hhandle
        unfold ListenerContainer.handleVector at hhandle
        unfold eraseHandle
        split_ifs at hhandle ⊢ <;> rw [hhandle]
      | some handle =>
        rw [hc] at hhandle
        exact Or.inr ⟨handle, rfl, unregistered_of_eraseHandle hc hhandle⟩

theorem unregisterListener_of_step {t t' : ZenohUTransport UUID UUri Listener} {uri : UUri}
    {listener : Listener}
    (hstep : step X t (.unregisterListener uri listener : Call P UUID UUri Listener) = some t') :
    (∃ code, (unregisterListener X uri listener t).1 = .returned code) ∧
      t' = (unregisterListener X uri listener t).2 := by
  rcases exec_of_step hstep with h | ⟨_, _, _, heq, -⟩
  · obtain ⟨code, hcode, -⟩ := Exit.map_eq_returned.1 (congrArg Prod.fst h)
    exact ⟨⟨code, hcode⟩, (congrArg Prod.snd h).symm⟩
  · cases heq

/-- A step at most declares a publisher, or fails to declare a listener, adds a listener, or
takes one out with a handle. -/
theorem step_cases {t t' : ZenohUTransport UUID UUri Listener} {call : Call P UUID UUri Listener}
    (hstep : step X t call = some t') :
    OnlyPublishes t t' ∨
    (∃ uri listener, call = .registerListener uri listener false ∧
      t' = ((t.newArg uri listener).deleteArg t.args.next).deleteArg t.args.next) ∨
    (∃ uri listener, call = .registerListener uri listener true ∧
      (X.uriHash uri, listener) ∉ t.registered ∧ t' = afterRegister X uri listener t) ∨
    ∃ uri listener index handle, call = .unregisterListener uri listener ∧
      (t.container (X.uriHash uri)).listenerVector.idxOf? listener = some index ∧
      (t.container (X.uriHash uri)).handleVector[index]? = some handle ∧
      Unregistered (X.uriHash uri) index handle t t' := by
  rcases exec_publishes X t call with h | ⟨uri, listener, declared, rfl⟩ | ⟨uri, listener, rfl⟩
  · rw [exec_snd_of_step hstep] at h
    exact Or.inl h
  · have ht' : t' = (registerListener X uri listener declared t).2 :=
      (exec_snd_of_step hstep).symm
    rcases registerListener_cases X uri listener declared t with
      ⟨-, h⟩ | ⟨-, rfl, h⟩ | ⟨hmem, rfl, h⟩ <;> rw [h] at ht'
    · rw [ht']
      exact Or.inl (.refl t)
    · exact Or.inr (Or.inl ⟨uri, listener, rfl, ht'⟩)
    · exact Or.inr (Or.inr (Or.inl ⟨uri, listener, rfl, hmem, ht'⟩))
  · obtain ⟨⟨code, hcode⟩, ht'⟩ := unregisterListener_of_step X hstep
    rcases unregisterListener_cases X uri listener t with
      ⟨-, h⟩ | ⟨-, ⟨-, h⟩ | ⟨index, hindex, ⟨-, h⟩ | ⟨handle, hhandle, -, hun⟩⟩⟩
    · rw [ht', h]
      exact Or.inl (.refl t)
    · rw [ht', h]
      exact Or.inl (.refl t)
    · exact absurd (h.symm.trans hcode) (by simp)
    · rw [← ht'] at hun
      exact Or.inr (Or.inr (Or.inr ⟨uri, listener, index, handle, rfl, hindex, hhandle, hun⟩))

end Registration

/-! ## Refinement -/

/-- No container has a listener twice. -/
def ListenersDistinct (t : ZenohUTransport UUID UUri Listener) : Prop :=
  ∀ key, (t.container key).listenerVector.Nodup

theorem listenersDistinct_init : ListenersDistinct (init : ZenohUTransport UUID UUri Listener) := by
  intro key
  exact List.nodup_nil

/-- A call that should change the table by `change` where `succeeds` holds : it returns `OK`
exactly then, changes the table so, and otherwise returns another status and leaves the
table and the live handles alone. -/
structure MeetsTableSpec (succeeds : Prop) (change : Set (ℕ × Listener) → Set (ℕ × Listener))
    (t : ZenohUTransport UUID UUri Listener)
    (r : Exit UCode × ZenohUTransport UUID UUri Listener) : Prop where
  status : r.1 = .returned .OK ↔ succeeds
  success : succeeds → r.2.registered = change t.registered
  failure : ¬succeeds → (∃ code, r.1 = .returned code) ∧ r.2.registered = t.registered ∧
    r.2.liveListeners = t.liveListeners

variable [DecidableEq Listener]

/-- What each call should do to the table. -/
def MeetsTable (t : ZenohUTransport UUID UUri Listener) (call : Call P UUID UUri Listener) : Prop :=
  match call with
  | .registerListener uri listener declared =>
    MeetsTableSpec ((X.uriHash uri, listener) ∉ t.registered ∧ declared = true)
      (insert (X.uriHash uri, listener)) t (registerListener X uri listener declared t)
  | .unregisterListener uri listener =>
    MeetsTableSpec ((X.uriHash uri, listener) ∈ t.registered)
      (· \ {(X.uriHash uri, listener)}) t (unregisterListener X uri listener t)
  | call => (exec X t call).2.registered = t.registered ∧
      (exec X t call).2.liveListeners = t.liveListeners

/-- An `unregisterListener` on a key of the table finds the listener there, at a position
that the handle vector has. -/
def UnregistersKnown (t : ZenohUTransport UUID UUri Listener) (call : Call P UUID UUri Listener) :
    Prop :=
  match call with
  | .unregisterListener uri listener =>
    ∀ c, t.listenerMap.lookup (X.uriHash uri) = some c →
      ∃ index, c.listenerVector.idxOf? listener = some index ∧ index < c.handleVector.length
  | _ => True

/-- No declaration of `registerListener` fails. -/
def DeclarationsSucceed (t : ZenohUTransport UUID UUri Listener)
    (call : Call P UUID UUri Listener) : Prop :=
  match call with
  | .registerListener uri listener declared =>
    (X.uriHash uri, listener) ∉ t.registered → declared = true
  | _ => True

theorem meetsTableSpec_registerListener_iff (uri : UUri) (listener : Listener) (declared : Bool)
    (t : ZenohUTransport UUID UUri Listener) :
    MeetsTableSpec ((X.uriHash uri, listener) ∉ t.registered ∧ declared = true)
        (insert (X.uriHash uri, listener)) t (registerListener X uri listener declared t) ↔
      ((X.uriHash uri, listener) ∉ t.registered → declared = true) := by
  rcases registerListener_cases X uri listener declared t with
    ⟨hmem, h⟩ | ⟨hmem, hdeclared, h⟩ | ⟨hmem, hdeclared, h⟩
  · rw [h]
    exact iff_of_true
      ⟨by simp [hmem], fun hs => absurd hmem hs.1, fun _ => ⟨⟨_, rfl⟩, rfl, rfl⟩⟩
      fun hnew => absurd hmem hnew
  · -- the second `delete`
    rw [h]
    refine iff_of_false (fun hspec => ?_) (by simp [hmem, hdeclared])
    obtain ⟨⟨code, hcode⟩, -⟩ := hspec.failure (by simp [hdeclared])
    cases hcode
  · rw [h]
    refine iff_of_true ⟨by simp [hmem, hdeclared], fun _ => ?_,
      fun hs => absurd ⟨hmem, hdeclared⟩ hs⟩ fun _ => hdeclared
    ext ⟨key, l⟩
    rw [mem_registered, afterRegister, container_setContainer, Set.mem_insert_iff, Prod.mk.injEq]
    by_cases hkey : key = X.uriHash uri
    · rw [if_pos hkey, ListenerContainer.listenerVector_push, List.mem_append,
        List.mem_singleton, mem_registered, hkey]
      tauto
    · rw [if_neg hkey]
      exact (or_iff_right fun h => hkey h.1).symm

theorem meetsTableSpec_unregisterListener_iff {t : ZenohUTransport UUID UUri Listener}
    (ht : ListenersDistinct t) (uri : UUri) (listener : Listener) :
    MeetsTableSpec ((X.uriHash uri, listener) ∈ t.registered)
        (· \ {(X.uriHash uri, listener)}) t (unregisterListener X uri listener t) ↔
      ∀ c, t.listenerMap.lookup (X.uriHash uri) = some c →
        ∃ index, c.listenerVector.idxOf? listener = some index ∧ index < c.handleVector.length := by
  rcases unregisterListener_cases X uri listener t with
    ⟨hlookup, h⟩ | ⟨⟨c, hlookup⟩, ⟨hmem, h⟩ |
      ⟨index, hindex, ⟨hhandle, h⟩ | ⟨handle, hhandle, h, hun⟩⟩⟩
  · -- an unknown key
    have hmem := notMem_registered_of_lookup hlookup listener
    rw [h]
    refine iff_of_true ⟨by simp [hmem], fun hs => absurd hs hmem, fun _ => ⟨⟨_, rfl⟩, rfl, rfl⟩⟩ ?_
    intro c hc
    rw [hlookup] at hc
    cases hc
  · -- a known key without the listener
    refine iff_of_false (fun hspec => hmem (hspec.status.1 (by rw [h]))) fun hknown => ?_
    obtain ⟨index, hindex, -⟩ := hknown c hlookup
    rw [mem_registered, container_of_lookup hlookup, ← List.isSome_idxOf?, hindex] at hmem
    exact hmem rfl
  · -- a position outside the handle vector
    have hmem := mem_registered_of_idxOf? hindex
    refine iff_of_false (fun hspec => ?_) fun hknown => ?_
    · have hok := hspec.status.2 hmem
      rw [h] at hok
      cases hok
    · obtain ⟨index', hindex', hlt⟩ := hknown c hlookup
      rw [container_of_lookup hlookup] at hindex hhandle
      rw [hindex] at hindex'
      obtain rfl := Option.some.inj hindex'
      rw [List.getElem?_eq_none_iff] at hhandle
      omega
  · -- the listener and its handle
    have hmem := mem_registered_of_idxOf? hindex
    refine iff_of_true ⟨by simp [h, hmem], fun _ => ?_, fun hs => absurd hmem hs⟩ fun c hc => ?_
    · ext ⟨key, l⟩
      rw [mem_registered, hun.container key, Set.mem_sdiff, Set.mem_singleton_iff, Prod.mk.injEq]
      by_cases hkey : key = X.uriHash uri
      · rw [if_pos hkey, ListenerContainer.listenerVector_removeAt, eraseIdx_of_idxOf? hindex,
          (ht _).mem_erase_iff, mem_registered, hkey]
        tauto
      · rw [if_neg hkey]
        exact (and_iff_left fun h => hkey h.1).symm
    · rw [container_of_lookup hc] at hindex hhandle
      exact ⟨index, hindex, (List.getElem?_eq_some_iff.1 hhandle).1⟩

/-- A call does what it should to the table if and only if it does not fail to declare a new
listener, and does not unregister what is not there. -/
theorem meetsTable_iff_accepted_known {t : ZenohUTransport UUID UUri Listener}
    (ht : ListenersDistinct t) (call : Call P UUID UUri Listener) :
    MeetsTable X t call ↔ DeclarationsSucceed X t call ∧ UnregistersKnown X t call := by
  have hsame {t' : ZenohUTransport UUID UUri Listener} (h : OnlyPublishes t t') :
      (t'.registered = t.registered ∧ t'.liveListeners = t.liveListeners) ↔ True ∧ True :=
    iff_of_true ⟨h.sameListeners.registered_eq, h.sameListeners.liveListeners_eq⟩
      ⟨trivial, trivial⟩
  cases call with
  | send uri payload attributes declared sent =>
    exact hsame (onlyPublishes_send X uri payload attributes declared sent t)
  | registerListener uri listener declared =>
    exact (meetsTableSpec_registerListener_iff X uri listener declared t).trans
      (and_iff_left trivial).symm
  | unregisterListener uri listener =>
    exact (meetsTableSpec_unregisterListener_iff X ht uri listener).trans
      (and_iff_right trivial).symm
  | SubHandler sample arg answer => exact hsame (onlyPublishes_SubHandler X sample arg answer t)
  | QueryHandler query arg answer => exact hsame (onlyPublishes_QueryHandler X query arg answer t)

theorem preserves_listenersDistinct (p : ZenohUTransport UUID UUri Listener →
    Call P UUID UUri Listener → Prop) : Preserves (step X) p ListenersDistinct := by
  intro t call t' ht _ hstep key
  rcases step_cases X hstep with h | ⟨uri, listener, -, rfl⟩ | ⟨uri, listener, -, hnew, rfl⟩ |
    ⟨uri, listener, index, handle, -, -, -, hun⟩
  · rw [h.sameListeners.container_eq]
    exact ht key
  · exact ht key
  · rw [container_afterRegister]
    split_ifs with hkey
    · exact ListenerContainer.nodup_push (ht _) hnew _ _
    · exact ht key
  · rw [hun.container]
    split_ifs with hkey
    · exact ListenerContainer.nodup_removeAt (ht _) _
    · exact ht key

/-- Along every run the calls do what they should to the table if and only if none fails to
declare a new listener, and none unregisters what is not there. -/
theorem meetsTable_iff (calls : List (Call P UUID UUri Listener)) :
    Along (step X) (MeetsTable X) init calls ↔
      Along (step X) (fun t call => DeclarationsSucceed X t call ∧ UnregistersKnown X t call) init
        calls :=
  along_congr (preserves_listenersDistinct X _)
    (fun _ call ht => meetsTable_iff_accepted_known X ht call) listenersDistinct_init calls

/-- Unregister the second listener where the first is registered. -/
def unregisterUnknown : List (Call ⟨.eight, .little⟩ (UInt64 × UInt64) Bytes Bool) :=
  [.registerListener [97] false true, .unregisterListener [97] true]

/-- The second call returns `OK` for a listener that was never registered. -/
theorem not_meetsTable_unregisterUnknown :
    ¬Along (step .sample) (MeetsTable .sample) init unregisterUnknown := by
  rintro ⟨-, hrest⟩
  obtain ⟨hspec, -⟩ := hrest _ rfl
  have hmem : true ∈ [false] := hspec.status.1 rfl
  exact absurd hmem (by decide)

end ZenohUTransport

end UpClientZenoh
