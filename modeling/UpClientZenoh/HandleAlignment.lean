import UpClientZenoh.ListenerTable

/-!
# Handle alignment

The vectors of a container run in parallel : the handle at a position is the one declared for
the listener there. `unregisterListener` finds the position in `listenerVector_` and
undeclares what it finds there in `subVector_`, or in `queryVector_` if that one is empty.

`aligned_of_run` : if URIs with one key are of one kind, every reachable state is aligned
(`Aligned`), and so `unregisterListener` undeclares the handle of the listener it removes and
no other (`UnregistersOwnHandle`).
-/

open Execution

namespace UpClientZenoh

/-! ## Parallel vectors -/

section Parallel

variable {α β : Type*} {R S : α → β → Prop}

theorem forall₂_eraseIdx {xs : List α} {ys : List β} (h : List.Forall₂ R xs ys) (i : ℕ) :
    List.Forall₂ R (xs.eraseIdx i) (ys.eraseIdx i) := by
  induction h generalizing i with
  | nil => simp
  | cons hxy hrest ih =>
    rcases i with _ | i
    · exact hrest
    · exact .cons hxy (ih i)

theorem forall₂_imp_mem {xs : List α} {ys : List β} (h : List.Forall₂ R xs ys)
    (himp : ∀ x, ∀ y ∈ ys, R x y → S x y) : List.Forall₂ S xs ys := by
  induction h with
  | nil => exact .nil
  | cons hxy _ ih =>
    refine .cons (himp _ _ List.mem_cons_self hxy) (ih fun x y hy => ?_)
    exact himp x y (List.mem_cons_of_mem _ hy)

theorem forall₂_append_singleton {xs : List α} {ys : List β} (h : List.Forall₂ R xs ys) {x : α}
    {y : β} (hxy : R x y) : List.Forall₂ R (xs ++ [x]) (ys ++ [y]) :=
  List.rel_append h (.cons hxy .nil)

theorem exists_getElem?_of_forall₂ {xs : List α} {ys : List β} (h : List.Forall₂ R xs ys) {i : ℕ}
    {y : β} (hy : ys[i]? = some y) : ∃ x, xs[i]? = some x ∧ R x y := by
  induction h generalizing i with
  | nil => simp at hy
  | @cons a b _ _ hxy _ ih =>
    rcases i with _ | i
    · rw [List.getElem?_cons_zero, Option.some.injEq] at hy
      subst hy
      exact ⟨a, rfl, hxy⟩
    · exact ih hy

end Parallel

namespace ZenohUTransport

variable {UUID UUri Listener : Type} {P : Platform} (X : Externals UUID UUri)

/-! ## The invariant -/

/-- The handle is live, and was declared for the listener under a URI with the key. -/
structure DeclaredFor (t : ZenohUTransport UUID UUri Listener) (rpc : Bool) (key : ℕ)
    (handle : Handle) (listener : Listener) : Prop where
  live : t.entities.Live handle
  declared : ∃ arg uri, t.entities.entries[handle]? = some (.ofListener rpc key arg) ∧
    t.args.entries[arg]? = some (uri, listener) ∧ X.uriHash uri = key ∧ X.isRPCMethod uri = rpc

/-- One of the handle vectors is empty. The other runs parallel to the listeners, which are
distinct, and holds their handles. -/
structure ContainerAligned (t : ZenohUTransport UUID UUri Listener) (key : ℕ)
    (c : ListenerContainer Listener) : Prop where
  distinct : c.listenerVector.Nodup
  handles : (c.queryVector = [] ∧
      List.Forall₂ (DeclaredFor X t false key) c.subVector c.listenerVector) ∨
    (c.subVector = [] ∧
      List.Forall₂ (DeclaredFor X t true key) c.queryVector c.listenerVector)

/-- Every container is aligned. -/
def Aligned (t : ZenohUTransport UUID UUri Listener) : Prop :=
  ∀ key, ContainerAligned X t key (t.container key)

variable {X}

theorem DeclaredFor.mono {t t' : ZenohUTransport UUID UUri Listener} {rpc : Bool} {key : ℕ}
    {handle : Handle} {listener : Listener} (h : DeclaredFor X t rpc key handle listener)
    (hlive : t.entities.Live handle → t'.entities.Live handle)
    (hentities : ∀ e, t.entities.entries[handle]? = some e → t'.entities.entries[handle]? = some e)
    (hargs : ∀ (arg : Handle) a, t.args.entries[arg]? = some a → t'.args.entries[arg]? = some a) :
    DeclaredFor X t' rpc key handle listener := by
  obtain ⟨hl, arg, uri, hentry, harg, hkey⟩ := h
  exact ⟨hlive hl, arg, uri, hentities _ hentry, hargs _ _ harg, hkey⟩

/-- A handle belongs to one key and one listener. -/
theorem DeclaredFor.unique {t : ZenohUTransport UUID UUri Listener} {rpc rpc' : Bool}
    {key key' : ℕ} {handle : Handle} {listener listener' : Listener}
    (h : DeclaredFor X t rpc key handle listener)
    (h' : DeclaredFor X t rpc' key' handle listener') :
    key = key' ∧ listener = listener' := by
  obtain ⟨-, arg, uri, hentry, harg, -, -⟩ := h
  obtain ⟨-, arg', uri', hentry', harg', -, -⟩ := h'
  have heq := Option.some.inj (hentry.symm.trans hentry')
  have hkey : key = key' ∧ arg = arg' := by
    unfold Entity.ofListener at heq
    split_ifs at heq <;> simpa using heq
  rw [hkey.2] at harg
  exact ⟨hkey.1, congrArg Prod.snd (Option.some.inj (harg.symm.trans harg'))⟩

section Updates

variable {t t' : ZenohUTransport UUID UUri Listener} {rpc : Bool} {key : ℕ} {handle : Handle}
  {listener : Listener} (h : DeclaredFor X t rpc key handle listener)

include h

theorem DeclaredFor.of_sameListeners (hsame : SameListeners t t') :
    DeclaredFor X t' rpc key handle listener := by
  refine h.mono ?_ ?_ ?_
  · rcases hsame.entities with heq | ⟨k, heq⟩ <;> rw [heq]
    · exact id
    · exact fun hlive => Ledger.live_alloc.2 (Or.inl hlive)
  · rcases hsame.entities with heq | ⟨k, heq⟩ <;> rw [heq]
    · exact fun _ => id
    · exact fun _ => Ledger.getElem?_alloc
  · rw [hsame.args]
    exact fun _ _ => id

theorem DeclaredFor.failedRegister (uri : UUri) (listener' : Listener) :
    DeclaredFor X (((t.newArg uri listener').deleteArg t.args.next).deleteArg t.args.next) rpc key
      handle listener :=
  h.mono id (fun _ => id) fun _ _ => getElem?_args_failedRegister uri listener'

/-- The new entries take no position of an old one. -/
theorem DeclaredFor.afterRegister (uri : UUri) (listener' : Listener) :
    DeclaredFor X (afterRegister X uri listener' t) rpc key handle listener :=
  h.mono (fun hlive => Ledger.live_alloc.2 (Or.inl hlive)) (fun _ => Ledger.getElem?_alloc)
    (fun _ _ => Ledger.getElem?_alloc)

/-- A handle other than the one undeclared stays. -/
theorem DeclaredFor.of_released {handle' : Handle} (hne : handle ≠ handle')
    (hentities : t'.entities = t.entities.release handle')
    (hargs : t'.args.entries = t.args.entries) : DeclaredFor X t' rpc key handle listener := by
  refine h.mono (fun hlive => ?_) (fun e he => ?_) (fun arg a ha => ?_)
  · rw [hentities]
    exact Ledger.live_release.2 ⟨hlive, hne⟩
  · rwa [hentities, Ledger.entries_release]
  · rwa [hargs]

end Updates

/-- The handle of an accepted registration. -/
theorem declaredFor_next (uri : UUri) (listener : Listener)
    (t : ZenohUTransport UUID UUri Listener) :
    DeclaredFor X (afterRegister X uri listener t) (X.isRPCMethod uri) (X.uriHash uri)
      t.entities.next listener :=
  ⟨Ledger.live_alloc.2 (Or.inr rfl), t.args.next, uri, Ledger.getElem?_alloc_next,
    Ledger.getElem?_alloc_next, rfl, rfl⟩

theorem ContainerAligned.mono {t t' : ZenohUTransport UUID UUri Listener} {key : ℕ}
    {c : ListenerContainer Listener} (h : ContainerAligned X t key c)
    (hmono : ∀ rpc handle, ∀ listener ∈ c.listenerVector,
      DeclaredFor X t rpc key handle listener → DeclaredFor X t' rpc key handle listener) :
    ContainerAligned X t' key c := by
  refine ⟨h.distinct, ?_⟩
  rcases h.handles with ⟨hempty, hall⟩ | ⟨hempty, hall⟩
  · exact Or.inl ⟨hempty, forall₂_imp_mem hall fun handle l hl => hmono false handle l hl⟩
  · exact Or.inr ⟨hempty, forall₂_imp_mem hall fun handle l hl => hmono true handle l hl⟩

/-- Calls that only declare publishers keep the vectors aligned. -/
theorem Aligned.of_sameListeners {t t' : ZenohUTransport UUID UUri Listener} (ht : Aligned X t)
    (h : SameListeners t t') : Aligned X t' := by
  intro key
  rw [h.container_eq]
  exact (ht key).mono fun rpc handle listener _ hdeclared => hdeclared.of_sameListeners h

/-- The vector that `unregisterListener` picks runs parallel to the listeners. -/
theorem ContainerAligned.handleVector {t : ZenohUTransport UUID UUri Listener} {key : ℕ}
    {c : ListenerContainer Listener} (h : ContainerAligned X t key c) :
    ∃ rpc, List.Forall₂ (DeclaredFor X t rpc key) c.handleVector c.listenerVector := by
  unfold ListenerContainer.handleVector
  rcases h.handles with ⟨hempty, hall⟩ | ⟨hempty, hall⟩
  · refine ⟨false, ?_⟩
    split_ifs with hsub
    · exact hall
    · rw [hempty]
      rwa [not_not.1 hsub] at hall
  · refine ⟨true, ?_⟩
    rwa [if_neg (not_not.2 hempty)]

theorem ContainerAligned.removeAt {t : ZenohUTransport UUID UUri Listener} {key : ℕ}
    {c : ListenerContainer Listener} (h : ContainerAligned X t key c) (index : ℕ) :
    ContainerAligned X t key (c.removeAt index) := by
  refine ⟨ListenerContainer.nodup_removeAt h.distinct index, ?_⟩
  unfold ListenerContainer.removeAt
  rcases h.handles with ⟨hempty, hall⟩ | ⟨hempty, hall⟩
  · have herase := forall₂_eraseIdx hall index
    split_ifs with hsub
    · exact Or.inl ⟨hempty, herase⟩
    · rw [not_not.1 hsub, List.eraseIdx_nil] at herase
      refine Or.inl ⟨?_, ?_⟩
      · rw [hempty, List.eraseIdx_nil]
      · rwa [not_not.1 hsub]
  · rw [if_neg (not_not.2 hempty)]
    exact Or.inr ⟨hempty, forall₂_eraseIdx hall index⟩

/-- URIs with one key are of one kind. -/
def KindsAgree (X : Externals UUID UUri) : Prop :=
  ∀ uri uri', X.uriHash uri = X.uriHash uri' → X.isRPCMethod uri = X.isRPCMethod uri'

/-- In a container of a key the vector that is not of the key's kind is empty. -/
theorem ContainerAligned.of_kind (hkind : KindsAgree X) {t : ZenohUTransport UUID UUri Listener}
    {uri : UUri} {c : ListenerContainer Listener} (h : ContainerAligned X t (X.uriHash uri) c) :
    (X.isRPCMethod uri = false → c.queryVector = [] ∧
      List.Forall₂ (DeclaredFor X t false (X.uriHash uri)) c.subVector c.listenerVector) ∧
    (X.isRPCMethod uri = true → c.subVector = [] ∧
      List.Forall₂ (DeclaredFor X t true (X.uriHash uri)) c.queryVector c.listenerVector) := by
  have hnil {rpc : Bool} {handles : List Handle} {listeners : List Listener}
      (hrpc : X.isRPCMethod uri ≠ rpc)
      (hall : List.Forall₂ (DeclaredFor X t rpc (X.uriHash uri)) handles listeners) :
      handles = [] ∧ listeners = [] := by
    rcases hall with _ | ⟨hd, -⟩
    · exact ⟨rfl, rfl⟩
    · obtain ⟨-, arg, uri', -, -, hkey, hrpc'⟩ := hd
      exact absurd ((hkind uri uri' hkey.symm).trans hrpc') hrpc
  constructor
  · intro hrpc
    rcases h.handles with h | ⟨hempty, hall⟩
    · exact h
    · obtain ⟨hquery, hlistener⟩ := hnil (by simp [hrpc]) hall
      rw [hempty, hquery, hlistener]
      exact ⟨rfl, .nil⟩
  · intro hrpc
    rcases h.handles with ⟨hempty, hall⟩ | h
    · obtain ⟨hsub, hlistener⟩ := hnil (by simp [hrpc]) hall
      rw [hempty, hsub, hlistener]
      exact ⟨rfl, .nil⟩
    · exact h

theorem ContainerAligned.push (hkind : KindsAgree X) {t : ZenohUTransport UUID UUri Listener}
    {uri : UUri} {c : ListenerContainer Listener} {handle : Handle} {listener : Listener}
    (h : ContainerAligned X t (X.uriHash uri) c) (hnew : listener ∉ c.listenerVector)
    (hd : DeclaredFor X t (X.isRPCMethod uri) (X.uriHash uri) handle listener) :
    ContainerAligned X t (X.uriHash uri) (c.push (X.isRPCMethod uri) handle listener) := by
  obtain ⟨hsubs, hqueries⟩ := h.of_kind hkind
  refine ⟨ListenerContainer.nodup_push h.distinct hnew _ _, ?_⟩
  unfold ListenerContainer.push
  rcases hrpc : X.isRPCMethod uri with _ | _ <;> rw [hrpc] at hd
  · obtain ⟨hempty, hall⟩ := hsubs hrpc
    exact Or.inl ⟨hempty, forall₂_append_singleton hall hd⟩
  · obtain ⟨hempty, hall⟩ := hqueries hrpc
    exact Or.inr ⟨hempty, forall₂_append_singleton hall hd⟩

theorem Aligned.afterRegister (hkind : KindsAgree X) {t : ZenohUTransport UUID UUri Listener}
    (ht : Aligned X t) {uri : UUri} {listener : Listener}
    (hnew : (X.uriHash uri, listener) ∉ t.registered) :
    Aligned X (afterRegister X uri listener t) := by
  intro key
  have hold := (ht key).mono fun rpc handle l _ hd => hd.afterRegister uri listener
  rw [container_afterRegister]
  split_ifs with hkey
  · subst hkey
    exact hold.push hkind hnew (declaredFor_next uri listener t)
  · exact hold

variable (X)

theorem aligned_init : Aligned X (init : ZenohUTransport UUID UUri Listener) :=
  fun _ => ⟨List.nodup_nil, Or.inl ⟨rfl, .nil⟩⟩

variable {X}

section Runs

variable [DecidableEq Listener]

theorem Aligned.unregistered {t t' : ZenohUTransport UUID UUri Listener} (ht : Aligned X t)
    {key index : ℕ} {handle : Handle} {listener : Listener}
    (hindex : (t.container key).listenerVector.idxOf? listener = some index) {rpc : Bool}
    (hd : DeclaredFor X t rpc key handle listener) (h : Unregistered key index handle t t') :
    Aligned X t' := by
  -- every handle but that of the listener stays live
  have hmono (rpc' : Bool) (key' : ℕ) (handle' : Handle) (l : Listener)
      (hne : key' ≠ key ∨ l ≠ listener) (h' : DeclaredFor X t rpc' key' handle' l) :
      DeclaredFor X t' rpc' key' handle' l := by
    have hhandle : handle' ≠ handle := by
      rintro rfl
      obtain ⟨hkey, hlistener⟩ := h'.unique hd
      exact hne.elim (fun hk => hk hkey) (fun hl => hl hlistener)
    exact h'.of_released hhandle h.entities h.args
  intro key'
  rw [h.container]
  split_ifs with hkey
  · subst hkey
    refine ((ht key').removeAt index).mono fun rpc' handle' l hl => hmono _ _ _ _ (Or.inr ?_)
    rw [ListenerContainer.listenerVector_removeAt, eraseIdx_of_idxOf? hindex] at hl
    exact ((ht key').distinct.mem_erase_iff.1 hl).1
  · exact (ht key').mono fun rpc' handle' l _ => hmono _ _ _ _ (Or.inl hkey)

variable (X)

/-- An unregistration never indexes the handle vector out of range, undeclares the handle of
the listener it removes, and no other. -/
structure UnregistersOwnHandle (t : ZenohUTransport UUID UUri Listener) (uri : UUri)
    (listener : Listener) : Prop where
  returns : ∃ code, (unregisterListener X uri listener t).1 = .returned code
  own : (X.uriHash uri, listener) ∈ t.registered → ∃ rpc handle,
    DeclaredFor X t rpc (X.uriHash uri) handle listener ∧
      (unregisterListener X uri listener t).2.entities = t.entities.release handle
  other : (X.uriHash uri, listener) ∉ t.registered →
    (unregisterListener X uri listener t).2.entities = t.entities

variable {X}

/-- In an aligned state the handle at the position of a listener is the one declared for it. -/
theorem Aligned.exists_declaredFor {t : ZenohUTransport UUID UUri Listener} (ht : Aligned X t)
    {key index : ℕ} {listener : Listener}
    (hindex : (t.container key).listenerVector.idxOf? listener = some index) :
    (key, listener) ∈ t.registered ∧ ∃ rpc handle,
      (t.container key).handleVector[index]? = some handle ∧
      DeclaredFor X t rpc key handle listener := by
  obtain ⟨rpc, hall⟩ := (ht key).handleVector
  obtain ⟨hlt, hget, -⟩ := List.idxOf?_eq_some_iff.1 hindex
  have hget' := List.getElem?_eq_some_iff.2 ⟨hlt, hget⟩
  exact ⟨List.mem_of_getElem? hget', rpc, exists_getElem?_of_forall₂ hall hget'⟩

theorem Aligned.unregistersOwnHandle {t : ZenohUTransport UUID UUri Listener} (ht : Aligned X t)
    (uri : UUri) (listener : Listener) : UnregistersOwnHandle X t uri listener := by
  rcases unregisterListener_cases X uri listener t with
    ⟨hlookup, h⟩ | ⟨-, ⟨hmem, h⟩ | ⟨index, hindex, ⟨hhandle, -⟩ | ⟨handle, hhandle, hok, hun⟩⟩⟩
  · have hmem := notMem_registered_of_lookup hlookup listener
    exact ⟨⟨_, congrArg Prod.fst h⟩, fun hs => absurd hs hmem, fun _ => by rw [h]⟩
  · exact ⟨⟨_, congrArg Prod.fst h⟩, fun hs => absurd hs hmem, fun _ => by rw [h]⟩
  · obtain ⟨-, rpc, handle, hsome, -⟩ := ht.exists_declaredFor hindex
    rw [hhandle] at hsome
    cases hsome
  · obtain ⟨hmem, rpc, handle', hsome, hd⟩ := ht.exists_declaredFor hindex
    rw [hhandle] at hsome
    obtain rfl := Option.some.inj hsome
    exact ⟨⟨_, hok⟩, fun _ => ⟨rpc, handle, hd, hun.entities⟩, fun hs => absurd hmem hs⟩

theorem preserves_aligned (hkind : KindsAgree X) :
    Preserves (step X) (fun _ (_ : Call P UUID UUri Listener) => True) (Aligned X) := by
  intro t call t' ht _ hstep
  rcases step_cases X hstep with h | ⟨uri, listener, -, rfl⟩ | ⟨uri, listener, -, hnew, rfl⟩ |
    ⟨uri, listener, index, handle, -, hindex, hhandle, hun⟩
  · exact ht.of_sameListeners h.sameListeners
  · exact fun key => (ht key).mono fun rpc handle l _ hd => hd.failedRegister uri listener
  · exact ht.afterRegister hkind hnew
  · obtain ⟨-, rpc, handle', hsome, hd⟩ := ht.exists_declaredFor hindex
    rw [hhandle] at hsome
    obtain rfl := Option.some.inj hsome
    exact ht.unregistered hindex hd hun

/-- Every reachable state is aligned, and unregistering in it undeclares the right handle. -/
theorem aligned_of_run (hkind : KindsAgree X) {calls : List (Call P UUID UUri Listener)}
    {t : ZenohUTransport UUID UUri Listener} (hrun : Run (step X) init calls t) :
    Aligned X t ∧ ∀ uri listener, UnregistersOwnHandle X t uri listener := by
  have ht := hrun.invariant (preserves_aligned hkind) (aligned_init X)
  exact ⟨ht, ht.unregistersOwnHandle⟩

end Runs

/-- Two listeners of one topic. -/
def twoRegistrations : List (Call ⟨.eight, .little⟩ (UInt64 × UInt64) Bytes Bool) :=
  [.registerListener [97] false true, .registerListener [97] true true]

/-- The state after `twoRegistrations`. -/
def twoListeners : ZenohUTransport (UInt64 × UInt64) Bytes Bool :=
  (registerListener .sample [97] true true (registerListener .sample [97] false true init).2).2

theorem run_twoRegistrations : Run (step .sample) init twoRegistrations twoListeners :=
  .cons rfl (.cons rfl (.nil _))

theorem aligned_twoListeners :
    Aligned .sample twoListeners ∧
      ∀ uri listener, UnregistersOwnHandle .sample twoListeners uri listener :=
  aligned_of_run (fun _ _ h => congrArg _ (Externals.sample_uriHash_injective h))
    run_twoRegistrations

end ZenohUTransport

end UpClientZenoh
