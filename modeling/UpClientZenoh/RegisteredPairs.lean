import UpClientZenoh.HandleAlignment
import UpClientZenoh.HandleOwnership
import Mathlib.Data.List.InsertIdx

/-!
# Registered pairs

The pairs of a URI and a listener that a sequence of calls registers (`tableAfter`), and the
containers that hold them in every reachable state (`Tabled`).

A container whose `queryVector_` is empty has in `subVector_` the subscribers of its pairs, in
their order, even if it had queryables before : the last one goes with the last listener. So
there each registered listener is subscribed once, under its own URI
(`Tabled.subscribedOnce`). Where both vectors are in use an unregistration can undeclare the
handle of another listener. While none does (`RemovesOwnHandle`), the live handles of the key
are those of its pairs, one for each (`paired_of_run`), and its listeners are subscribed once
as well (`Paired.subscribedOnce`).
-/

open Execution

namespace UpClientZenoh

variable {UUID UUri Listener : Type} {P : Platform} {X : Externals UUID UUri}

namespace ZenohUTransport

/-! ## Pairs and containers -/

variable (X) in
/-- The registered pairs of a key. -/
def pairsOf (table : List (UUri × Listener)) (key : ℕ) : List (UUri × Listener) :=
  table.filter fun p => X.uriHash p.1 = key

/-- The handle is a live subscriber of the key, and its callback has the URI and the
listener. -/
def SubscribedAs (t : ZenohUTransport UUID UUri Listener) (key : ℕ) (h : Handle)
    (p : UUri × Listener) : Prop :=
  ∃ arg, t.entities.Holds h (.subscriber key arg) ∧ t.args.entries[arg]? = some p

variable (X) in
/-- The containers hold the registered pairs. Where no queryable is, the subscribers of a
container are those of its pairs. -/
structure Tabled (table : List (UUri × Listener)) (t : ZenohUTransport UUID UUri Listener) :
    Prop where
  listeners : ∀ key, (t.container key).listenerVector = (pairsOf X table key).map Prod.snd
  distinct : ∀ key, (t.container key).listenerVector.Nodup
  length : ∀ key, (t.container key).listenerVector.length =
    (t.container key).subVector.length + (t.container key).queryVector.length
  subscribed : ∀ key, (t.container key).queryVector = [] →
    List.Forall₂ (SubscribedAs t key) (t.container key).subVector (pairsOf X table key)

theorem SubscribedAs.mono {t t' : ZenohUTransport UUID UUri Listener} {key : ℕ} {h : Handle}
    {p : UUri × Listener} (hp : SubscribedAs t key h p)
    (hentities : ∀ e, t.entities.Holds h e → t'.entities.Holds h e)
    (hargs : ∀ (arg : Handle) a, t.args.entries[arg]? = some a → t'.args.entries[arg]? = some a) :
    SubscribedAs t' key h p := by
  obtain ⟨arg, hholds, harg⟩ := hp
  exact ⟨arg, hentities _ hholds, hargs _ _ harg⟩

theorem tabled_init : Tabled X [] (init : ZenohUTransport UUID UUri Listener) :=
  ⟨fun _ => rfl, fun _ => List.nodup_nil, fun _ => rfl, fun _ _ => .nil⟩

/-- A call that leaves the containers alone and takes no handle or argument away. -/
theorem Tabled.mono {table : List (UUri × Listener)} {t t' : ZenohUTransport UUID UUri Listener}
    (ht : Tabled X table t) (hcontainer : ∀ key, t'.container key = t.container key)
    (hentities : ∀ h e, t.entities.Holds h e → t'.entities.Holds h e)
    (hargs : ∀ (arg : Handle) a, t.args.entries[arg]? = some a → t'.args.entries[arg]? = some a) :
    Tabled X table t' := by
  refine ⟨?_, ?_, ?_, fun key hempty => ?_⟩
  · simp only [hcontainer]
    exact ht.listeners
  · simp only [hcontainer]
    exact ht.distinct
  · simp only [hcontainer]
    exact ht.length
  · rw [hcontainer] at hempty ⊢
    exact (ht.subscribed key hempty).imp fun h p hp => hp.mono (hentities h) hargs

theorem Tabled.mem_registered {table : List (UUri × Listener)}
    {t : ZenohUTransport UUID UUri Listener} (ht : Tabled X table t) (key : ℕ)
    (listener : Listener) :
    (key, listener) ∈ t.registered ↔ ∃ p ∈ table, X.uriHash p.1 = key ∧ p.2 = listener := by
  rw [ZenohUTransport.mem_registered, ht.listeners, List.mem_map]
  simp only [pairsOf, List.mem_filter, decide_eq_true_eq, and_assoc]

theorem pairsOf_append (table : List (UUri × Listener)) (uri : UUri) (listener : Listener)
    (key : ℕ) : pairsOf X (table ++ [(uri, listener)]) key =
      if key = X.uriHash uri then pairsOf X table key ++ [(uri, listener)]
      else pairsOf X table key := by
  unfold pairsOf
  rw [List.filter_append]
  split_ifs with hkey
  · rw [hkey, List.filter_singleton]
    simp
  · rw [List.filter_singleton]
    simp [Ne.symm hkey]

/-- A call that changes the container and the pairs of one key, and takes no handle of another
key away. -/
theorem Tabled.update {table table' : List (UUri × Listener)}
    {t t' : ZenohUTransport UUID UUri Listener} (ht : Tabled X table t) (key : ℕ)
    (hcontainer : ∀ k ≠ key, t'.container k = t.container k)
    (hpairs : ∀ k ≠ key, pairsOf X table' k = pairsOf X table k)
    (hmono : ∀ k ≠ key, ∀ h ∈ (t.container k).subVector, ∀ p,
      SubscribedAs t k h p → SubscribedAs t' k h p)
    (hlisteners : (t'.container key).listenerVector = (pairsOf X table' key).map Prod.snd)
    (hdistinct : (t'.container key).listenerVector.Nodup)
    (hlength : (t'.container key).listenerVector.length =
      (t'.container key).subVector.length + (t'.container key).queryVector.length)
    (hsubscribed : (t'.container key).queryVector = [] →
      List.Forall₂ (SubscribedAs t' key) (t'.container key).subVector (pairsOf X table' key)) :
    Tabled X table' t' := by
  refine ⟨fun k => ?_, fun k => ?_, fun k => ?_, fun k hempty => ?_⟩
  all_goals
    rcases eq_or_ne k key with rfl | hk
  · exact hlisteners
  · rw [hcontainer k hk, hpairs k hk]
    exact ht.listeners k
  · exact hdistinct
  · rw [hcontainer k hk]
    exact ht.distinct k
  · exact hlength
  · rw [hcontainer k hk]
    exact ht.length k
  · exact hsubscribed hempty
  · rw [hcontainer k hk] at hempty ⊢
    rw [hpairs k hk]
    exact ((List.forall₂_and_left _ _).2 ⟨hmono k hk, ht.subscribed k hempty⟩).imp
      fun h p hp => hp.1 p hp.2

/-- An accepted registration adds its pair and its subscriber or queryable. -/
theorem Tabled.afterRegister {table : List (UUri × Listener)}
    {t : ZenohUTransport UUID UUri Listener} (ht : Tabled X table t) {uri : UUri}
    {listener : Listener} (hnew : (X.uriHash uri, listener) ∉ t.registered) :
    Tabled X (table ++ [(uri, listener)]) (afterRegister X uri listener t) := by
  have hcontainer := container_afterRegister X uri listener t
  have hmono {key : ℕ} {h : Handle} {p : UUri × Listener} (hp : SubscribedAs t key h p) :
      SubscribedAs (ZenohUTransport.afterRegister X uri listener t) key h p :=
    hp.mono (fun e he => Ledger.holds_alloc.2 (Or.inl he)) fun _ _ => Ledger.getElem?_alloc
  refine ht.update (X.uriHash uri) (fun k hk => ?_) (fun k hk => ?_)
    (fun k _ h _ p => hmono) ?_ ?_ ?_ fun hempty => ?_
  · rw [hcontainer, if_neg hk]
  · rw [pairsOf_append, if_neg hk]
  · rw [hcontainer, if_pos rfl, pairsOf_append, if_pos rfl,
      ListenerContainer.listenerVector_push, ht.listeners, List.map_append]
    rfl
  · rw [hcontainer, if_pos rfl]
    exact ListenerContainer.nodup_push (ht.distinct _) hnew _ _
  · rw [hcontainer, if_pos rfl]
    exact ListenerContainer.length_push (ht.length _) _ _ _
  · rw [hcontainer, if_pos rfl] at hempty ⊢
    rw [pairsOf_append, if_pos rfl]
    have hrpc : X.isRPCMethod uri = false := by
      by_contra hrpc
      simp [ListenerContainer.push, hrpc] at hempty
    have hnewest : SubscribedAs (ZenohUTransport.afterRegister X uri listener t) (X.uriHash uri)
        t.entities.next (uri, listener) := by
      refine ⟨t.args.next, Ledger.holds_alloc.2 (Or.inr ⟨rfl, ?_⟩), Ledger.getElem?_alloc_next⟩
      rw [Entity.ofListener, if_pos hrpc]
    rw [ListenerContainer.push, if_pos hrpc] at hempty ⊢
    exact forall₂_append_singleton ((ht.subscribed _ hempty).imp fun h p => hmono) hnewest

/-- The subscribers that are left when a handle goes with the pair at its position. Where the
last queryable goes, it goes with the last pair. -/
theorem Tabled.subscribed_removeAt {table : List (UUri × Listener)}
    {t : ZenohUTransport UUID UUri Listener} (ht : Tabled X table t) {key index : ℕ}
    (hhandle : index < (t.container key).handleVector.length)
    (hlistener : index < (t.container key).listenerVector.length)
    (hempty : ((t.container key).removeAt index).queryVector = []) :
    List.Forall₂ (SubscribedAs t key) ((t.container key).removeAt index).subVector
      ((pairsOf X table key).eraseIdx index) := by
  have hlength := ht.length key
  unfold ListenerContainer.handleVector at hhandle
  unfold ListenerContainer.removeAt at hempty ⊢
  split_ifs at hhandle hempty ⊢ with hsub
  · exact forall₂_eraseIdx (ht.subscribed _ hempty) index
  · rw [not_not] at hsub
    rw [ht.listeners, List.length_map] at hlistener hlength
    have hcount := congrArg List.length hempty
    rw [List.length_eraseIdx_of_lt hhandle, List.length_nil] at hcount
    rw [hsub, List.length_nil] at hlength
    have hnone : (pairsOf X table key).eraseIdx index = [] := by
      rw [List.eq_nil_iff_length_eq_zero, List.length_eraseIdx_of_lt hlistener]
      omega
    rw [hsub, hnone]
    exact .nil

/-! ## Subscriptions -/

variable (X) in
/-- One live subscriber of the key calls the listener, and it does so with the URI. -/
def SubscribedOnce (t : ZenohUTransport UUID UUri Listener) (uri : UUri) (listener : Listener) :
    Prop :=
  ∃ h, ∀ k uri', SubscribedAs t (X.uriHash uri) k (uri', listener) ↔ k = h ∧ uri' = uri

/-- Where no queryable is, a registered listener is subscribed once. -/
theorem Tabled.subscribedOnce {table : List (UUri × Listener)}
    {t : ZenohUTransport UUID UUri Listener} (ht : Tabled X table t) (howned : Owned X t)
    {uri : UUri} {listener : Listener} (hempty : (t.container (X.uriHash uri)).queryVector = [])
    (hmem : (uri, listener) ∈ table) : SubscribedOnce X t uri listener := by
  have hall := ht.subscribed _ hempty
  have hpair : (uri, listener) ∈ pairsOf X table (X.uriHash uri) :=
    List.mem_filter.2 ⟨hmem, by simp⟩
  obtain ⟨i, hi⟩ := List.mem_iff_getElem?.1 hpair
  obtain ⟨h, hh, hsub⟩ := exists_getElem?_of_forall₂ hall hi
  refine ⟨h, fun k uri' => ⟨fun hk => ?_, ?_⟩⟩
  · -- the pair of `k` has the listener, and so the position of `h`
    obtain ⟨arg, hholds, harg⟩ := hk
    have hkmem : k ∈ (t.container (X.uriHash uri)).subVector :=
      (howned.listener false _ k).2 ⟨arg, hholds⟩
    obtain ⟨j, hj⟩ := List.mem_iff_getElem?.1 hkmem
    obtain ⟨p, hp, arg', hholds', harg'⟩ := exists_getElem?_of_forall₂ hall.flip hj
    obtain ⟨-, rfl⟩ := Entity.subscriber.inj (hholds.unique hholds')
    obtain rfl := Option.some.inj (harg.symm.trans harg')
    have hdistinct := ht.distinct (X.uriHash uri)
    rw [ht.listeners] at hdistinct
    have hlt : i < ((pairsOf X table (X.uriHash uri)).map Prod.snd).length := by
      rw [List.length_map]
      exact (List.getElem?_eq_some_iff.1 hi).1
    have hsame : ((pairsOf X table (X.uriHash uri)).map Prod.snd)[i]? =
        ((pairsOf X table (X.uriHash uri)).map Prod.snd)[j]? := by
      rw [List.getElem?_map, List.getElem?_map, hi, hp]
      rfl
    obtain rfl := (List.getElem?_inj hlt hdistinct).1 hsame
    rw [hi] at hp
    rw [hh] at hj
    exact ⟨(Option.some.inj hj).symm, (congrArg Prod.fst (Option.some.inj hp)).symm⟩
  · rintro ⟨rfl, rfl⟩
    exact hsub

/-! ## Runs -/

variable [DecidableEq Listener]

variable (X) in
/-- What a call should do to the registered pairs of a URI and a listener. The key of the URI
and the listener name a pair. -/
def registrations (table : List (UUri × Listener)) :
    Call P UUID UUri Listener → List (UUri × Listener)
  | .registerListener uri listener declared =>
    if declared = true ∧ ∀ p ∈ table, X.uriHash p.1 = X.uriHash uri → p.2 ≠ listener then
      table ++ [(uri, listener)]
    else table
  | .unregisterListener uri listener =>
    table.filter fun p => ¬(X.uriHash p.1 = X.uriHash uri ∧ p.2 = listener)
  | _ => table

variable (X) in
/-- The pairs that are registered after the calls, in the order of their registration. -/
def tableAfter (calls : List (Call P UUID UUri Listener)) : List (UUri × Listener) :=
  calls.foldl (registrations X) []

theorem pairsOf_filter (table : List (UUri × Listener)) (uri : UUri) (listener : Listener)
    (key : ℕ) :
    pairsOf X (table.filter fun p => ¬(X.uriHash p.1 = X.uriHash uri ∧ p.2 = listener)) key =
      if key = X.uriHash uri then (pairsOf X table key).filter fun p => ¬p.2 = listener
      else pairsOf X table key := by
  unfold pairsOf
  split_ifs with hkey
  · subst hkey
    simp only [List.filter_filter]
    refine List.filter_congr fun p _ => ?_
    by_cases hp : X.uriHash p.1 = X.uriHash uri <;> simp [hp]
  · rw [List.filter_filter]
    refine List.filter_congr fun p _ => ?_
    by_cases hp : X.uriHash p.1 = key
    · simp [hp, hkey]
    · simp [hp]

/-- Filtering out a value that occurs once erases its position. -/
theorem filter_ne_eq_eraseIdx {α β : Type*} [DecidableEq β] {f : α → β} {b : β} :
    ∀ {xs : List α} {i : ℕ}, (xs.map f).Nodup → (xs.map f).idxOf? b = some i →
      xs.filter (fun x => ¬f x = b) = xs.eraseIdx i
  | [], i, _, hi => by simp at hi
  | x :: xs, i, hnodup, hi => by
    rw [List.map_cons, List.nodup_cons] at hnodup
    rw [List.map_cons, List.idxOf?_cons] at hi
    by_cases hx : f x = b
    · rw [if_pos (by simp [hx])] at hi
      obtain rfl := Option.some.inj hi
      have hrest : ∀ y ∈ xs, decide ¬f y = b := by
        intro y hy
        rw [decide_eq_true_eq]
        rintro rfl
        exact hnodup.1 (hx ▸ List.mem_map_of_mem hy)
      rw [List.filter_cons_of_neg (by simp [hx]), List.eraseIdx_cons_zero,
        List.filter_eq_self.2 hrest]
    · rw [if_neg (by simp [hx])] at hi
      obtain ⟨j, hj, rfl⟩ := Option.map_eq_some_iff.1 hi
      rw [List.filter_cons_of_pos (by simp [hx]), List.eraseIdx_cons_succ,
        filter_ne_eq_eraseIdx hnodup.2 hj]

/-- Unregistering a pair that is not registered leaves the pairs alone. -/
theorem Tabled.filter_eq {table : List (UUri × Listener)} {t : ZenohUTransport UUID UUri Listener}
    (ht : Tabled X table t) {uri : UUri} {listener : Listener}
    (hmem : (X.uriHash uri, listener) ∉ t.registered) :
    (table.filter fun p => ¬(X.uriHash p.1 = X.uriHash uri ∧ p.2 = listener)) = table := by
  refine List.filter_eq_self.2 fun p hp => ?_
  rw [decide_eq_true_eq]
  exact fun heq => hmem ((ht.mem_registered _ _).2 ⟨p, hp, heq⟩)

/-- An unregistration takes its pair and a handle out. -/
theorem Tabled.unregistered {table : List (UUri × Listener)}
    {t t' : ZenohUTransport UUID UUri Listener} (ht : Tabled X table t) (howned : Owned X t)
    {uri : UUri} {listener : Listener} {index : ℕ} {handle : Handle}
    (hindex : (t.container (X.uriHash uri)).listenerVector.idxOf? listener = some index)
    (hhandle : (t.container (X.uriHash uri)).handleVector[index]? = some handle)
    (h : Unregistered (X.uriHash uri) index handle t t') :
    Tabled X (table.filter fun p => ¬(X.uriHash p.1 = X.uriHash uri ∧ p.2 = listener)) t' := by
  have hcontainer : t'.container (X.uriHash uri) =
      (t.container (X.uriHash uri)).removeAt index := by
    rw [h.container, if_pos rfl]
  have hpairs : pairsOf X (table.filter fun p =>
      ¬(X.uriHash p.1 = X.uriHash uri ∧ p.2 = listener)) (X.uriHash uri) =
        (pairsOf X table (X.uriHash uri)).eraseIdx index := by
    have hdistinct := ht.distinct (X.uriHash uri)
    rw [ht.listeners] at hdistinct hindex
    rw [pairsOf_filter, if_pos rfl]
    exact filter_ne_eq_eraseIdx hdistinct hindex
  have hmono {key : ℕ} {k : Handle} {p : UUri × Listener} (hne : k ≠ handle)
      (hp : SubscribedAs t key k p) : SubscribedAs t' key k p := by
    refine hp.mono (fun e he => ?_) fun arg a ha => by rwa [h.args]
    rw [h.entities]
    exact Ledger.holds_release.2 ⟨he, hne⟩
  have hlt := (List.getElem?_eq_some_iff.1 hhandle).1
  have hltListener := (List.idxOf?_eq_some_iff.1 hindex).1
  refine ht.update (X.uriHash uri) (fun k hk => ?_) (fun k hk => ?_)
    (fun k hk handle' hmem p => hmono ?_) ?_ ?_ ?_ fun hempty => ?_
  · rw [h.container, if_neg hk]
  · rw [pairsOf_filter, if_neg hk]
  · -- the undeclared handle is in no container but that of the URI
    rintro rfl
    obtain ⟨arg, hholds⟩ := (howned.listener false k _).1 hmem
    obtain ⟨arg', hholds'⟩ := howned.holds_handle hhandle
    exact hk (Entity.ofListener_inj.1 (hholds.unique hholds')).2.1
  · rw [hcontainer, hpairs, ListenerContainer.listenerVector_removeAt, ht.listeners,
      List.eraseIdx_map]
  · rw [hcontainer]
    exact ListenerContainer.nodup_removeAt (ht.distinct _) index
  · rw [hcontainer]
    exact ListenerContainer.length_removeAt (ht.length _) hlt hltListener
  · rw [hcontainer] at hempty ⊢
    rw [hpairs]
    have hleft := ht.subscribed_removeAt hlt hltListener hempty
    refine ((List.forall₂_and_left _ _).2 ⟨fun k hk => ?_, hleft⟩).imp
      fun k p hp => hmono hp.1 hp.2
    rintro rfl
    exact ((howned.mem_removeAt hhandle false).1 hk).2 rfl

/-- A step leaves the pairs and the listeners alone, or fails to declare a listener, adds a
pair and its handle, or takes a pair out with a handle. -/
theorem Tabled.step_cases {table : List (UUri × Listener)}
    {t t' : ZenohUTransport UUID UUri Listener} (ht : Tabled X table t)
    {call : Call P UUID UUri Listener} (hstep : step X t call = some t') :
    (registrations X table call = table ∧ OnlyPublishes t t') ∨
    (registrations X table call = table ∧ ∃ uri listener,
      t' = ((t.newArg uri listener).deleteArg t.args.next).deleteArg t.args.next) ∨
    (∃ uri listener, registrations X table call = table ++ [(uri, listener)] ∧
      (X.uriHash uri, listener) ∉ t.registered ∧
        t' = ZenohUTransport.afterRegister X uri listener t) ∨
    ∃ uri listener index handle, call = .unregisterListener uri listener ∧
      (t.container (X.uriHash uri)).listenerVector.idxOf? listener = some index ∧
      (t.container (X.uriHash uri)).handleVector[index]? = some handle ∧
      Unregistered (X.uriHash uri) index handle t t' := by
  have hsnd := exec_snd_of_step hstep
  cases call with
  | send uri payload attributes declared sent =>
    exact Or.inl ⟨rfl, hsnd ▸ onlyPublishes_send X uri payload attributes declared sent t⟩
  | registerListener uri listener declared =>
    have ht' : t' = (registerListener X uri listener declared t).2 := hsnd.symm
    have hnew : (∀ p ∈ table, X.uriHash p.1 = X.uriHash uri → p.2 ≠ listener) ↔
        (X.uriHash uri, listener) ∉ t.registered := by
      rw [ht.mem_registered]
      constructor
      · rintro hall ⟨p, hp, hkey, hlistener⟩
        exact hall p hp hkey hlistener
      · exact fun hnone p hp hkey hlistener => hnone ⟨p, hp, hkey, hlistener⟩
    rw [registrations, ht']
    rcases registerListener_cases X uri listener declared t with
      ⟨hmem, h⟩ | ⟨hmem, hdeclared, h⟩ | ⟨hmem, hdeclared, h⟩
    · rw [h, if_neg fun hs => hnew.1 hs.2 hmem]
      exact Or.inl ⟨rfl, .refl t⟩
    · rw [h, if_neg (by simp [hdeclared])]
      exact Or.inr (Or.inl ⟨rfl, uri, listener, rfl⟩)
    · rw [h, if_pos ⟨hdeclared, hnew.2 hmem⟩]
      exact Or.inr (Or.inr (Or.inl ⟨uri, listener, rfl, hmem, rfl⟩))
  | unregisterListener uri listener =>
    obtain ⟨⟨code, hcode⟩, ht'⟩ := unregisterListener_of_step X hstep
    rw [ht']
    rcases unregisterListener_cases X uri listener t with
      ⟨hlookup, h⟩ | ⟨-, ⟨hmem, h⟩ | ⟨index, hindex, ⟨-, h⟩ | ⟨handle, hhandle, -, hun⟩⟩⟩
    · rw [h]
      exact Or.inl ⟨ht.filter_eq (notMem_registered_of_lookup hlookup listener), .refl t⟩
    · rw [h]
      exact Or.inl ⟨ht.filter_eq hmem, .refl t⟩
    · exact absurd (h.symm.trans hcode) (by simp)
    · exact Or.inr (Or.inr (Or.inr ⟨uri, listener, index, handle, rfl, hindex, hhandle, hun⟩))
  | SubHandler sample arg answer =>
    exact Or.inl ⟨rfl, hsnd ▸ onlyPublishes_SubHandler X sample arg answer t⟩
  | QueryHandler query arg answer =>
    exact Or.inl ⟨rfl, hsnd ▸ onlyPublishes_QueryHandler X query arg answer t⟩

theorem Tabled.step {table : List (UUri × Listener)} {t t' : ZenohUTransport UUID UUri Listener}
    (ht : Tabled X table t) (howned : Owned X t) {call : Call P UUID UUri Listener}
    (hstep : step X t call = some t') : Tabled X (registrations X table call) t' := by
  rcases ht.step_cases hstep with ⟨htable, h⟩ | ⟨htable, uri, listener, rfl⟩ |
    ⟨uri, listener, htable, hnew, rfl⟩ | ⟨uri, listener, index, handle, rfl, hindex, hhandle, hun⟩
  · rw [htable]
    exact ht.mono h.sameListeners.container_eq h.holds (by rw [h.args]; exact fun _ _ => id)
  · rw [htable]
    exact ht.mono (fun _ => rfl) (fun _ _ => id)
      fun _ _ => getElem?_args_failedRegister uri listener
  · rw [htable]
    exact ht.afterRegister hnew
  · exact ht.unregistered howned hindex hhandle hun

/-! ## Own handles -/

/-- The handle is live and was declared on the key, and its callback has the URI and the
listener. -/
def DeclaredAs (t : ZenohUTransport UUID UUri Listener) (rpc : Bool) (key : ℕ) (h : Handle)
    (p : UUri × Listener) : Prop :=
  ∃ arg, t.entities.Holds h (.ofListener rpc key arg) ∧ t.args.entries[arg]? = some p

variable (X) in
/-- The live handles of a key are those of its registered pairs, one for each listener. -/
structure Paired (table : List (UUri × Listener)) (key : ℕ)
    (t : ZenohUTransport UUID UUri Listener) : Prop where
  handle : ∀ p ∈ pairsOf X table key, ∃ h, DeclaredAs t (X.isRPCMethod p.1) key h p
  pair : ∀ rpc h p, DeclaredAs t rpc key h p → p ∈ pairsOf X table key
  unique : ∀ rpc rpc' h h' p p', DeclaredAs t rpc key h p → DeclaredAs t rpc' key h' p' →
    p.2 = p'.2 → h = h'

variable (X) in
/-- An `unregisterListener` on the key that finds its listener finds, at that position of the
handle vector, a handle that was declared for the listener. -/
def RemovesOwnHandle (key : ℕ) (t : ZenohUTransport UUID UUri Listener)
    (call : Call P UUID UUri Listener) : Prop :=
  match call with
  | .unregisterListener uri listener => X.uriHash uri = key →
    ∀ index, (t.container key).listenerVector.idxOf? listener = some index →
      ∃ rpc handle, (t.container key).handleVector[index]? = some handle ∧
        DeclaredFor X t rpc key handle listener
  | _ => True

section DeclaredAs

variable {t t' : ZenohUTransport UUID UUri Listener} (howned : Owned X t)

include howned

omit [DecidableEq Listener]

theorem declaredAs_of_holds
    (hholds : ∀ h rpc key arg, t'.entities.Holds h (.ofListener rpc key arg) ↔
      t.entities.Holds h (.ofListener rpc key arg))
    (hargs : ∀ (arg : Handle) a, t.args.entries[arg]? = some a → t'.args.entries[arg]? = some a)
    (rpc : Bool) (key : ℕ) (h : Handle) (p : UUri × Listener) :
    DeclaredAs t' rpc key h p ↔ DeclaredAs t rpc key h p := by
  refine exists_congr fun arg => ?_
  rw [hholds]
  refine and_congr_right fun hh => ⟨fun harg => ?_, hargs arg p⟩
  obtain ⟨uri, listener, hold, -⟩ := howned.declared h rpc key arg hh.2
  rw [Option.some.inj (harg.symm.trans (hargs arg _ hold))]
  exact hold

theorem declaredAs_of_onlyPublishes (h : OnlyPublishes t t') (rpc : Bool) (key : ℕ) (k : Handle)
    (p : UUri × Listener) : DeclaredAs t' rpc key k p ↔ DeclaredAs t rpc key k p := by
  refine declaredAs_of_holds howned (fun k rpc key arg => ⟨fun hk => ?_, h.holds k _⟩)
    (by rw [h.args]; exact fun _ _ => id) rpc key k p
  rcases h.publishers with ⟨-, heq⟩ | ⟨key', -, -, heq⟩
  · rwa [heq] at hk
  · rw [heq, Ledger.holds_alloc] at hk
    exact hk.resolve_right fun hnew => Entity.publisher_ne_ofListener hnew.2

theorem declaredAs_afterRegister (uri : UUri) (listener : Listener) (rpc : Bool) (key : ℕ)
    (k : Handle) (p : UUri × Listener) :
    DeclaredAs (afterRegister X uri listener t) rpc key k p ↔ DeclaredAs t rpc key k p ∨
      k = t.entities.next ∧ rpc = X.isRPCMethod uri ∧ key = X.uriHash uri ∧
        p = (uri, listener) := by
  constructor
  · rintro ⟨arg, hholds, harg⟩
    rcases Ledger.holds_alloc.1 hholds with hold | ⟨hk, hnew⟩
    · obtain ⟨uri', listener', hold', -⟩ := howned.declared k rpc key arg hold.2
      have hsame := Option.some.inj (harg.symm.trans (Ledger.getElem?_alloc hold'))
      exact Or.inl ⟨arg, hold, hsame ▸ hold'⟩
    · obtain ⟨hrpc, hkey, rfl⟩ := Entity.ofListener_inj.1 hnew
      have hp := Option.some.inj (harg.symm.trans Ledger.getElem?_alloc_next)
      exact Or.inr ⟨hk, hrpc.symm, hkey.symm, hp⟩
  · rintro (⟨arg, hholds, harg⟩ | ⟨rfl, rfl, rfl, rfl⟩)
    · exact ⟨arg, Ledger.holds_alloc.2 (Or.inl hholds), Ledger.getElem?_alloc harg⟩
    · exact ⟨t.args.next, Ledger.holds_alloc.2 (Or.inr ⟨rfl, rfl⟩), Ledger.getElem?_alloc_next⟩

omit howned in
theorem declaredAs_unregistered {key index : ℕ} {handle : Handle}
    (h : Unregistered key index handle t t') (rpc : Bool) (key' : ℕ) (k : Handle)
    (p : UUri × Listener) :
    DeclaredAs t' rpc key' k p ↔ DeclaredAs t rpc key' k p ∧ k ≠ handle := by
  unfold DeclaredAs
  rw [h.args, h.entities]
  simp only [Ledger.holds_release]
  constructor
  · rintro ⟨arg, ⟨hholds, hne⟩, harg⟩
    exact ⟨⟨arg, hholds, harg⟩, hne⟩
  · rintro ⟨⟨arg, hholds, harg⟩, hne⟩
    exact ⟨arg, ⟨hholds, hne⟩, harg⟩

end DeclaredAs

section Paired

variable {table : List (UUri × Listener)} {key : ℕ} {t t' : ZenohUTransport UUID UUri Listener}
  (h : Paired X table key t)

include h

omit [DecidableEq Listener]

theorem Paired.congr (hiff : ∀ rpc k p, DeclaredAs t' rpc key k p ↔ DeclaredAs t rpc key k p) :
    Paired X table key t' := by
  refine ⟨fun p hp => ?_, fun rpc k p hk => h.pair rpc k p ((hiff rpc k p).1 hk), ?_⟩
  · obtain ⟨k, hk⟩ := h.handle p hp
    exact ⟨k, (hiff _ k p).2 hk⟩
  · intro rpc rpc' k k' p p' hk hk' hlistener
    exact h.unique _ _ _ _ _ _ ((hiff rpc k p).1 hk) ((hiff rpc' k' p').1 hk') hlistener

/-- A new pair comes with its handle. -/
theorem Paired.afterRegister (ht : Tabled X table t) (howned : Owned X t) {uri : UUri}
    {listener : Listener} (hnew : (X.uriHash uri, listener) ∉ t.registered) :
    Paired X (table ++ [(uri, listener)]) key (afterRegister X uri listener t) := by
  have hiff := declaredAs_afterRegister howned uri listener
  by_cases hkey : key = X.uriHash uri
  swap
  · have hpairs : pairsOf X (table ++ [(uri, listener)]) key = pairsOf X table key := by
      rw [pairsOf_append, if_neg hkey]
    have hsame := h.congr fun rpc k p =>
      (hiff rpc key k p).trans (or_iff_left fun hn => hkey hn.2.2.1)
    exact ⟨hpairs ▸ hsame.handle, hpairs ▸ hsame.pair, hsame.unique⟩
  have hmem (p : UUri × Listener) : p ∈ pairsOf X (table ++ [(uri, listener)]) key ↔
      p ∈ pairsOf X table key ∨ p = (uri, listener) := by
    rw [pairsOf_append, if_pos hkey, List.mem_append, List.mem_singleton]
  -- no handle was declared for the listener before
  have hfresh {rpc : Bool} {k : Handle} {p : UUri × Listener} (hk : DeclaredAs t rpc key k p) :
      p.2 ≠ listener := by
    rintro rfl
    obtain ⟨hp, hpkey⟩ := List.mem_filter.1 (h.pair rpc k p hk)
    refine hnew ((ht.mem_registered _ _).2 ⟨p, hp, ?_, rfl⟩)
    rw [← hkey]
    exact of_decide_eq_true hpkey
  refine ⟨fun p hp => ?_, fun rpc k p hk => ?_, fun rpc rpc' k k' p p' hk hk' hlistener => ?_⟩
  · rcases (hmem p).1 hp with hold | rfl
    · obtain ⟨k, hk⟩ := h.handle p hold
      exact ⟨k, (hiff _ _ _ _).2 (Or.inl hk)⟩
    · exact ⟨t.entities.next, (hiff _ _ _ _).2 (Or.inr ⟨rfl, rfl, hkey, rfl⟩)⟩
  · rcases (hiff _ _ _ _).1 hk with hold | ⟨-, -, -, rfl⟩
    · exact (hmem p).2 (Or.inl (h.pair rpc k p hold))
    · exact (hmem _).2 (Or.inr rfl)
  · rcases (hiff _ _ _ _).1 hk with hold | ⟨hnext, -, -, rfl⟩ <;>
      rcases (hiff _ _ _ _).1 hk' with hold' | ⟨hnext', -, -, rfl⟩
    · exact h.unique _ _ _ _ _ _ hold hold' hlistener
    · exact absurd hlistener (hfresh hold)
    · exact absurd hlistener.symm (hfresh hold')
    · exact hnext.trans hnext'.symm

/-- A pair goes with its handle. -/
theorem Paired.unregistered [DecidableEq Listener] (howned : Owned X t) {uri : UUri}
    {listener : Listener} {index : ℕ} {handle : Handle}
    (hhandle : (t.container (X.uriHash uri)).handleVector[index]? = some handle)
    (hun : Unregistered (X.uriHash uri) index handle t t')
    (hown : X.uriHash uri = key → ∃ rpc, DeclaredFor X t rpc key handle listener) :
    Paired X (table.filter fun p => ¬(X.uriHash p.1 = X.uriHash uri ∧ p.2 = listener)) key t' := by
  have hiff := declaredAs_unregistered hun
  by_cases hkey : key = X.uriHash uri
  swap
  · -- the handle belongs to another key
    have hne {rpc : Bool} {k : Handle} {p : UUri × Listener} (hk : DeclaredAs t rpc key k p) :
        k ≠ handle := by
      rintro rfl
      obtain ⟨arg, hholds, -⟩ := hk
      obtain ⟨arg', hholds'⟩ := howned.holds_handle hhandle
      exact hkey (Entity.ofListener_inj.1 (hholds.unique hholds')).2.1
    have hpairs : pairsOf X (table.filter fun p =>
        ¬(X.uriHash p.1 = X.uriHash uri ∧ p.2 = listener)) key = pairsOf X table key := by
      rw [pairsOf_filter, if_neg hkey]
    have hsame := h.congr fun rpc k p => (hiff rpc key k p).trans (and_iff_left_of_imp hne)
    exact ⟨hpairs ▸ hsame.handle, hpairs ▸ hsame.pair, hsame.unique⟩
  have hmem (p : UUri × Listener) : p ∈ pairsOf X (table.filter fun p =>
      ¬(X.uriHash p.1 = X.uriHash uri ∧ p.2 = listener)) key ↔
        p ∈ pairsOf X table key ∧ p.2 ≠ listener := by
    rw [pairsOf_filter, if_pos hkey, List.mem_filter, decide_eq_true_eq]
  obtain ⟨rpc, hlive, arg, uri', hentry, harg, -⟩ := hown hkey.symm
  have hhandle' : DeclaredAs t rpc key handle (uri', listener) := ⟨arg, ⟨hlive, hentry⟩, harg⟩
  refine ⟨fun p hp => ?_, fun rpc' k p hk => ?_, fun rpc' rpc'' k k' p p' hk hk' hlistener => ?_⟩
  · obtain ⟨hold, hlistener⟩ := (hmem p).1 hp
    obtain ⟨k, hk⟩ := h.handle p hold
    refine ⟨k, (hiff _ _ _ _).2 ⟨hk, ?_⟩⟩
    rintro rfl
    obtain ⟨arg', hholds', harg'⟩ := hk
    obtain ⟨-, -, rfl⟩ := Entity.ofListener_inj.1 (hholds'.unique ⟨hlive, hentry⟩)
    exact hlistener (congrArg Prod.snd (Option.some.inj (harg'.symm.trans harg)))
  · obtain ⟨hold, hne⟩ := (hiff _ _ _ _).1 hk
    exact (hmem p).2 ⟨h.pair rpc' k p hold, fun hlistener =>
      hne (h.unique _ _ _ _ _ _ hold hhandle' hlistener)⟩
  · exact h.unique _ _ _ _ _ _ ((hiff _ _ _ _).1 hk).1 ((hiff _ _ _ _).1 hk').1 hlistener

/-- A registered listener of a topic is subscribed once. -/
theorem Paired.subscribedOnce {uri : UUri} (hkey : X.uriHash uri = key)
    (hrpc : X.isRPCMethod uri = false) {listener : Listener} (hmem : (uri, listener) ∈ table) :
    SubscribedOnce X t uri listener := by
  subst hkey
  obtain ⟨k, hk⟩ := h.handle (uri, listener) (List.mem_filter.2 ⟨hmem, by simp⟩)
  rw [hrpc] at hk
  refine ⟨k, fun k' uri' => ⟨fun hk' => ?_, ?_⟩⟩
  · have hk'' : DeclaredAs t false (X.uriHash uri) k' (uri', listener) := hk'
    obtain rfl := h.unique _ _ _ _ _ _ hk'' hk rfl
    obtain ⟨arg, hholds, harg⟩ := hk
    obtain ⟨arg', hholds', harg'⟩ := hk''
    obtain ⟨-, -, rfl⟩ := Entity.ofListener_inj.1 (hholds.unique hholds')
    exact ⟨rfl, congrArg Prod.fst (Option.some.inj (harg'.symm.trans harg))⟩
  · rintro ⟨rfl, rfl⟩
    exact hk

end Paired

omit [DecidableEq Listener] in
theorem paired_init (key : ℕ) : Paired X [] key (init : ZenohUTransport UUID UUri Listener) := by
  have hnone {rpc : Bool} {h : Handle} {p : UUri × Listener} :
      ¬DeclaredAs (init : ZenohUTransport UUID UUri Listener) rpc key h p := by
    rintro ⟨arg, -, harg⟩
    simp [init, Ledger.empty] at harg
  exact ⟨by simp [pairsOf], fun _ _ _ hk => absurd hk hnone,
    fun _ _ _ _ _ _ hk => absurd hk hnone⟩

theorem Paired.step {table : List (UUri × Listener)} {key : ℕ}
    {t t' : ZenohUTransport UUID UUri Listener} (h : Paired X table key t)
    (ht : Tabled X table t) (howned : Owned X t) {call : Call P UUID UUri Listener}
    (hown : RemovesOwnHandle X key t call) (hstep : ZenohUTransport.step X t call = some t') :
    Paired X (registrations X table call) key t' := by
  rcases ht.step_cases hstep with ⟨htable, hp⟩ | ⟨htable, uri, listener, rfl⟩ |
    ⟨uri, listener, htable, hnew, rfl⟩ | ⟨uri, listener, index, handle, rfl, hindex, hhandle, hun⟩
  · rw [htable]
    exact h.congr fun rpc k p => declaredAs_of_onlyPublishes howned hp rpc key k p
  · rw [htable]
    refine h.congr fun rpc k p => declaredAs_of_holds howned ?_ ?_ rpc key k p
    · exact fun _ _ _ _ => Iff.rfl
    · exact fun _ _ => getElem?_args_failedRegister uri listener
  · rw [htable]
    exact h.afterRegister ht howned hnew
  · refine h.unregistered howned hhandle hun fun hkey => ?_
    subst hkey
    obtain ⟨rpc, handle', hhandle', hdeclared⟩ := hown rfl index hindex
    rw [hhandle] at hhandle'
    exact ⟨rpc, Option.some.inj hhandle' ▸ hdeclared⟩

/-- Every reachable state has the pairs that its calls registered. -/
theorem tabled_of_run {calls : List (Call P UUID UUri Listener)}
    {t : ZenohUTransport UUID UUri Listener} (hrun : Run (step X) init calls t) :
    Owned X t ∧ Tabled X (tableAfter X calls) t := by
  have hcalls : Along (ZenohUTransport.step X) (fun _ (_ : Call P UUID UUri Listener) => True) init
      calls := along_of_forall_mem (fun _ _ => trivial) init
  refine Run.invariant_events (J := fun calls t => Owned X t ∧ Tabled X (tableAfter X calls) t)
    ⟨owned_init X, tabled_init⟩ (fun before s call s' _ hs _ hstep => ?_) hrun hcalls
  rw [tableAfter, List.foldl_append]
  exact ⟨preserves_owned hs.1 trivial hstep, hs.2.step hs.1 hstep⟩

/-- While the unregistrations of a key take their own handles, the live handles of the key are
those of its registered pairs. -/
theorem paired_of_run {key : ℕ} {calls : List (Call P UUID UUri Listener)}
    {t : ZenohUTransport UUID UUri Listener} (hrun : Run (step X) init calls t)
    (hown : Along (step X) (RemovesOwnHandle X key) init calls) :
    Paired X (tableAfter X calls) key t := by
  refine Run.invariant_events (J := fun calls t => Paired X (tableAfter X calls) key t)
    (paired_init key) (fun before s call s' hbefore hs hcall hstep => ?_) hrun hown
  obtain ⟨howned, ht⟩ := tabled_of_run hbefore
  rw [tableAfter, List.foldl_append]
  exact hs.step ht howned hcall hstep

/-- If URIs with one key are of one kind, every unregistration takes its own handle. -/
theorem along_removesOwnHandle (hkind : KindsAgree X) (key : ℕ)
    (calls : List (Call P UUID UUri Listener)) :
    Along (step X) (RemovesOwnHandle X key) init calls := by
  refine Along.mono (p := fun _ _ => True) (preserves_aligned hkind) (fun s call hs _ => ?_)
    (along_of_forall_mem (fun _ _ => trivial) init) (aligned_init X)
  cases call with
  | unregisterListener uri listener => exact fun _ _ hindex => (hs.exists_declaredFor hindex).2
  | send | registerListener | SubHandler | QueryHandler => trivial

end ZenohUTransport

end UpClientZenoh
