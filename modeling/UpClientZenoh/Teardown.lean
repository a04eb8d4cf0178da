import UpClientZenoh.HandleOwnership
import UpClientZenoh.PendingQueries

/-!
# Teardown

The destructor `~ZenohUTransport`, up to its call of `term()`, which gives the session back.

`tornDown_iff` : in every reachable state it leaves nothing behind (`TornDown`) if and only
if no queryable is registered and no query is pending. It undeclares the publishers and the
subscribers, each once, and walks neither `queryVector_` nor `queryMap_`.
-/

open Execution

namespace UpClientZenoh

namespace ZenohUTransport

variable {UUID UUri Listener : Type} {P : Platform} {X : Externals UUID UUri}

/-! ## The destructor -/

section Destructor

variable (t : ZenohUTransport UUID UUri Listener)

/-- Undeclare each handle. That zenoh fails to undeclare one is only logged. -/
def undeclareAll (handles : List Handle) : ZenohUTransport UUID UUri Listener :=
  handles.foldl undeclare t

/-- The loop over `pubHandleMap_`, and `pubHandleMap_.clear()`. -/
def undeclarePublishers : ZenohUTransport UUID UUri Listener :=
  { t.undeclareAll (t.pubHandleMap.entries.map Sigma.snd) with pubHandleMap := ∅ }

/-- An iteration of the loop over `listenerMap_`. -/
def closeContainer (listenerInfo : (_ : ℕ) × ListenerContainer Listener) :
    ZenohUTransport UUID UUri Listener :=
  (t.undeclareAll listenerInfo.2.subVector).setContainer listenerInfo.1
    { listenerInfo.2 with
      subVector := []
      listenerVector := [] }

/-- The loop over `listenerMap_`, and `listenerMap_.clear()`. -/
def closeContainers : ZenohUTransport UUID UUri Listener :=
  { t.listenerMap.entries.foldl closeContainer t with listenerMap := ∅ }

/-- `~ZenohUTransport()` up to its call of `term()`. -/
def teardown : ZenohUTransport UUID UUri Listener :=
  t.undeclarePublishers.closeContainers

/-- What the destructor undeclares. -/
def walked : List Handle :=
  t.pubHandleMap.entries.map Sigma.snd ++
    t.listenerMap.entries.flatMap fun listenerInfo => listenerInfo.2.subVector

end Destructor

theorem entities_undeclareAll (handles : List Handle) (t : ZenohUTransport UUID UUri Listener) :
    (t.undeclareAll handles).entities = t.entities.releaseAll handles := by
  induction handles generalizing t with
  | nil => rfl
  | cons h handles ih =>
    refine (ih (t.undeclare h)).trans ?_
    rw [entities_undeclare]
    rfl

theorem listenerMap_undeclareAll (handles : List Handle)
    (t : ZenohUTransport UUID UUri Listener) :
    (t.undeclareAll handles).listenerMap = t.listenerMap := by
  induction handles generalizing t with
  | nil => rfl
  | cons h handles ih => exact (ih (t.undeclare h)).trans (listenerMap_undeclare h t)

theorem queries_undeclareAll (handles : List Handle) (t : ZenohUTransport UUID UUri Listener) :
    (t.undeclareAll handles).queries = t.queries := by
  induction handles generalizing t with
  | nil => rfl
  | cons h handles ih => exact (ih (t.undeclare h)).trans (undeclare_queries h t).2.1

theorem entities_closeContainers (t : ZenohUTransport UUID UUri Listener) :
    t.closeContainers.entities = t.entities.releaseAll
      (t.listenerMap.entries.flatMap fun listenerInfo => listenerInfo.2.subVector) := by
  have hloop (infos : List ((_ : ℕ) × ListenerContainer Listener)) :
      (infos.foldl closeContainer t).entities =
        t.entities.releaseAll (infos.flatMap fun listenerInfo => listenerInfo.2.subVector) := by
    induction infos generalizing t with
    | nil => rfl
    | cons info infos ih =>
      rw [List.flatMap_cons, Ledger.releaseAll_append, ← entities_undeclareAll]
      exact ih (t.closeContainer info)
  exact hloop _

theorem queries_closeContainers (t : ZenohUTransport UUID UUri Listener) :
    t.closeContainers.queries = t.queries := by
  have hloop (infos : List ((_ : ℕ) × ListenerContainer Listener)) :
      (infos.foldl closeContainer t).queries = t.queries := by
    induction infos generalizing t with
    | nil => rfl
    | cons info infos ih =>
      exact (ih (t.closeContainer info)).trans (queries_undeclareAll info.2.subVector t)
  exact hloop _

/-- The destructor releases what it walks. -/
theorem entities_teardown (t : ZenohUTransport UUID UUri Listener) :
    t.teardown.entities = t.entities.releaseAll t.walked := by
  have hmap : t.undeclarePublishers.listenerMap = t.listenerMap :=
    listenerMap_undeclareAll _ t
  have hentities : t.undeclarePublishers.entities =
      t.entities.releaseAll (t.pubHandleMap.entries.map Sigma.snd) := entities_undeclareAll _ t
  rw [teardown, entities_closeContainers, hmap, hentities, walked, Ledger.releaseAll_append]

/-- The destructor drops no query. -/
theorem queries_teardown (t : ZenohUTransport UUID UUri Listener) :
    t.teardown.queries = t.queries :=
  (queries_closeContainers _).trans (queries_undeclareAll _ t)

/-! ## What it walks -/

theorem mem_walked {t : ZenohUTransport UUID UUri Listener} {h : Handle} :
    h ∈ t.walked ↔ (∃ key, t.pubHandleMap.lookup key = some h) ∨
      ∃ key, h ∈ (t.container key).vector false := by
  have hpublisher : h ∈ t.pubHandleMap.entries.map Sigma.snd ↔
      ∃ key, t.pubHandleMap.lookup key = some h := by
    constructor
    · intro hmem
      obtain ⟨⟨key, h'⟩, hentry, rfl⟩ := List.mem_map.1 hmem
      exact ⟨key, AList.mem_lookup_iff.2 hentry⟩
    · rintro ⟨key, hlookup⟩
      exact List.mem_map.2 ⟨⟨key, h⟩, AList.mem_lookup_iff.1 hlookup, rfl⟩
  have hsubscriber : (h ∈ t.listenerMap.entries.flatMap fun info => info.2.subVector) ↔
      ∃ key, h ∈ (t.container key).vector false := by
    constructor
    · intro hmem
      obtain ⟨⟨key, c⟩, hinfo, hmem⟩ := List.mem_flatMap.1 hmem
      refine ⟨key, ?_⟩
      rw [container_of_lookup (AList.mem_lookup_iff.2 hinfo)]
      exact hmem
    · rintro ⟨key, hmem⟩
      cases hlookup : t.listenerMap.lookup key with
      | none =>
        rw [container, hlookup, Option.getD_none, ListenerContainer.vector_empty] at hmem
        exact absurd hmem List.not_mem_nil
      | some c =>
        rw [container_of_lookup hlookup] at hmem
        exact List.mem_flatMap.2 ⟨⟨key, c⟩, AList.mem_lookup_iff.1 hlookup, hmem⟩
  rw [walked, List.mem_append, hpublisher, hsubscriber]

theorem Owned.nodup_walked {t : ZenohUTransport UUID UUri Listener} (ht : Owned X t) :
    t.walked.Nodup := by
  have hcontainer {info : (_ : ℕ) × ListenerContainer Listener}
      (hinfo : info ∈ t.listenerMap.entries) : t.container info.1 = info.2 :=
    container_of_lookup (AList.mem_lookup_iff.2 hinfo)
  have hholds {info : (_ : ℕ) × ListenerContainer Listener} (hinfo : info ∈ t.listenerMap.entries)
      {h : Handle} (hmem : h ∈ info.2.subVector) :
      ∃ arg, t.entities.Holds h (.ofListener false info.1 arg) := by
    refine (ht.listener false info.1 h).1 ?_
    rw [hcontainer hinfo]
    exact hmem
  refine List.nodup_append.2 ⟨?_, List.nodup_flatMap.2 ⟨fun info hinfo => ?_, ?_⟩, ?_⟩
  · -- a publisher is under one key
    refine List.Nodup.map_on ?_ t.pubHandleMap.nodupKeys.nodup
    rintro ⟨key, h⟩ hmem ⟨key', h'⟩ hmem' rfl
    have hholds := (ht.publisher key h).1 (AList.mem_lookup_iff.2 hmem)
    have hholds' := (ht.publisher key' h).1 (AList.mem_lookup_iff.2 hmem')
    cases hholds.unique hholds'
    rfl
  · have hdistinct := ht.distinct false info.1
    rw [hcontainer hinfo] at hdistinct
    exact hdistinct
  · -- a subscriber is in the container of one key
    have hkeys := List.nodupKeys_iff_pairwise.1 t.listenerMap.nodupKeys
    refine hkeys.imp_of_mem fun {info info'} hinfo hinfo' hne => ?_
    intro h hmem hmem'
    obtain ⟨arg, hholds₁⟩ := hholds hinfo hmem
    obtain ⟨arg', hholds₂⟩ := hholds hinfo' hmem'
    exact hne (Entity.ofListener_inj.1 (hholds₁.unique hholds₂)).2.1
  · rintro h hpublisher h' hmem rfl
    obtain ⟨⟨key, h⟩, hentry, rfl⟩ := List.mem_map.1 hpublisher
    obtain ⟨info, hinfo, hmem⟩ := List.mem_flatMap.1 hmem
    obtain ⟨arg, hholds'⟩ := hholds hinfo hmem
    have hholds := (ht.publisher key h).1 (AList.mem_lookup_iff.2 hentry)
    exact Entity.publisher_ne_ofListener (hholds.unique hholds')

/-! ## Complete teardown -/

/-- After the destructor everything declared is undeclared once, and every pending query is
dropped once. -/
structure TornDown (t : ZenohUTransport UUID UUri Listener) : Prop where
  entities : ∀ h < t.entities.next, t.teardown.entities.released.count h = 1
  queries : ∀ uuidStr query, t.queryMap.lookup uuidStr = some query →
    t.teardown.queries.released.count query = 1

/-- No queryable is registered, and no query is pending. -/
structure NoQueries (t : ZenohUTransport UUID UUri Listener) : Prop where
  queryables : ∀ key, (t.container key).queryVector = []
  pending : ∀ uuidStr, t.queryMap.lookup uuidStr = none

/-- The destructor walks every live handle but those of the queryables. -/
theorem Owned.live_walked_iff {t : ZenohUTransport UUID UUri Listener} (ht : Owned X t) :
    (∀ h < t.entities.next, t.entities.Live h → h ∈ t.walked) ↔
      ∀ key, (t.container key).queryVector = [] := by
  constructor
  · intro hall key
    refine List.eq_nil_iff_forall_not_mem.2 fun h hmem => ?_
    obtain ⟨arg, hholds⟩ := (ht.listener true key h).1 hmem
    rcases mem_walked.1 (hall h hholds.1.1 hholds.1) with ⟨key', hlookup⟩ | ⟨key', hsub⟩
    · exact Entity.publisher_ne_ofListener (((ht.publisher key' h).1 hlookup).unique hholds)
    · obtain ⟨arg', hholds'⟩ := (ht.listener false key' h).1 hsub
      exact absurd (Entity.ofListener_inj.1 (hholds'.unique hholds)).1 (by simp)
  · intro hnone h hlt hlive
    have hholds : t.entities.Holds h t.entities.entries[h] :=
      ⟨hlive, List.getElem?_eq_getElem hlt⟩
    rw [mem_walked]
    cases hentity : t.entities.entries[h] with
    | publisher key =>
      rw [hentity] at hholds
      exact Or.inl ⟨key, (ht.publisher key h).2 hholds⟩
    | subscriber key arg =>
      rw [hentity] at hholds
      exact Or.inr ⟨key, (ht.listener false key h).2 ⟨arg, hholds⟩⟩
    | queryable key arg =>
      rw [hentity] at hholds
      have hmem : h ∈ (t.container key).queryVector := (ht.listener true key h).2 ⟨arg, hholds⟩
      rw [hnone key] at hmem
      exact absurd hmem List.not_mem_nil

/-- The destructor drops none of the pending queries. -/
theorem QueriesSound.pending_dropped_iff {t : ZenohUTransport UUID UUri Listener}
    (ht : QueriesSound t) :
    (∀ uuidStr query, t.queryMap.lookup uuidStr = some query →
      t.teardown.queries.released.count query = 1) ↔
      ∀ uuidStr, t.queryMap.lookup uuidStr = none := by
  constructor
  · intro hall uuidStr
    cases hlookup : t.queryMap.lookup uuidStr with
    | none => rfl
    | some query =>
      have hone := hall uuidStr query hlookup
      rw [queries_teardown, (ht.answered query).1, (ht.pending uuidStr query hlookup).2.2] at hone
      exact absurd hone (by simp)
  · intro hnone uuidStr query hlookup
    rw [hnone uuidStr] at hlookup
    cases hlookup

/-- In every reachable state the destructor leaves nothing behind if and only if no queryable
is registered and no query is pending. -/
theorem tornDown_iff [DecidableEq Listener] {calls : List (Call P UUID UUri Listener)}
    {t : ZenohUTransport UUID UUri Listener} (hrun : Run (step X) init calls t) :
    TornDown t ↔ NoQueries t := by
  have howned : Owned X t := hrun.invariant preserves_owned (owned_init X)
  have hsound : QueriesSound t := hrun.invariant (preserves_queriesSound X _) queriesSound_init
  have hlive : ∀ h ∈ t.walked, t.entities.Live h := by
    intro h hmem
    rcases mem_walked.1 hmem with ⟨key, hlookup⟩ | ⟨key, hsub⟩
    · exact ((howned.publisher key h).1 hlookup).1
    · obtain ⟨arg, hholds⟩ := (howned.listener false key h).1 hsub
      exact hholds.1
  have hentities : (∀ h < t.entities.next, t.teardown.entities.released.count h = 1) ↔
      ∀ h < t.entities.next, t.entities.Live h → h ∈ t.walked := by
    refine forall₂_congr fun h hlt => ?_
    rw [entities_teardown]
    exact Ledger.count_releaseAll_eq_one_iff howned.released howned.nodup_walked hlive hlt
  rw [howned.live_walked_iff] at hentities
  have hqueries := hsound.pending_dropped_iff
  constructor
  · rintro ⟨hall, hpending⟩
    exact ⟨hentities.1 hall, hqueries.1 hpending⟩
  · rintro ⟨hnone, hpending⟩
    exact ⟨hentities.2 hnone, hqueries.2 hpending⟩

/-- A subscriber that is unregistered again, and one that stays. -/
def subscribedAndLeft : List (Call ⟨.eight, .little⟩ (UInt64 × UInt64) Bytes Bool) :=
  [.registerListener [97] false true, .unregisterListener [97] false,
    .registerListener [98] true true]

/-- The state after `subscribedAndLeft`. -/
def oneSubscriber : ZenohUTransport (UInt64 × UInt64) Bytes Bool :=
  (registerListener .sample [98] true true (unregisterListener .sample [97] false
    (registerListener .sample [97] false true init).2).2).2

theorem tornDown_iff_oneSubscriber : TornDown oneSubscriber ↔ NoQueries oneSubscriber :=
  have hrun : Run (step .sample) init subscribedAndLeft oneSubscriber :=
    .cons rfl (.cons rfl (.cons rfl (.nil _)))
  tornDown_iff hrun

/-- The state after the registration of a method. -/
def oneQueryable : ZenohUTransport (UInt64 × UInt64) Bytes Bool :=
  (registerListener .sample methodUri true true init).2

/-- The queryable of a method stays declared. -/
theorem not_tornDown_oneQueryable :
    Run (step .sample) init ([.registerListener methodUri true true] :
      List (Call ⟨.eight, .little⟩ (UInt64 × UInt64) Bytes Bool)) oneQueryable ∧
      ¬TornDown oneQueryable := by
  refine ⟨.cons rfl (.nil _), fun h => ?_⟩
  exact absurd (h.entities 0 (by decide)) (by decide)

end ZenohUTransport

end UpClientZenoh
