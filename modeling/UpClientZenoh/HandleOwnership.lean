import UpClientZenoh.ListenerTable

/-!
# Handle ownership

Who holds what the transport declared. `pubHandleMap_` holds the live publishers, each under
its key, and the containers hold the live subscribers and queryables, whatever kinds of URIs
share a key (`Owned`, an invariant of every run).

The argument of a callback goes to the closure with the declaration, and zenoh deletes it
when it drops the closure. `argsReleasedOnce_iff` : along every run no argument is deleted
twice or too early, and none is left behind, if and only if no declaration of
`registerListener` fails. One that fails deletes its argument twice.
-/

open Execution

namespace UpClientZenoh

theorem Entity.ofListener_inj {rpc rpc' : Bool} {key key' : ℕ} {arg arg' : Handle} :
    Entity.ofListener rpc key arg = .ofListener rpc' key' arg' ↔
      rpc = rpc' ∧ key = key' ∧ arg = arg' := by
  unfold Entity.ofListener
  cases rpc <;> cases rpc' <;> simp

theorem Entity.publisher_ne_ofListener {key key' : ℕ} {rpc : Bool} {arg : Handle} :
    Entity.publisher key ≠ .ofListener rpc key' arg := by
  unfold Entity.ofListener
  split_ifs <;> simp

namespace ListenerContainer

variable {Listener : Type} (c : ListenerContainer Listener)

/-- The handles of one kind : queryables for a method, else subscribers. -/
def vector (rpc : Bool) : List Handle :=
  if rpc = false then c.subVector else c.queryVector

/-- The kind of the vector that `unregisterListener` takes a handle from. -/
def kind : Bool :=
  decide (c.subVector = [])

@[simp] theorem vector_empty (rpc : Bool) :
    (empty : ListenerContainer Listener).vector rpc = [] := by
  cases rpc <;> rfl

theorem handleVector_eq : c.handleVector = c.vector c.kind := by
  unfold handleVector vector kind
  split_ifs with hsub <;> simp_all

theorem vector_push (rpc rpc' : Bool) (handle : Handle) (listener : Listener) :
    (c.push rpc handle listener).vector rpc' =
      if rpc' = rpc then c.vector rpc ++ [handle] else c.vector rpc' := by
  unfold push vector
  cases rpc <;> cases rpc' <;> rfl

theorem vector_removeAt (index : ℕ) (rpc : Bool) :
    (c.removeAt index).vector rpc =
      if rpc = c.kind then (c.vector c.kind).eraseIdx index else c.vector rpc := by
  unfold removeAt vector kind
  by_cases hsub : c.subVector = [] <;> cases rpc <;> simp [hsub]

end ListenerContainer

namespace ZenohUTransport

variable {UUID UUri Listener : Type} {P : Platform} (X : Externals UUID UUri)

/-! ## The invariant -/

/-- The maps of the transport hold the live handles, each in one place. -/
structure Owned (t : ZenohUTransport UUID UUri Listener) : Prop where
  /-- `pubHandleMap_` holds the live publishers, each under its key. -/
  publisher : ∀ key h, t.pubHandleMap.lookup key = some h ↔ t.entities.Holds h (.publisher key)
  /-- The vectors of a container hold the live subscribers and queryables of its key. -/
  listener : ∀ rpc key h, h ∈ (t.container key).vector rpc ↔
    ∃ arg, t.entities.Holds h (.ofListener rpc key arg)
  distinct : ∀ rpc key, ((t.container key).vector rpc).Nodup
  /-- A subscriber or queryable was declared with an argument of its key and kind. -/
  declared : ∀ (h : Handle) rpc key (arg : Handle),
    t.entities.entries[h]? = some (.ofListener rpc key arg) →
    ∃ uri listener, t.args.entries[arg]? = some (uri, listener) ∧ X.uriHash uri = key ∧
      X.isRPCMethod uri = rpc
  /-- An argument was declared once. -/
  ownArg : ∀ (h h' : Handle) rpc rpc' key key' arg,
    t.entities.entries[h]? = some (.ofListener rpc key arg) →
    t.entities.entries[h']? = some (.ofListener rpc' key' arg) → h = h'
  /-- No handle is undeclared twice. -/
  released : t.entities.released.Nodup

theorem owned_init : Owned X (init : ZenohUTransport UUID UUri Listener) := by
  have hnone (h : Handle) (e : Entity) :
      (init : ZenohUTransport UUID UUri Listener).entities.entries[h]? ≠ some e := by
    simp [init, Ledger.empty]
  refine ⟨fun key h => ?_, fun rpc key h => ?_, fun rpc key => ?_, fun h rpc key arg he => ?_,
    fun h h' rpc rpc' key key' arg he => ?_, List.nodup_nil⟩
  · exact iff_of_false (by simp [init]) fun hholds => hnone _ _ hholds.2
  · refine iff_of_false (by simp [container, init]) ?_
    rintro ⟨arg, hholds⟩
    exact hnone _ _ hholds.2
  · simp [container, init]
  · exact absurd he (hnone _ _)
  · exact absurd he (hnone _ _)

variable {X}

/-- Calls that at most declare a publisher. -/
theorem Owned.of_onlyPublishes {t t' : ZenohUTransport UUID UUri Listener} (ht : Owned X t)
    (h : OnlyPublishes t t') : Owned X t' := by
  have hcontainer := h.sameListeners.container_eq
  rcases h.publishers with ⟨hmap, hentities⟩ | ⟨key, hnone, hmap, hentities⟩
  · refine ⟨?_, ?_, ?_, ?_, ?_, ?_⟩
    · rw [hmap, hentities]
      exact ht.publisher
    · simp only [hcontainer, hentities]
      exact ht.listener
    · simp only [hcontainer]
      exact ht.distinct
    · rw [hentities, h.args]
      exact ht.declared
    · rw [hentities]
      exact ht.ownArg
    · rw [hentities]
      exact ht.released
  · -- a publisher was declared for a key without one
    have hentry {h' : Handle} {rpc : Bool} {key' : ℕ} {arg : Handle}
        (he : t'.entities.entries[h']? = some (.ofListener rpc key' arg)) :
        t.entities.entries[h']? = some (.ofListener rpc key' arg) := by
      rw [hentities] at he
      rcases Ledger.getElem?_alloc_eq_some.1 he with he | ⟨-, he⟩
      · exact he
      · exact absurd he Entity.publisher_ne_ofListener
    refine ⟨fun key' h' => ?_, fun rpc key' h' => ?_, fun rpc key' => ?_, ?_, ?_, ?_⟩
    · rw [hmap, hentities, Ledger.holds_alloc, ← ht.publisher]
      by_cases hkey : key' = key
      · subst hkey
        rw [AList.lookup_insert, hnone]
        simp [eq_comm]
      · rw [AList.lookup_insert_ne hkey]
        simp [Ne.symm hkey]
    · rw [hcontainer, ht.listener, hentities]
      refine exists_congr fun arg => ?_
      rw [Ledger.holds_alloc]
      exact (or_iff_left fun ⟨_, he⟩ => Entity.publisher_ne_ofListener he).symm
    · rw [hcontainer]
      exact ht.distinct rpc key'
    · rw [h.args]
      exact fun h' rpc key' arg he => ht.declared h' rpc key' arg (hentry he)
    · exact fun h₁ h₂ _ _ _ _ _ he₁ he₂ => ht.ownArg h₁ h₂ _ _ _ _ _ (hentry he₁) (hentry he₂)
    · rw [hentities]
      exact ht.released

/-- A registration that fails declares nothing. -/
theorem Owned.failedRegister {t : ZenohUTransport UUID UUri Listener} (ht : Owned X t)
    (uri : UUri) (listener : Listener) :
    Owned X (((t.newArg uri listener).deleteArg t.args.next).deleteArg t.args.next) := by
  refine ⟨ht.publisher, ht.listener, ht.distinct, fun h rpc key arg he => ?_, ht.ownArg,
    ht.released⟩
  obtain ⟨uri', listener', harg, hkey⟩ := ht.declared h rpc key arg he
  exact ⟨uri', listener', getElem?_args_failedRegister uri listener harg, hkey⟩

/-- An accepted registration puts the new handle into the vector of its kind. -/
theorem vector_afterRegister (uri : UUri) (listener : Listener)
    (t : ZenohUTransport UUID UUri Listener) (rpc : Bool) (key : ℕ) :
    ((afterRegister X uri listener t).container key).vector rpc =
      if rpc = X.isRPCMethod uri ∧ key = X.uriHash uri then
        (t.container key).vector rpc ++ [t.entities.next]
      else (t.container key).vector rpc := by
  rw [container_afterRegister]
  by_cases hkey : key = X.uriHash uri
  · subst hkey
    rw [if_pos rfl, ListenerContainer.vector_push]
    by_cases hrpc : rpc = X.isRPCMethod uri
    · rw [if_pos hrpc, if_pos ⟨hrpc, rfl⟩, hrpc]
    · rw [if_neg hrpc, if_neg fun h => hrpc h.1]
  · rw [if_neg hkey, if_neg fun h => hkey h.2]

/-- It declares one subscriber or queryable, with the new argument. -/
theorem getElem?_afterRegister {uri : UUri} {listener : Listener}
    {t : ZenohUTransport UUID UUri Listener} {h : Handle} {rpc : Bool} {key : ℕ} {arg : Handle}
    (he : (afterRegister X uri listener t).entities.entries[h]? =
      some (.ofListener rpc key arg)) :
    t.entities.entries[h]? = some (.ofListener rpc key arg) ∨
      h = t.entities.next ∧ X.isRPCMethod uri = rpc ∧ X.uriHash uri = key ∧
        t.args.next = arg := by
  rcases Ledger.getElem?_alloc_eq_some.1 he with he | ⟨hh, he⟩
  · exact Or.inl he
  · exact Or.inr ⟨hh, Entity.ofListener_inj.1 he⟩

theorem Owned.afterRegister {t : ZenohUTransport UUID UUri Listener} (ht : Owned X t)
    (uri : UUri) (listener : Listener) : Owned X (afterRegister X uri listener t) := by
  have hholds (h : Handle) (e : Entity) :
      (ZenohUTransport.afterRegister X uri listener t).entities.Holds h e ↔
        t.entities.Holds h e ∨ h = t.entities.next ∧
          Entity.ofListener (X.isRPCMethod uri) (X.uriHash uri) t.args.next = e :=
    Ledger.holds_alloc
  -- an old handle is not the new one
  have hnew (rpc : Bool) (key : ℕ) : t.entities.next ∉ (t.container key).vector rpc := by
    intro hmem
    obtain ⟨arg, hold⟩ := (ht.listener rpc key _).1 hmem
    exact absurd (Ledger.getElem?_lt hold.2) (Nat.lt_irrefl _)
  have hargLt {h : Handle} {rpc : Bool} {key : ℕ} {arg : Handle}
      (he : t.entities.entries[h]? = some (.ofListener rpc key arg)) : arg < t.args.next := by
    obtain ⟨_, _, harg, -⟩ := ht.declared h rpc key arg he
    exact Ledger.getElem?_lt harg
  refine ⟨fun key h => ?_, fun rpc key h => ?_, fun rpc key => ?_, fun h rpc key arg he => ?_,
    fun h h' rpc rpc' key key' arg he he' => ?_, ht.released⟩
  · rw [hholds]
    refine (ht.publisher key h).trans (or_iff_left fun hnew => ?_).symm
    exact Entity.publisher_ne_ofListener hnew.2.symm
  · simp only [vector_afterRegister, hholds, Entity.ofListener_inj]
    split_ifs with hown
    · obtain ⟨rfl, rfl⟩ := hown
      rw [List.mem_append, List.mem_singleton, ht.listener]
      constructor
      · rintro (⟨arg, hold⟩ | rfl)
        · exact ⟨arg, Or.inl hold⟩
        · exact ⟨t.args.next, Or.inr ⟨rfl, rfl, rfl, rfl⟩⟩
      · rintro ⟨arg, hold | ⟨rfl, -⟩⟩
        · exact Or.inl ⟨arg, hold⟩
        · exact Or.inr rfl
    · rw [ht.listener]
      refine exists_congr fun arg => (or_iff_left ?_).symm
      rintro ⟨-, hrpc, hkey, -⟩
      exact hown ⟨hrpc.symm, hkey.symm⟩
  · rw [vector_afterRegister]
    split_ifs
    · exact List.nodup_append_comm.1 (List.nodup_cons.2 ⟨hnew rpc key, ht.distinct rpc key⟩)
    · exact ht.distinct rpc key
  · rcases getElem?_afterRegister he with he | ⟨-, hrpc, hkey, rfl⟩
    · obtain ⟨uri', listener', harg, hkey⟩ := ht.declared h rpc key arg he
      exact ⟨uri', listener', Ledger.getElem?_alloc harg, hkey⟩
    · exact ⟨uri, listener, Ledger.getElem?_alloc_next, hkey, hrpc⟩
  · rcases getElem?_afterRegister he with he | ⟨rfl, -, -, rfl⟩ <;>
      rcases getElem?_afterRegister he' with he' | ⟨rfl, -, -, harg⟩
    · exact ht.ownArg h h' _ _ _ _ _ he he'
    · rw [← harg] at he
      exact absurd (hargLt he) (Nat.lt_irrefl _)
    · exact absurd (hargLt he') (Nat.lt_irrefl _)
    · rfl

/-- The handle that an unregistration takes out of its vector is live and was declared for
the key. -/
theorem Owned.holds_handle {t : ZenohUTransport UUID UUri Listener} (ht : Owned X t)
    {key index : ℕ} {handle : Handle}
    (hhandle : (t.container key).handleVector[index]? = some handle) :
    ∃ arg, t.entities.Holds handle (.ofListener (t.container key).kind key arg) := by
  rw [ListenerContainer.handleVector_eq] at hhandle
  exact (ht.listener _ key handle).1 (List.mem_of_getElem? hhandle)

/-- It goes out of its vector, and out of no other of the container. -/
theorem Owned.mem_removeAt {t : ZenohUTransport UUID UUri Listener} (ht : Owned X t)
    {key index : ℕ} {handle : Handle}
    (hhandle : (t.container key).handleVector[index]? = some handle) (rpc : Bool) {k : Handle} :
    k ∈ ((t.container key).removeAt index).vector rpc ↔
      k ∈ (t.container key).vector rpc ∧ k ≠ handle := by
  obtain ⟨arg, hholds⟩ := ht.holds_handle hhandle
  rw [ListenerContainer.handleVector_eq] at hhandle
  rw [ListenerContainer.vector_removeAt]
  split_ifs with hrpc
  · subst hrpc
    obtain ⟨hlt, rfl⟩ := List.getElem?_eq_some_iff.1 hhandle
    exact mem_eraseIdx_of_nodup (ht.distinct _ _) hlt
  · refine (and_iff_left_of_imp ?_).symm
    rintro hmem rfl
    obtain ⟨arg', hholds'⟩ := (ht.listener rpc key _).1 hmem
    exact hrpc (Entity.ofListener_inj.1 (hholds'.unique hholds)).1

theorem Owned.unregistered {t t' : ZenohUTransport UUID UUri Listener} (ht : Owned X t)
    {key index : ℕ} {handle : Handle}
    (hhandle : (t.container key).handleVector[index]? = some handle)
    (h : Unregistered key index handle t t') : Owned X t' := by
  obtain ⟨arg, hholds⟩ := ht.holds_handle hhandle
  have hholds' (k : Handle) (e : Entity) :
      t'.entities.Holds k e ↔ t.entities.Holds k e ∧ k ≠ handle := by
    rw [h.entities]
    exact Ledger.holds_release
  have hentries : t'.entities.entries = t.entities.entries := by
    rw [h.entities, Ledger.entries_release]
  refine ⟨fun key' k => ?_, fun rpc key' k => ?_, fun rpc key' => ?_, ?_, ?_, ?_⟩
  · rw [h.pubHandleMap, hholds', ht.publisher]
    refine (and_iff_left_of_imp ?_).symm
    rintro hpublisher rfl
    exact Entity.publisher_ne_ofListener (hpublisher.unique hholds)
  · simp only [hholds', exists_and_right, h.container]
    rw [← ht.listener]
    split_ifs with hkey
    · rw [hkey]
      exact ht.mem_removeAt hhandle rpc
    · refine (and_iff_left_of_imp ?_).symm
      rintro hmem rfl
      obtain ⟨arg', hholds''⟩ := (ht.listener rpc key' _).1 hmem
      exact hkey (Entity.ofListener_inj.1 (hholds''.unique hholds)).2.1
  · rw [h.container]
    split_ifs with hkey
    · rw [ListenerContainer.vector_removeAt]
      split_ifs
      · exact (ht.distinct _ _).eraseIdx index
      · exact ht.distinct _ _
    · exact ht.distinct _ _
  · rw [hentries, h.args]
    exact ht.declared
  · rw [hentries]
    exact ht.ownArg
  · rw [h.entities, Ledger.released_release hholds.1.1]
    exact List.nodup_append_comm.1 (List.nodup_cons.2 ⟨hholds.1.2, ht.released⟩)

theorem preserves_owned [DecidableEq Listener] :
    Preserves (step X) (fun _ (_ : Call P UUID UUri Listener) => True) (Owned X) := by
  intro t call t' ht _ hstep
  rcases step_cases X hstep with h | ⟨uri, listener, -, rfl⟩ | ⟨uri, listener, -, -, rfl⟩ |
    ⟨uri, listener, index, handle, -, -, hhandle, hun⟩
  · exact ht.of_onlyPublishes h
  · exact ht.failedRegister uri listener
  · exact ht.afterRegister uri listener
  · exact ht.unregistered hhandle hun

/-! ## Callback arguments -/

/-- No argument is deleted twice, or while its subscriber or queryable is live. One without a
live subscriber or queryable is deleted. -/
structure ArgsReleasedOnce (t : ZenohUTransport UUID UUri Listener) : Prop where
  once : ∀ arg, t.args.released.count arg ≤ 1
  live : ∀ h rpc key arg, t.entities.Holds h (.ofListener rpc key arg) → arg ∉ t.args.released
  ended : ∀ arg < t.args.next, (∀ h rpc key, ¬t.entities.Holds h (.ofListener rpc key arg)) →
    arg ∈ t.args.released

theorem argsReleasedOnce_init :
    ArgsReleasedOnce (init : ZenohUTransport UUID UUri Listener) where
  once _ := Nat.zero_le 1
  live _ _ _ _ _ := List.not_mem_nil
  ended arg hlt := absurd hlt (Nat.not_lt_zero arg)

theorem args_undeclare_ofListener {t : ZenohUTransport UUID UUri Listener} {handle arg : Handle}
    {rpc : Bool} {key : ℕ}
    (h : t.entities.entries[handle]? = some (.ofListener rpc key arg)) :
    (t.undeclare handle).args = t.args.release arg := by
  unfold undeclare
  dsimp only
  rw [h]
  cases rpc <;> rfl

theorem ArgsReleasedOnce.of_onlyPublishes {t t' : ZenohUTransport UUID UUri Listener}
    (ht : ArgsReleasedOnce t) (h : OnlyPublishes t t') : ArgsReleasedOnce t' := by
  have hholds (k : Handle) (rpc : Bool) (key : ℕ) (arg : Handle) :
      t'.entities.Holds k (.ofListener rpc key arg) ↔
        t.entities.Holds k (.ofListener rpc key arg) := by
    rcases h.publishers with ⟨-, heq⟩ | ⟨key', -, -, heq⟩
    · rw [heq]
    · rw [heq, Ledger.holds_alloc]
      exact or_iff_left fun ⟨_, he⟩ => Entity.publisher_ne_ofListener he
  refine ⟨?_, ?_, ?_⟩
  · rw [h.args]
    exact ht.once
  · simp only [hholds, h.args]
    exact ht.live
  · simp only [hholds, h.args]
    exact ht.ended

/-- The argument of an accepted registration is the closure's. -/
theorem ArgsReleasedOnce.afterRegister {t : ZenohUTransport UUID UUri Listener}
    (ht : ArgsReleasedOnce t) (uri : UUri) (listener : Listener) :
    ArgsReleasedOnce (afterRegister X uri listener t) := by
  have hholds (h : Handle) (e : Entity) :
      (ZenohUTransport.afterRegister X uri listener t).entities.Holds h e ↔
        t.entities.Holds h e ∨ h = t.entities.next ∧
          Entity.ofListener (X.isRPCMethod uri) (X.uriHash uri) t.args.next = e :=
    Ledger.holds_alloc
  refine ⟨ht.once, fun h rpc key arg hh => ?_, fun arg hlt hnone => ?_⟩
  · rcases (hholds _ _).1 hh with hh | ⟨-, he⟩
    · exact ht.live h rpc key arg hh
    · obtain ⟨-, -, rfl⟩ := Entity.ofListener_inj.1 he
      exact Ledger.next_notMem_released
  · have hlt' : arg < t.args.next + 1 :=
      lt_of_lt_of_eq hlt (Ledger.next_alloc t.args (uri, listener))
    rcases Nat.lt_succ_iff_lt_or_eq.1 hlt' with hlt | rfl
    · exact ht.ended arg hlt fun h rpc key hh => hnone h rpc key ((hholds _ _).2 (Or.inl hh))
    · exact absurd ((hholds _ _).2 (Or.inr ⟨rfl, rfl⟩)) (hnone _ _ _)

/-- An unregistration deletes the argument of the handle it undeclares, and no other. -/
theorem ArgsReleasedOnce.unregistered {t t' : ZenohUTransport UUID UUri Listener}
    (ht : ArgsReleasedOnce t) (howned : Owned X t) {key index : ℕ} {handle : Handle}
    (hhandle : (t.container key).handleVector[index]? = some handle)
    (h : Unregistered key index handle t t') : ArgsReleasedOnce t' := by
  obtain ⟨arg, hholds⟩ := howned.holds_handle hhandle
  obtain ⟨_, _, harg, -⟩ := howned.declared _ _ _ _ hholds.2
  have hargs : t'.args = t.args.release arg := h.closed.trans (args_undeclare_ofListener hholds.2)
  have hreleased : t'.args.released = t.args.released ++ [arg] := by
    rw [hargs, Ledger.released_release (Ledger.getElem?_lt harg)]
  have hholds' (k : Handle) (e : Entity) :
      t'.entities.Holds k e ↔ t.entities.Holds k e ∧ k ≠ handle := by
    rw [h.entities]
    exact Ledger.holds_release
  refine ⟨fun arg' => ?_, fun k rpc key' arg' hk => ?_, fun arg' hlt hnone => ?_⟩
  · have hfresh := List.count_eq_zero.2 (ht.live _ _ _ _ hholds)
    rw [hreleased, List.count_append, List.count_singleton]
    split_ifs with heq
    · rw [← beq_iff_eq.1 heq, hfresh]
    · exact ht.once arg'
  · obtain ⟨hk, hne⟩ := (hholds' _ _).1 hk
    rw [hreleased, List.mem_append, List.mem_singleton, not_or]
    refine ⟨ht.live k rpc key' arg' hk, ?_⟩
    rintro rfl
    exact hne (howned.ownArg _ _ _ _ _ _ _ hk.2 hholds.2)
  · rw [hreleased, List.mem_append, List.mem_singleton]
    by_cases heq : arg' = arg
    · exact Or.inr heq
    · rw [hargs, Ledger.next_release] at hlt
      refine Or.inl (ht.ended arg' hlt fun k rpc key' hk => ?_)
      refine hnone k rpc key' ((hholds' _ _).2 ⟨hk, ?_⟩)
      rintro rfl
      exact heq (Entity.ofListener_inj.1 (hk.unique hholds)).2.2

/-- A registration that fails deletes its argument when the closure is dropped, and again. -/
theorem not_argsReleasedOnce_failedRegister (uri : UUri) (listener : Listener)
    (t : ZenohUTransport UUID UUri Listener) :
    ¬ArgsReleasedOnce (((t.newArg uri listener).deleteArg t.args.next).deleteArg t.args.next) := by
  intro h
  have hlt : t.args.next < (t.args.alloc (uri, listener)).next := by
    rw [Ledger.next_alloc]
    exact Nat.lt_succ_self _
  have hreleased : ((t.args.alloc (uri, listener)).release t.args.next).released =
      t.args.released ++ [t.args.next] := Ledger.released_release hlt
  have hcount := h.once t.args.next
  change (((t.args.alloc (uri, listener)).release t.args.next).release
    t.args.next).released.count t.args.next ≤ 1 at hcount
  rw [Ledger.released_release (by rwa [Ledger.next_release]), hreleased, List.count_append,
    List.count_append, List.count_singleton_self] at hcount
  omega

section Runs

variable [DecidableEq Listener]

theorem argsReleasedOnce_exec_iff {t : ZenohUTransport UUID UUri Listener} (howned : Owned X t)
    (ht : ArgsReleasedOnce t) (call : Call P UUID UUri Listener) :
    After (step X) ArgsReleasedOnce t call ↔ DeclarationsSucceed X t call := by
  have hpublishes (h : OnlyPublishes t (exec X t call).2) :
      After (step X) ArgsReleasedOnce t call := by
    intro t' hstep
    rw [exec_snd_of_step hstep] at h
    exact ht.of_onlyPublishes h
  cases call with
  | send uri payload attributes declared sent =>
    exact iff_of_true (hpublishes (onlyPublishes_send X uri payload attributes declared sent t))
      trivial
  | registerListener uri listener declared =>
    unfold DeclarationsSucceed
    rw [after_iff_of_step (step_registerListener X t uri listener declared)]
    rcases registerListener_cases X uri listener declared t with
      ⟨hmem, h⟩ | ⟨hmem, hdeclared, h⟩ | ⟨-, hdeclared, h⟩ <;> rw [h]
    · exact iff_of_true ht fun hnew => absurd hmem hnew
    · refine iff_of_false (not_argsReleasedOnce_failedRegister uri listener t) fun hall => ?_
      exact absurd (hdeclared.symm.trans (hall hmem)) (by simp)
    · exact iff_of_true (ht.afterRegister uri listener) fun _ => hdeclared
  | unregisterListener uri listener =>
    refine iff_of_true (fun t' hstep => ?_) trivial
    obtain ⟨⟨code, hcode⟩, ht'⟩ := unregisterListener_of_step X hstep
    rw [ht']
    rcases unregisterListener_cases X uri listener t with
      ⟨-, h⟩ | ⟨-, ⟨-, h⟩ | ⟨index, -, ⟨-, h⟩ | ⟨handle, hhandle, -, hun⟩⟩⟩
    · rwa [h]
    · rwa [h]
    · exact absurd (h.symm.trans hcode) (by simp)
    · exact ht.unregistered howned hhandle hun
  | SubHandler sample arg answer =>
    exact iff_of_true (hpublishes (onlyPublishes_SubHandler X sample arg answer t)) trivial
  | QueryHandler query arg answer =>
    exact iff_of_true (hpublishes (onlyPublishes_QueryHandler X query arg answer t)) trivial

/-- Along every run no argument is deleted twice or too early, and none is left behind, if
and only if no declaration of `registerListener` fails. -/
theorem argsReleasedOnce_iff (calls : List (Call P UUID UUri Listener)) :
    Along (step X) (After (step X) ArgsReleasedOnce) init calls ↔
      Along (step X) (DeclarationsSucceed X) init calls :=
  along_after_iff preserves_owned
    (fun _ call howned ht => argsReleasedOnce_exec_iff howned ht call) (owned_init X)
    argsReleasedOnce_init calls

end Runs

/-- Register a listener where zenoh refuses the subscriber. -/
def refusedRegistration : List (Call ⟨.eight, .little⟩ (UInt64 × UInt64) Bytes Bool) :=
  [.registerListener [97] false false]

/-- The argument is deleted when zenoh drops the closure, and once more before the return. -/
theorem not_argsReleasedOnce_refusedRegistration :
    ¬Along (step .sample) (After (step .sample) ArgsReleasedOnce) init refusedRegistration := by
  rintro ⟨hafter, -⟩
  exact absurd ((hafter _ rfl).once 0) (by decide)

end ZenohUTransport

end UpClientZenoh
