import UpClientZenoh.RegisteredPairs

/-!
# Unregister race

Threads that register and unregister listeners of one URI. `registerListener` holds
`subInitMutex_` and is one step. `unregisterListener` holds no lock and is two : it erases the
listener and remembers its position, and then undeclares and erases the handle at that
position.

The position is right in the vector of handles after the erasures of the calls before it.
`correct_of_inTurn` : if no call overtakes one that remembers another position, no handle
vector is indexed past its end, and whenever no call is in flight the live handles are those
of the listeners, in their order (`Settled`). For two calls the condition is necessary
(`Ordered.correct_overtaking_iff`) : the one that overtakes the other finds the handles
unshifted, and leaves them shifted. Calls that remember one position undeclare each other's
handles, and both in the end.
-/

open Execution

namespace UpClientZenoh

/-! ## Pending erasures -/

section Pending

variable {α : Type*}

/-- Erasing the positions one after another, each in what the ones before it left, leads from
the one list to the other. -/
def Pending : List α → List ℕ → List α → Prop
  | xs, [], ys => xs = ys
  | xs, i :: is, ys => i < xs.length ∧ Pending (xs.eraseIdx i) is ys

/-- One more erasure. -/
theorem Pending.eraseIdx {xs ys : List α} {is : List ℕ} (h : Pending xs is ys) {i : ℕ}
    (hi : i < ys.length) : Pending xs (is ++ [i]) (ys.eraseIdx i) := by
  induction is generalizing xs with
  | nil =>
    obtain rfl : xs = ys := h
    exact ⟨hi, rfl⟩
  | cons j is ih => exact ⟨h.1, ih h.2⟩

theorem Pending.subset {xs ys : List α} {is : List ℕ} (h : Pending xs is ys) : ys ⊆ xs := by
  induction is generalizing xs with
  | nil =>
    obtain rfl : xs = ys := h
    exact fun _ => id
  | cons i is ih => exact List.Subset.trans (ih h.2) List.eraseIdx_subset

/-- What is appended to both lists is not in the way. -/
theorem Pending.append {xs ys : List α} {is : List ℕ} (h : Pending xs is ys) (zs : List α) :
    Pending (xs ++ zs) is (ys ++ zs) := by
  induction is generalizing xs with
  | nil => exact congrArg (· ++ zs) h
  | cons i is ih =>
    refine ⟨by rw [List.length_append]; exact Nat.lt_add_right _ h.1, ?_⟩
    rw [List.eraseIdx_append_of_lt_length h.1]
    exact ih h.2

/-- A call that is overtaken by none but those of its own position can go first. -/
theorem map_snd_eq_cons_eraseP {β : Type*} {p : α × β → Bool} {call : α × β} :
    ∀ {calls : List (α × β)}, calls.find? p = some call →
      (∀ older ∈ calls.takeWhile fun c => !p c, older.2 = call.2) →
      calls.map Prod.snd = call.2 :: (calls.eraseP p).map Prod.snd
  | [], hfind, _ => by cases hfind
  | c :: calls, hfind, holder => by
    by_cases hc : p c = true
    · rw [List.find?_cons_of_pos hc] at hfind
      obtain rfl := Option.some.inj hfind
      rw [List.eraseP_cons_of_pos hc, List.map_cons]
    · rw [List.find?_cons_of_neg hc] at hfind
      rw [List.takeWhile_cons_of_pos (by simpa using hc)] at holder
      have hsame : c.2 = call.2 := holder c List.mem_cons_self
      have hrest := map_snd_eq_cons_eraseP hfind fun older hmem =>
        holder older (List.mem_cons_of_mem c hmem)
      rw [List.eraseP_cons_of_neg hc, List.map_cons, List.map_cons, hsame, hrest]

/-- Erasing the later position first, the value behind it moves up. -/
theorem getElem?_eraseIdx_eraseIdx (xs : List α) {i k : ℕ} (hi : i ≤ k) :
    ((xs.eraseIdx i).eraseIdx (k + 1))[k]? = xs[k + 1]? ∧
      ((xs.eraseIdx (k + 1)).eraseIdx i)[k]? = xs[k + 2]? := by
  constructor
  · rw [List.getElem?_eraseIdx_of_lt k.lt_succ_self, List.getElem?_eraseIdx_of_ge hi]
  · rw [List.getElem?_eraseIdx_of_ge hi, List.getElem?_eraseIdx_of_ge le_rfl]

/-- Two erasures commute only if they are at one position. -/
theorem eq_of_eraseIdx_comm {xs : List α} (hnodup : xs.Nodup) {i j : ℕ} (hi : i < xs.length)
    (hj : j < (xs.eraseIdx i).length)
    (h : (xs.eraseIdx i).eraseIdx j = (xs.eraseIdx j).eraseIdx i) : i = j := by
  rw [List.length_eraseIdx_of_lt hi] at hj
  have hsucc {k : ℕ} (hk : k + 1 < xs.length) : xs[k + 1]? ≠ xs[k + 2]? := by
    intro heq
    exact Nat.succ_ne_self _ ((List.getElem?_inj hk hnodup).1 heq).symm
  rcases lt_trichotomy i j with hlt | heq | hlt
  · obtain ⟨k, rfl⟩ := Nat.exists_eq_succ_of_ne_zero (Nat.ne_zero_of_lt hlt)
    obtain ⟨hleft, hright⟩ := getElem?_eraseIdx_eraseIdx xs (Nat.le_of_lt_succ hlt)
    rw [Nat.succ_eq_add_one] at h
    rw [h, hright] at hleft
    exact absurd hleft.symm (hsucc (by omega))
  · exact heq
  · obtain ⟨k, rfl⟩ := Nat.exists_eq_succ_of_ne_zero (Nat.ne_zero_of_lt hlt)
    obtain ⟨hleft, hright⟩ := getElem?_eraseIdx_eraseIdx xs (Nat.le_of_lt_succ hlt)
    rw [Nat.succ_eq_add_one] at h
    rw [h, hleft] at hright
    exact absurd hright (hsucc (by omega))

end Pending

open ZenohUTransport

section Handles

variable {UUID UUri Listener : Type} {t : ZenohUTransport UUID UUri Listener} {key index : ℕ}
  {rpc : Bool} (hother : (t.container key).vector (!rpc) = [])

include hother

/-- Where there is a handle at the position, it is undeclared and erased. -/
theorem ZenohUTransport.eraseHandle_of_lt (hlt : index < ((t.container key).vector rpc).length) :
    let r := eraseHandle key index (t.container key) t
    r.1 = .returned .OK ∧
      r.2.entities = t.entities.release ((t.container key).vector rpc)[index] ∧
      r.2.args.entries = t.args.entries ∧
      (r.2.container key).listenerVector = (t.container key).listenerVector ∧
      (r.2.container key).vector rpc = ((t.container key).vector rpc).eraseIdx index ∧
      (r.2.container key).vector (!rpc) = [] := by
  intro r
  have hr : r = eraseHandle key index (t.container key) t := rfl
  have hcontainer (h : Handle) (c : ListenerContainer Listener) :
      ((t.undeclare h).setContainer key c).container key = c := by
    rw [container_setContainer, if_pos rfl]
  have hne := List.ne_nil_of_length_pos (Nat.zero_lt_of_lt hlt)
  unfold eraseHandle at hr
  cases rpc with
  | false =>
    have hsome : (t.container key).subVector[index]? =
        some ((t.container key).vector false)[index] := List.getElem?_eq_getElem hlt
    change (t.container key).subVector ≠ [] at hne
    rw [if_pos hne, hsome] at hr
    rw [hr]
    refine ⟨rfl, entities_undeclare _ _, args_undeclare _ _, ?_, ?_, ?_⟩ <;> rw [hcontainer]
    · rfl
    · exact hother
  | true =>
    have hsome : (t.container key).queryVector[index]? =
        some ((t.container key).vector true)[index] := List.getElem?_eq_getElem hlt
    change (t.container key).subVector = [] at hother
    rw [if_neg (not_not.2 hother), hsome] at hr
    rw [hr]
    refine ⟨rfl, entities_undeclare _ _, args_undeclare _ _, ?_, ?_, ?_⟩ <;> rw [hcontainer]
    · rfl
    · exact hother

/-- A position past the end is read all the same. -/
theorem ZenohUTransport.eraseHandle_of_le (hne : (t.container key).vector rpc ≠ [])
    (hle : ((t.container key).vector rpc).length ≤ index) :
    (eraseHandle key index (t.container key) t).1 = .undefined := by
  unfold eraseHandle
  cases rpc with
  | false =>
    have hnone : (t.container key).subVector[index]? = none := List.getElem?_eq_none hle
    change (t.container key).subVector ≠ [] at hne
    rw [if_pos hne, hnone]
  | true =>
    have hnone : (t.container key).queryVector[index]? = none := List.getElem?_eq_none hle
    change (t.container key).subVector = [] at hother
    rw [if_neg (not_not.2 hother), hnone]

end Handles

variable {Thread UUID UUri Listener : Type} (X : Externals UUID UUri) (uri : UUri)

/-! ## Registrars -/

/-- The transport, and the calls of `unregisterListener` between their two steps, the oldest
first, each with the position it remembers. No step reads the other members. -/
structure Registrars (Thread UUID UUri Listener : Type) where
  transport : ZenohUTransport UUID UUri Listener
  inFlight : List (Thread × ℕ)
  /-- The registered listeners, each with the handle that was declared for it. -/
  subscriptions : List (Listener × Handle)
  /-- The handles that were declared for the listeners unregistered since. -/
  unregistered : List Handle

inductive RegistrarStep (Thread Listener : Type)
  | registerListener (listener : Listener) (declared : Bool)
  | eraseListener (thread : Thread) (listener : Listener)
  | eraseHandle (thread : Thread)
  deriving DecidableEq

namespace Registrars

/-- No listeners. -/
def init : Registrars Thread UUID UUri Listener where
  transport := .init
  inFlight := []
  subscriptions := []
  unregistered := []

/-- The call of a thread that is in flight. -/
def findCall [DecidableEq Thread] (s : Registrars Thread UUID UUri Listener) (thread : Thread) :
    Option (Thread × ℕ) :=
  s.inFlight.find? fun call => call.1 = thread

/-- The second step of a call that remembers the position. -/
def eraseHandle (s : Registrars Thread UUID UUri Listener) (index : ℕ) :
    Exit UCode × ZenohUTransport UUID UUri Listener :=
  ZenohUTransport.eraseHandle (X.uriHash uri) index (s.transport.container (X.uriHash uri))
    s.transport

/-- A call that does not find the listener is one step. -/
def step [DecidableEq Thread] [DecidableEq Listener] (s : Registrars Thread UUID UUri Listener) :
    RegistrarStep Thread Listener → Option (Registrars Thread UUID UUri Listener)
  | .registerListener listener declared =>
    match ZenohUTransport.registerListener X uri listener declared s.transport with
    | (.returned .OK, t) => some
      { s with
        transport := t
        subscriptions := s.subscriptions ++ [(listener, s.transport.entities.next)] }
    | (_, t) => some { s with transport := t }
  | .eraseListener thread listener =>
    match s.findCall thread, s.transport.listenerMap.lookup (X.uriHash uri) with
    | some _, _ => none
    | none, none => some s
    | none, some container =>
      match ZenohUTransport.eraseListener listener container with
      | none => some s
      | some (index, container) => some
        { transport := s.transport.setContainer (X.uriHash uri) container
          inFlight := s.inFlight ++ [(thread, index)]
          subscriptions := s.subscriptions.filter fun p => ¬p.1 = listener
          unregistered :=
            (s.subscriptions.filter fun p => p.1 = listener).map Prod.snd ++ s.unregistered }
  | .eraseHandle thread =>
    match s.findCall thread with
    | none => none
    | some call =>
      match s.eraseHandle X uri call.2 with
      | (.returned _, t) => some
        { s with
          transport := t
          inFlight := s.inFlight.eraseP fun call => call.1 = thread }
      | _ => none

/-- The listeners are the registered ones, each with its own live handle at its position. No
other handle is live. -/
structure Settled (s : Registrars Thread UUID UUri Listener) : Prop where
  listeners : (s.transport.container (X.uriHash uri)).listenerVector =
    s.subscriptions.map Prod.fst
  handles : (s.transport.container (X.uriHash uri)).vector (X.isRPCMethod uri) =
    s.subscriptions.map Prod.snd
  declared : ∀ p ∈ s.subscriptions,
    DeclaredFor X s.transport (X.isRPCMethod uri) (X.uriHash uri) p.2 p.1
  live : ∀ h, s.transport.entities.Live h ↔ h ∈ s.subscriptions.map Prod.snd
  undeclared : ∀ h ∈ s.unregistered, ¬s.transport.entities.Live h

/-- A second step finds a handle at its position. If no call is in flight afterwards, the
handles are right. -/
structure Correct [DecidableEq Thread] [DecidableEq Listener]
    (s : Registrars Thread UUID UUri Listener) (e : RegistrarStep Thread Listener) : Prop where
  inRange : ∀ thread call, e = .eraseHandle thread → s.findCall thread = some call →
    (s.eraseHandle X uri call.2).1 = .returned .OK
  settled : After (step X uri) (fun s' => s'.inFlight = [] → Settled X uri s') s e

/-- The calls that a second step overtakes remember its position. -/
def InTurn [DecidableEq Thread] (s : Registrars Thread UUID UUri Listener) :
    RegistrarStep Thread Listener → Prop
  | .eraseHandle thread => ∀ call ∈ s.findCall thread,
      ∀ older ∈ s.inFlight.takeWhile fun c => !decide (c.1 = thread), older.2 = call.2
  | _ => True

/-! ## The invariant -/

/-- The erasures of the calls in flight, in their order, lead from the handles to those of the
listeners. -/
structure Ordered (s : Registrars Thread UUID UUri Listener) : Prop where
  listeners : (s.transport.container (X.uriHash uri)).listenerVector =
    s.subscriptions.map Prod.fst
  distinct : (s.subscriptions.map Prod.fst).Nodup
  other : (s.transport.container (X.uriHash uri)).vector (!X.isRPCMethod uri) = []
  pending : Pending ((s.transport.container (X.uriHash uri)).vector (X.isRPCMethod uri))
    (s.inFlight.map Prod.snd) (s.subscriptions.map Prod.snd)
  live : ∀ h, s.transport.entities.Live h ↔
    h ∈ (s.transport.container (X.uriHash uri)).vector (X.isRPCMethod uri)
  nodup : ((s.transport.container (X.uriHash uri)).vector (X.isRPCMethod uri)).Nodup
  declared : ∀ p ∈ s.subscriptions,
    DeclaredFor X s.transport (X.isRPCMethod uri) (X.uriHash uri) p.2 p.1
  own : (s.subscriptions.map Prod.snd ++ s.unregistered).Nodup
  old : ∀ h ∈ s.unregistered, h < s.transport.entities.next

variable {X uri}

theorem ordered_init : Ordered X uri (init : Registrars Thread UUID UUri Listener) := by
  have hvector (rpc : Bool) : ((init : Registrars Thread UUID UUri Listener).transport.container
      (X.uriHash uri)).vector rpc = [] := ListenerContainer.vector_empty rpc
  refine ⟨rfl, List.nodup_nil, hvector _, hvector _, fun h => ?_, ?_, ?_, List.nodup_nil, ?_⟩
  · rw [hvector]
    exact iff_of_false (fun hlive => absurd hlive.1 (Nat.not_lt_zero _)) List.not_mem_nil
  · rw [hvector]
    exact List.nodup_nil
  · exact fun p hp => absurd hp List.not_mem_nil
  · exact fun h hh => absurd hh List.not_mem_nil

section Steps

variable {s s' : Registrars Thread UUID UUri Listener}

/-- Without calls in flight nothing is to be erased. -/
theorem Ordered.settled (h : Ordered X uri s) (hnone : s.inFlight = []) : Settled X uri s := by
  have hhandles : (s.transport.container (X.uriHash uri)).vector (X.isRPCMethod uri) =
      s.subscriptions.map Prod.snd := by
    have hpending := h.pending
    rw [hnone] at hpending
    exact hpending
  have hlive (k : Handle) : s.transport.entities.Live k ↔ k ∈ s.subscriptions.map Prod.snd := by
    rw [h.live, hhandles]
  refine ⟨h.listeners, hhandles, h.declared, hlive, fun k hk hkLive => ?_⟩
  exact (List.nodup_append.1 h.own).2.2 k ((hlive k).1 hkLive) k hk rfl

/-- A registration that is refused, or whose declaration fails. -/
theorem Ordered.mono (h : Ordered X uri s) {t : ZenohUTransport UUID UUri Listener}
    (hcontainer : t.container (X.uriHash uri) = s.transport.container (X.uriHash uri))
    (hentities : t.entities = s.transport.entities)
    (hargs : ∀ (arg : Handle) a, s.transport.args.entries[arg]? = some a →
      t.args.entries[arg]? = some a) : Ordered X uri { s with transport := t } := by
  refine ⟨?_, h.distinct, ?_, ?_, ?_, ?_, fun p hp => ?_, h.own, ?_⟩
  · rw [hcontainer]
    exact h.listeners
  · rw [hcontainer]
    exact h.other
  · rw [hcontainer]
    exact h.pending
  · rw [hcontainer, hentities]
    exact h.live
  · rw [hcontainer]
    exact h.nodup
  · refine (h.declared p hp).mono ?_ ?_ hargs <;> rw [hentities]
    · exact id
    · exact fun _ => id
  · rw [hentities]
    exact h.old

/-- An accepted registration. -/
theorem Ordered.afterRegister (h : Ordered X uri s) {listener : Listener}
    (hnew : (X.uriHash uri, listener) ∉ s.transport.registered) :
    Ordered X uri
      { s with
        transport := afterRegister X uri listener s.transport
        subscriptions := s.subscriptions ++ [(listener, s.transport.entities.next)] } := by
  have hcontainer := container_afterRegister X uri listener s.transport (X.uriHash uri)
  rw [if_pos rfl] at hcontainer
  have hlive (k : Handle) :
      (ZenohUTransport.afterRegister X uri listener s.transport).entities.Live k ↔
        s.transport.entities.Live k ∨ k = s.transport.entities.next := Ledger.live_alloc
  have hnext : s.transport.entities.next ∉
      (s.transport.container (X.uriHash uri)).vector (X.isRPCMethod uri) := by
    intro hmem
    exact absurd ((h.live _).2 hmem).1 (Nat.lt_irrefl _)
  have hnextOld : s.transport.entities.next ∉ s.unregistered :=
    fun hmem => absurd (h.old _ hmem) (Nat.lt_irrefl _)
  refine ⟨?_, ?_, ?_, ?_, fun k => ?_, ?_, fun p hp => ?_, ?_, fun k hk => ?_⟩
  all_goals dsimp only
  · rw [hcontainer, ListenerContainer.listenerVector_push, h.listeners, List.map_append]
    rfl
  · rw [List.map_append, ← h.listeners]
    exact ListenerContainer.nodup_push (by rw [h.listeners]; exact h.distinct) hnew false 0
  · rw [hcontainer, ListenerContainer.vector_push, if_neg (by simp)]
    exact h.other
  · rw [hcontainer, ListenerContainer.vector_push, if_pos rfl, List.map_append]
    exact h.pending.append _
  · rw [hcontainer, hlive, ListenerContainer.vector_push, if_pos rfl, List.mem_append,
      List.mem_singleton, h.live]
  · rw [hcontainer, ListenerContainer.vector_push, if_pos rfl]
    exact List.nodup_append_comm.1 (List.nodup_cons.2 ⟨hnext, h.nodup⟩)
  · rcases List.mem_append.1 hp with hp | hp
    · exact (h.declared p hp).afterRegister uri listener
    · obtain rfl := List.mem_singleton.1 hp
      exact declaredFor_next uri listener s.transport
  · rw [List.map_append, List.append_assoc]
    refine (List.perm_middle.nodup_iff).2 (List.nodup_cons.2 ⟨?_, h.own⟩)
    rw [List.mem_append, not_or]
    exact ⟨fun hmem => hnext (h.pending.subset hmem), hnextOld⟩
  · change k < (s.transport.entities.alloc _).next
    rw [Ledger.next_alloc]
    exact Nat.lt_succ_of_lt (h.old k hk)

/-- The second step of a call that can go first. -/
theorem Ordered.eraseHandle (h : Ordered X uri s) {index : ℕ} {calls : List (Thread × ℕ)}
    (hcalls : s.inFlight.map Prod.snd = index :: calls.map Prod.snd) :
    (s.eraseHandle X uri index).1 = .returned .OK ∧
      Ordered X uri
        { s with
          transport := (s.eraseHandle X uri index).2
          inFlight := calls } := by
  obtain ⟨hlt, hpending⟩ : Pending _ (index :: calls.map Prod.snd) _ := by
    have hpending := h.pending
    rwa [hcalls] at hpending
  obtain ⟨hok, hentities, hargs, hlisteners, hvector, hother⟩ := eraseHandle_of_lt h.other hlt
  have herased (k : Handle) : k ∈ ((s.transport.container (X.uriHash uri)).vector
      (X.isRPCMethod uri)).eraseIdx index ↔ k ∈ (s.transport.container (X.uriHash uri)).vector
      (X.isRPCMethod uri) ∧ k ≠ ((s.transport.container (X.uriHash uri)).vector
      (X.isRPCMethod uri))[index] := mem_eraseIdx_of_nodup h.nodup hlt
  refine ⟨hok, ?_⟩
  unfold Registrars.eraseHandle
  refine ⟨?_, h.distinct, hother, ?_, fun k => ?_, ?_, fun p hp => ?_, h.own, ?_⟩
  · exact hlisteners.trans h.listeners
  · dsimp only
    rw [hvector]
    exact hpending
  · dsimp only
    rw [hvector, hentities, Ledger.live_release, h.live, herased]
  · dsimp only
    rw [hvector]
    exact h.nodup.eraseIdx index
  · have hmem := (herased p.2).1 (hpending.subset (List.mem_map_of_mem hp))
    exact (h.declared p hp).of_released hmem.2 hentities hargs
  · dsimp only
    rw [hentities, Ledger.next_release]
    exact h.old

variable [DecidableEq Listener]

/-- A first step that finds its listener. -/
theorem Ordered.eraseListener (h : Ordered X uri s) {listener : Listener} {index : ℕ}
    (hindex : (s.transport.container (X.uriHash uri)).listenerVector.idxOf? listener = some index)
    (thread : Thread) :
    Ordered X uri
      { transport := s.transport.setContainer (X.uriHash uri)
          { s.transport.container (X.uriHash uri) with
            listenerVector :=
              (s.transport.container (X.uriHash uri)).listenerVector.eraseIdx index }
        inFlight := s.inFlight ++ [(thread, index)]
        subscriptions := s.subscriptions.filter fun p => ¬p.1 = listener
        unregistered :=
          (s.subscriptions.filter fun p => p.1 = listener).map Prod.snd ++ s.unregistered } := by
  have hcontainer (c : ListenerContainer Listener) :
      (s.transport.setContainer (X.uriHash uri) c).container (X.uriHash uri) = c := by
    rw [container_setContainer, if_pos rfl]
  have hfilter : (s.subscriptions.filter fun p => ¬p.1 = listener) =
      s.subscriptions.eraseIdx index := by
    rw [h.listeners] at hindex
    exact filter_ne_eq_eraseIdx h.distinct hindex
  have hlt : index < (s.subscriptions.map Prod.snd).length := by
    have hlt := (List.idxOf?_eq_some_iff.1 hindex).1
    rw [h.listeners, List.length_map] at hlt
    rwa [List.length_map]
  refine ⟨?_, ?_, ?_, ?_, ?_, ?_, fun p hp => ?_, ?_, ?_⟩
  · rw [hcontainer, hfilter, h.listeners, List.eraseIdx_map]
  · exact (h.distinct).sublist (List.filter_sublist.map _)
  · rw [hcontainer]
    exact h.other
  · rw [hcontainer, hfilter, List.map_append, ← List.eraseIdx_map]
    exact h.pending.eraseIdx hlt
  · rw [hcontainer]
    exact h.live
  · rw [hcontainer]
    exact h.nodup
  · exact (h.declared p (List.mem_of_mem_filter hp)).mono id (fun _ => id) fun _ _ => id
  · -- the listener's handle moves from the one list to the other
    rw [← List.append_assoc, ← List.map_append]
    have hperm : ((s.subscriptions.filter fun p => ¬p.1 = listener) ++
        s.subscriptions.filter fun p => p.1 = listener).Perm s.subscriptions := by
      simpa using List.filter_append_perm (fun p => decide ¬p.1 = listener) s.subscriptions
    exact ((hperm.map Prod.snd).append_right _).nodup_iff.2 h.own
  · intro k hk
    rcases List.mem_append.1 hk with hk | hk
    · obtain ⟨p, hp, rfl⟩ := List.mem_map.1 hk
      exact (h.declared p (List.mem_of_mem_filter hp)).live.1
    · exact h.old k hk

variable [DecidableEq Thread]

/-- A second step that finds a handle. -/
theorem step_eraseHandle {thread : Thread} {call : Thread × ℕ}
    (hcall : s.findCall thread = some call) {code : UCode}
    (hreturned : (s.eraseHandle X uri call.2).1 = .returned code) :
    Registrars.step X uri s (.eraseHandle thread) = some
      { s with
        transport := (s.eraseHandle X uri call.2).2
        inFlight := s.inFlight.eraseP fun c => c.1 = thread } := by
  unfold Registrars.step
  dsimp only
  rw [hcall]
  dsimp only
  generalize s.eraseHandle X uri call.2 = r at hreturned ⊢
  obtain ⟨exit, t⟩ := r
  obtain rfl : exit = .returned code := hreturned
  rfl

theorem Ordered.step (h : Ordered X uri s) {e : RegistrarStep Thread Listener}
    (hturn : InTurn s e) (hstep : step X uri s e = some s') : Ordered X uri s' := by
  unfold Registrars.step at hstep
  cases e with
  | registerListener listener declared =>
    dsimp only at hstep
    rcases registerListener_cases X uri listener declared s.transport with
      ⟨-, hr⟩ | ⟨-, -, hr⟩ | ⟨hnew, -, hr⟩ <;> rw [hr] at hstep <;>
      obtain rfl := Option.some.inj hstep
    · exact h
    · refine h.mono rfl rfl fun arg a ha => ?_
      simp only [deleteArg, newArg, Ledger.entries_release]
      exact Ledger.getElem?_alloc ha
    · exact h.afterRegister hnew
  | eraseListener thread listener =>
    dsimp only at hstep
    cases hcall : s.findCall thread with
    | some call =>
      rw [hcall] at hstep
      cases hstep
    | none =>
      rw [hcall] at hstep
      cases hlookup : s.transport.listenerMap.lookup (X.uriHash uri) with
      | none =>
        rw [hlookup] at hstep
        obtain rfl := Option.some.inj hstep
        exact h
      | some c =>
        rw [hlookup] at hstep
        dsimp only at hstep
        obtain rfl := container_of_lookup hlookup
        unfold ZenohUTransport.eraseListener at hstep
        cases hindex : (s.transport.container (X.uriHash uri)).listenerVector.idxOf? listener with
        | none =>
          rw [hindex] at hstep
          obtain rfl := Option.some.inj hstep
          exact h
        | some index =>
          rw [hindex] at hstep
          obtain rfl := Option.some.inj hstep
          exact h.eraseListener hindex thread
  | eraseHandle thread =>
    cases hcall : s.findCall thread with
    | none =>
      dsimp only at hstep
      rw [hcall] at hstep
      cases hstep
    | some call =>
      obtain ⟨hok, hordered⟩ := h.eraseHandle (map_snd_eq_cons_eraseP hcall (hturn call hcall))
      obtain rfl := Option.some.inj (hstep.symm.trans (step_eraseHandle hcall hok))
      exact hordered

/-- A step in turn keeps the order, and is correct. -/
theorem Ordered.correct (h : Ordered X uri s) {e : RegistrarStep Thread Listener}
    (hturn : InTurn s e) : Correct X uri s e := by
  refine ⟨?_, fun s' hstep hnone => (h.step hturn hstep).settled hnone⟩
  rintro thread call rfl hcall
  exact (h.eraseHandle (map_snd_eq_cons_eraseP hcall (hturn call hcall))).1

omit [DecidableEq Listener] in
theorem findCall_oldest {thread : Thread} {index : ℕ} {calls : List (Thread × ℕ)}
    (hcalls : s.inFlight = (thread, index) :: calls) :
    s.findCall thread = some (thread, index) := by
  rw [findCall, hcalls]
  exact List.find?_cons_of_pos (by simp)

omit [DecidableEq Listener] in
/-- The oldest call overtakes none. -/
theorem inTurn_oldest {thread : Thread} {index : ℕ} {calls : List (Thread × ℕ)}
    (hcalls : s.inFlight = (thread, index) :: calls) : InTurn s (.eraseHandle thread) := by
  intro call hcall older holder
  rw [hcalls, List.takeWhile_cons_of_neg (by simp)] at holder
  exact absurd holder List.not_mem_nil

section Overtaking

variable {first second : Thread} {i j : ℕ} (hne : first ≠ second)
  (hcalls : s.inFlight = [(first, i), (second, j)])

include hne hcalls

omit [DecidableEq Listener] in
theorem findCall_second : s.findCall second = some (second, j) := by
  rw [findCall, hcalls]
  simp [hne]

omit [DecidableEq Listener] in
theorem eraseP_second : (s.inFlight.eraseP fun c => c.1 = second) = [(first, i)] := by
  rw [hcalls, List.eraseP_cons_of_neg (by simp [hne]), List.eraseP_cons_of_pos (by simp)]

omit [DecidableEq Listener] in
theorem inTurn_second (hij : i = j) : InTurn s (.eraseHandle second) := by
  intro call hcall older holder
  obtain rfl := Option.some.inj ((findCall_second hne hcalls).symm.trans hcall)
  rw [hcalls] at holder
  simp only [List.takeWhile_cons, hne, decide_false, Bool.not_false, if_true, decide_true,
    Bool.not_true, Bool.false_eq_true, if_false, List.mem_singleton] at holder
  rw [holder]
  exact hij

/-- If the later of two calls overtakes the earlier one and the handles are right in the end,
then the calls remember one position. -/
theorem Ordered.eq_of_overtaking (h : Ordered X uri s)
    (halong : Along (Registrars.step X uri) (Correct X uri) s
      [.eraseHandle second, .eraseHandle first]) : i = j := by
  obtain ⟨hi, hj, hsubscriptions⟩ : Pending _ [i, j] _ := by
    have hpending := h.pending
    rwa [hcalls] at hpending
  have hj' : j < ((s.transport.container (X.uriHash uri)).vector (X.isRPCMethod uri)).length :=
    hj.trans_le (List.length_eraseIdx_le _ i)
  obtain ⟨hok, -, -, -, hvector, hother⟩ := eraseHandle_of_lt h.other hj'
  have hstep := step_eraseHandle (findCall_second hne hcalls) hok
  rw [eraseP_second hne hcalls] at hstep
  obtain ⟨hcorrect, -⟩ := halong.2 _ hstep
  have hreturned := hcorrect.inRange first (first, i) rfl (findCall_oldest rfl)
  -- the earlier call finds a handle, so its position is not past the end
  have hlt : i < (((s.transport.container (X.uriHash uri)).vector
      (X.isRPCMethod uri)).eraseIdx j).length := by
    by_contra hle
    rw [not_lt, ← hvector] at hle
    rw [List.length_eraseIdx_of_lt hi, ← List.length_eraseIdx_of_lt hj', ← hvector] at hj
    have hleft := List.ne_nil_of_length_pos (Nat.zero_lt_of_lt hj)
    exact absurd ((eraseHandle_of_le hother hleft hle).symm.trans hreturned) (by simp)
  rw [← hvector] at hlt
  obtain ⟨-, -, -, -, hvector', -⟩ := eraseHandle_of_lt hother hlt
  have hsettled := hcorrect.settled _ (step_eraseHandle (findCall_oldest rfl) hreturned) (by simp)
  have hhandles := hvector'.symm.trans hsettled.handles
  refine eq_of_eraseIdx_comm h.nodup hi hj (hsubscriptions.trans ?_)
  rw [← hhandles]
  exact congrArg (List.eraseIdx · i) hvector

/-- Where two calls are in flight, the later one can overtake the earlier one if and only if
they remember one position. -/
theorem Ordered.correct_overtaking_iff (h : Ordered X uri s) :
    Along (Registrars.step X uri) (Correct X uri) s
      [.eraseHandle second, .eraseHandle first] ↔ i = j := by
  refine ⟨h.eq_of_overtaking hne hcalls, fun hij => ?_⟩
  have hturn := inTurn_second hne hcalls hij
  have hsecond := findCall_second hne hcalls
  have hok := (h.correct hturn).inRange second (second, j) rfl hsecond
  have hstep := step_eraseHandle hsecond hok
  rw [eraseP_second hne hcalls] at hstep
  refine ⟨h.correct hturn, fun s' hs' => ⟨(h.step hturn hs').correct ?_, fun _ _ => trivial⟩⟩
  obtain rfl := Option.some.inj (hstep.symm.trans hs')
  exact inTurn_oldest rfl

end Overtaking

end Steps

/-! ## Runs -/

variable [DecidableEq Thread] [DecidableEq Listener]

/-- In every interleaving in which no call overtakes one that remembers another position,
every step is correct. -/
theorem correct_of_inTurn {es : List (RegistrarStep Thread Listener)}
    (hturn : Along (step X uri) InTurn (init : Registrars Thread UUID UUri Listener) es) :
    Along (step X uri) (Correct X uri) (init : Registrars Thread UUID UUri Listener) es := by
  have hpreserves : Preserves (step X uri) InTurn
      (Ordered X uri : Registrars Thread UUID UUri Listener → Prop) :=
    fun _ _ _ hs hturn hstep => hs.step hturn hstep
  exact hturn.mono hpreserves (fun _ _ hs hturn => hs.correct hturn) ordered_init

/-- Three listeners of the topic `a`, and two threads that unregister the first and the
last. -/
def threeListeners : List (RegistrarStep Bool ℕ) :=
  [.registerListener 0 true, .registerListener 1 true, .registerListener 2 true,
    .eraseListener false 0, .eraseListener true 2]

/-- The thread that came first finishes first. -/
theorem correct_threeListeners :
    Along (step .sample [97]) (Correct .sample [97])
      (init : Registrars Bool (UInt64 × UInt64) Bytes ℕ)
      (threeListeners ++ [.eraseHandle false, .eraseHandle true]) :=
  correct_of_inTurn (.cons trivial rfl (.cons trivial rfl (.cons trivial rfl (.cons trivial rfl
    (.cons trivial rfl (.cons (inTurn_oldest rfl) rfl (.cons (inTurn_oldest rfl) rfl trivial)))))))

/-- The thread that came last finishes first, and undeclares the handle of the listener that
stays. -/
theorem not_correct_threeListeners :
    ¬Along (step .sample [97]) (Correct .sample [97])
        (init : Registrars Bool (UInt64 × UInt64) Bytes ℕ)
        (threeListeners ++ [.eraseHandle true, .eraseHandle false]) ∧
      ∃ s : Registrars Bool (UInt64 × UInt64) Bytes ℕ,
        Run (step .sample [97]) init
          (threeListeners ++ [.eraseHandle true, .eraseHandle false]) s ∧
        s.inFlight = [] ∧ s.subscriptions = [(1, 1)] ∧ s.transport.entities.released = [1, 0] := by
  constructor
  · rintro ⟨-, h⟩
    obtain ⟨-, h⟩ := h _ rfl
    obtain ⟨-, h⟩ := h _ rfl
    obtain ⟨-, h⟩ := h _ rfl
    obtain ⟨-, h⟩ := h _ rfl
    obtain ⟨-, h⟩ := h _ rfl
    obtain ⟨hcorrect, -⟩ := h _ rfl
    have hhandles := (hcorrect.settled _ rfl rfl).handles
    cases hhandles
  · exact ⟨_, .cons rfl (.cons rfl (.cons rfl (.cons rfl (.cons rfl (.cons rfl (.cons rfl
      (.nil _))))))), rfl, rfl, rfl⟩

end Registrars

end UpClientZenoh
