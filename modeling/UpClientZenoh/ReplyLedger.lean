import UpClientZenoh.Execution
import UpClientZenoh.ReplyResult

/-!
# The resources of a request

A channel goes from `invokeMethod` through the thread pool to `handleReply`, which closes it,
and each reply that `handleReply` takes from it is to be dropped.

`Calls` is a client with the tasks that the pool has not run yet. Calls and tasks come in any
order. `accounted_iff` : along every such sequence each channel that no task is left for was
dropped and deleted once, and each map and each reply was dropped once, if and only if zenoh
accepts every get and every task meets valid replies only (`Undisturbed`). A get that fails
leaves its channel to nobody, and a `break` leaves the loop with the reply it took.
-/

open MemoryAccess Execution

namespace UpClientZenoh

namespace ZenohRpcClient

variable {UUID UUri : Type} {P : Platform} (X : Externals UUID UUri)

/-! ## Calls and tasks -/

/-- A client, the channels of the tasks that the thread pool has not run, and the replies that
tasks took, released when dropped. -/
structure Calls where
  client : ZenohRpcClient
  tasks : List Handle
  replies : Ledger Unit

/-- A call, or a task that the thread pool runs on the replies of its channel. -/
inductive CallEvent (P : Platform) (UUID UUri : Type)
  | invokeMethod (uri : UUri) (payload : UPayload) (attributes : UAttributes UUID UUri)
      (accepted : Bool)
  | handleReply (channel : Handle) (stream : List (Reply P))

namespace Calls

/-- A new client without tasks. -/
def init : Calls where
  client := .init
  tasks := []
  replies := .empty

/-- A call. The pool keeps the task it submits. -/
def call (uri : UUri) (payload : UPayload) (attributes : UAttributes UUID UUri) (accepted : Bool)
    (s : Calls) : Exit Unit × Calls :=
  match invokeMethod P X uri payload attributes accepted s.client with
  | (.returned (some channel), client) =>
    (.returned (), { s with client := client, tasks := channel :: s.tasks })
  | (exit, client) => (exit.map fun _ => (), { s with client := client })

/-- A task. The pool runs it once. -/
def runTask (channel : Handle) (stream : List (Reply P)) (s : Calls) : Exit Unit × Calls :=
  let r := handleReply P X channel stream s.client s.replies
  (r.1.map fun _ => (), ⟨r.2.1, s.tasks.erase channel, r.2.2⟩)

/-- How a call or a task ends, and what it leaves. -/
def exec (s : Calls) : CallEvent P UUID UUri → Exit Unit × Calls
  | .invokeMethod uri payload attributes accepted =>
    call (P := P) X uri payload attributes accepted s
  | .handleReply channel stream => runTask X channel stream s

/-- Only a task that is left can run. -/
def Enabled (s : Calls) : CallEvent P UUID UUri → Prop
  | .invokeMethod _ _ _ _ => True
  | .handleReply channel _ => channel ∈ s.tasks

instance (s : Calls) (e : CallEvent P UUID UUri) : Decidable (s.Enabled e) := by
  unfold Enabled
  cases e <;> infer_instance

/-- The state after a call or a task that returns. -/
def step (s : Calls) (e : CallEvent P UUID UUri) : Option Calls :=
  if s.Enabled e then
    match exec X s e with
    | (.returned _, s) => some s
    | _ => none
  else none

variable {X} in
theorem step_eq_some {s s' : Calls} {e : CallEvent P UUID UUri} (h : step X s e = some s') :
    s.Enabled e ∧ s' = (exec X s e).2 := by
  unfold step at h
  split_ifs at h with henabled
  rcases hexec : exec X s e with ⟨_ | _ | _ | _ | _, t⟩ <;> rw [hexec] at h <;> cases h
  exact ⟨henabled, rfl⟩

/-! ## The balance -/

/-- The channels of the tasks that are left are open, and every other one was dropped and
deleted once. Every map and every reply was dropped once. -/
structure Accounted (s : Calls) : Prop where
  channels : s.client.channels.Settled s.tasks
  fifos : s.client.fifos.Settled s.tasks
  maps : s.client.maps.Settled []
  replies : s.replies.Settled []

/-- Each task has a channel of its own. -/
structure OwnChannels (s : Calls) : Prop where
  queue : s.client.fifos.next = s.client.channels.next
  distinct : s.tasks.Nodup
  allocated : ∀ channel ∈ s.tasks, channel < s.client.channels.next

theorem accounted_init : Accounted init :=
  ⟨Ledger.settled_empty _, Ledger.settled_empty _, Ledger.settled_empty _, Ledger.settled_empty _⟩

theorem ownChannels_init : OwnChannels init :=
  ⟨rfl, List.nodup_nil, by simp [init]⟩

/-- A call changes nothing, or leaves its channel to nobody, or to a task. -/
theorem call_cases (uri : UUri) (payload : UPayload) (attributes : UAttributes UUID UUri)
    (accepted : Bool) (s : Calls) :
    let s' := (call (P := P) X uri payload attributes accepted s).2
    ((∀ header, ¬ReachesGet P X uri attributes header) ∧ s' = s) ∨
      ∃ header, ReachesGet P X uri attributes header ∧
        s'.client.channels = s.client.channels.alloc () ∧
        s'.client.fifos = s.client.fifos.alloc () ∧
        s'.client.maps = (s.client.maps.alloc ()).release s.client.maps.next ∧
        s'.replies = s.replies ∧
        ((accepted = false ∧ s'.tasks = s.tasks) ∨
          (accepted = true ∧ s'.tasks = s.client.channels.next :: s.tasks)) := by
  intro s'
  have hs' : s' = (call (P := P) X uri payload attributes accepted s).2 := rfl
  unfold call at hs'
  rcases invokeMethod_cases (P := P) (X := X) uri payload attributes accepted s.client with
    ⟨hnot, hclient, hfuture⟩ | ⟨header, hreaches, ⟨haccepted, hr⟩ | ⟨haccepted, hr⟩⟩
  · refine Or.inl ⟨hnot, ?_⟩
    rcases hr : invokeMethod P X uri payload attributes accepted s.client with
      ⟨(_ | channel) | _ | _ | _ | _, client⟩ <;> rw [hr] at hs' hclient hfuture <;>
      obtain rfl : client = s.client := hclient
    · exact hs'
    · exact absurd rfl (hfuture channel)
    all_goals exact hs'
  · rw [hr] at hs'
    rw [hs']
    exact Or.inr ⟨header, hreaches, rfl, rfl, rfl, rfl, Or.inl ⟨haccepted, rfl⟩⟩
  · rw [hr] at hs'
    rw [hs']
    exact Or.inr ⟨header, hreaches, rfl, rfl, rfl, rfl, Or.inr ⟨haccepted, rfl⟩⟩

/-- The replies that the loop takes are dropped if and only if all of them are valid. -/
theorem settled_replyLoop_iff (stream : List (Reply P)) (retPayload : UPayload)
    {replies : Ledger Unit} (h : replies.Settled []) :
    (replyLoop P X stream retPayload replies).2.Settled [] ↔
      ∀ reply ∈ stream, validReply X reply = true := by
  induction stream generalizing retPayload replies with
  | nil => exact iff_of_true h (by simp)
  | cons reply stream ih =>
    have hleaked : ¬(replies.alloc ()).Settled [] := Ledger.not_settled_alloc (by simp) ()
    rcases replyLoop_cons X reply stream retPayload replies with
      ⟨hvalid, hr⟩ | ⟨hinvalid, -, hr⟩ | ⟨hinvalid, -, -, hr⟩
    · rw [hr, ih _ (h.alloc_release (by simp) ())]
      simp [hvalid]
    · rw [hr]
      exact iff_of_false hleaked (by simp [hinvalid])
    · rw [hr]
      exact iff_of_false hleaked (by simp [hinvalid])

/-- On valid replies only, the task closes its channel. -/
theorem handleReply_snd {stream : List (Reply P)} (h : ∀ reply ∈ stream, validReply X reply = true)
    (channel : Handle) (c : ZenohRpcClient) (replies : Ledger Unit) :
    (handleReply P X channel stream c replies).2 =
      (c.closeChannel channel, (replyLoop P X stream ⟨none⟩ replies).2) := by
  have hreturned : StopsByReturn X stream := by
    intro reply hreply
    have hinvalid := List.find?_some hreply
    rw [h reply (List.mem_of_find?_eq_some hreply)] at hinvalid
    cases hinvalid
  have hexit := (replyLoop_returned_iff X stream ⟨none⟩ replies).2 hreturned
  unfold handleReply
  rcases hloop : replyLoop P X stream ⟨none⟩ replies with ⟨exit, replies'⟩
  rw [hloop] at hexit
  rw [show exit = _ from hexit]

/-- The replies a task took are those of its loop. -/
theorem handleReply_replies (stream : List (Reply P)) (channel : Handle) (c : ZenohRpcClient)
    (replies : Ledger Unit) :
    (handleReply P X channel stream c replies).2.2 =
      (replyLoop P X stream ⟨none⟩ replies).2 := by
  unfold handleReply
  rcases replyLoop P X stream ⟨none⟩ replies with ⟨_ | _ | _ | _ | _, replies'⟩ <;> rfl

/-! ## One event -/

theorem OwnChannels.call {s : Calls} (hs : OwnChannels s) (uri : UUri) (payload : UPayload)
    (attributes : UAttributes UUID UUri) (accepted : Bool) :
    OwnChannels (call (P := P) X uri payload attributes accepted s).2 := by
  rcases call_cases (P := P) X uri payload attributes accepted s with
    ⟨-, hr⟩ | ⟨header, -, hchannels, hfifos, -, -, hsubmitted⟩
  · rwa [hr]
  have hqueue : (Calls.call (P := P) X uri payload attributes accepted s).2.client.fifos.next =
      (Calls.call (P := P) X uri payload attributes accepted s).2.client.channels.next := by
    rw [hchannels, hfifos, Ledger.next_alloc, Ledger.next_alloc, hs.queue]
  rcases hsubmitted with ⟨-, htasks⟩ | ⟨-, htasks⟩
  · refine ⟨hqueue, by rw [htasks]; exact hs.distinct, fun channel hchannel => ?_⟩
    rw [htasks] at hchannel
    rw [hchannels, Ledger.next_alloc]
    exact Nat.lt_succ_of_lt (hs.allocated channel hchannel)
  · refine ⟨hqueue, ?_, fun channel hchannel => ?_⟩
    · rw [htasks]
      exact List.nodup_cons.2
        ⟨fun hmem => absurd (hs.allocated _ hmem) (Nat.lt_irrefl _), hs.distinct⟩
    · rw [htasks, List.mem_cons] at hchannel
      rw [hchannels, Ledger.next_alloc]
      rcases hchannel with rfl | hchannel
      · exact Nat.lt_succ_self _
      · exact Nat.lt_succ_of_lt (hs.allocated channel hchannel)

theorem OwnChannels.runTask {s : Calls} (hs : OwnChannels s) (channel : Handle)
    (stream : List (Reply P)) : OwnChannels (runTask X channel stream s).2 := by
  have hnext : (handleReply P X channel stream s.client s.replies).2.1.fifos.next =
        s.client.fifos.next ∧
      (handleReply P X channel stream s.client s.replies).2.1.channels.next =
        s.client.channels.next := by
    unfold handleReply
    rcases replyLoop P X stream ⟨none⟩ s.replies with ⟨_ | _ | _ | _ | _, replies'⟩ <;>
      simp [closeChannel]
  refine ⟨hnext.1.trans (hs.queue.trans hnext.2.symm), hs.distinct.erase channel, fun k hk => ?_⟩
  exact (hs.allocated k (List.mem_of_mem_erase hk)).trans_eq hnext.2.symm

/-- A call keeps the balance if and only if zenoh accepts its get, where it comes to it. -/
theorem accounted_call_iff {s : Calls} (hs : Accounted s) (hown : OwnChannels s) (uri : UUri)
    (payload : UPayload) (attributes : UAttributes UUID UUri) (accepted : Bool) :
    Accounted (call (P := P) X uri payload attributes accepted s).2 ↔
      ((∃ header, ReachesGet P X uri attributes header) → accepted = true) := by
  have hnew : s.client.channels.next ∉ s.tasks :=
    fun hmem => absurd (hown.allocated _ hmem) (Nat.lt_irrefl _)
  rcases call_cases (P := P) X uri payload attributes accepted s with
    ⟨hnot, hr⟩ | ⟨header, hreaches, hchannels, hfifos, hmaps, hreplies, hsubmitted⟩
  · rw [hr]
    exact iff_of_true hs fun ⟨header, hreaches⟩ => absurd hreaches (hnot header)
  · rcases hsubmitted with ⟨rfl, htasks⟩ | ⟨rfl, htasks⟩
    · refine iff_of_false (fun h => ?_) fun h => absurd (h ⟨header, hreaches⟩) (by simp)
      have hsettled := h.channels
      rw [hchannels, htasks] at hsettled
      exact Ledger.not_settled_alloc hnew () hsettled
    · refine iff_of_true ⟨?_, ?_, ?_, ?_⟩ fun _ => rfl
      · rw [hchannels, htasks]
        exact hs.channels.alloc ()
      · rw [hfifos, htasks, ← hown.queue]
        exact hs.fifos.alloc ()
      · rw [hmaps]
        exact hs.maps.alloc_release (by simp) ()
      · rw [hreplies]
        exact hs.replies

/-- A task keeps the balance if and only if its replies are valid. -/
theorem accounted_runTask_iff {s : Calls} (hs : Accounted s) (hown : OwnChannels s)
    {channel : Handle} (hchannel : channel ∈ s.tasks) (stream : List (Reply P)) :
    Accounted (runTask X channel stream s).2 ↔
      ∀ reply ∈ stream, validReply X reply = true := by
  have hreplies : (runTask X channel stream s).2.replies =
      (replyLoop P X stream ⟨none⟩ s.replies).2 := handleReply_replies X stream channel _ _
  have hlt := hown.allocated channel hchannel
  constructor
  · intro h
    have hsettled := h.replies
    rw [hreplies] at hsettled
    exact (settled_replyLoop_iff X stream _ hs.replies).1 hsettled
  · intro hvalid
    have hclient : (runTask X channel stream s).2.client = s.client.closeChannel channel :=
      congrArg Prod.fst (handleReply_snd X hvalid channel s.client s.replies)
    refine ⟨?_, ?_, ?_, ?_⟩
    · rw [hclient]
      exact hs.channels.release hown.distinct hchannel hlt
    · rw [hclient]
      exact hs.fifos.release hown.distinct hchannel (hown.queue ▸ hlt)
    · rw [hclient]
      exact hs.maps
    · rw [hreplies]
      exact (settled_replyLoop_iff X stream _ hs.replies).2 hvalid

/-! ## Runs -/

/-- A call or task that can run keeps the balance, also where it does not return. -/
def StaysAccounted (s : Calls) (e : CallEvent P UUID UUri) : Prop :=
  s.Enabled e → Accounted (exec X s e).2

/-- A call whose get zenoh accepts, if it comes to it, or a task that meets valid replies. -/
def Undisturbed (s : Calls) : CallEvent P UUID UUri → Prop
  | .invokeMethod uri _ attributes accepted =>
    (∃ header, ReachesGet P X uri attributes header) → accepted = true
  | .handleReply channel stream =>
    channel ∈ s.tasks → ∀ reply ∈ stream, validReply X reply = true

theorem staysAccounted_iff_undisturbed {s : Calls} (hs : Accounted s) (hown : OwnChannels s)
    (e : CallEvent P UUID UUri) : StaysAccounted X s e ↔ Undisturbed X s e := by
  cases e with
  | invokeMethod uri payload attributes accepted =>
    exact (forall_prop_of_true trivial).trans
      (accounted_call_iff X hs hown uri payload attributes accepted)
  | handleReply channel stream =>
    exact forall_congr' fun hchannel => accounted_runTask_iff X hs hown hchannel stream

/-- Along every sequence of calls and tasks each of them keeps the balance if and only if
none is disturbed. -/
theorem accounted_iff (events : List (CallEvent P UUID UUri)) :
    Along (step X) (StaysAccounted X) init events ↔ Along (step X) (Undisturbed X) init events := by
  have hpreserves : Preserves (step X) (StaysAccounted X (P := P))
      fun s => Accounted s ∧ OwnChannels s := by
    intro s e s' hs hstays hstep
    obtain ⟨henabled, rfl⟩ := step_eq_some hstep
    refine ⟨hstays henabled, ?_⟩
    cases e with
    | invokeMethod uri payload attributes accepted =>
      exact hs.2.call X uri payload attributes accepted
    | handleReply channel stream => exact hs.2.runTask X channel stream
  exact along_congr hpreserves (fun s e hs => staysAccounted_iff_undisturbed X hs.1 hs.2 e)
    ⟨accounted_init, ownChannels_init⟩ events

/-- A reply that reports an error. -/
def errorReply : Reply ⟨.eight, .little⟩ where
  ok := false
  sample := ⟨none, ⟨none⟩, MessageParser.zeroStray⟩

/-- A call on `/rpc.` whose get zenoh refuses. -/
def refusedGet : CallEvent ⟨.eight, .little⟩ (UInt64 × UInt64) Bytes :=
  .invokeMethod [47, 114, 112, 99, 46] ⟨none⟩ (.builder (0, 0) 2 0) false

/-- A call on `/rpc.` that is answered by an error. -/
def failedCall : List (CallEvent ⟨.eight, .little⟩ (UInt64 × UInt64) Bytes) :=
  [.invokeMethod [47, 114, 112, 99, 46] ⟨none⟩ (.builder (0, 0) 2 0) true,
    .handleReply 0 [errorReply]]

/-- The refused get leaves its channel, and the error its reply. -/
theorem not_staysAccounted_refusedGet :
    ¬Along (step .sample) (StaysAccounted .sample) init [refusedGet] ∧
      ¬Along (step .sample) (StaysAccounted .sample) init failedCall := by
  constructor
  · rintro ⟨hstays, -⟩
    exact absurd ((hstays trivial).channels 0 (by decide)) (by decide)
  · rintro ⟨-, hrest⟩
    obtain ⟨hstays, -⟩ := hrest _ rfl
    exact absurd ((hstays (List.mem_singleton_self 0)).replies 0 (by decide)) (by decide)

end Calls

end ZenohRpcClient

end UpClientZenoh
