import UpClientZenoh.Provenance
import UpClientZenoh.RequestReply

/-!
# The network as an RPC service

A network of peers is a service of requests and replies. A call is a channel of a process, its
id the string of the request's, and its ticket the clone of a query. An accepted get makes a
call, a clone that is stored delivers it, a reply answers the ticket that is pending under an
id, and a task that returns finishes a call.

`simulates_service` : what an event of the network stands for is a run of the service, from
each state that stands for the network to one that does. `refines_of_run` : so along every run
no call has two results and no query two replies, and a result is the payload of a reply to
its own call, whatever zenoh loses, delays or delivers twice.
-/

open NativeBytes MemoryAccess Execution MessagePassing RequestReply

namespace UpClientZenoh

namespace network

open MessageBuilder MessageParser ZenohRpcClient ZenohUTransport

/-- The service : a call is a channel of a process, a ticket a clone of a query. -/
abbrev RpcService (Agent : Type) :=
  Service (Agent × Handle) Bytes Agent (Agent × Handle) UPayload

abbrev RpcEvent (Agent : Type) :=
  Event (Agent × Handle) Bytes Agent (Agent × Handle) UPayload

variable {UUID UUri Agent Listener : Type} {P : Platform} {X : Externals UUID UUri}
  [DecidableEq Agent] [DecidableEq Listener]

/-! ## What events stand for -/

/-- The result of a call whose future has the payload. -/
def resultOf (payload : UPayload) : Option UPayload :=
  if payload = ⟨none⟩ then none else some payload

/-- What an observation of a process stands for. -/
def serviceEvent (agent : Agent) (callers : Handle → Option (Agent × Handle)) :
    Observation UUID UUri Listener → Option (RpcEvent Agent)
  | .stored uuidStr query =>
    (callers query).map fun caller => .deliver agent uuidStr (agent, query) caller
  | .replied uuidStr query payload _ _ => some (.answer agent uuidStr (agent, query) payload)
  | _ => none

/-- What the new observations of a process stand for. -/
def newEvents (agent : Agent) (peer peer' : Peer Agent UUID UUri Listener) :
    List (RpcEvent Agent) :=
  let history := peer'.transport.history
  (history.take (history.length - peer.transport.history.length)).filterMap
    (serviceEvent agent peer'.callers)

/-- What an event of the network stands for : the calls it makes, what the new observations
are, and the results it adds. -/
def serviceEvents (s : System Agent (Peer Agent UUID UUri Listener) (NetworkMessage Agent))
    (e : Agent × PeerEvent P X Agent Listener) : List (RpcEvent Agent) :=
  let peer := s.state e.1
  match peer.step e.1 e.2 with
  | none => []
  | some (peer', msgs) =>
    match e.2 with
    | .invokeMethod _ _ a _ =>
      msgs.map fun _ =>
        .make (e.1, peer.rpc.client.channels.next) (X.serializeToString a.id)
    | .handleReply channel _ =>
      (peer'.results.take 1).map fun r => .finish (e.1, channel) (resultOf r.2)
    | _ => newEvents e.1 peer peer'

omit [DecidableEq Agent] [DecidableEq Listener] in
theorem newEvents_eq {agent : Agent} {peer peer' : Peer Agent UUID UUri Listener}
    {new : List (Observation UUID UUri Listener)}
    (h : peer'.transport.history = new ++ peer.transport.history) :
    newEvents agent peer peer' = new.filterMap (serviceEvent agent peer'.callers) := by
  rw [newEvents, h, List.length_append, Nat.add_sub_cancel, List.take_left]

omit [DecidableEq Agent] [DecidableEq Listener] in
theorem newEvents_nil {agent : Agent} {peer peer' : Peer Agent UUID UUri Listener}
    (h : peer'.transport.history = peer.transport.history) : newEvents agent peer peer' = [] := by
  rw [newEvents, h, Nat.sub_self, List.take_zero, List.filterMap_nil]

/-! ## What states stand for -/

/-- What the service has of a process : its calls are of channels that were allocated, the
tickets are its stored clones, of which those in `queryMap_` are pending, the answers its
replies, and the results those of its tasks. -/
structure RepresentsPeer (agent : Agent) (peer : Peer Agent UUID UUri Listener)
    (srv : RpcService Agent) : Prop where
  made : ∀ channel id, ((agent, channel), id) ∈ srv.made → channel < peer.rpc.client.channels.next
  tasks : ∀ channel ∈ peer.rpc.tasks, (∃ id, ((agent, channel), id) ∈ srv.made) ∧
    ∀ payload, (channel, payload) ∉ peer.results
  distinct : peer.rpc.tasks.Nodup
  allocated : ∀ channel payload, (channel, payload) ∈ peer.results →
    channel < peer.rpc.client.channels.next
  stored : ∀ id query, .stored id query ∈ peer.transport.history →
    query < peer.transport.queries.next
  delivered : ∀ query caller, ((agent, query), caller) ∈ srv.delivered ↔
    (∃ id, .stored id query ∈ peer.transport.history) ∧ peer.callers query = some caller
  pending : ∀ id, srv.pending agent id =
    (peer.transport.queryMap.lookup id).map fun query => (agent, query)
  answered : ∀ query payload, ((agent, query), payload) ∈ srv.answered ↔
    ∃ id header enc, .replied id query payload header enc ∈ peer.transport.history
  finished : ∀ channel result, ((agent, channel), result) ∈ srv.finished ↔
    ∃ payload, (channel, payload) ∈ peer.results ∧ resultOf payload = result

/-- A get that was sent is a call, with the id of its header. A reply that was sent answers a
ticket of its caller. -/
structure RepresentsMessages (P : Platform) (X : Externals UUID UUri)
    (sent : List (NetworkMessage Agent)) (srv : RpcService Agent) : Prop where
  get : ∀ caller request, .get caller request ∈ sent → ∃ a : CountedAttributes P X,
    (buildHeader P X a.toUAttributes).val = .returned request.header ∧
    (caller, X.serializeToString a.id) ∈ srv.made
  made : ∀ caller id, (caller, id) ∈ srv.made → ∃ request, .get caller request ∈ sent
  reply : ∀ caller payload header enc, .reply caller payload header enc ∈ sent →
    ∃ ticket, (ticket, caller) ∈ srv.delivered ∧ (ticket, payload) ∈ srv.answered

/-- The service stands for the network. -/
structure Represents (P : Platform) (X : Externals UUID UUri)
    (s : System Agent (Peer Agent UUID UUri Listener) (NetworkMessage Agent))
    (srv : RpcService Agent) : Prop where
  peers : ∀ agent, RepresentsPeer agent (s.state agent) srv
  messages : RepresentsMessages P X s.sent srv

omit [DecidableEq Agent] [DecidableEq Listener] in
theorem represents_init :
    Represents P X (network.init : System Agent (Peer Agent UUID UUri Listener) _) .init := by
  refine ⟨fun agent => ?_, ⟨?_, ?_, ?_⟩⟩
  · constructor <;>
      simp [network.init, Peer.init, ZenohUTransport.init, Service.init, Calls.init]
  all_goals simp [network.init, Service.init]

/-! ## Frames -/

/-- An event of the service is one of the process. -/
def ActsAt (agent : Agent) : RpcEvent Agent → Prop
  | .make call _ => call.1 = agent
  | .deliver server _ ticket _ => server = agent ∧ ticket.1 = agent
  | .answer server _ ticket _ => server = agent ∧ ticket.1 = agent
  | .finish call _ => call.1 = agent

omit [DecidableEq Listener] in
/-- Events of other processes change nothing. -/
theorem RepresentsPeer.of_other {agent agent' : Agent} {peer : Peer Agent UUID UUri Listener}
    {srv : RpcService Agent} (h : RepresentsPeer agent peer srv) {e : RpcEvent Agent}
    (he : ActsAt agent' e) (hne : agent ≠ agent') : RepresentsPeer agent peer (srv.after e) := by
  have hcons {α : Type} {p : Agent × Handle} (hp : p.1 = agent') (handle : Handle) (x y : α)
      (l : List ((Agent × Handle) × α)) :
      ((agent, handle), x) ∈ (p, y) :: l ↔ ((agent, handle), x) ∈ l := by
    refine List.mem_cons.trans (or_iff_right fun heq => hne ?_)
    rw [← hp, ← (Prod.mk.inj heq).1]
  have hkeep (ticket : Option (Agent × Handle)) (id id' : Bytes) :
      srv.keep agent' id ticket agent id' = srv.pending agent id' := by
    rw [Service.keep_apply, if_neg fun heq => hne heq.1]
  cases e with
  | make call id =>
    refine ⟨fun channel id' hmem => ?_, fun channel hchannel => ?_, h.distinct, h.allocated,
      h.stored, h.delivered, h.pending, h.answered, h.finished⟩
    · exact h.made channel id' ((hcons he channel id' id srv.made).1 hmem)
    · obtain ⟨⟨id', hmem⟩, hnew⟩ := h.tasks channel hchannel
      exact ⟨⟨id', List.mem_cons_of_mem _ hmem⟩, hnew⟩
  | deliver server id ticket call =>
    obtain ⟨rfl, hticket⟩ := he
    refine ⟨h.made, h.tasks, h.distinct, h.allocated, h.stored, fun query caller => ?_,
      fun id' => ?_, h.answered, h.finished⟩
    · exact (hcons hticket query caller call srv.delivered).trans (h.delivered query caller)
    · exact (hkeep _ id id').trans (h.pending id')
  | answer server id ticket answer =>
    obtain ⟨rfl, hticket⟩ := he
    refine ⟨h.made, h.tasks, h.distinct, h.allocated, h.stored, h.delivered, fun id' => ?_,
      fun query payload => ?_, h.finished⟩
    · exact (hkeep _ id id').trans (h.pending id')
    · exact (hcons hticket query payload answer srv.answered).trans (h.answered query payload)
  | finish call result =>
    refine ⟨h.made, h.tasks, h.distinct, h.allocated, h.stored, h.delivered, h.pending, h.answered,
      fun channel result' => ?_⟩
    exact (hcons he channel result' result srv.finished).trans (h.finished channel result')

/-- The queries are those of `t`, as far as the service has them. -/
structure SameTickets (t t' : ZenohUTransport UUID UUri Listener) : Prop where
  queryMap : t'.queryMap = t.queryMap
  next : t.queries.next ≤ t'.queries.next
  stored : ∀ id query, .stored id query ∈ t'.history ↔ .stored id query ∈ t.history
  replied : ∀ id query payload header enc, .replied id query payload header enc ∈ t'.history ↔
    .replied id query payload header enc ∈ t.history

omit [DecidableEq Agent] [DecidableEq Listener] in
theorem RepresentsPeer.of_sameTickets {agent : Agent} {peer : Peer Agent UUID UUri Listener}
    {srv : RpcService Agent} (h : RepresentsPeer agent peer srv)
    {t : ZenohUTransport UUID UUri Listener} (ht : SameTickets peer.transport t)
    {callers : Handle → Option (Agent × Handle)}
    (hcallers : ∀ query < peer.transport.queries.next, callers query = peer.callers query) :
    RepresentsPeer agent { peer with transport := t, callers := callers } srv := by
  refine ⟨h.made, h.tasks, h.distinct, h.allocated, fun id query hmem => ?_,
    fun query caller => ?_, fun id => ?_, fun query payload => ?_, h.finished⟩
  · exact (h.stored id query ((ht.stored id query).1 hmem)).trans_le ht.next
  · rw [h.delivered]
    simp only [ht.stored]
    refine and_congr_right fun ⟨id, hmem⟩ => ?_
    rw [hcallers query (h.stored id query hmem)]
  · rw [h.pending, ht.queryMap]
  · rw [h.answered]
    simp only [ht.replied]

/-! ## Events of a process -/

section Process

variable {agent : Agent} {peer : Peer Agent UUID UUri Listener} {srv : RpcService Agent}
  (h : RepresentsPeer agent peer srv)

include h

omit [DecidableEq Listener] in
/-- An accepted get makes a call of the new channel. -/
theorem RepresentsPeer.make {rpc : Calls}
    (hchannels : rpc.client.channels = peer.rpc.client.channels.alloc ())
    (htasks : rpc.tasks = peer.rpc.client.channels.next :: peer.rpc.tasks) (id : Bytes) :
    RepresentsPeer agent { peer with rpc := rpc }
      (srv.after (.make (agent, peer.rpc.client.channels.next) id)) := by
  have hnext : rpc.client.channels.next = peer.rpc.client.channels.next + 1 := by
    rw [hchannels, Ledger.next_alloc]
  have hlt {channel : Handle} (hmem : channel ∈ peer.rpc.tasks) :
      channel < peer.rpc.client.channels.next := by
    obtain ⟨⟨id', hmade⟩, -⟩ := h.tasks channel hmem
    exact h.made channel id' hmade
  refine ⟨fun channel id' hmem => ?_, fun channel hmem => ?_, ?_, fun channel payload hmem => ?_,
    h.stored, h.delivered, h.pending, h.answered, h.finished⟩
  · rcases List.mem_cons.1 hmem with heq | hmem
    · cases heq
      exact hnext ▸ Nat.lt_succ_self _
    · exact hnext ▸ Nat.lt_succ_of_lt (h.made channel id' hmem)
  · rw [htasks, List.mem_cons] at hmem
    rcases hmem with rfl | hmem
    · exact ⟨⟨id, List.mem_cons_self⟩, fun payload hresult =>
        absurd (h.allocated _ payload hresult) (Nat.lt_irrefl _)⟩
    · obtain ⟨⟨id', hmade⟩, hnew⟩ := h.tasks channel hmem
      exact ⟨⟨id', List.mem_cons_of_mem _ hmade⟩, hnew⟩
  · rw [htasks]
    exact List.nodup_cons.2 ⟨fun hmem => absurd (hlt hmem) (Nat.lt_irrefl _), h.distinct⟩
  · exact hnext ▸ Nat.lt_succ_of_lt (h.allocated channel payload hmem)

omit [DecidableEq Agent] [DecidableEq Listener] in
/-- A get that is not accepted takes a channel. -/
theorem RepresentsPeer.refused {rpc : Calls}
    (hchannels : rpc.client.channels = peer.rpc.client.channels.alloc ())
    (htasks : rpc.tasks = peer.rpc.tasks) : RepresentsPeer agent { peer with rpc := rpc } srv := by
  have hnext : rpc.client.channels.next = peer.rpc.client.channels.next + 1 := by
    rw [hchannels, Ledger.next_alloc]
  refine ⟨fun channel id hmem => ?_, ?_, ?_, fun channel payload hmem => ?_, h.stored,
    h.delivered, h.pending, h.answered, h.finished⟩
  · exact hnext ▸ Nat.lt_succ_of_lt (h.made channel id hmem)
  · rw [htasks]
    exact h.tasks
  · rw [htasks]
    exact h.distinct
  · exact hnext ▸ Nat.lt_succ_of_lt (h.allocated channel payload hmem)

omit [DecidableEq Listener] in
/-- A clone that is stored is a ticket of its caller. -/
theorem RepresentsPeer.deliver {caller : Agent × Handle}
    (hcaller : peer.callers peer.transport.queries.next = some caller) (id : Bytes) :
    RepresentsPeer agent { peer with transport := afterStore id peer.transport }
      (srv.after (.deliver agent id (agent, peer.transport.queries.next) caller)) := by
  have hnext : peer.transport.queries.next < (afterStore id peer.transport).queries.next :=
    next_lt_next_cloneQuery
  refine ⟨h.made, h.tasks, h.distinct, h.allocated, fun id' query hmem => ?_,
    fun query caller' => ?_, fun id' => ?_, fun query payload => ?_, h.finished⟩
  · rcases List.mem_cons.1 hmem with heq | hmem
    · cases heq
      exact hnext
    · exact (h.stored id' query hmem).trans hnext
  · have hstored : (∃ id', .stored id' query ∈ (afterStore id peer.transport).history) ↔
        query = peer.transport.queries.next ∨
          ∃ id', .stored id' query ∈ peer.transport.history := by
      simp [afterStore, storeQuery, cloneQuery, exists_or]
    rw [hstored, or_and_right, ← h.delivered]
    refine List.mem_cons.trans (or_congr_left ?_)
    constructor
    · intro heq
      cases heq
      exact ⟨rfl, hcaller⟩
    · rintro ⟨rfl, hcaller'⟩
      rw [Option.some.inj (hcaller.symm.trans hcaller')]
  · change srv.keep agent id _ agent id' = _
    rw [Service.keep_apply, h.pending]
    by_cases heq : id' = id
    · have hlookup : (afterStore id peer.transport).queryMap.lookup id =
        some peer.transport.queries.next := AList.lookup_insert _
      rw [if_pos ⟨rfl, heq⟩, heq, hlookup]
      rfl
    · have hlookup : (afterStore id peer.transport).queryMap.lookup id' =
        peer.transport.queryMap.lookup id' := AList.lookup_insert_ne heq
      rw [if_neg fun hboth => heq hboth.2, hlookup]
  · change ((agent, query), payload) ∈ srv.answered ↔ _
    rw [h.answered]
    simp [afterStore, storeQuery, cloneQuery]

omit [DecidableEq Listener] in
/-- A reply answers the ticket that is pending under the id. -/
theorem RepresentsPeer.answer (id : Bytes) (query : Handle) (payload : UPayload) (header : Bytes)
    (enc : Encoding) :
    RepresentsPeer agent
      { peer with transport := afterReply id query payload header enc peer.transport }
      (srv.after (.answer agent id (agent, query) payload)) := by
  have hnext : (afterReply id query payload header enc peer.transport).queries.next =
      peer.transport.queries.next := Ledger.next_release _ _
  refine ⟨h.made, h.tasks, h.distinct, h.allocated, fun id' query' hmem => ?_,
    fun query' caller' => ?_, fun id' => ?_, fun query' payload' => ?_, h.finished⟩
  · exact hnext ▸ h.stored id' query' ((List.mem_cons.1 hmem).resolve_left (by simp))
  · change ((agent, query'), caller') ∈ srv.delivered ↔ _
    rw [h.delivered]
    simp [afterReply, observe, dropQuery, eraseQuery]
  · change srv.keep agent id none agent id' = _
    rw [Service.keep_apply, h.pending]
    by_cases heq : id' = id
    · have hlookup : (afterReply id query payload header enc peer.transport).queryMap.lookup id =
        none := AList.lookup_erase _ _
      rw [if_pos ⟨rfl, heq⟩, heq, hlookup]
      rfl
    · have hlookup : (afterReply id query payload header enc peer.transport).queryMap.lookup id' =
        peer.transport.queryMap.lookup id' := AList.lookup_erase_ne heq
      rw [if_neg fun hboth => heq hboth.2, hlookup]
  · have hreplied : (∃ id' header' enc', .replied id' query' payload' header' enc' ∈
          (afterReply id query payload header enc peer.transport).history) ↔
        (query' = query ∧ payload' = payload) ∨ ∃ id' header' enc',
          .replied id' query' payload' header' enc' ∈ peer.transport.history := by
      simp [afterReply, observe, dropQuery, eraseQuery, exists_or]
    rw [hreplied, ← h.answered]
    refine List.mem_cons.trans (or_congr_left ?_)
    simp

omit [DecidableEq Listener] in
/-- A task that returns finishes its call. -/
theorem RepresentsPeer.finish {channel : Handle} (hchannel : channel ∈ peer.rpc.tasks)
    {rpc : Calls} (htasks : rpc.tasks = peer.rpc.tasks.erase channel)
    (hnext : rpc.client.channels.next = peer.rpc.client.channels.next) (payload : UPayload) :
    RepresentsPeer agent
      { peer with rpc := rpc, results := (channel, payload) :: peer.results }
      (srv.after (.finish (agent, channel) (resultOf payload))) := by
  refine ⟨fun channel' id hmem => hnext ▸ h.made channel' id hmem, fun channel' hmem => ?_, ?_,
    fun channel' payload' hmem => ?_, h.stored, h.delivered, h.pending, h.answered,
    fun channel' result => ?_⟩
  · rw [htasks, h.distinct.mem_erase_iff] at hmem
    obtain ⟨hmade, hnew⟩ := h.tasks channel' hmem.2
    refine ⟨hmade, fun payload' hmem' => ?_⟩
    rcases List.mem_cons.1 hmem' with heq | hmem'
    · exact hmem.1 (Prod.mk.inj heq).1
    · exact hnew payload' hmem'
  · rw [htasks]
    exact h.distinct.erase channel
  · rcases List.mem_cons.1 hmem with heq | hmem
    · obtain ⟨⟨id, hmade⟩, -⟩ := h.tasks channel hchannel
      rw [(Prod.mk.inj heq).1]
      exact hnext ▸ h.made channel id hmade
    · exact hnext ▸ h.allocated channel' payload' hmem
  · refine List.mem_cons.trans ?_
    rw [h.finished]
    simp only [List.mem_cons, Prod.mk.injEq, or_and_right, exists_or]
    refine or_congr_left ⟨?_, ?_⟩
    · rintro ⟨⟨-, rfl⟩, rfl⟩
      exact ⟨payload, ⟨rfl, rfl⟩, rfl⟩
    · rintro ⟨payload', ⟨rfl, rfl⟩, rfl⟩
      exact ⟨⟨trivial, rfl⟩, rfl⟩

end Process

/-! ## Messages -/

omit [DecidableEq Listener] in
/-- Events that make no call. -/
theorem RepresentsMessages.of_after {sent : List (NetworkMessage Agent)} {srv : RpcService Agent}
    (h : RepresentsMessages P X sent srv) {e : RpcEvent Agent}
    (he : (srv.after e).made = srv.made) : RepresentsMessages P X sent (srv.after e) := by
  refine ⟨?_, ?_, fun caller payload header enc hmem => ?_⟩
  · rw [he]
    exact h.get
  · rw [he]
    exact h.made
  · obtain ⟨ticket, hdelivered, hanswered⟩ := h.reply caller payload header enc hmem
    exact ⟨ticket, Service.mem_delivered_after hdelivered e,
      Service.mem_answered_after hanswered e⟩

omit [DecidableEq Listener] in
/-- A get that is sent is a new call. -/
theorem RepresentsMessages.make {sent : List (NetworkMessage Agent)} {srv : RpcService Agent}
    (h : RepresentsMessages P X sent srv) {caller : Agent × Handle} {request : Get}
    {a : CountedAttributes P X}
    (ha : (buildHeader P X a.toUAttributes).val = .returned request.header) :
    RepresentsMessages P X (.get caller request :: sent)
      (srv.after (.make caller (X.serializeToString a.id))) := by
  refine ⟨fun caller' request' hmem => ?_, fun caller' id hmem => ?_,
    fun caller' payload header enc hmem => ?_⟩
  · rcases List.mem_cons.1 hmem with heq | hmem
    · cases heq
      exact ⟨a, ha, List.mem_cons_self⟩
    · obtain ⟨a', ha', hmade⟩ := h.get caller' request' hmem
      exact ⟨a', ha', List.mem_cons_of_mem _ hmade⟩
  · rcases List.mem_cons.1 hmem with heq | hmem
    · cases heq
      exact ⟨request, List.mem_cons_self⟩
    · obtain ⟨request', hget⟩ := h.made caller' id hmem
      exact ⟨request', List.mem_cons_of_mem _ hget⟩
  · exact h.reply caller' payload header enc ((List.mem_cons.1 hmem).resolve_left (by simp))

omit [DecidableEq Agent] [DecidableEq Listener] in
/-- A reply that is sent answers a ticket of its caller. -/
theorem RepresentsMessages.answer {sent : List (NetworkMessage Agent)} {srv : RpcService Agent}
    (h : RepresentsMessages P X sent srv) {ticket caller : Agent × Handle} {payload : UPayload}
    (hdelivered : (ticket, caller) ∈ srv.delivered) (hanswered : (ticket, payload) ∈ srv.answered)
    (header : Bytes) (enc : Encoding) :
    RepresentsMessages P X (.reply caller payload header enc :: sent) srv := by
  refine ⟨fun caller' request hmem => ?_, fun caller' id hmem => ?_,
    fun caller' payload' header' enc' hmem => ?_⟩
  · exact h.get caller' request ((List.mem_cons.1 hmem).resolve_left (by simp))
  · obtain ⟨request, hget⟩ := h.made caller' id hmem
    exact ⟨request, List.mem_cons_of_mem _ hget⟩
  · rcases List.mem_cons.1 hmem with heq | hmem
    · cases heq
      exact ⟨ticket, hdelivered, hanswered⟩
    · exact h.reply caller' payload' header' enc' hmem

omit [DecidableEq Agent] [DecidableEq Listener] in
theorem RepresentsMessages.put {sent : List (NetworkMessage Agent)} {srv : RpcService Agent}
    (h : RepresentsMessages P X sent srv) (key : ℕ) (payload : UPayload) (header : Bytes)
    (enc : Encoding) : RepresentsMessages P X (.put key payload header enc :: sent) srv := by
  refine ⟨fun caller request hmem => ?_, fun caller id hmem => ?_,
    fun caller payload' header' enc' hmem => ?_⟩
  · exact h.get caller request ((List.mem_cons.1 hmem).resolve_left (by simp))
  · obtain ⟨request, hget⟩ := h.made caller id hmem
    exact ⟨request, List.mem_cons_of_mem _ hget⟩
  · exact h.reply caller payload' header' enc' ((List.mem_cons.1 hmem).resolve_left (by simp))

/-! ## The simulation -/

/-- What an event stands for leads to a service that stands for the process after it, for the
other processes, and for the messages. -/
def Matches (s : System Agent (Peer Agent UUID UUri Listener) (NetworkMessage Agent))
    (srv : RpcService Agent) (e : Agent × PeerEvent P X Agent Listener)
    (peer' : Peer Agent UUID UUri Listener) (msgs : List (NetworkMessage Agent)) : Prop :=
  ∃ srv', Run Service.step srv (serviceEvents s e) srv' ∧ RepresentsPeer e.1 peer' srv' ∧
    (∀ agent ≠ e.1, ∀ peer : Peer Agent UUID UUri Listener,
      RepresentsPeer agent peer srv → RepresentsPeer agent peer srv') ∧
    RepresentsMessages P X (msgs ++ s.sent) srv'

section Events

variable {s : System Agent (Peer Agent UUID UUri Listener) (NetworkMessage Agent)}
  {srv : RpcService Agent} {agent : Agent} {peer' : Peer Agent UUID UUri Listener}
  {msgs : List (NetworkMessage Agent)} (h : Represents P X s srv)

theorem matches_silent {e : PeerEvent P X Agent Listener}
    (he : serviceEvents s (agent, e) = []) (hpeer : RepresentsPeer agent peer' srv)
    (hmsgs : RepresentsMessages P X (msgs ++ s.sent) srv) :
    Matches s srv (agent, e) peer' msgs := by
  refine ⟨srv, ?_, hpeer, fun _ _ _ hother => hother, hmsgs⟩
  rw [he]
  exact .nil srv

theorem matches_event {e : PeerEvent P X Agent Listener} {event : RpcEvent Agent}
    (he : serviceEvents s (agent, e) = [event]) (henabled : srv.Enabled event)
    (hacts : ActsAt agent event) (hpeer : RepresentsPeer agent peer' (srv.after event))
    (hmsgs : RepresentsMessages P X (msgs ++ s.sent) (srv.after event)) :
    Matches s srv (agent, e) peer' msgs := by
  refine ⟨srv.after event, ?_, hpeer, fun _ hne _ hother => hother.of_other hacts hne, hmsgs⟩
  rw [he]
  exact srv.run_singleton henabled

include h

theorem matches_send (howned : Owned X (s.state agent).transport) (hsound : srv.Sound)
    {uri : UUri} {payload : UPayload} {a : CountedAttributes P X} {declared sent : Bool}
    (hstep : (s.state agent).step agent (.send uri payload a declared sent) =
      some (peer', msgs)) :
    Matches s srv (agent, .send uri payload a declared sent) peer' msgs := by
  have hevents (new : List (Observation UUID UUri Listener))
      (hnew : peer'.transport.history = new ++ (s.state agent).transport.history) :
      serviceEvents s (agent, .send uri payload a declared sent) =
        new.filterMap (serviceEvent agent peer'.callers) := by
    simp only [serviceEvents, hstep]
    exact newEvents_eq hnew
  obtain ⟨rfl, ⟨-, hsame, rfl⟩ | ⟨pub, header, enc, -, -, -, hmap, hqueries, hhistory, rfl⟩ |
    ⟨query, header, enc, -, -, -, hlookup, hafter, rfl⟩⟩ := Peer.send_cases howned hstep
  · refine matches_silent (hevents [] hsame.history) ?_ h.messages
    refine (h.peers agent).of_sameTickets ⟨hsame.queryMap, ?_, ?_, ?_⟩ fun _ _ => rfl
    · rw [hsame.queries]
    · simp [hsame.history]
    · simp [hsame.history]
  · refine matches_silent (hevents [_] hhistory) ?_ (h.messages.put _ _ _ _)
    refine (h.peers agent).of_sameTickets ⟨hmap, ?_, ?_, ?_⟩ fun _ _ => rfl
    · rw [hqueries]
    · simp [hhistory]
    · simp [hhistory]
  · rw [hafter] at hevents ⊢
    have hpending : srv.pending agent (X.serializeToString a.id) = some (agent, query) := by
      rw [(h.peers agent).pending, hlookup]
      rfl
    obtain ⟨⟨caller, hdelivered, -⟩, -⟩ := hsound.pending _ _ _ hpending
    obtain ⟨-, hcaller⟩ := ((h.peers agent).delivered query caller).1 hdelivered
    refine matches_event (hevents [_] rfl) hpending ⟨rfl, rfl⟩
      ((h.peers agent).answer _ query payload header enc) ?_
    rw [hcaller]
    exact (h.messages.of_after rfl).answer (Service.mem_delivered_after hdelivered _)
      List.mem_cons_self header enc

theorem matches_listener {e : PeerEvent P X Agent Listener}
    (he : (∃ uri listener declared, e = .registerListener uri listener declared) ∨
      ∃ uri listener, e = .unregisterListener uri listener)
    (hstep : (s.state agent).step agent e = some (peer', msgs)) :
    Matches s srv (agent, e) peer' msgs := by
  obtain ⟨t, hsame, rfl, rfl⟩ := Peer.listener_cases he hstep
  have hevents : serviceEvents s (agent, e) = [] := by
    rcases he with ⟨uri, listener, declared, rfl⟩ | ⟨uri, listener, rfl⟩
    all_goals
      simp only [serviceEvents, hstep]
      exact newEvents_nil hsame.history
  refine matches_silent hevents ?_ h.messages
  refine (h.peers agent).of_sameTickets ⟨hsame.queryMap, ?_, ?_, ?_⟩ fun _ _ => rfl
  · rw [hsame.queries]
  · simp [hsame.history]
  · simp [hsame.history]

omit [DecidableEq Agent] [DecidableEq Listener] h in
/-- A call of `onReceive` is no matter of tickets. -/
theorem sameTickets_received (t : ZenohUTransport UUID UUri Listener) (uri : UUri)
    (listener : Listener) (payload : UPayload) (a : UAttributes UUID UUri)
    (query : Option Handle) (answer : UCode) :
    SameTickets t (t.observe (.received uri listener payload a query answer)) :=
  ⟨rfl, le_rfl, by simp [observe], by simp [observe]⟩

theorem matches_sample {sub arg : Handle} {key : ℕ} {payload : UPayload} {header : Buffer P}
    {enc : Encoding} {stray : Stray} {answer : UCode}
    (hstep : (s.state agent).step (X := X) agent
      (.sample sub arg key payload header enc stray answer) = some (peer', msgs)) :
    Matches s srv (agent, .sample (X := X) sub arg key payload header enc stray answer) peer'
      msgs := by
  have hevents (new : List (Observation UUID UUri Listener))
      (hnew : peer'.transport.history = new ++ (s.state agent).transport.history) :
      serviceEvents s (agent, .sample (X := X) sub arg key payload header enc stray answer) =
        new.filterMap (serviceEvent agent peer'.callers) := by
    simp only [serviceEvents, hstep]
    exact newEvents_eq hnew
  obtain ⟨-, rfl, rfl | ⟨uri, listener, a, -, -, rfl⟩⟩ := Peer.sample_cases hstep
  · exact matches_silent (hevents [] rfl) (h.peers agent) h.messages
  · refine matches_silent (hevents [_] rfl) ?_ h.messages
    exact (h.peers agent).of_sameTickets (sameTickets_received _ _ _ _ _ _ _) fun _ _ => rfl

theorem matches_invokeMethod {uri : UUri} {payload : UPayload} {a : CountedAttributes P X}
    {accepted : Bool}
    (hstep : (s.state agent).step agent (.invokeMethod uri payload a accepted) =
      some (peer', msgs)) :
    Matches s srv (agent, .invokeMethod uri payload a accepted) peer' msgs := by
  have hevents : serviceEvents s (agent, .invokeMethod uri payload a accepted) =
      msgs.map fun _ => .make (agent, (s.state agent).rpc.client.channels.next)
        (X.serializeToString a.id) := by
    simp only [serviceEvents, hstep]
  obtain ⟨rpc, rfl, ⟨-, rfl, rfl⟩ |
    ⟨header, hreaches, hchannels, ⟨-, htasks, rfl⟩ | ⟨-, htasks, rfl⟩⟩⟩ := Peer.invoke_cases hstep
  · exact matches_silent hevents (h.peers agent) h.messages
  · exact matches_silent hevents ((h.peers agent).refused hchannels htasks) h.messages
  · refine matches_event hevents (fun hmem => ?_) rfl ((h.peers agent).make hchannels htasks _)
      (h.messages.make hreaches.2.2.1)
    obtain ⟨⟨call, id⟩, hmade, hcall⟩ := List.mem_map.1 hmem
    obtain rfl : call = (agent, (s.state agent).rpc.client.channels.next) := hcall
    exact absurd ((h.peers agent).made _ id hmade) (Nat.lt_irrefl _)

theorem matches_handleReply {channel : Handle} {items : List (ChannelItem P)}
    (hneeds : ∀ m ∈ (network P X Agent Listener).needs agent (.handleReply channel items),
      m ∈ s.sent)
    (hstep : (s.state agent).step (X := X) agent (.handleReply channel items) =
      some (peer', msgs)) :
    Matches s srv (agent, .handleReply (X := X) channel items) peer' msgs := by
  have hevents : serviceEvents s (agent, .handleReply (X := X) channel items) =
      (peer'.results.take 1).map fun r => .finish (agent, channel) (resultOf r.2) := by
    simp only [serviceEvents, hstep]
  obtain ⟨hchannel, rfl, rpc, htasks, hnext, rfl⟩ := Peer.task_cases hstep
  obtain ⟨⟨id, hmade⟩, hnew⟩ := (h.peers agent).tasks channel hchannel
  refine matches_event hevents ⟨?_, fun hmem => ?_, fun answer hanswer => ?_⟩ rfl
    ((h.peers agent).finish hchannel htasks hnext _) (h.messages.of_after rfl)
  · exact List.mem_map_of_mem (f := Prod.fst) hmade
  · obtain ⟨⟨call, result⟩, hfinished, hcall⟩ := List.mem_map.1 hmem
    obtain rfl : call = (agent, channel) := hcall
    obtain ⟨payload, hresult, -⟩ := ((h.peers agent).finished channel result).1 hfinished
    exact hnew payload hresult
  · unfold resultOf at hanswer
    split_ifs at hanswer with hnone
    · cases hanswer
    · obtain rfl := Option.some.inj hanswer
      obtain ⟨header, enc, stray, hitem⟩ := Peer.sample_of_lastPayload rfl hnone
      exact h.messages.reply _ _ header.bytes enc
        (hneeds _ (List.mem_filterMap.2 ⟨_, hitem, rfl⟩))

theorem matches_query (hinv : ∀ id, X.deserializeFromBytes (X.serializeToBytes id) = id)
    (hlen : ∀ id, (X.serializeToBytes id).length = 16)
    {qable arg : Handle} {caller : Agent × Handle} {key : ℕ} {value : UPayload}
    {header : Buffer P} {stray : Stray} {answer : UCode}
    (hneeds : .get caller ⟨key, value, header.bytes⟩ ∈ s.sent)
    (hstep : (s.state agent).step (X := X) agent
      (.query qable arg caller key value header stray answer) = some (peer', msgs)) :
    Matches s srv (agent, .query (X := X) qable arg caller key value header stray answer) peer'
      msgs := by
  have hevents (new : List (Observation UUID UUri Listener))
      (hnew : peer'.transport.history = new ++ (s.state agent).transport.history) :
      serviceEvents s (agent, .query (X := X) qable arg caller key value header stray answer) =
        new.filterMap (serviceEvent agent peer'.callers) := by
    simp only [serviceEvents, hstep]
    exact newEvents_eq hnew
  obtain ⟨-, rfl, t', rfl, ht'⟩ := Peer.query_cases hstep
  have hcallers (query : Handle) (hlt : query < (s.state agent).transport.queries.next) :
      Function.update (s.state agent).callers (s.state agent).transport.queries.next
        (some caller) query = (s.state agent).callers query := Function.update_of_ne hlt.ne _ _
  have hpeer := (h.peers agent).of_sameTickets
    ⟨rfl, le_rfl, fun _ _ => Iff.rfl, fun _ _ _ _ _ => Iff.rfl⟩ hcallers
  rcases ht' with ⟨-, rfl | rfl⟩ | ⟨uri, listener, a, -, hparse, ht'⟩
  · exact matches_silent (hevents [] rfl) hpeer h.messages
  · have hclone : SameTickets (s.state agent).transport (s.state agent).transport.cloneQuery :=
      ⟨rfl, next_lt_next_cloneQuery.le, fun _ _ => Iff.rfl, fun _ _ _ _ _ => Iff.rfl⟩
    exact matches_silent (hevents [] rfl) (hpeer.of_sameTickets hclone fun _ _ => rfl) h.messages
  obtain ⟨sent, hbuild, hmade⟩ := h.messages.get caller _ hneeds
  obtain ⟨-, rfl⟩ := (parseHeader_sent_iff hinv hlen sent hbuild stray a).1 hparse
  have hnext := Function.update_self (s.state agent).transport.queries.next (some caller)
    (s.state agent).callers
  have hdelivered := hpeer.deliver hnext (X.serializeToString sent.id)
  have hnew : (agent, (s.state agent).transport.queries.next) ∉ srv.delivered.map Prod.fst := by
    intro hmem
    obtain ⟨⟨ticket, caller'⟩, hdelivered, hticket⟩ := List.mem_map.1 hmem
    obtain rfl : ticket = (agent, (s.state agent).transport.queries.next) := hticket
    obtain ⟨⟨id, hstored⟩, -⟩ := ((h.peers agent).delivered _ caller').1 hdelivered
    exact absurd ((h.peers agent).stored id _ hstored) (Nat.lt_irrefl _)
  have hstored : serviceEvent agent (Function.update (s.state agent).callers
        (s.state agent).transport.queries.next (some caller))
        (.stored (X.serializeToString sent.id) (s.state agent).transport.queries.next :
          Observation UUID UUri Listener) =
      some (.deliver agent (X.serializeToString sent.id)
        (agent, (s.state agent).transport.queries.next) caller) :=
    congrArg (Option.map _) hnext
  have henabled : srv.Enabled (.deliver agent (X.serializeToString sent.id)
      (agent, (s.state agent).transport.queries.next) caller) := ⟨hmade, hnew⟩
  rcases ht' with ⟨-, rfl⟩ | ⟨-, rfl⟩
  · refine matches_event ((hevents [_] rfl).trans ?_) henabled ⟨rfl, rfl⟩ hdelivered
      (h.messages.of_after rfl)
    exact (List.filterMap_cons_some hstored).trans rfl
  · refine matches_event ((hevents [_, _] rfl).trans ?_) henabled ⟨rfl, rfl⟩
      (hdelivered.of_sameTickets (sameTickets_received _ _ _ _ _ _ _) fun _ _ => rfl)
      (h.messages.of_after rfl)
    exact (List.filterMap_cons_none rfl).trans ((List.filterMap_cons_some hstored).trans rfl)

end Events

/-- The service stands for the network, and both are as their runs leave them. -/
structure Related (P : Platform) (X : Externals UUID UUri)
    (s : System Agent (Peer Agent UUID UUri Listener) (NetworkMessage Agent))
    (srv : RpcService Agent) : Prop where
  owned : ∀ agent, Owned X (s.state agent).transport
  represents : Represents P X s srv
  sound : srv.Sound

section Runs

variable (hinv : ∀ id, X.deserializeFromBytes (X.serializeToBytes id) = id)
  (hlen : ∀ id, (X.serializeToBytes id).length = 16)

include hinv hlen

theorem matches_of_step {s : System Agent (Peer Agent UUID UUri Listener) (NetworkMessage Agent)}
    {srv : RpcService Agent} (h : Related P X s srv) {agent : Agent}
    {e : PeerEvent P X Agent Listener} {peer' : Peer Agent UUID UUri Listener}
    {msgs : List (NetworkMessage Agent)}
    (hneeds : ∀ m ∈ (network P X Agent Listener).needs agent e, m ∈ s.sent)
    (hstep : (s.state agent).step agent e = some (peer', msgs)) :
    Matches s srv (agent, e) peer' msgs := by
  have hrep := h.represents
  cases e with
  | send => exact matches_send hrep (h.owned agent) h.sound hstep
  | registerListener => exact matches_listener hrep (Or.inl ⟨_, _, _, rfl⟩) hstep
  | unregisterListener => exact matches_listener hrep (Or.inr ⟨_, _, rfl⟩) hstep
  | sample => exact matches_sample hrep hstep
  | query => exact matches_query hrep hinv hlen (hneeds _ (List.mem_singleton_self _)) hstep
  | invokeMethod => exact matches_invokeMethod hrep hstep
  | handleReply => exact matches_handleReply hrep hneeds hstep

/-- What an event of the network stands for is a run of the service. -/
theorem simulates_service :
    Simulates (network P X Agent Listener).next Service.step (fun _ _ => True) serviceEvents
      (Related P X) := by
  intro s e s' srv h _ hnext
  obtain ⟨agent, e⟩ := e
  obtain ⟨hneeds, peer', msgs, hstep, rfl⟩ := Protocol.next_eq_some.1 hnext
  obtain ⟨srv', hrun, hpeer, hothers, hmsgs⟩ := matches_of_step hinv hlen h hneeds hstep
  refine ⟨srv', hrun, ?_, ⟨?_, hmsgs⟩, hrun.invariant Service.preserves_sound h.sound⟩
  · exact (Function.forall_update_iff _
        fun _ (peer : Peer Agent UUID UUri Listener) => Owned X peer.transport).2
      ⟨Peer.transport_step preserves_owned (h.owned agent) hstep, fun agent' _ => h.owned agent'⟩
  · exact (Function.forall_update_iff _ fun agent peer => RepresentsPeer agent peer srv').2
      ⟨hpeer, fun agent' hne => hothers agent' hne _ (h.represents.peers agent')⟩

omit [DecidableEq Agent] [DecidableEq Listener] hinv hlen in
theorem related_init :
    Related P X (network.init : System Agent (Peer Agent UUID UUri Listener) _) .init :=
  ⟨fun _ => owned_init X, represents_init, Service.sound_init⟩

/-- Every run of the network is matched by one of the service. -/
theorem exists_service {es : List (Agent × PeerEvent P X Agent Listener)}
    {s : System Agent (Peer Agent UUID UUri Listener) (NetworkMessage Agent)}
    (hrun : Run (network P X Agent Listener).next network.init es s) :
    ∃ srv, Run Service.step .init
        (trace (network P X Agent Listener).next serviceEvents network.init es) srv ∧
      Related P X s srv :=
  hrun.simulates (simulates_service hinv hlen) (along_of_forall_mem (fun _ _ => trivial) _)
    related_init

/-- Along every run the events of the network stand for a run of the service, whose state at
the end is what the processes have, and in which no call is finished twice, no ticket is
answered twice, and a result is an answer to its own call. -/
theorem refines_of_run {es : List (Agent × PeerEvent P X Agent Listener)}
    {s : System Agent (Peer Agent UUID UUri Listener) (NetworkMessage Agent)}
    (hrun : Run (network P X Agent Listener).next network.init es s) :
    ∃ srv, Run Service.step .init
        (trace (network P X Agent Listener).next serviceEvents network.init es) srv ∧
      Represents P X s srv ∧ srv.Sound := by
  obtain ⟨srv, hservice, h⟩ := exists_service hinv hlen hrun
  exact ⟨srv, hservice, h.represents, h.sound⟩

omit [DecidableEq Agent] [DecidableEq Listener] hinv hlen in
theorem resultOf_injective : Function.Injective resultOf := by
  intro payload payload' h
  unfold resultOf at h
  split_ifs at h with hnone hnone' hnone'
  · rw [hnone, hnone']
  · exact Option.some.inj h

/-- In every run a future gets one value, and one that is not empty is the only payload that
was replied to a query of its call. -/
theorem oneReply_of_run {es : List (Agent × PeerEvent P X Agent Listener)}
    {s : System Agent (Peer Agent UUID UUri Listener) (NetworkMessage Agent)}
    (hrun : Run (network P X Agent Listener).next network.init es s) {agent : Agent}
    {channel : Handle} {payload : UPayload}
    (hresult : (channel, payload) ∈ (s.state agent).results) :
    (∀ payload', (channel, payload') ∈ (s.state agent).results → payload' = payload) ∧
      (payload ≠ ⟨none⟩ → ∃ server query,
        (s.state server).callers query = some (agent, channel) ∧
        ∀ payload', (∃ id header enc, .replied id query payload' header enc ∈
          (s.state server).transport.history) ↔ payload' = payload) := by
  obtain ⟨srv, -, -, h, hsound⟩ := exists_service hinv hlen hrun
  have hfinished {payload' : UPayload} (hmem : (channel, payload') ∈ (s.state agent).results) :
      ((agent, channel), resultOf payload') ∈ srv.finished :=
    ((h.peers agent).finished channel _).2 ⟨payload', hmem, rfl⟩
  refine ⟨fun payload' hmem => ?_, fun hne => ?_⟩
  · exact resultOf_injective (hsound.finished_unique (hfinished hmem) (hfinished hresult))
  · have hsome : resultOf payload = some payload := if_neg hne
    obtain ⟨⟨server, query⟩, hdelivered, hanswered⟩ :=
      hsound.result _ payload (hsome ▸ hfinished hresult)
    refine ⟨server, query, (((h.peers server).delivered query _).1 hdelivered).2,
      fun payload' => ?_⟩
    rw [← (h.peers server).answered]
    exact ⟨fun hmem => hsound.answered_unique hmem hanswered, fun heq => heq ▸ hanswered⟩

end Runs

theorem refines_of_exchange :
    ∃ s, Run (network ⟨.eight, .little⟩ .sample Bool Bool).next network.init exchange s ∧
      ∃ srv, Run Service.step .init (trace (network ⟨.eight, .little⟩ .sample Bool Bool).next
          serviceEvents network.init exchange) srv ∧
        Represents ⟨.eight, .little⟩ .sample s srv ∧ srv.Sound := by
  obtain ⟨s, hrun, -⟩ := run_exchange
  exact ⟨s, hrun, refines_of_run Externals.sample_deserialize_serialize
    sample_length_serializeToBytes hrun⟩

theorem oneReply_of_exchange :
    ∃ s, Run (network ⟨.eight, .little⟩ .sample Bool Bool).next network.init exchange s ∧
      (∀ payload', (0, payload') ∈ (s.state false).results → payload' = ⟨some [7]⟩) ∧
        ((⟨some [7]⟩ : UPayload) ≠ ⟨none⟩ → ∃ server query,
          (s.state server).callers query = some (false, 0) ∧
          ∀ payload', (∃ id header enc, .replied id query payload' header enc ∈
            (s.state server).transport.history) ↔ payload' = ⟨some [7]⟩) := by
  obtain ⟨s, hrun, -, hmem⟩ := run_exchange
  exact ⟨s, hrun, oneReply_of_run Externals.sample_deserialize_serialize
    sample_length_serializeToBytes hrun hmem⟩

end network

end UpClientZenoh
