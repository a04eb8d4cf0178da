import UpClientZenoh.MessagePassing
import UpClientZenoh.ReplyLedger
import UpClientZenoh.SentHeaders

/-!
# Peers

Processes of one platform, each with an `upZenohClient`, and zenoh between them. A put comes to
subscribers of its key, a get to queryables of its key, and a reply to the channel of the get
that the query is of. Zenoh can lose a message, deliver it late and out of order, or deliver it
again. It makes none up, and takes no message from elsewhere. A process that a call ends has no
further events, but for a refused registration (`ZenohUTransport.step`).

`Peer.step` runs the transport's calls and callbacks and the RPC client's calls and tasks, and
lets out the puts, gets and replies they made. Each kind of event has one lemma that says what
it does and sends : `send_cases`, `listener_cases`, `sample_cases`, `query_cases`,
`invoke_cases`, `task_cases`. What the calls of one transport keep holds of all peers of a
network (`transport_of_run`).
-/

open NativeBytes MemoryAccess Execution MessagePassing

namespace UpClientZenoh

open MessageBuilder MessageParser ZenohRpcClient ZenohUTransport

/-- What zenoh carries. The caller of a get is named by its process and its reply channel. -/
inductive NetworkMessage (Agent : Type)
  | put (key : ℕ) (payload : UPayload) (header : Bytes) (encoding : Encoding)
  | get (caller : Agent × Handle) (request : Get)
  | reply (caller : Agent × Handle) (payload : UPayload) (header : Bytes) (encoding : Encoding)
  deriving DecidableEq

/-- What comes through a reply channel : an error, as when the get timed out, or a sample. -/
inductive ChannelItem (P : Platform)
  | error
  | sample (payload : UPayload) (header : Buffer P) (encoding : Encoding) (stray : Stray)

namespace ChannelItem

variable {P : Platform} {Agent : Type}

/-- The item as `handleReply` sees it. -/
def toReply : ChannelItem P → Reply P
  | error => ⟨false, ⟨none, ⟨none⟩, zeroStray⟩⟩
  | sample payload header _ stray => ⟨true, ⟨some (some header), payload, stray⟩⟩

/-- The message that a sample is. -/
def message (caller : Agent × Handle) : ChannelItem P → Option (NetworkMessage Agent)
  | error => none
  | sample payload header encoding _ => some (.reply caller payload header.bytes encoding)

end ChannelItem

/-- A process with an `upZenohClient`. -/
structure Peer (Agent UUID UUri Listener : Type) where
  transport : ZenohUTransport UUID UUri Listener
  rpc : Calls
  /-- The caller of the get that a query is of. Zenoh keeps it in the query. -/
  callers : Handle → Option (Agent × Handle)
  /-- The results of the tasks that have run, by channel. -/
  results : List (Handle × UPayload)

/-- A call, a callback or a task of a process. A callback is that of a live handle and gets the
handle's argument. -/
inductive PeerEvent {UUID UUri : Type} (P : Platform) (X : Externals UUID UUri)
    (Agent Listener : Type)
  | send (uri : UUri) (payload : UPayload) (attributes : CountedAttributes P X)
      (declared sent : Bool)
  | registerListener (uri : UUri) (listener : Listener) (declared : Bool)
  | unregisterListener (uri : UUri) (listener : Listener)
  | sample (sub arg : Handle) (key : ℕ) (payload : UPayload) (header : Buffer P)
      (encoding : Encoding) (stray : Stray) (answer : UCode)
  | query (qable arg : Handle) (caller : Agent × Handle) (key : ℕ) (value : UPayload)
      (header : Buffer P) (stray : Stray) (answer : UCode)
  | invokeMethod (uri : UUri) (payload : UPayload) (attributes : CountedAttributes P X)
      (accepted : Bool)
  | handleReply (channel : Handle) (items : List (ChannelItem P))

namespace Peer

variable {UUID UUri Listener Agent : Type} {P : Platform} {X : Externals UUID UUri}

/-- A peer after the construction of its client. -/
def init : Peer Agent UUID UUri Listener where
  transport := .init
  rpc := .init
  callers _ := none
  results := []

/-- The messages that the observations of a call are, in a transport after it. -/
def outgoing (callers : Handle → Option (Agent × Handle))
    (t : ZenohUTransport UUID UUri Listener) (new : List (Observation UUID UUri Listener)) :
    List (NetworkMessage Agent) :=
  new.filterMap fun o =>
    match o with
    | .put pub payload header encoding =>
      match t.entities.entries[pub]? with
      | some (.publisher key) => some (.put key payload header encoding)
      | _ => none
    | .replied _ query payload header encoding =>
      (callers query).map fun caller => .reply caller payload header encoding
    | _ => none

theorem outgoing_congr {callers : Handle → Option (Agent × Handle)}
    {t t' : ZenohUTransport UUID UUri Listener} {new : List (Observation UUID UUri Listener)}
    (h : ∀ pub payload header enc, .put pub payload header enc ∈ new →
      t.entities.entries[pub]? = t'.entities.entries[pub]?) :
    outgoing callers t new = outgoing callers t' new := by
  refine List.filterMap_congr fun o ho => ?_
  cases o with
  | put pub payload header enc => simp only [h pub payload header enc ho]
  | stored | received | replied => rfl

theorem outgoing_put {callers : Handle → Option (Agent × Handle)}
    {t : ZenohUTransport UUID UUri Listener} {pub : Handle} {key : ℕ}
    (hpub : t.entities.entries[pub]? = some (.publisher key)) (payload : UPayload)
    (header : Bytes) (enc : Encoding) :
    outgoing callers t [.put pub payload header enc] = [.put key payload header enc] := by
  simp [outgoing, hpub]

theorem outgoing_replied (callers : Handle → Option (Agent × Handle))
    (t : ZenohUTransport UUID UUri Listener) (uuidStr : Bytes) (query : Handle)
    (payload : UPayload) (header : Bytes) (enc : Encoding) :
    outgoing callers t [.replied uuidStr query payload header enc] =
      ((callers query).map fun caller => .reply caller payload header enc).toList := by
  cases hcaller : callers query <;> simp [outgoing, hcaller]

/-- The messages that an event needs. -/
def needs (agent : Agent) : PeerEvent P X Agent Listener → List (NetworkMessage Agent)
  | .sample _ _ key payload header encoding _ _ => [.put key payload header.bytes encoding]
  | .query _ _ caller key value header _ _ => [.get caller ⟨key, value, header.bytes⟩]
  | .handleReply channel items => items.filterMap (ChannelItem.message (agent, channel))
  | _ => []

variable [DecidableEq Listener]

variable (X) in
/-- A call or callback of the transport. -/
def transportStep (peer : Peer Agent UUID UUri Listener) (call : Call P UUID UUri Listener) :
    Option (Peer Agent UUID UUri Listener × List (NetworkMessage Agent)) :=
  (ZenohUTransport.step X peer.transport call).map fun t =>
    let new := t.history.take (t.history.length - peer.transport.history.length)
    ({ peer with transport := t }, outgoing peer.callers t new)

/-- A call or callback that returns, and what it sends. -/
def step (agent : Agent) (peer : Peer Agent UUID UUri Listener) :
    PeerEvent P X Agent Listener →
      Option (Peer Agent UUID UUri Listener × List (NetworkMessage Agent))
  | .send uri payload attributes declared sent =>
    peer.transportStep X (P := P) (.send uri payload attributes.toUAttributes declared sent)
  | .registerListener uri listener declared =>
    peer.transportStep X (P := P) (.registerListener uri listener declared)
  | .unregisterListener uri listener =>
    peer.transportStep X (P := P) (.unregisterListener uri listener)
  | .sample sub arg key payload header _ stray answer =>
    if peer.transport.entities.Holds sub (.subscriber key arg) then
      peer.transportStep X (.SubHandler (some ⟨some (some header), payload, stray⟩)
        peer.transport.args.entries[arg]? answer)
    else none
  | .query qable arg caller key value header stray answer =>
    if peer.transport.entities.Holds qable (.queryable key arg) then
      match peer.transport.args.entries[arg]? with
      | some p =>
        let callers := Function.update peer.callers peer.transport.queries.next (some caller)
        transportStep X { peer with callers := callers }
          (.QueryHandler ⟨some (some header), value, stray⟩ p answer)
      | none => none
    else none
  | .invokeMethod uri payload attributes accepted =>
    let channel := peer.rpc.client.channels.next
    (Calls.step (P := P) X peer.rpc
      (.invokeMethod uri payload attributes.toUAttributes accepted)).map fun rpc =>
        let new := rpc.client.gets.take
          (rpc.client.gets.length - peer.rpc.client.gets.length)
        ({ peer with rpc := rpc }, new.map fun request => .get (agent, channel) request)
  | .handleReply channel items =>
    let stream := items.map ChannelItem.toReply
    match (ZenohRpcClient.handleReply P X channel stream peer.rpc.client peer.rpc.replies).1 with
    | .returned payload =>
      (Calls.step X peer.rpc (.handleReply channel stream)).map fun rpc =>
        ({ peer with rpc := rpc, results := (channel, payload) :: peer.results }, [])
    | _ => none

/-! ## What an event does -/

/-- No query came in or was answered, and nothing was put or handed to a listener. -/
structure Untouched (t t' : ZenohUTransport UUID UUri Listener) : Prop where
  queryMap : t'.queryMap = t.queryMap
  queries : t'.queries = t.queries
  history : t'.history = t.history

omit [DecidableEq Listener] in
theorem Untouched.refl (t : ZenohUTransport UUID UUri Listener) : Untouched t t :=
  ⟨rfl, rfl, rfl⟩

/-- Attributes of the type, with their header and their encoding. -/
structure SentAs (P : Platform) (X : Externals UUID UUri) (type : UInt32)
    (a : UAttributes UUID UUri) (header : Bytes) (enc : Encoding) : Prop where
  type : type = a.type
  header : (buildHeader P X a).val = .returned header
  encoding : encoding X a = some enc

theorem transportStep_eq_some {peer peer' : Peer Agent UUID UUri Listener}
    {call : Call P UUID UUri Listener} {msgs : List (NetworkMessage Agent)}
    (h : peer.transportStep X call = some (peer', msgs)) :
    peer' = { peer with transport := (exec X peer.transport call).2 } ∧
      ∀ new, (exec X peer.transport call).2.history = new ++ peer.transport.history →
        msgs = outgoing peer.callers (exec X peer.transport call).2 new := by
  obtain ⟨t, hstep, heq⟩ := Option.map_eq_some_iff.1 h
  rw [ZenohUTransport.exec_snd_of_step hstep]
  obtain ⟨rfl, rfl⟩ := Prod.mk.inj heq
  refine ⟨rfl, fun new hnew => ?_⟩
  rw [hnew, List.length_append, Nat.add_sub_cancel, List.take_left]

omit [DecidableEq Listener] in
/-- A send on a topic leaves things as they are, or puts a message on the key of its URI. -/
theorem sendPublish_traffic {t : ZenohUTransport UUID UUri Listener} (howned : Owned X t)
    {uri : UUri} (hrpc : X.isRPCMethod uri = false) {payload : UPayload}
    (hpayload : ¬(payload.size = 0 ∨ payload.data = none)) (a : UAttributes UUID UUri)
    (declared sent : Bool) :
    let r := ZenohUTransport.send P X uri payload a declared sent t
    (r.1 ≠ .returned .OK ∧ Untouched t r.2) ∨
    ∃ pub header enc, r.1 = .returned .OK ∧ SentAs P X X.PUBLISH a header enc ∧
      r.2.queryMap = t.queryMap ∧ r.2.queries = t.queries ∧
      r.2.history = .put pub payload header enc :: t.history ∧
      r.2.entities.entries[pub]? = some (.publisher (X.uriHash uri)) := by
  intro r
  have hr : r = ZenohUTransport.send P X uri payload a declared sent t := rfl
  have howned' : Owned X r.2 :=
    howned.of_onlyPublishes (onlyPublishes_send X uri payload a declared sent t)
  obtain ⟨hmap, hqueries, hhistory⟩ :=
    initPublisher_queries X uri (findPublisher X uri t) declared t
  unfold ZenohUTransport.send at hr
  rw [if_neg hpayload, if_pos hrpc] at hr
  rcases sendPublish_cases X uri payload a declared sent t with
    ⟨hne, h | h⟩ | ⟨pub, header, enc, htype, hpub, hbuild, henc, -, h⟩
  · rw [hr]
    exact Or.inl ⟨hne, by rw [h]; exact .refl t⟩
  · rw [hr]
    exact Or.inl ⟨hne, by rw [h]; exact ⟨hmap, hqueries, hhistory⟩⟩
  · have hlookup : r.2.pubHandleMap.lookup (X.uriHash uri) = some pub := by
      rw [hr, h]
      exact lookup_initPublisher hpub
    have hentry := ((howned'.publisher _ _).1 hlookup).2
    rw [hr, h] at hentry ⊢
    exact Or.inr ⟨pub, header, enc, rfl, ⟨htype, hbuild, henc⟩, hmap, hqueries,
      congrArg _ hhistory, hentry⟩

/-- A send leaves things as they are, puts a message on the key of its URI, or replies to the
caller of the query that is pending under the id. -/
theorem send_cases {agent : Agent} {peer peer' : Peer Agent UUID UUri Listener}
    (howned : Owned X peer.transport) {uri : UUri} {payload : UPayload}
    {a : CountedAttributes P X} {declared sent : Bool} {msgs : List (NetworkMessage Agent)}
    (h : peer.step agent (.send uri payload a declared sent) = some (peer', msgs)) :
    let t := peer.transport
    let r := ZenohUTransport.send P X uri payload a.toUAttributes declared sent t
    peer' = { peer with transport := r.2 } ∧
    ((r.1 ≠ .returned .OK ∧ Untouched t r.2 ∧ msgs = []) ∨
    (∃ pub header enc, r.1 = .returned .OK ∧ X.isRPCMethod uri = false ∧
      SentAs P X X.PUBLISH a.toUAttributes header enc ∧ r.2.queryMap = t.queryMap ∧
      r.2.queries = t.queries ∧ r.2.history = .put pub payload header enc :: t.history ∧
      msgs = [.put (X.uriHash uri) payload header enc]) ∨
    ∃ query header enc, r.1 = .returned .OK ∧ X.isRPCMethod uri = true ∧
      SentAs P X X.RESPONSE a.toUAttributes header enc ∧
      t.queryMap.lookup (X.serializeToString a.id) = some query ∧
      r.2 = afterReply (X.serializeToString a.id) query payload header enc t ∧
      msgs = ((peer.callers query).map fun caller => .reply caller payload header enc).toList) := by
  intro t r
  obtain ⟨hpeer, hmsgs⟩ := transportStep_eq_some h
  refine ⟨hpeer, ?_⟩
  have hquiet (hr : r.1 ≠ .returned .OK ∧ Untouched t r.2) :
      r.1 ≠ .returned .OK ∧ Untouched t r.2 ∧ msgs = [] :=
    ⟨hr.1, hr.2, hmsgs [] hr.2.history⟩
  have hr : r = ZenohUTransport.send P X uri payload a.toUAttributes declared sent t := rfl
  unfold ZenohUTransport.send at hr
  by_cases hpayload : payload.size = 0 ∨ payload.data = none
  · rw [if_pos hpayload] at hr
    exact Or.inl (hquiet (by rw [hr]; exact ⟨by simp, .refl t⟩))
  by_cases hrpc : X.isRPCMethod uri = false
  · rcases sendPublish_traffic (P := P) howned hrpc hpayload a.toUAttributes declared sent with
      h | ⟨pub, header, enc, hok, hsent, hmap, hqueries, hhistory, hentry⟩
    · exact Or.inl (hquiet h)
    · refine Or.inr (Or.inl ⟨pub, header, enc, hok, hrpc, hsent, hmap, hqueries, hhistory, ?_⟩)
      rw [hmsgs [.put pub payload header enc] hhistory]
      exact outgoing_put hentry payload header enc
  · rw [if_neg hpayload, if_neg hrpc] at hr
    rw [Bool.not_eq_false] at hrpc
    rcases sendQueryable_cases X payload a.toUAttributes sent t with
      ⟨hne, h⟩ | ⟨query, header, enc, htype, hlookup, hbuild, henc, -, h⟩
    · exact Or.inl (hquiet (by rw [hr]; exact ⟨hne, by rw [h]; exact .refl t⟩))
    · rw [h] at hr
      refine Or.inr (Or.inr ⟨query, header, enc, by rw [hr], hrpc, ⟨htype, hbuild, henc⟩,
        hlookup, by rw [hr]; rfl, ?_⟩)
      have hhistory : r.2.history =
          [.replied (X.serializeToString a.id) query payload header enc] ++ t.history := by
        rw [hr]
        rfl
      rw [hmsgs _ hhistory]
      exact outgoing_replied _ _ _ query payload header enc

theorem untouched_registerListener (uri : UUri) (listener : Listener) (declared : Bool)
    (t : ZenohUTransport UUID UUri Listener) :
    Untouched t (ZenohUTransport.registerListener X uri listener declared t).2 := by
  rcases registerListener_cases X uri listener declared t with ⟨-, h⟩ | ⟨-, -, h⟩ | ⟨-, -, h⟩
  all_goals
    rw [h]
    exact ⟨rfl, rfl, rfl⟩

theorem untouched_unregisterListener (uri : UUri) (listener : Listener)
    (t : ZenohUTransport UUID UUri Listener) :
    Untouched t (ZenohUTransport.unregisterListener X uri listener t).2 := by
  obtain ⟨hmap, hqueries, -⟩ := sameQueries_unregisterListener X uri listener t
  refine ⟨hmap, hqueries, ?_⟩
  unfold ZenohUTransport.unregisterListener
  dsimp only
  split
  · rfl
  split
  · rfl
  unfold eraseHandle
  split_ifs
  all_goals
    split
    · rfl
    · exact (undeclare_queries _ _).2.2

/-- A registration or unregistration leaves the traffic alone. -/
theorem listener_cases {agent : Agent} {peer peer' : Peer Agent UUID UUri Listener}
    {e : PeerEvent P X Agent Listener}
    (he : (∃ uri listener declared, e = .registerListener uri listener declared) ∨
      ∃ uri listener, e = .unregisterListener uri listener)
    {msgs : List (NetworkMessage Agent)} (h : peer.step agent e = some (peer', msgs)) :
    ∃ t, Untouched peer.transport t ∧ peer' = { peer with transport := t } ∧ msgs = [] := by
  rcases he with ⟨uri, listener, declared, rfl⟩ | ⟨uri, listener, rfl⟩ <;>
    obtain ⟨hpeer, hmsgs⟩ := transportStep_eq_some h
  · have hsame := untouched_registerListener (X := X) uri listener declared peer.transport
    exact ⟨_, hsame, hpeer, hmsgs [] hsame.history⟩
  · have hsame := untouched_unregisterListener (X := X) uri listener peer.transport
    exact ⟨_, hsame, hpeer, hmsgs [] hsame.history⟩

omit [DecidableEq Listener] in
theorem parseHeader_of_decodes {header : Buffer P} {payload : UPayload} {stray : Stray}
    {a : UAttributes UUID UUri} (h : Decodes X ⟨some (some header), payload, stray⟩ a) :
    parseHeader P X stray header = .returned (some a) := by
  obtain ⟨header', hheader, hparse⟩ := h
  simp only [headerOf] at hheader
  split_ifs at hheader
  cases hheader
  exact hparse

/-- A sample at a subscriber is handed to its listener, or dropped. -/
theorem sample_cases {agent : Agent} {peer peer' : Peer Agent UUID UUri Listener}
    {sub arg : Handle} {key : ℕ} {payload : UPayload} {header : Buffer P} {enc : Encoding}
    {stray : Stray} {answer : UCode} {msgs : List (NetworkMessage Agent)}
    (h : peer.step (X := X) agent (.sample sub arg key payload header enc stray answer) =
      some (peer', msgs)) :
    peer.transport.entities.Holds sub (.subscriber key arg) ∧ msgs = [] ∧
    (peer' = peer ∨ ∃ uri listener a, peer.transport.args.entries[arg]? = some (uri, listener) ∧
      parseHeader P X stray header = .returned (some a) ∧ peer' = { peer with
        transport := peer.transport.observe (.received uri listener payload a none answer) }) := by
  rw [step] at h
  split_ifs at h with hholds
  obtain ⟨hpeer, hmsgs⟩ := transportStep_eq_some h
  refine ⟨hholds, ?_⟩
  rcases SubHandler_cases X (some ⟨some (some header), payload, stray⟩)
    peer.transport.args.entries[arg]? answer peer.transport with
      hr | ⟨message, uri, listener, a, hmessage, harg, ha, hr⟩
  · refine ⟨hmsgs [] (congrArg _ hr), Or.inl ?_⟩
    rw [hpeer, exec, hr]
  · cases hmessage
    have hhistory := congrArg (fun r => r.2.history) hr
    refine ⟨hmsgs [.received uri listener payload a none answer] hhistory,
      Or.inr ⟨uri, listener, a, harg, parseHeader_of_decodes ha, ?_⟩⟩
    rw [hpeer, exec, hr]

/-- A query at a queryable leaves things as they are, or is cloned. If it decodes, the clone is
stored, and a request is handed to the listener. -/
theorem query_cases {agent : Agent} {peer peer' : Peer Agent UUID UUri Listener}
    {qable arg : Handle} {caller : Agent × Handle} {key : ℕ} {value : UPayload}
    {header : Buffer P} {stray : Stray} {answer : UCode} {msgs : List (NetworkMessage Agent)}
    (h : peer.step (X := X) agent (.query qable arg caller key value header stray answer) =
      some (peer', msgs)) :
    let t := peer.transport
    t.entities.Holds qable (.queryable key arg) ∧ msgs = [] ∧ ∃ t',
      peer' = { peer with
        transport := t'
        callers := Function.update peer.callers t.queries.next (some caller) } ∧
      (((∀ a, ¬Decodes X ⟨some (some header), value, stray⟩ a) ∧ (t' = t ∨ t' = t.cloneQuery)) ∨
      ∃ uri listener a, t.args.entries[arg]? = some (uri, listener) ∧
        parseHeader P X stray header = .returned (some a) ∧
        let stored := afterStore (X.serializeToString a.id) t
        ((X.REQUEST ≠ a.type ∧ t' = stored) ∨ (X.REQUEST = a.type ∧
          t' = stored.observe (.received uri listener value a (some t.queries.next) answer)))) := by
  rw [step] at h
  split_ifs at h with hholds
  rcases harg : peer.transport.args.entries[arg]? with _ | p <;> rw [harg] at h
  · cases h
  obtain ⟨hpeer, hmsgs⟩ := transportStep_eq_some h
  refine ⟨hholds, ?_⟩
  rcases QueryHandler_cases X ⟨some (some header), value, stray⟩ p answer peer.transport with
    ⟨hnone, hr⟩ | ⟨-, hnone, hr⟩ | ⟨a, ha, ⟨htype, hr⟩ | ⟨htype, hr⟩⟩
  · have ht := congrArg Prod.snd hr
    exact ⟨hmsgs [] (congrArg _ ht), _, hpeer,
      Or.inl ⟨not_decodes_of_headerOf X hnone, Or.inl ht⟩⟩
  · exact ⟨hmsgs [] (congrArg (fun t => t.history) hr), _, hpeer, Or.inl ⟨hnone, Or.inr hr⟩⟩
  · have ht := congrArg Prod.snd hr
    refine ⟨hmsgs [.stored (X.serializeToString a.id) peer.transport.queries.next]
      (congrArg _ ht), _, hpeer, Or.inr ⟨p.1, p.2, a, harg, parseHeader_of_decodes ha, ?_⟩⟩
    exact Or.inl ⟨htype, ht⟩
  · have ht := congrArg Prod.snd hr
    refine ⟨hmsgs [.received p.1 p.2 value a (some peer.transport.queries.next) answer,
      .stored (X.serializeToString a.id) peer.transport.queries.next] (congrArg _ ht), _, hpeer,
      Or.inr ⟨p.1, p.2, a, harg, parseHeader_of_decodes ha, ?_⟩⟩
    exact Or.inr ⟨htype, ht⟩

omit [DecidableEq Listener] in
/-- A call of the RPC client changes nothing, or allocates a channel. A get that zenoh accepts
has a task. -/
theorem call_traffic (uri : UUri) (payload : UPayload) (a : UAttributes UUID UUri)
    (accepted : Bool) (s : Calls) :
    let s' := (Calls.call (P := P) X uri payload a accepted s).2
    ((∀ header, ¬ReachesGet P X uri a header) ∧ s' = s) ∨ ∃ header, ReachesGet P X uri a header ∧
      s'.client.channels = s.client.channels.alloc () ∧
      ((accepted = false ∧ s'.tasks = s.tasks ∧ s'.client.gets = s.client.gets) ∨
        (accepted = true ∧ s'.tasks = s.client.channels.next :: s.tasks ∧
          s'.client.gets = ⟨X.uriHash uri, getValue payload, header⟩ :: s.client.gets)) := by
  intro s'
  have hs' : s' = (Calls.call (P := P) X uri payload a accepted s).2 := rfl
  rcases Calls.call_cases (P := P) X uri payload a accepted s with
    hnot | ⟨header, hreaches, hchannels, -, -, -, -⟩
  · exact Or.inl hnot
  refine Or.inr ⟨header, hreaches, hchannels, ?_⟩
  unfold Calls.call at hs'
  rcases invokeMethod_cases (P := P) (X := X) uri payload a accepted s.client with
    ⟨hnot, -⟩ | ⟨header', hreaches', ⟨haccepted, hr⟩ | ⟨haccepted, hr⟩⟩
  · exact absurd hreaches (hnot header)
  · rw [hr] at hs'
    rw [hs']
    exact Or.inl ⟨haccepted, rfl, rfl⟩
  · obtain rfl : header' = header :=
      Exit.returned.inj (hreaches'.2.2.1.symm.trans hreaches.2.2.1)
    rw [hr] at hs'
    rw [hs']
    exact Or.inr ⟨haccepted, rfl, rfl⟩

/-- A call that comes to a get takes a new channel. If zenoh accepts the get, a task is left
for the channel, and the get goes out. -/
theorem invoke_cases {agent : Agent} {peer peer' : Peer Agent UUID UUri Listener} {uri : UUri}
    {payload : UPayload} {a : CountedAttributes P X} {accepted : Bool}
    {msgs : List (NetworkMessage Agent)}
    (h : peer.step agent (.invokeMethod uri payload a accepted) = some (peer', msgs)) :
    let channel := peer.rpc.client.channels.next
    ∃ rpc, peer' = { peer with rpc := rpc } ∧
      (((∀ header, ¬ReachesGet P X uri a.toUAttributes header) ∧ rpc = peer.rpc ∧ msgs = []) ∨
      ∃ header, ReachesGet P X uri a.toUAttributes header ∧
        rpc.client.channels = peer.rpc.client.channels.alloc () ∧
        ((accepted = false ∧ rpc.tasks = peer.rpc.tasks ∧ msgs = []) ∨
          (accepted = true ∧ rpc.tasks = channel :: peer.rpc.tasks ∧
            msgs = [.get (agent, channel) ⟨X.uriHash uri, getValue payload, header⟩]))) := by
  intro channel
  rw [step] at h
  obtain ⟨rpc, hstep, heq⟩ := Option.map_eq_some_iff.1 h
  obtain ⟨rfl, rfl⟩ := Prod.mk.inj heq
  have hrpc := (Calls.step_eq_some hstep).2
  refine ⟨rpc, rfl, ?_⟩
  have hcall : rpc = (Calls.call (P := P) X uri payload a.toUAttributes accepted peer.rpc).2 := hrpc
  rcases call_traffic (P := P) (X := X) uri payload a.toUAttributes accepted peer.rpc with
    ⟨hnot, hsame⟩ |
      ⟨header, hreaches, hchannels, ⟨haccepted, htasks, hgets⟩ | ⟨haccepted, htasks, hgets⟩⟩ <;>
    rw [← hcall] at *
  · exact Or.inl ⟨hnot, hsame, by simp [hsame]⟩
  · exact Or.inr ⟨header, hreaches, hchannels, Or.inl ⟨haccepted, htasks, by simp [hgets]⟩⟩
  · refine Or.inr ⟨header, hreaches, hchannels, Or.inr ⟨haccepted, htasks, ?_⟩⟩
    simp [hgets, channel]

omit [DecidableEq Listener] in
/-- The loop returns the payload of the last reply before the first that is not valid. -/
theorem replyLoop_returned {stream : List (Reply P)} {retPayload payload : UPayload}
    {replies : Ledger Unit} (h : (replyLoop P X stream retPayload replies).1 = .returned payload) :
    payload = lastPayload retPayload (stream.takeWhile (validReply X)) := by
  induction stream generalizing retPayload replies with
  | nil => exact (Exit.returned.inj h).symm
  | cons reply stream ih =>
    rcases replyLoop_cons X reply stream retPayload replies with
      ⟨hvalid, hr⟩ | ⟨hinvalid, -, hr⟩ | ⟨-, -, hexit, -⟩
    · rw [hr] at h
      rw [List.takeWhile_cons_of_pos hvalid, lastPayload_cons]
      exact ih h
    · rw [hr] at h
      rw [List.takeWhile_cons_of_neg (by simp [hinvalid])]
      exact (Exit.returned.inj h).symm
    · rcases hexit with hexit | hexit <;> rw [hexit] at h <;> cases h

omit [DecidableEq Listener] in
theorem next_handleReply (channel : Handle) (stream : List (Reply P)) (c : ZenohRpcClient)
    (replies : Ledger Unit) :
    (ZenohRpcClient.handleReply P X channel stream c replies).2.1.channels.next =
      c.channels.next := by
  unfold ZenohRpcClient.handleReply
  rcases replyLoop P X stream ⟨none⟩ replies with ⟨_ | _ | _ | _ | _, replies'⟩ <;>
    simp [closeChannel]

/-- A task that is left takes its result from the replies of its channel. -/
theorem task_cases {agent : Agent} {peer peer' : Peer Agent UUID UUri Listener}
    {channel : Handle} {items : List (ChannelItem P)} {msgs : List (NetworkMessage Agent)}
    (h : peer.step (X := X) agent (.handleReply channel items) = some (peer', msgs)) :
    channel ∈ peer.rpc.tasks ∧ msgs = [] ∧ ∃ rpc,
      rpc.tasks = peer.rpc.tasks.erase channel ∧
      rpc.client.channels.next = peer.rpc.client.channels.next ∧
      peer' = { peer with
        rpc := rpc
        results := (channel, lastPayload ⟨none⟩
          ((items.map ChannelItem.toReply).takeWhile (validReply X))) :: peer.results } := by
  rw [step] at h
  have hfst := handleReply_fst X channel (items.map ChannelItem.toReply) peer.rpc.client
    peer.rpc.replies
  rcases hr : (ZenohRpcClient.handleReply P X channel (items.map ChannelItem.toReply)
    peer.rpc.client peer.rpc.replies).1 with payload | _ | _ | _ | _ <;> rw [hr] at h
  · obtain ⟨rpc, hstep, heq⟩ := Option.map_eq_some_iff.1 h
    obtain ⟨rfl, rfl⟩ := Prod.mk.inj heq
    obtain ⟨henabled, hrpc⟩ := Calls.step_eq_some hstep
    refine ⟨henabled, rfl, rpc, by rw [hrpc]; rfl, ?_, ?_⟩
    · rw [hrpc]
      exact next_handleReply channel _ _ _
    · rw [replyLoop_returned (hfst.symm.trans hr)]
  all_goals cases h

omit [DecidableEq Listener] in
/-- A result that is not empty is the payload of a sample. -/
theorem sample_of_lastPayload {items : List (ChannelItem P)} {payload : UPayload}
    (h : payload = lastPayload ⟨none⟩
      ((items.map ChannelItem.toReply).takeWhile (validReply X))) (hne : payload ≠ ⟨none⟩) :
    ∃ header enc stray, .sample payload header enc stray ∈ items := by
  rw [lastPayload] at h
  rcases hlast : ((items.map ChannelItem.toReply).takeWhile (validReply X)).getLast? with
    _ | reply <;> rw [hlast] at h
  · exact absurd h hne
  have hmem := List.mem_of_getLast? hlast
  obtain ⟨item, hitem, rfl⟩ := List.mem_map.1 ((List.takeWhile_subset _) hmem)
  have hvalid := List.all_eq_true.1 List.all_takeWhile _ hmem
  cases item with
  | error => simp [validReply, ChannelItem.toReply] at hvalid
  | sample payload' header enc stray =>
    obtain rfl : payload = payload' := h
    exact ⟨header, enc, stray, hitem⟩

/-- What the calls of a transport keep, the events of a peer keep. -/
theorem transport_step {I : ZenohUTransport UUID UUri Listener → Prop}
    (hI : Preserves (ZenohUTransport.step (P := P) X) (fun _ _ => True) I) {agent : Agent}
    {peer peer' : Peer Agent UUID UUri Listener} {e : PeerEvent P X Agent Listener}
    {msgs : List (NetworkMessage Agent)} (hpeer : I peer.transport)
    (h : peer.step agent e = some (peer', msgs)) : I peer'.transport := by
  have hcall {peer : Peer Agent UUID UUri Listener} {call : Call P UUID UUri Listener}
      (h : peer.transportStep X call = some (peer', msgs)) (hpeer : I peer.transport) :
      I peer'.transport := by
    obtain ⟨t, hstep, heq⟩ := Option.map_eq_some_iff.1 h
    obtain ⟨rfl, -⟩ := Prod.mk.inj heq
    exact hI hpeer trivial hstep
  cases e with
  | send | registerListener | unregisterListener => exact hcall h hpeer
  | sample =>
    rw [step] at h
    split_ifs at h
    exact hcall h hpeer
  | query =>
    rw [step] at h
    split_ifs at h
    split at h
    · exact hcall h hpeer
    · cases h
  | invokeMethod =>
    obtain ⟨rpc, rfl, -⟩ := invoke_cases h
    exact hpeer
  | handleReply =>
    obtain ⟨-, -, rpc, -, -, rfl⟩ := task_cases h
    exact hpeer

end Peer

/-! ## The network -/

variable {UUID UUri : Type}

/-- Peers that send each other what `Peer.step` lets out. -/
def network (P : Platform) (X : Externals UUID UUri) (Agent Listener : Type)
    [DecidableEq Listener] :
    Protocol Agent (Peer Agent UUID UUri Listener) (PeerEvent P X Agent Listener)
      (NetworkMessage Agent) where
  needs := Peer.needs
  step := Peer.step

/-- Every peer is new, and nothing was sent. -/
def network.init {Agent Listener : Type} :
    System Agent (Peer Agent UUID UUri Listener) (NetworkMessage Agent) where
  state _ := .init
  sent := []

namespace network

variable {P : Platform} {X : Externals UUID UUri} {Agent Listener : Type} [DecidableEq Agent]
  [DecidableEq Listener]

/-- What the calls of a transport keep holds of the transports of all peers, in every run. -/
theorem transport_of_run {I : ZenohUTransport UUID UUri Listener → Prop}
    (hI : Preserves (ZenohUTransport.step (P := P) X) (fun _ _ => True) I) (hinit : I .init)
    {es : List (Agent × PeerEvent P X Agent Listener)}
    {s : System Agent (Peer Agent UUID UUri Listener) (NetworkMessage Agent)}
    (hrun : Run (network P X Agent Listener).next network.init es s) (agent : Agent) :
    I (s.state agent).transport :=
  Protocol.local_of_run (I := fun _ peer => I peer.transport)
    (fun _ _ _ _ _ hpeer hstep => Peer.transport_step hI hpeer hstep) hrun (fun _ => hinit) agent

end network

end UpClientZenoh
