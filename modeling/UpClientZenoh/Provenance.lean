import UpClientZenoh.Peers

/-!
# Where messages come from

What the application of a process gets in a network of peers, traced back to the call of an
application that sent it.

`traced_of_run` : along every run each sample that a listener gets was published, by a `send`
that returned `OK`, on a URI with the hash of the listener's. Each request was invoked on such a
URI. Each result of a task that is not empty is the payload of a response that was sent with the
id of the very call whose task it is, after that call. The attributes a listener gets are what
`decoded` leaves of those sent.

The proof relies on the messages in between (`Authentic`), by the rule for message passing.
-/

open NativeBytes MemoryAccess Execution MessagePassing

namespace UpClientZenoh

namespace network

open MessageBuilder MessageParser ZenohRpcClient ZenohUTransport

variable {UUID UUri Agent Listener : Type} {P : Platform} {X : Externals UUID UUri}
  [DecidableEq Agent] [DecidableEq Listener]

/-! ## Causes -/

/-- A call publishes the payload with the attributes on a URI of the key. -/
def Publishes (key : ℕ) (payload : UPayload) (a : CountedAttributes P X)
    (s : System Agent (Peer Agent UUID UUri Listener) (NetworkMessage Agent))
    (e : Agent × PeerEvent P X Agent Listener) : Prop :=
  ∃ uri declared sent, e.2 = .send uri payload a declared sent ∧
    (send P X uri payload a.toUAttributes declared sent (s.state e.1).transport).1 =
      .returned .OK ∧
    X.isRPCMethod uri = false ∧ X.uriHash uri = key ∧ X.PUBLISH = a.type

/-- A call of the caller invokes a method of the key with the attributes. -/
def Invokes (caller : Agent × Handle) (key : ℕ) (value : UPayload) (a : CountedAttributes P X)
    (s : System Agent (Peer Agent UUID UUri Listener) (NetworkMessage Agent))
    (e : Agent × PeerEvent P X Agent Listener) : Prop :=
  ∃ uri payload, e = (caller.1, .invokeMethod uri payload a true) ∧
    (s.state caller.1).rpc.client.channels.next = caller.2 ∧
    X.isRPCMethod uri = true ∧ X.uriHash uri = key ∧ getValue payload = value ∧
    X.REQUEST = a.type

/-- The events of a run of peers that were new. -/
abbrev Happened (es : List (Agent × PeerEvent P X Agent Listener))
    (p : List (Agent × PeerEvent P X Agent Listener) →
      System Agent (Peer Agent UUID UUri Listener) (NetworkMessage Agent) →
      Agent × PeerEvent P X Agent Listener → Prop) : Prop :=
  Occurs (network P X Agent Listener).next network.init es p

/-- The caller invoked a method of the key with the attributes. -/
def Invoked (es : List (Agent × PeerEvent P X Agent Listener)) (caller : Agent × Handle)
    (key : ℕ) (value : UPayload) (a : CountedAttributes P X) : Prop :=
  Happened es fun _ => Invokes caller key value a

/-- A call responds with the payload and the attributes to a query of the caller, who invoked
a method with their id. -/
def Responds (caller : Agent × Handle) (payload : UPayload) (a : CountedAttributes P X)
    (before : List (Agent × PeerEvent P X Agent Listener))
    (s : System Agent (Peer Agent UUID UUri Listener) (NetworkMessage Agent))
    (e : Agent × PeerEvent P X Agent Listener) : Prop :=
  ∃ uri declared sent query, e.2 = .send uri payload a declared sent ∧
    (send P X uri payload a.toUAttributes declared sent (s.state e.1).transport).1 =
      .returned .OK ∧
    X.isRPCMethod uri = true ∧ X.RESPONSE = a.type ∧
    (s.state e.1).transport.queryMap.lookup (X.serializeToString a.id) = some query ∧
    (s.state e.1).callers query = some caller ∧
    ∃ key value request, Invoked before caller key value request ∧
      X.serializeToString request.id = X.serializeToString a.id

/-- A message is what a call sent. -/
def Authentic (es : List (Agent × PeerEvent P X Agent Listener)) : NetworkMessage Agent → Prop
  | .put key payload header enc => ∃ a : CountedAttributes P X,
      Peer.SentAs P X X.PUBLISH a.toUAttributes header enc ∧
      Happened es fun _ => Publishes key payload a
  | .get caller request => ∃ a : CountedAttributes P X,
      (buildHeader P X a.toUAttributes).val = .returned request.header ∧
      Invoked es caller request.key request.value a
  | .reply caller payload header enc => ∃ a : CountedAttributes P X,
      Peer.SentAs P X X.RESPONSE a.toUAttributes header enc ∧
      Happened es (Responds caller payload a)

/-- What a process got is what calls sent. -/
structure Traced (es : List (Agent × PeerEvent P X Agent Listener)) (agent : Agent)
    (peer : Peer Agent UUID UUri Listener) : Prop where
  received : ∀ uri listener payload a answer,
    .received uri listener payload a none answer ∈ peer.transport.history →
    ∃ sent : CountedAttributes P X, decoded P X sent.toUAttributes = a ∧
      Happened es fun _ => Publishes (X.uriHash uri) payload sent
  requested : ∀ uri listener payload a query answer,
    .received uri listener payload a (some query) answer ∈ peer.transport.history →
    query < peer.transport.queries.next ∧ ∃ caller, peer.callers query = some caller ∧
      ∃ sent : CountedAttributes P X, decoded P X sent.toUAttributes = a ∧
        Invoked es caller (X.uriHash uri) payload sent
  pending : ∀ uuidStr query, peer.transport.queryMap.lookup uuidStr = some query →
    query < peer.transport.queries.next ∧ ∃ caller, peer.callers query = some caller ∧
      ∃ key value, ∃ sent : CountedAttributes P X, X.serializeToString sent.id = uuidStr ∧
        Invoked es caller key value sent
  results : ∀ channel payload, (channel, payload) ∈ peer.results → payload ≠ ⟨none⟩ →
    ∃ sent : CountedAttributes P X, Happened es (Responds (agent, channel) payload sent)

/-! ## One event -/

theorem Authentic.snoc {es : List (Agent × PeerEvent P X Agent Listener)}
    {m : NetworkMessage Agent} (h : Authentic es m) (e : Agent × PeerEvent P X Agent Listener) :
    Authentic (es ++ [e]) m := by
  cases m with
  | put | reply =>
    obtain ⟨a, hsent, h⟩ := h
    exact ⟨a, hsent, h.snoc e⟩
  | get =>
    obtain ⟨a, hbuild, h⟩ := h
    exact ⟨a, hbuild, h.snoc e⟩

theorem Traced.snoc {es : List (Agent × PeerEvent P X Agent Listener)} {agent : Agent}
    {peer : Peer Agent UUID UUri Listener} (h : Traced es agent peer)
    (e : Agent × PeerEvent P X Agent Listener) : Traced (es ++ [e]) agent peer := by
  refine ⟨fun uri listener payload a answer hmem => ?_,
    fun uri listener payload a query answer hmem => ?_, fun uuidStr query hlookup => ?_,
    fun channel payload hmem hne => ?_⟩
  · obtain ⟨sent, hsent, h⟩ := h.received uri listener payload a answer hmem
    exact ⟨sent, hsent, h.snoc e⟩
  · obtain ⟨hlt, caller, hcaller, sent, hsent, h⟩ :=
      h.requested uri listener payload a query answer hmem
    exact ⟨hlt, caller, hcaller, sent, hsent, h.snoc e⟩
  · obtain ⟨hlt, caller, hcaller, key, value, sent, hsent, h⟩ := h.pending uuidStr query hlookup
    exact ⟨hlt, caller, hcaller, key, value, sent, hsent, h.snoc e⟩
  · obtain ⟨sent, h⟩ := h.results channel payload hmem hne
    exact ⟨sent, h.snoc e⟩

theorem traced_init (agent : Agent) :
    Traced ([] : List (Agent × PeerEvent P X Agent Listener)) agent .init := by
  refine ⟨fun _ _ _ _ _ hmem => ?_, fun _ _ _ _ _ _ hmem => ?_, fun _ _ hlookup => ?_,
    fun _ _ hmem => ?_⟩
  · simp [Peer.init, ZenohUTransport.init] at hmem
  · simp [Peer.init, ZenohUTransport.init] at hmem
  · simp [Peer.init, ZenohUTransport.init] at hlookup
  · simp [Peer.init] at hmem

/-- Events after which nothing else was received or is pending. -/
theorem Traced.of_subset {es : List (Agent × PeerEvent P X Agent Listener)} {agent : Agent}
    {peer : Peer Agent UUID UUri Listener} (h : Traced es agent peer)
    {t : ZenohUTransport UUID UUri Listener}
    (hhistory : ∀ uri listener payload a query answer,
      .received uri listener payload a query answer ∈ t.history →
      .received uri listener payload a query answer ∈ peer.transport.history)
    (hpending : ∀ uuidStr query, t.queryMap.lookup uuidStr = some query →
      peer.transport.queryMap.lookup uuidStr = some query)
    (hnext : peer.transport.queries.next ≤ t.queries.next) :
    Traced es agent { peer with transport := t } := by
  refine ⟨fun uri listener payload a answer hmem => ?_,
    fun uri listener payload a query answer hmem => ?_, fun uuidStr query hlookup => ?_,
    h.results⟩
  · exact h.received uri listener payload a answer (hhistory _ _ _ _ _ _ hmem)
  · obtain ⟨hlt, h⟩ := h.requested uri listener payload a query answer (hhistory _ _ _ _ _ _ hmem)
    exact ⟨hlt.trans_le hnext, h⟩
  · obtain ⟨hlt, h⟩ := h.pending uuidStr query (hpending _ _ hlookup)
    exact ⟨hlt.trans_le hnext, h⟩

/-- The next query is of a get of the caller. -/
theorem Traced.caller {es : List (Agent × PeerEvent P X Agent Listener)} {agent : Agent}
    {peer : Peer Agent UUID UUri Listener} (h : Traced es agent peer)
    (caller : Option (Agent × Handle)) :
    Traced es agent { peer with
      callers := Function.update peer.callers peer.transport.queries.next caller } := by
  have hsame {query : Handle} (hlt : query < peer.transport.queries.next) :
      Function.update peer.callers peer.transport.queries.next caller query =
        peer.callers query := Function.update_of_ne hlt.ne _ _
  refine ⟨h.received, fun uri listener payload a query answer hmem => ?_,
    fun uuidStr query hlookup => ?_, h.results⟩
  · obtain ⟨hlt, caller', hcaller, h⟩ := h.requested uri listener payload a query answer hmem
    exact ⟨hlt, caller', (hsame hlt).trans hcaller, h⟩
  · obtain ⟨hlt, caller', hcaller, h⟩ := h.pending uuidStr query hlookup
    exact ⟨hlt, caller', (hsame hlt).trans hcaller, h⟩

/-- A query of a caller is stored under the id that the caller invoked a method with. -/
theorem Traced.stored {es : List (Agent × PeerEvent P X Agent Listener)} {agent : Agent}
    {peer : Peer Agent UUID UUri Listener} (h : Traced es agent peer) {caller : Agent × Handle}
    (hcaller : peer.callers peer.transport.queries.next = some caller) {key : ℕ}
    {value : UPayload} {sent : CountedAttributes P X} (hsent : Invoked es caller key value sent) :
    Traced es agent { peer with
      transport := afterStore (X.serializeToString sent.id) peer.transport } := by
  have hnext : peer.transport.queries.next <
      (afterStore (X.serializeToString sent.id) peer.transport).queries.next :=
    next_lt_next_cloneQuery
  refine ⟨fun uri listener payload a answer hmem => ?_,
    fun uri listener payload a query answer hmem => ?_, fun uuidStr query hlookup => ?_,
    h.results⟩
  · exact h.received _ _ _ _ _ ((List.mem_cons.1 hmem).resolve_left (by simp))
  · obtain ⟨hlt, h⟩ :=
      h.requested _ _ _ _ _ _ ((List.mem_cons.1 hmem).resolve_left (by simp))
    exact ⟨hlt.trans hnext, h⟩
  · by_cases heq : uuidStr = X.serializeToString sent.id
    · subst heq
      obtain rfl := Option.some.inj ((AList.lookup_insert _).symm.trans hlookup)
      exact ⟨hnext, caller, hcaller, key, value, sent, rfl, hsent⟩
    · obtain ⟨hlt, h⟩ := h.pending uuidStr query ((AList.lookup_insert_ne heq).symm.trans hlookup)
      exact ⟨hlt.trans hnext, h⟩

/-- A query of a caller is handed to a listener. -/
theorem Traced.handed {es : List (Agent × PeerEvent P X Agent Listener)} {agent : Agent}
    {peer : Peer Agent UUID UUri Listener} (h : Traced es agent peer) {query : Handle}
    (hlt : query < peer.transport.queries.next) {caller : Agent × Handle}
    (hcaller : peer.callers query = some caller) {uri : UUri} {value : UPayload}
    {sent : CountedAttributes P X} (hsent : Invoked es caller (X.uriHash uri) value sent)
    (listener : Listener) (answer : UCode) :
    Traced es agent { peer with
      transport := peer.transport.observe (.received uri listener value
        (decoded P X sent.toUAttributes) (some query) answer) } := by
  refine ⟨fun uri' listener' payload a answer' hmem => ?_,
    fun uri' listener' payload a query' answer' hmem => ?_, h.pending, h.results⟩
  · exact h.received _ _ _ _ _ ((List.mem_cons.1 hmem).resolve_left (by simp))
  · rcases List.mem_cons.1 hmem with heq | hmem
    · cases heq
      exact ⟨hlt, caller, hcaller, sent, rfl, hsent⟩
    · exact h.requested _ _ _ _ _ _ hmem

section Steps

variable {es : List (Agent × PeerEvent P X Agent Listener)}
  {s : System Agent (Peer Agent UUID UUri Listener) (NetworkMessage Agent)} {agent : Agent}
  {peer' : Peer Agent UUID UUri Listener} {msgs : List (NetworkMessage Agent)}
  (hrun : Run (network P X Agent Listener).next network.init es s)
  (h : Traced es agent (s.state agent))

include hrun h

theorem traced_send {uri : UUri} {payload : UPayload} {a : CountedAttributes P X}
    {declared sent : Bool}
    (hstep : (s.state agent).step agent (.send uri payload a declared sent) =
      some (peer', msgs)) :
    Traced (es ++ [(agent, .send uri payload a declared sent)]) agent peer' ∧
      ∀ m ∈ msgs, Authentic (es ++ [(agent, .send uri payload a declared sent)]) m := by
  have howned := transport_of_run preserves_owned (owned_init X) hrun agent
  obtain ⟨rfl, ⟨-, hsame, rfl⟩ |
    ⟨pub, header, enc, hok, hrpc, hsent, hmap, hqueries, hhistory, rfl⟩ |
    ⟨query, header, enc, hok, hrpc, hsent, hlookup, hafter, rfl⟩⟩ := Peer.send_cases howned hstep
  · refine ⟨(h.snoc _).of_subset ?_ ?_ ?_, by simp⟩
    · rw [hsame.history]
      exact fun _ _ _ _ _ _ hmem => hmem
    · rw [hsame.queryMap]
      exact fun _ _ hlookup => hlookup
    · rw [hsame.queries]
  · refine ⟨(h.snoc _).of_subset ?_ ?_ ?_, ?_⟩
    · rw [hhistory]
      simp
    · rw [hmap]
      exact fun _ _ hlookup => hlookup
    · rw [hqueries]
    · rw [List.forall_mem_singleton]
      exact ⟨a, hsent, Occurs.last hrun
        ⟨uri, declared, sent, rfl, hok, hrpc, rfl, hsent.type⟩⟩
  · obtain ⟨-, caller, hcaller, key, value, request, hid, hinvoked⟩ := h.pending _ query hlookup
    refine ⟨(h.snoc _).of_subset ?_ ?_ ?_, ?_⟩
    · rw [hafter]
      exact fun _ _ _ _ _ _ hmem => (List.mem_cons.1 hmem).resolve_left (by simp)
    · rw [hafter]
      intro uuidStr query' hlookup'
      by_cases heq : uuidStr = X.serializeToString a.id
      · subst heq
        exact absurd (hlookup'.symm.trans (AList.lookup_erase _ _)) (by simp)
      · exact (AList.lookup_erase_ne heq).symm.trans hlookup'
    · rw [hafter]
      exact (Ledger.next_release _ _).ge
    · rw [hcaller]
      simp only [Option.map_some, Option.toList_some, List.forall_mem_singleton]
      exact ⟨a, hsent, Occurs.last hrun ⟨uri, declared, sent, query, rfl, hok, hrpc, hsent.type,
        hlookup, hcaller, key, value, request, hinvoked, hid⟩⟩

theorem traced_invokeMethod {uri : UUri} {payload : UPayload} {a : CountedAttributes P X}
    {accepted : Bool}
    (hstep : (s.state agent).step agent (.invokeMethod uri payload a accepted) =
      some (peer', msgs)) :
    Traced (es ++ [(agent, .invokeMethod uri payload a accepted)]) agent peer' ∧
      ∀ m ∈ msgs, Authentic (es ++ [(agent, .invokeMethod uri payload a accepted)]) m := by
  obtain ⟨rpc, rfl, hrpc⟩ := Peer.invoke_cases hstep
  have hold := h.snoc (agent, .invokeMethod uri payload a accepted)
  refine ⟨⟨hold.received, hold.requested, hold.pending, hold.results⟩, ?_⟩
  rcases hrpc with
    ⟨-, -, rfl⟩ | ⟨header, hreaches, -, ⟨-, -, rfl⟩ | ⟨haccepted, -, rfl⟩⟩
  · simp
  · simp
  · subst haccepted
    rw [List.forall_mem_singleton]
    exact ⟨a, hreaches.2.2.1, Occurs.last hrun
      ⟨uri, payload, rfl, rfl, hreaches.1, rfl, rfl, hreaches.2.1⟩⟩

omit hrun in
theorem traced_handleReply {channel : Handle} {items : List (ChannelItem P)}
    (hneeds : ∀ m ∈ (network P X Agent Listener).needs agent (.handleReply channel items),
      Authentic es m)
    (hstep : (s.state agent).step (X := X) agent (.handleReply channel items) =
      some (peer', msgs)) :
    Traced (es ++ [(agent, .handleReply channel items)]) agent peer' ∧ msgs = [] := by
  obtain ⟨-, rfl, rpc, -, -, rfl⟩ := Peer.task_cases hstep
  have hold := h.snoc (agent, .handleReply channel items)
  refine ⟨⟨hold.received, hold.requested, hold.pending, fun channel' payload hmem hne => ?_⟩, rfl⟩
  rcases List.mem_cons.1 hmem with heq | hmem
  · obtain ⟨rfl, hpayload⟩ := Prod.mk.inj heq
    obtain ⟨header, enc, stray, hitem⟩ := Peer.sample_of_lastPayload hpayload hne
    have hauthentic : Authentic es (.reply (agent, channel') payload header.bytes enc) :=
      hneeds _ (List.mem_filterMap.2 ⟨_, hitem, rfl⟩)
    obtain ⟨a, -, hresponds⟩ := hauthentic
    exact ⟨a, hresponds.snoc _⟩
  · exact hold.results channel' payload hmem hne

omit hrun in
theorem traced_listener {e : PeerEvent P X Agent Listener}
    (he : (∃ uri listener declared, e = .registerListener uri listener declared) ∨
      ∃ uri listener, e = .unregisterListener uri listener)
    (hstep : (s.state agent).step agent e = some (peer', msgs)) :
    Traced (es ++ [(agent, e)]) agent peer' ∧ msgs = [] := by
  obtain ⟨t, hsame, rfl, rfl⟩ := Peer.listener_cases he hstep
  refine ⟨(h.snoc _).of_subset ?_ ?_ ?_, rfl⟩
  · rw [hsame.history]
    exact fun _ _ _ _ _ _ hmem => hmem
  · rw [hsame.queryMap]
    exact fun _ _ hlookup => hlookup
  · rw [hsame.queries]

variable (hinv : ∀ id, X.deserializeFromBytes (X.serializeToBytes id) = id)
  (hlen : ∀ id, (X.serializeToBytes id).length = 16)

include hinv hlen

theorem traced_sample {sub arg : Handle} {key : ℕ} {payload : UPayload} {header : Buffer P}
    {enc : Encoding} {stray : Stray} {answer : UCode}
    (hneeds : Authentic es (.put key payload header.bytes enc))
    (hstep : (s.state agent).step (X := X) agent
      (.sample sub arg key payload header enc stray answer) = some (peer', msgs)) :
    Traced (es ++ [(agent, .sample sub arg key payload header enc stray answer)]) agent peer' ∧
      msgs = [] := by
  have howned := transport_of_run preserves_owned (owned_init X) hrun agent
  obtain ⟨hholds, rfl, rfl | ⟨uri, listener, a, harg, hparse, rfl⟩⟩ := Peer.sample_cases hstep
  · exact ⟨h.snoc _, rfl⟩
  obtain ⟨uri', listener', harg', hkey, -⟩ := howned.declared sub false key arg hholds.2
  obtain ⟨rfl, rfl⟩ := Prod.mk.inj (Option.some.inj (harg.symm.trans harg'))
  obtain ⟨sent, hsent, hpublishes⟩ := hneeds
  obtain ⟨-, hdecoded⟩ := (parseHeader_sent_iff hinv hlen sent hsent.header stray a).1 hparse
  have hold := h.snoc (agent, .sample sub arg key payload header enc stray answer)
  refine ⟨⟨fun uri' listener' payload' a' answer' hmem => ?_,
    fun uri' listener' payload' a' query answer' hmem => ?_, hold.pending, hold.results⟩, rfl⟩
  · rcases List.mem_cons.1 hmem with heq | hmem
    · cases heq
      exact ⟨sent, hdecoded, by rw [hkey]; exact hpublishes.snoc _⟩
    · exact hold.received _ _ _ _ _ hmem
  · exact hold.requested _ _ _ _ _ _ ((List.mem_cons.1 hmem).resolve_left (by simp))

theorem traced_query {qable arg : Handle} {caller : Agent × Handle} {key : ℕ} {value : UPayload}
    {header : Buffer P} {stray : Stray} {answer : UCode}
    (hneeds : Authentic es (.get caller ⟨key, value, header.bytes⟩))
    (hstep : (s.state agent).step (X := X) agent
      (.query qable arg caller key value header stray answer) = some (peer', msgs)) :
    Traced (es ++ [(agent, .query qable arg caller key value header stray answer)]) agent peer' ∧
      msgs = [] := by
  have howned := transport_of_run preserves_owned (owned_init X) hrun agent
  obtain ⟨hholds, rfl, t', rfl, ht'⟩ := Peer.query_cases hstep
  refine ⟨?_, rfl⟩
  have hold := (h.snoc (agent, .query qable arg caller key value header stray answer)).caller
    (some caller)
  have hnext := Function.update_self (s.state agent).transport.queries.next (some caller)
    (s.state agent).callers
  rcases ht' with ⟨-, rfl | rfl⟩ | ⟨uri, listener, a, harg, hparse, ht'⟩
  · exact hold
  · exact hold.of_subset (fun _ _ _ _ _ _ hmem => hmem) (fun _ _ hlookup => hlookup)
      next_lt_next_cloneQuery.le
  obtain ⟨uri', listener', harg', hkey, -⟩ := howned.declared qable true key arg hholds.2
  obtain ⟨rfl, rfl⟩ := Prod.mk.inj (Option.some.inj (harg.symm.trans harg'))
  obtain ⟨sent, hbuild, hinvoked⟩ := hneeds
  obtain ⟨-, rfl⟩ := (parseHeader_sent_iff hinv hlen sent hbuild stray a).1 hparse
  have hsent := hinvoked.snoc (agent, .query qable arg caller key value header stray answer)
  have hstored := hold.stored hnext hsent
  rcases ht' with ⟨-, rfl⟩ | ⟨-, rfl⟩
  · exact hstored
  · exact hstored.handed next_lt_next_cloneQuery hnext (by rw [hkey]; exact hsent)
      listener answer

end Steps

/-! ## Runs -/

section Runs

variable (hinv : ∀ id, X.deserializeFromBytes (X.serializeToBytes id) = id)
  (hlen : ∀ id, (X.serializeToBytes id).length = 16)

include hinv hlen

theorem traced_of_step {es : List (Agent × PeerEvent P X Agent Listener)}
    {s : System Agent (Peer Agent UUID UUri Listener) (NetworkMessage Agent)} {agent : Agent}
    {e : PeerEvent P X Agent Listener} {peer' : Peer Agent UUID UUri Listener}
    {msgs : List (NetworkMessage Agent)}
    (hrun : Run (network P X Agent Listener).next network.init es s)
    (h : Traced es agent (s.state agent))
    (hneeds : ∀ m ∈ (network P X Agent Listener).needs agent e, Authentic es m)
    (hstep : (s.state agent).step agent e = some (peer', msgs)) :
    Traced (es ++ [(agent, e)]) agent peer' ∧
      ∀ m ∈ msgs, Authentic (es ++ [(agent, e)]) m := by
  have hnil (h' : Traced (es ++ [(agent, e)]) agent peer' ∧ msgs = []) :
      Traced (es ++ [(agent, e)]) agent peer' ∧
        ∀ m ∈ msgs, Authentic (es ++ [(agent, e)]) m :=
    ⟨h'.1, by simp [h'.2]⟩
  cases e with
  | send uri payload a declared sent => exact traced_send hrun h hstep
  | registerListener uri listener declared =>
    exact hnil (traced_listener h (Or.inl ⟨_, _, _, rfl⟩) hstep)
  | unregisterListener uri listener =>
    exact hnil (traced_listener h (Or.inr ⟨_, _, rfl⟩) hstep)
  | sample sub arg key payload header enc stray answer =>
    exact hnil (traced_sample hrun h hinv hlen (hneeds _ (List.mem_singleton_self _)) hstep)
  | query qable arg caller key value header stray answer =>
    exact hnil (traced_query hrun h hinv hlen (hneeds _ (List.mem_singleton_self _)) hstep)
  | invokeMethod uri payload a accepted => exact traced_invokeMethod hrun h hstep
  | handleReply channel items => exact hnil (traced_handleReply h hneeds hstep)

variable {es : List (Agent × PeerEvent P X Agent Listener)}
  {s : System Agent (Peer Agent UUID UUri Listener) (NetworkMessage Agent)}
  (hrun : Run (network P X Agent Listener).next network.init es s)

include hrun

/-- Along every run what the processes got, and what is on the way, is what calls sent. -/
theorem traced_of_run : (∀ agent, Traced es agent (s.state agent)) ∧ ∀ m ∈ s.sent, Authentic es m :=
  Protocol.causes_of_run (J := fun es agent peer => Traced es agent peer) (M := Authentic)
    (fun _ e _ _ h => h.snoc e) (fun _ e _ h => h.snoc e)
    (fun _ _ _ _ _ _ hrun h hneeds hstep => traced_of_step hinv hlen hrun h hneeds hstep)
    traced_init (by simp [network.init]) hrun

variable (agent : Agent)

/-- What a listener gets as a sample was published on a URI with the hash of its own, and what
it gets with a query was the argument of an invocation of such a URI, by the caller that the
query is of. -/
theorem received_of_run {uri : UUri} {listener : Listener} {payload : UPayload}
    {a : UAttributes UUID UUri} {query : Option Handle} {answer : UCode}
    (h : .received uri listener payload a query answer ∈ (s.state agent).transport.history) :
    ∃ sent : CountedAttributes P X, decoded P X sent.toUAttributes = a ∧
      match query with
      | none => Happened es fun _ => Publishes (X.uriHash uri) payload sent
      | some query => ∃ caller, (s.state agent).callers query = some caller ∧
          Invoked es caller (X.uriHash uri) payload sent := by
  have htraced := (traced_of_run hinv hlen hrun).1 agent
  cases query with
  | none => exact htraced.received uri listener payload a answer h
  | some query =>
    obtain ⟨-, caller, hcaller, sent, hsent, hinvoked⟩ :=
      htraced.requested uri listener payload a query answer h
    exact ⟨sent, hsent, caller, hcaller, hinvoked⟩

/-- The result of a task that is not empty is the payload of a response to its own call. -/
theorem result_of_run {channel : Handle} {payload : UPayload}
    (h : (channel, payload) ∈ (s.state agent).results) (hne : payload ≠ ⟨none⟩) :
    ∃ sent : CountedAttributes P X, Happened es (Responds (agent, channel) payload sent) :=
  ((traced_of_run hinv hlen hrun).1 agent).results channel payload h hne

end Runs

/-- Attributes with the id `(0, 0)` and the type. -/
def plainAttributes (type : UInt32) : CountedAttributes ⟨.eight, .little⟩ Externals.sample where
  toUAttributes := .builder (0, 0) type 0
  counted := (by decide : 51 < Platform.sizeMod ⟨.eight, .little⟩)

/-- The header of a response with the id `(0, 0)`. -/
def responseHeader : Buffer ⟨.eight, .little⟩ where
  bytes := 1 :: 16 :: List.replicate 7 0 ++ List.replicate 16 0 ++
    (2 :: 4 :: List.replicate 7 0 ++ [3, 0, 0, 0]) ++ (3 :: 4 :: List.replicate 7 0 ++ [0, 0, 0, 0])
  size_le := by decide

/-- One process has a listener of a method. The other one invokes it and gets a response. -/
def exchange : List (Bool × PeerEvent ⟨.eight, .little⟩ Externals.sample Bool Bool) :=
  [(true, .registerListener methodUri false true),
    (false, .invokeMethod methodUri ⟨none⟩ (plainAttributes 2) true),
    (true, .query 0 0 (false, 0) (Externals.sample.uriHash methodUri) ⟨none⟩ requestHeader
      zeroStray .OK),
    (true, .send methodUri ⟨some [7]⟩ (plainAttributes 3) false true),
    (false, .handleReply 0 [.sample ⟨some [7]⟩ responseHeader .TEXT_PLAIN zeroStray])]

theorem run_exchange : ∃ s, Run (network ⟨.eight, .little⟩ .sample Bool Bool).next network.init
      exchange s ∧
    .received methodUri false ⟨none⟩ (.builder (0, 0) 2 0) (some 0) .OK ∈
      (s.state true).transport.history ∧
    (0, ⟨some [7]⟩) ∈ (s.state false).results := by
  refine ⟨_, .cons rfl (.cons rfl (.cons rfl (.cons rfl (.cons rfl (.nil _))))), ?_, ?_⟩
  · exact List.mem_of_getElem? (i := 1) rfl
  · exact List.mem_of_getElem? (i := 0) rfl

theorem received_of_exchange :
    ∃ s, Run (network ⟨.eight, .little⟩ .sample Bool Bool).next network.init exchange s ∧
      ∃ sent : CountedAttributes ⟨.eight, .little⟩ .sample,
        decoded ⟨.eight, .little⟩ .sample sent.toUAttributes = .builder (0, 0) 2 0 ∧
        ∃ caller, (s.state true).callers 0 = some caller ∧
          Invoked exchange caller (Externals.sample.uriHash methodUri) ⟨none⟩ sent := by
  obtain ⟨s, hrun, hmem, -⟩ := run_exchange
  exact ⟨s, hrun, received_of_run Externals.sample_deserialize_serialize
    sample_length_serializeToBytes hrun true hmem⟩

theorem result_of_exchange :
    ∃ s, Run (network ⟨.eight, .little⟩ .sample Bool Bool).next network.init exchange s ∧
      ∃ sent, Happened exchange (Responds (false, 0) ⟨some [7]⟩ sent) := by
  obtain ⟨s, hrun, -, hmem⟩ := run_exchange
  exact ⟨s, hrun, result_of_run Externals.sample_deserialize_serialize
    sample_length_serializeToBytes hrun false hmem (by simp)⟩

end network

end UpClientZenoh
