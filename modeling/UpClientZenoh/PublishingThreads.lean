import UpClientZenoh.Peers
import UpClientZenoh.ResponseRace

/-!
# Publishing threads

Threads that publish. The lookup of a `send` in `pubHandleMap_`, the section under
`pubInitMutex_` where the lookup missed, and the put are one step each, and steps of other
threads fall between them.

A `send` that no other thread interrupts is a run of these steps (`exists_run_of_send`). Two
threads can declare a publisher for one key, and the table then forgets one of them.
`traffic_of_run` : who receives does not see it. In every interleaving the messages on the keys
are those of the calls that returned `OK`, one each and in the order of their puts, each on the
key of its own URI and with its own payload, header and encoding. The calls are those that the
threads began, in each thread's order.
-/

open Execution

namespace UpClientZenoh

open MessageBuilder ZenohUTransport

variable {Thread UUID UUri Listener : Type} {P : Platform} {X : Externals UUID UUri}

/-- Where a thread is in `sendPublish`. -/
inductive Publishing (UUID UUri : Type)
  | missed (call : SendCall UUID UUri)
  | found (call : SendCall UUID UUri) (pub : Handle)

def Publishing.call : Publishing UUID UUri → SendCall UUID UUri
  | missed c | found c _ => c

/-- The transport, and where each thread is. -/
structure Publishers (Thread UUID UUri Listener : Type) where
  transport : ZenohUTransport UUID UUri Listener
  publishing : Thread → Option (Publishing UUID UUri)
  /-- The calls that are over and what they returned, the last one first. -/
  ended : List (Thread × SendCall UUID UUri × UCode)

/-- A step of a `send` on a topic. `declared` and `sent` are the outcomes of
`z_declare_publisher` and `z_publisher_put`. -/
inductive PublisherStep (Thread UUID UUri : Type)
  | find (thread : Thread) (call : SendCall UUID UUri)
  | initPublisher (thread : Thread) (declared : Bool)
  | put (thread : Thread) (sent : Bool)

namespace Publishers

/-- No thread publishes. -/
def init : Publishers Thread UUID UUri Listener where
  transport := .init
  publishing _ := none
  ended := []

section Step

variable [DecidableEq Thread]

def goTo (s : Publishers Thread UUID UUri Listener) (thread : Thread)
    (p : Publishing UUID UUri) : Publishers Thread UUID UUri Listener :=
  { s with publishing := Function.update s.publishing thread (some p) }

/-- The call of the thread is over. -/
def finish (s : Publishers Thread UUID UUri Listener) (thread : Thread)
    (call : SendCall UUID UUri) (code : UCode) : Publishers Thread UUID UUri Listener :=
  { s with
    publishing := Function.update s.publishing thread none
    ended := (thread, call, code) :: s.ended }

variable (P X) in
/-- Sends on RPC methods are no steps of this system. -/
def step (s : Publishers Thread UUID UUri Listener) :
    PublisherStep Thread UUID UUri → Option (Publishers Thread UUID UUri Listener)
  | .find thread c =>
    match s.publishing thread with
    | some _ => none
    | none =>
      if X.isRPCMethod c.uri = true then none
      else if c.payload.size = 0 ∨ c.payload.data = none then
        some (s.finish thread c .UNAVAILABLE)
      else if X.PUBLISH ≠ c.attributes.type then
        match wrongMessageType X c.attributes.type .terminated UCode.INVALID_ARGUMENT with
        | .returned code => some (s.finish thread c code)
        | _ => none
      else
        match findPublisher X c.uri s.transport with
        | some pub => some (s.goTo thread (.found c pub))
        | none => some (s.goTo thread (.missed c))
  | .initPublisher thread declared =>
    match s.publishing thread with
    | some (.missed c) =>
      match ZenohUTransport.initPublisher X c.uri none declared s.transport with
      | (none, t) => some ({ s with transport := t }.finish thread c .UNAVAILABLE)
      | (some pub, t) => some ({ s with transport := t }.goTo thread (.found c pub))
    | _ => none
  | .put thread sent =>
    match s.publishing thread with
    | some (.found c pub) =>
      match (buildHeader P X c.attributes).val with
      | .returned header =>
        if header = [] then some (s.finish thread c .INTERNAL)
        else
          match encoding X c.attributes with
          | none => some (s.finish thread c .UNAVAILABLE)
          | some encoding =>
            if sent = false then some (s.finish thread c .UNAVAILABLE)
            else
              let t := s.transport.observe (.put pub c.payload header encoding)
              some ({ s with transport := t }.finish thread c .OK)
      | _ => none
    | _ => none

end Step

/-! ## Traffic -/

/-- The messages that were put, as they are on the keys, the last one first. -/
def traffic (t : ZenohUTransport UUID UUri Listener) : List (NetworkMessage Unit) :=
  Peer.outgoing (fun _ => none) t t.history

variable (P X) in
/-- The message of a call. -/
def message (c : SendCall UUID UUri) : Option (NetworkMessage Unit) :=
  match (buildHeader P X c.attributes).val, encoding X c.attributes with
  | .returned header, some encoding => some (.put (X.uriHash c.uri) c.payload header encoding)
  | _, _ => none

variable (P X) in
/-- What a call that is over has put. -/
def published (p : Thread × SendCall UUID UUri × UCode) : Option (NetworkMessage Unit) :=
  if p.2.2 = .OK then message P X p.2.1 else none

/-- The publishers that threads have, and those in `pubHandleMap_`, are of their keys, and the
traffic is that of the calls that returned `OK`. -/
structure Traced (P : Platform) (X : Externals UUID UUri)
    (s : Publishers Thread UUID UUri Listener) : Prop where
  listed : ∀ key pub, s.transport.pubHandleMap.lookup key = some pub →
    s.transport.entities.entries[pub]? = some (.publisher key)
  found : ∀ thread c pub, s.publishing thread = some (.found c pub) →
    s.transport.entities.entries[pub]? = some (.publisher (X.uriHash c.uri))
  checked : ∀ thread, ∀ p ∈ s.publishing thread, X.PUBLISH = p.call.attributes.type
  put : ∀ pub payload header enc, .put pub payload header enc ∈ s.transport.history →
    pub < s.transport.entities.next
  traffic : traffic s.transport = s.ended.filterMap (published P X)
  ok : ∀ thread c, (thread, c, .OK) ∈ s.ended →
    X.PUBLISH = c.attributes.type ∧ (message P X c).isSome

theorem traced_init : Traced P X (init : Publishers Thread UUID UUri Listener) where
  listed _ _ h := by cases h
  found _ _ _ h := by cases h
  checked _ _ h := by cases h
  put _ _ _ _ h := by cases h
  traffic := rfl
  ok _ _ h := by cases h

section Steps

variable [DecidableEq Thread] {s s' : Publishers Thread UUID UUri Listener}

/-- The step is one of the thread's call, its first one or a later one. -/
def Acts (s : Publishers Thread UUID UUri Listener) (e : PublisherStep Thread UUID UUri)
    (thread : Thread) (c : SendCall UUID UUri) : Prop :=
  (e = .find thread c ∧ s.publishing thread = none) ∨
    (∀ thread' c', e ≠ .find thread' c') ∧ ∃ p, s.publishing thread = some p ∧ p.call = c

/-- What a step does to the call of its thread : it ends it without a put, keeps what the lookup
found, declares a publisher, or puts the message and ends it. -/
theorem step_cases {e : PublisherStep Thread UUID UUri} (h : step P X s e = some s') :
    ∃ thread c, Acts s e thread c ∧
      ((∃ code, code ≠ .OK ∧ s' = s.finish thread c code) ∨
      (∃ p, p.call = c ∧ X.PUBLISH = c.attributes.type ∧ s' = s.goTo thread p ∧
        ∀ pub, p = .found c pub →
          s.transport.pubHandleMap.lookup (X.uriHash c.uri) = some pub) ∨
      (s.publishing thread = some (.missed c) ∧
        s' =
          { s with
            transport := (ZenohUTransport.initPublisher X c.uri none true s.transport).2 }.goTo
              thread (.found c s.transport.entities.next)) ∨
      ∃ pub header enc, s.publishing thread = some (.found c pub) ∧
        message P X c = some (.put (X.uriHash c.uri) c.payload header enc) ∧
        s' =
          { s with transport := s.transport.observe (.put pub c.payload header enc) }.finish
            thread c .OK) := by
  cases e with
  | find thread c =>
    rw [step] at h
    cases hpublishing : s.publishing thread with
    | some p =>
      rw [hpublishing] at h
      cases h
    | none =>
      rw [hpublishing] at h
      dsimp only at h
      refine ⟨thread, c, Or.inl ⟨rfl, hpublishing⟩, ?_⟩
      split_ifs at h with hrpc hpayload htype
      · exact Or.inl ⟨_, by decide, (Option.some.inj h).symm⟩
      · rcases hwrong : wrongMessageType X c.attributes.type .terminated UCode.INVALID_ARGUMENT with
          code | _ | _ | _ | _ <;> rw [hwrong] at h
        · refine Or.inl ⟨code, ?_, (Option.some.inj h).symm⟩
          rintro rfl
          exact wrongMessageType_ne X _ hwrong
        all_goals cases h
      · rw [not_not] at htype
        cases hfind : findPublisher X c.uri s.transport with
        | none =>
          rw [hfind] at h
          exact Or.inr (Or.inl
            ⟨.missed c, rfl, htype, (Option.some.inj h).symm, fun _ heq => by cases heq⟩)
        | some pub =>
          rw [hfind] at h
          refine Or.inr (Or.inl ⟨.found c pub, rfl, htype, (Option.some.inj h).symm, ?_⟩)
          rintro _ ⟨⟩
          exact hfind
  | initPublisher thread declared =>
    rw [step] at h
    rcases hpublishing : s.publishing thread with _ | c | ⟨c, pub⟩ <;> rw [hpublishing] at h
    case some.missed =>
      refine ⟨thread, c, Or.inr ⟨by simp, .missed c, hpublishing, rfl⟩, ?_⟩
      cases declared with
      | false => exact Or.inl ⟨_, by decide, (Option.some.inj h).symm⟩
      | true => exact Or.inr (Or.inr (Or.inl ⟨hpublishing, (Option.some.inj h).symm⟩))
    all_goals cases h
  | put thread sent =>
    rw [step] at h
    rcases hpublishing : s.publishing thread with _ | c | ⟨c, pub⟩ <;> rw [hpublishing] at h
    case some.found =>
      refine ⟨thread, c, Or.inr ⟨by simp, .found c pub, hpublishing, rfl⟩, ?_⟩
      dsimp only at h
      rcases hheader : (buildHeader P X c.attributes).val with header | _ | _ | _ | _ <;>
        rw [hheader] at h
      case returned =>
        dsimp only at h
        by_cases hempty : header = []
        · rw [if_pos hempty] at h
          exact Or.inl ⟨_, by decide, (Option.some.inj h).symm⟩
        rw [if_neg hempty] at h
        cases henc : encoding X c.attributes with
        | none =>
          rw [henc] at h
          exact Or.inl ⟨_, by decide, (Option.some.inj h).symm⟩
        | some enc =>
          rw [henc] at h
          cases sent with
          | false => exact Or.inl ⟨_, by decide, (Option.some.inj h).symm⟩
          | true =>
            refine Or.inr (Or.inr (Or.inr ⟨pub, header, enc, hpublishing, ?_,
              (Option.some.inj h).symm⟩))
            rw [message, hheader, henc]
      all_goals cases h
    all_goals cases h

/-- A step gives one thread another place. -/
theorem mem_update {f : Thread → Option (Publishing UUID UUri)} {thread thread' : Thread}
    {o : Option (Publishing UUID UUri)} {p : Publishing UUID UUri}
    (h : Function.update f thread o thread' = some p) : o = some p ∨ f thread' = some p := by
  rw [Function.update_apply] at h
  split_ifs at h
  · exact Or.inl h
  · exact Or.inr h

theorem Traced.finish (h : Traced P X s) {thread : Thread} {c : SendCall UUID UUri} {code : UCode}
    (hcode : code ≠ .OK) : Traced P X (s.finish thread c code) := by
  refine ⟨h.listed, fun thread' c' pub hfound => ?_, fun thread' p hp => ?_, h.put, ?_,
    fun thread' c' hmem => ?_⟩
  · rcases mem_update hfound with hnone | hold
    · cases hnone
    · exact h.found thread' c' pub hold
  · rcases mem_update hp with hnone | hold
    · cases hnone
    · exact h.checked thread' p hold
  · have hnothing : published P X (thread, c, code) = none := if_neg hcode
    exact h.traffic.trans (List.filterMap_cons_none hnothing).symm
  · rcases List.mem_cons.1 hmem with heq | hold
    · cases heq
      exact absurd rfl hcode
    · exact h.ok thread' c' hold

theorem Traced.goTo (h : Traced P X s) {thread : Thread} {p : Publishing UUID UUri}
    (htype : X.PUBLISH = p.call.attributes.type) (hlookup : ∀ c pub, p = .found c pub →
      s.transport.entities.entries[pub]? = some (.publisher (X.uriHash c.uri))) :
    Traced P X (s.goTo thread p) := by
  refine ⟨h.listed, fun thread' c pub hfound => ?_, fun thread' p' hp => ?_, h.put, h.traffic,
    h.ok⟩
  · rcases mem_update hfound with hnew | hold
    · exact hlookup c pub (Option.some.inj hnew)
    · exact h.found thread' c pub hold
  · rcases mem_update hp with hnew | hold
    · rwa [← Option.some.inj hnew]
    · exact h.checked thread' p' hold

omit [DecidableEq Thread] in
/-- A declaration leaves the traffic alone : the publishers of the puts are older. -/
theorem Traced.declare (h : Traced P X s) (uri : UUri) : Traced P X
    { s with transport := (ZenohUTransport.initPublisher X uri none true s.transport).2 } := by
  let key := X.uriHash uri
  let t := s.transport
  refine ⟨fun key' pub hlookup => ?_, fun thread c pub hfound => ?_, h.checked,
    fun pub payload header enc hmem => ?_, ?_, h.ok⟩
  · change (t.entities.alloc (.publisher key)).entries[pub]? = _
    change (t.pubHandleMap.insert key t.entities.next).lookup key' = some pub at hlookup
    by_cases heq : key' = key
    · rw [heq, AList.lookup_insert] at hlookup
      rw [← Option.some.inj hlookup, heq]
      exact Ledger.getElem?_alloc_next
    · rw [AList.lookup_insert_ne heq] at hlookup
      exact Ledger.getElem?_alloc (h.listed key' pub hlookup)
  · exact Ledger.getElem?_alloc (h.found thread c pub hfound)
  · have hlt : pub < t.entities.next := h.put pub payload header enc hmem
    change pub < (t.entities.alloc (.publisher key)).next
    rw [Ledger.next_alloc]
    exact Nat.lt_succ_of_lt hlt
  · refine (Peer.outgoing_congr fun pub payload header enc hmem => ?_).trans h.traffic
    have hlt : pub < t.entities.next := h.put pub payload header enc hmem
    exact List.getElem?_append_left hlt

theorem Traced.observe (h : Traced P X s) {thread : Thread} {c : SendCall UUID UUri}
    {pub : Handle} (hfound : s.publishing thread = some (.found c pub)) {header : Bytes}
    {enc : Encoding}
    (hmessage : message P X c = some (.put (X.uriHash c.uri) c.payload header enc)) :
    Traced P X ({ s with
      transport := s.transport.observe (.put pub c.payload header enc) }.finish thread c .OK) := by
  have hentry := h.found thread c pub hfound
  refine ⟨h.listed, fun thread' c' pub' hfound' => ?_, fun thread' p hp => ?_,
    fun pub' payload' header' enc' hmem => ?_, ?_, fun thread' c' hmem => ?_⟩
  · rcases mem_update hfound' with hnone | hold
    · cases hnone
    · exact h.found thread' c' pub' hold
  · rcases mem_update hp with hnone | hold
    · cases hnone
    · exact h.checked thread' p hold
  · rcases List.mem_cons.1 hmem with heq | hold
    · cases heq
      exact Ledger.getElem?_lt hentry
    · exact h.put pub' payload' header' enc' hold
  · have hput : published P X (thread, c, .OK) =
        some (.put (X.uriHash c.uri) c.payload header enc) := hmessage
    have hnew : Publishers.traffic (s.transport.observe (.put pub c.payload header enc)) =
        .put (X.uriHash c.uri) c.payload header enc :: Publishers.traffic s.transport := by
      simp [Publishers.traffic, Peer.outgoing, ZenohUTransport.observe, hentry]
    refine (hnew.trans ?_).trans (List.filterMap_cons_some hput).symm
    rw [h.traffic]
  · rcases List.mem_cons.1 hmem with heq | hold
    · cases heq
      exact ⟨h.checked thread (.found c pub) hfound, by rw [hmessage]; rfl⟩
    · exact h.ok thread' c' hold

theorem preserves_traced : Preserves (step P X) (fun _ _ => True)
    (Traced P X : Publishers Thread UUID UUri Listener → Prop) := by
  intro s e s' h _ hstep
  obtain ⟨thread, c, -, ⟨code, hcode, rfl⟩ | ⟨p, rfl, htype, rfl, hlookup⟩ | ⟨hmissed, rfl⟩ |
    ⟨pub, header, enc, hfound, hmessage, rfl⟩⟩ := step_cases hstep
  · exact h.finish hcode
  · refine h.goTo htype fun c pub hp => h.listed _ pub ?_
    subst hp
    exact hlookup pub rfl
  · refine (h.declare c.uri).goTo (h.checked thread (.missed c) hmissed) ?_
    rintro _ _ ⟨⟩
    exact Ledger.getElem?_alloc_next
  · exact h.observe hfound hmessage

end Steps

/-! ## Uninterrupted sends -/

section Uninterrupted

variable [DecidableEq Thread]

/-- Where the lookup finds the publisher, the put of a thread ends as `sendPublish` does. -/
theorem put_of_sendPublish {s : Publishers Thread UUID UUri Listener} {thread : Thread}
    {c : SendCall UUID UUri} {pub : Handle} (hfound : s.publishing thread = some (.found c pub))
    (hlookup : findPublisher X c.uri s.transport = some pub)
    (htype : X.PUBLISH = c.attributes.type) {declared sent : Bool} {code : UCode}
    {t : ZenohUTransport UUID UUri Listener}
    (h : sendPublish P X c.uri c.payload c.attributes declared sent s.transport =
      (.returned code, t)) :
    step P X s (.put thread sent) = some ({ s with transport := t }.finish thread c code) := by
  rw [sendPublish, if_neg (not_not.2 htype), hlookup] at h
  rw [step, hfound]
  dsimp only [ZenohUTransport.initPublisher] at h ⊢
  rcases hheader : (buildHeader P X c.attributes).val with header | _ | _ | _ | _ <;>
    rw [hheader] at h
  case returned =>
    dsimp only at h ⊢
    by_cases hempty : header = []
    · rw [if_pos hempty] at h ⊢
      cases h
      rfl
    rw [if_neg hempty] at h ⊢
    cases henc : encoding X c.attributes with
    | none =>
      rw [henc] at h
      cases h
      rfl
    | some enc =>
      rw [henc] at h
      cases sent <;> cases h <;> rfl
  all_goals cases h

/-- A declaration first makes no difference to a `sendPublish` whose lookup misses. -/
theorem sendPublish_initPublisher {uri : UUri} {t : ZenohUTransport UUID UUri Listener}
    (hnone : findPublisher X uri t = none) (payload : UPayload) {a : UAttributes UUID UUri}
    (htype : X.PUBLISH = a.type) (sent : Bool) :
    sendPublish P X uri payload a true sent t = sendPublish P X uri payload a true sent
      (ZenohUTransport.initPublisher X uri none true t).2 := by
  have hsome : findPublisher X uri (ZenohUTransport.initPublisher X uri none true t).2 =
      some t.entities.next := AList.lookup_insert _
  rw [sendPublish, sendPublish, if_neg (not_not.2 htype), if_neg (not_not.2 htype), hnone, hsome]
  rfl

theorem goTo_finish (s : Publishers Thread UUID UUri Listener) (thread : Thread)
    (p : Publishing UUID UUri) (t : ZenohUTransport UUID UUri Listener) (c : SendCall UUID UUri)
    (code : UCode) : ({ s.goTo thread p with transport := t }).finish thread c code =
      ({ s with transport := t }).finish thread c code := by
  simp [Publishers.finish, Publishers.goTo]

/-- A `send` on a topic that returns is a run of the steps of its thread. -/
theorem exists_run_of_send {s : Publishers Thread UUID UUri Listener} {thread : Thread}
    (hidle : s.publishing thread = none) {c : SendCall UUID UUri}
    (hrpc : X.isRPCMethod c.uri = false) {declared sent : Bool} {code : UCode}
    {t : ZenohUTransport UUID UUri Listener}
    (h : send P X c.uri c.payload c.attributes declared sent s.transport =
      (.returned code, t)) :
    ∃ es, Run (step P X) s es ({ s with transport := t }.finish thread c code) := by
  rw [send] at h
  by_cases hpayload : c.payload.size = 0 ∨ c.payload.data = none
  · have hfind : step P X s (.find thread c) = some (s.finish thread c .UNAVAILABLE) := by
      simp [step, hidle, hrpc, hpayload]
    rw [if_pos hpayload] at h
    cases h
    exact ⟨_, .cons hfind (.nil _)⟩
  rw [if_neg hpayload, if_pos hrpc] at h
  by_cases htype : X.PUBLISH = c.attributes.type
  swap
  · rw [sendPublish, if_pos htype, Prod.mk.injEq] at h
    obtain ⟨hwrong, rfl⟩ := h
    have hfind : step P X s (.find thread c) = some (s.finish thread c code) := by
      simp [step, hidle, hrpc, hpayload, htype, hwrong]
    exact ⟨_, .cons hfind (.nil _)⟩
  cases hlookup : findPublisher X c.uri s.transport with
  | some pub =>
    have hfind : step P X s (.find thread c) = some (s.goTo thread (.found c pub)) := by
      simp only [step, hidle, hrpc, hpayload, htype, hlookup, if_false, ne_eq, not_true,
        Bool.false_eq_true]
    have hfound : (s.goTo thread (.found c pub)).publishing thread = some (.found c pub) :=
      Function.update_self ..
    have hput := put_of_sendPublish hfound hlookup htype h
    rw [goTo_finish] at hput
    exact ⟨_, .cons hfind (.cons hput (.nil _))⟩
  | none =>
    let missed := s.goTo thread (.missed c)
    have hfind : step P X s (.find thread c) = some missed := by
      simp only [step, hidle, hrpc, hpayload, htype, hlookup, if_false, ne_eq, not_true,
        Bool.false_eq_true, missed]
    have hmissed : missed.publishing thread = some (.missed c) := Function.update_self ..
    cases declared with
    | false =>
      rw [sendPublish, if_neg (not_not.2 htype), hlookup] at h
      cases h
      have hinit : step P X missed (.initPublisher thread false) =
          some (s.finish thread c .UNAVAILABLE) := by
        rw [step, hmissed, ← goTo_finish s thread (.missed c) s.transport]
        rfl
      exact ⟨_, .cons hfind (.cons hinit (.nil _))⟩
    | true =>
      rw [sendPublish_initPublisher hlookup _ htype] at h
      let t' := (ZenohUTransport.initPublisher X c.uri none true s.transport).2
      let found := { missed with transport := t' }.goTo thread
        (.found c s.transport.entities.next)
      have hinit : step P X missed (.initPublisher thread true) = some found := by
        rw [step, hmissed]
        rfl
      have hfound : found.publishing thread = some (.found c s.transport.entities.next) :=
        Function.update_self ..
      have hput := put_of_sendPublish hfound (AList.lookup_insert _) htype h
      rw [goTo_finish] at hput
      have hfinish : { missed with transport := t }.finish thread c code =
        { s with transport := t }.finish thread c code := goTo_finish ..
      rw [← hfinish]
      exact ⟨_, .cons hfind (.cons hinit (.cons hput (.nil _)))⟩

end Uninterrupted

/-! ## The calls of a thread -/

section Calls

variable [DecidableEq Thread]

/-- The calls that a thread began, the first one first. -/
def begun (thread : Thread) (es : List (PublisherStep Thread UUID UUri)) :
    List (SendCall UUID UUri) :=
  es.filterMap fun e =>
    match e with
    | .find thread' c => if thread' = thread then some c else none
    | _ => none

/-- The calls of a thread that are over, the last one first. -/
def endedBy (thread : Thread) (s : Publishers Thread UUID UUri Listener) :
    List (SendCall UUID UUri) :=
  s.ended.filterMap fun p => if p.1 = thread then some p.2.1 else none

/-- What a thread began is over, in its order, but for the call it is in. -/
def InOrder (es : List (PublisherStep Thread UUID UUri))
    (s : Publishers Thread UUID UUri Listener) : Prop :=
  ∀ thread, (begun thread es).reverse =
    ((s.publishing thread).map Publishing.call).toList ++ endedBy thread s

variable {s s' : Publishers Thread UUID UUri Listener}
  {es : List (PublisherStep Thread UUID UUri)} {e : PublisherStep Thread UUID UUri}
  {thread : Thread} {c : SendCall UUID UUri}

/-- What the thread of a step has begun with it, and what the other threads have. -/
theorem begun_snoc (h : InOrder es s) (hacts : Acts s e thread c) :
    (begun thread (es ++ [e])).reverse = c :: endedBy thread s ∧
      ∀ thread' ≠ thread, begun thread' (es ++ [e]) = begun thread' es := by
  have hthread := h thread
  rcases hacts with ⟨rfl, hidle⟩ | ⟨hnot, p, hp, rfl⟩
  · rw [hidle] at hthread
    refine ⟨?_, fun thread' hne => ?_⟩
    · simp only [begun, List.filterMap_append, List.reverse_append] at hthread ⊢
      rw [hthread]
      simp
    · simp [begun, hne.symm]
  · have hsame (thread' : Thread) : begun thread' (es ++ [e]) = begun thread' es := by
      cases e with
      | find thread'' c => exact absurd rfl (hnot thread'' c)
      | initPublisher | put => simp [begun]
    rw [hp] at hthread
    exact ⟨(hsame thread).symm ▸ hthread, fun thread' _ => hsame thread'⟩

theorem InOrder.finish (h : InOrder es s) (hacts : Acts s e thread c) {code : UCode}
    {t : ZenohUTransport UUID UUri Listener} :
    InOrder (es ++ [e]) ({ s with transport := t }.finish thread c code) := by
  obtain ⟨hthread, hothers⟩ := begun_snoc h hacts
  intro thread'
  by_cases heq : thread' = thread
  · subst heq
    simp [hthread, Publishers.finish, endedBy]
  · rw [hothers thread' heq, h thread']
    simp [Publishers.finish, endedBy, Function.update_of_ne heq, Ne.symm heq]

theorem InOrder.goTo (h : InOrder es s) (hacts : Acts s e thread c) {p : Publishing UUID UUri}
    (hp : p.call = c) {t : ZenohUTransport UUID UUri Listener} :
    InOrder (es ++ [e]) ({ s with transport := t }.goTo thread p) := by
  obtain ⟨hthread, hothers⟩ := begun_snoc h hacts
  intro thread'
  by_cases heq : thread' = thread
  · subst heq
    simp [hthread, Publishers.goTo, endedBy, hp]
  · rw [hothers thread' heq, h thread']
    simp [Publishers.goTo, endedBy, Function.update_of_ne heq]

theorem InOrder.snoc (h : InOrder es s) (hstep : step P X s e = some s') :
    InOrder (es ++ [e]) s' := by
  obtain ⟨thread, c, hacts, ⟨code, -, rfl⟩ | ⟨p, hp, -, rfl, -⟩ | ⟨-, rfl⟩ |
    ⟨pub, header, enc, -, -, rfl⟩⟩ := step_cases hstep
  · exact h.finish hacts
  · exact h.goTo hacts hp
  · exact h.goTo hacts rfl
  · exact h.finish hacts

end Calls

/-! ## Runs -/

variable [DecidableEq Thread]

/-- In every interleaving of sends on topics the messages on the keys are those of the calls that
returned `OK`, each on the key of its own URI, and each thread has ended its calls in the order
in which it began them. -/
theorem traffic_of_run {es : List (PublisherStep Thread UUID UUri)}
    {s : Publishers Thread UUID UUri Listener} (hrun : Run (step P X) init es s) :
    traffic s.transport = s.ended.filterMap (published P X) ∧ InOrder es s ∧
      ∀ thread c, (thread, c, .OK) ∈ s.ended →
        X.PUBLISH = c.attributes.type ∧ (message P X c).isSome := by
  have h := hrun.invariant preserves_traced traced_init
  have horder : InOrder es s :=
    hrun.invariant_events (fun _ => rfl) (fun _ _ _ _ _ h _ hstep => h.snoc hstep)
      (along_of_forall_mem (fun _ _ => trivial) init)
  exact ⟨h.traffic, horder, h.ok⟩

/-- Two threads publish on one topic, and both lookups come before both sections. -/
def bothMissedSteps : List (PublisherStep Bool (UInt64 × UInt64) Bytes) :=
  let c : SendCall (UInt64 × UInt64) Bytes := ⟨[97], ⟨some [7]⟩, .builder (0, 0) 1 0⟩
  [.find false c, .find true c, .initPublisher false true, .initPublisher true true,
    .put false true, .put true true]

theorem traffic_of_bothMissedSteps : ∃ s : Publishers Bool (UInt64 × UInt64) Bytes Bool,
    Run (step ⟨.eight, .little⟩ .sample) init bothMissedSteps s ∧
      traffic s.transport = s.ended.filterMap (published ⟨.eight, .little⟩ .sample) ∧
      InOrder bothMissedSteps s ∧ ∀ thread c, (thread, c, .OK) ∈ s.ended →
        Externals.sample.PUBLISH = c.attributes.type ∧
          (message ⟨.eight, .little⟩ .sample c).isSome := by
  obtain ⟨s, hrun⟩ : ∃ s : Publishers Bool (UInt64 × UInt64) Bytes Bool,
      Run (step ⟨.eight, .little⟩ .sample) init bothMissedSteps s :=
    ⟨_, .cons rfl (.cons rfl (.cons rfl (.cons rfl (.cons rfl (.cons rfl (.nil _))))))⟩
  exact ⟨s, hrun, traffic_of_run hrun⟩

end Publishers

end UpClientZenoh
