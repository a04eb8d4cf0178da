import UpClientZenoh.HeaderParsing
import UpClientZenoh.PendingQueries
import UpClientZenoh.RegisteredPairs

/-!
# Publish delivery

From `send` on a topic to `onReceive`. Zenoh hands a put to the live subscribers on the key
expression of its publisher, once each, in any order (`Delivery`), and `SubHandler` runs for
each of them (`deliver`).

`publishReaches_iff` : while the unregistrations of the URI's key take their own handles, each
listener of the URI gets a payload whose send returned `OK` once if and only if the header
parses. The zero bytes left for a sink are read as records of their own, and where they end
inside one the parser reads past the end of the header (`parseHeader_padded`).
-/

open NativeBytes MemoryAccess Framing Execution

namespace UpClientZenoh

open MessageBuilder MessageParser

variable {UUID UUri Listener : Type} {P : Platform} {X : Externals UUID UUri}

/-! ## Headers with a sink -/

/-- The zero bytes that `buildHeader` leaves for a sink are records. -/
def PaddingParses (P : Platform) (X : Externals UUID UUri) (a : UAttributes UUID UUri) : Prop :=
  ∀ sink ∈ a.sink, 1 + P.sizeT ∣ (X.base64Encode (X.serializeUri sink)).length

theorem paddingParses_iff (a : UAttributes UUID UUri) :
    PaddingParses P X a ↔ 1 + P.sizeT ∣ sinkPadding P X a := by
  unfold PaddingParses sinkPadding
  cases a.sink with
  | none => simp
  | some sink => simp

/-- A header with its padding is a sequence of records, the zero records last, and the bytes
that are left of the padding. The zero records are fields of the tag `UURI` without value. -/
theorem exists_records_padded (a : UAttributes UUID UUri) {header : Buffer P}
    (hheader : header.bytes =
      fieldsBytes P (headerFields P X a) ++ List.replicate (sinkPadding P X a) 0) :
    ∃ rs : List (Framing.Record P.sizeT), (∀ r ∈ rs, ValidTag r.tag) ∧
      header.bytes = frames P.order rs ++
        List.replicate (sinkPadding P X a % (1 + P.sizeT)) 0 ∧
      DecodedAlike (insertRecords ∅ rs) (insertFields ∅ (headerFields P X a)) := by
  have hmax := P.two_mul_maxSize
  have hsize := header.size_le
  have hfit : fieldsSize P (headerFields P X a) ≤ P.maxSize := by
    rw [hheader, List.length_append] at hsize
    exact (Nat.le_add_right _ _).trans hsize
  obtain ⟨rs, hvalid, hframes, hinsert⟩ := exists_records P
    (fun f hf => (length_le_fieldsSize P hf).trans_lt (by omega)) (headerFields_tag_ne P X a)
  let n := sinkPadding P X a / (1 + P.sizeT)
  let zeros := List.replicate n (zeroRecord P.sizeT)
  have hzero : ∀ r ∈ zeros, r = zeroRecord P.sizeT := fun r hr => List.eq_of_mem_replicate hr
  have hlookup (tag : Tag) (htag : tag ≠ .UURI) : (insertRecords ∅ (rs ++ zeros)).lookup tag =
      (insertFields ∅ (headerFields P X a)).lookup tag := by
    rw [insertRecords, List.foldl_append, ← hinsert]
    refine lookup_insertRecords_of_ne _ fun r hr => ?_
    rw [hzero r hr]
    exact htag
  refine ⟨rs ++ zeros, fun r hr => ?_, ?_, fun tag htag => hlookup tag ?_, ?_⟩
  · rcases List.mem_append.1 hr with hr | hr
    · exact hvalid r hr
    · rw [hzero r hr]
      exact Nat.zero_le 11
  · rw [hheader, ← hframes, frames, frames, List.flatMap_append, List.append_assoc]
    refine congrArg _ ?_
    have hzeros := frames_zeroRecord P.order (w := P.sizeT) n
    rw [frames] at hzeros
    rw [hzeros, ← List.replicate_add, Nat.div_add_mod]
  · rintro rfl
    simp at htag
  · rw [hlookup .TTL (by decide)]

namespace ZenohUTransport

/-- A padding that ends inside a record is read past the end of the header. -/
theorem not_inBounds_padded {a : UAttributes UUID UUri} {header : Buffer P}
    (hheader : header.bytes =
      fieldsBytes P (headerFields P X a) ++ List.replicate (sinkPadding P X a) 0)
    (hpad : ¬PaddingParses P X a) (stray : Stray) :
    ¬(getAllTlv stray (some header)).InBounds := by
  obtain ⟨rs, hrecords, hbytes, -⟩ := exists_records_padded a hheader
  rw [paddingParses_iff] at hpad
  have hpos : 0 < sinkPadding P X a % (1 + P.sizeT) :=
    Nat.pos_of_ne_zero fun h => hpad (Nat.dvd_of_mod_eq_zero h)
  have hlt : sinkPadding P X a % (1 + P.sizeT) < 1 + P.sizeT := Nat.mod_lt _ (by omega)
  obtain ⟨k, hk⟩ := Nat.exists_eq_add_of_lt hpos
  rw [Nat.zero_add] at hk
  rw [hk, List.replicate_succ] at hbytes
  refine (getAllTlv_shortLength stray hrecords (by decide) hbytes ?_).1
  rw [List.length_replicate]
  omega

/-- A header breaks off inside a record exactly where its padding does. -/
theorem stopsBetweenRecords_padded_iff {a : UAttributes UUID UUri} {header : Buffer P}
    (hheader : header.bytes =
      fieldsBytes P (headerFields P X a) ++ List.replicate (sinkPadding P X a) 0) :
    StopsBetweenRecords header ↔ PaddingParses P X a := by
  constructor
  · intro hstops
    by_contra hpad
    exact not_inBounds_padded hheader hpad zeroStray
      (parsesSoundly_of_stopsBetweenRecords zeroStray hstops).inBounds
  · intro hpad
    obtain ⟨rs, hrecords, hbytes, -⟩ := exists_records_padded a hheader
    rw [paddingParses_iff] at hpad
    rw [Nat.mod_eq_zero_of_dvd hpad] at hbytes
    exact ⟨rs, [], hrecords, hbytes, by simp⟩

/-- What the receiver makes of a header with its padding, whatever else is in memory. -/
theorem parseHeader_padded (hlen : ∀ id, (X.serializeToBytes id).length = 16)
    {a : UAttributes UUID UUri} {header : Buffer P}
    (hheader : header.bytes =
      fieldsBytes P (headerFields P X a) ++ List.replicate (sinkPadding P X a) 0)
    (stray : Stray) :
    (PaddingParses P X a → ∃ a' : UAttributes UUID UUri,
      parseHeader P X stray header = .returned (some a')) ∧
    (¬PaddingParses P X a → parseHeader P X stray header = .undefined) := by
  refine ⟨fun hpad => ?_, fun hpad =>
    parseHeader_of_not_inBounds X stray (not_inBounds_padded hheader hpad stray)⟩
  obtain ⟨rs, hrecords, hbytes, halike⟩ := exists_records_padded a hheader
  rw [paddingParses_iff] at hpad
  rw [Nat.mod_eq_zero_of_dvd hpad, List.replicate_zero, List.append_nil] at hbytes
  obtain ⟨hmandatory, hsized⟩ := fieldsSized_headerFields P X hlen a
  have hmandatory' := mt halike.mandatoryMissing_iff.1 hmandatory
  have hreadable' := halike.fieldsReadable_iff.2 hsized.readable
  rcases parseHeader_frames X stray hrecords hbytes with ⟨-, h⟩ | ⟨hnot, -⟩
  · rw [← getAttributes_eq_none_iff P X stray, ← ne_eq, Option.ne_none_iff_exists']
      at hmandatory'
    obtain ⟨a', ha'⟩ := hmandatory'
    exact ⟨a', by rw [h, ha']⟩
  · exact absurd (Or.inr hreadable') hnot

/-! ## Delivery -/

/-- The argument that the closure of a subscriber holds. -/
def callbackArg (t : ZenohUTransport UUID UUri Listener) (h : Handle) :
    Option (UUri × Listener) :=
  match t.entities.entries[h]? with
  | some (.subscriber _ arg) => t.args.entries[arg]?
  | _ => none

variable (X) in
/-- The callbacks of the subscribers, one after another, each with its sample. One that does
not return is the last. -/
def deliver (sample : Handle → Incoming P) (answer : Handle → UCode) :
    List Handle → ZenohUTransport UUID UUri Listener →
      Exit Unit × ZenohUTransport UUID UUri Listener
  | [], t => (.returned (), t)
  | h :: handles, t =>
    match SubHandler P X (some (sample h)) (callbackArg t h) (answer h) t with
    | (.returned _, t) => deliver sample answer handles t
    | (exit, t) => (exit, t)

/-- The subscribers that zenoh delivers a put to : the live ones on the key expression of the
publisher, each once. -/
structure Delivery (t : ZenohUTransport UUID UUri Listener) (pub : Handle)
    (handles : List Handle) : Prop where
  nodup : handles.Nodup
  mem : ∀ h, h ∈ handles ↔ ∃ key arg, t.entities.entries[pub]? = some (.publisher key) ∧
    t.entities.Holds h (.subscriber key arg)

/-- A header that is not parsed to an end is handed to no one. -/
theorem deliver_of_undefined {header : Buffer P} (hne : header.bytes ≠ [])
    (hparse : ∀ stray, parseHeader P X stray header = .undefined)
    (put : UPayload) (stray : Handle → Stray) (answer : Handle → UCode) (handles : List Handle)
    (t : ZenohUTransport UUID UUri Listener) :
    (deliver X (fun h => ⟨some (some header), put, stray h⟩) answer handles t).2 = t := by
  induction handles with
  | nil => rfl
  | cons h handles ih =>
    have hheader := headerOf_attached hne put (stray h)
    rw [deliver]
    unfold SubHandler
    cases callbackArg t h with
    | none => exact ih
    | some p =>
      dsimp only
      rw [hheader]
      dsimp only
      rw [hparse]
      rfl

/-! ## Publishing -/

/-- The publisher that `initPublisher` gives is the one of the key. -/
theorem lookup_initPublisher {uri : UUri} {declared : Bool}
    {t : ZenohUTransport UUID UUri Listener} {pub : Handle}
    (h : (initPublisher X uri (findPublisher X uri t) declared t).1 = some pub) :
    (initPublisher X uri (findPublisher X uri t) declared t).2.pubHandleMap.lookup
      (X.uriHash uri) = some pub := by
  unfold initPublisher at h ⊢
  cases hfind : findPublisher X uri t with
  | none =>
    rw [hfind] at h
    cases declared with
    | false => cases h
    | true =>
      rw [← h]
      exact AList.lookup_insert _
  | some pub' =>
    rw [hfind] at h
    rw [← h]
    exact hfind

/-- A send on a topic that returns `OK` has put the payload with a header on the publisher of
the URI's key. -/
theorem send_publish {uri : UUri} {payload : UPayload} {attributes : UAttributes UUID UUri}
    {declared sent : Bool} {t t' : ZenohUTransport UUID UUri Listener}
    (hrpc : X.isRPCMethod uri = false)
    (hsend : send P X uri payload attributes declared sent t = (.returned .OK, t')) :
    ∃ pub header encoding, (buildHeader P X attributes).val = .returned header ∧
      t'.pubHandleMap.lookup (X.uriHash uri) = some pub ∧
      t'.history = .put pub payload header encoding :: t.history := by
  unfold send at hsend
  split_ifs at hsend
  · cases hsend
  · rcases sendPublish_cases X uri payload attributes declared sent t with
      ⟨hne, -⟩ | ⟨pub, header, enc, -, hpub, hbuild, -, -, h⟩
    · exact absurd (congrArg Prod.fst hsend) hne
    · rw [h] at hsend
      rw [← (Prod.mk.inj hsend).2]
      refine ⟨pub, header, enc, hbuild, lookup_initPublisher hpub, ?_⟩
      rw [observe, (initPublisher_queries X uri _ declared t).2.2]

theorem subscribedAs_of_onlyPublishes {t t' : ZenohUTransport UUID UUri Listener}
    (h : OnlyPublishes t t') (key : ℕ) (k : Handle) (p : UUri × Listener) :
    SubscribedAs t' key k p ↔ SubscribedAs t key k p := by
  unfold SubscribedAs
  rw [h.args]
  refine exists_congr fun arg => and_congr_left fun _ => ?_
  rcases h.publishers with ⟨-, heq⟩ | ⟨key', -, -, heq⟩
  · rw [heq]
  · rw [heq, Ledger.holds_alloc]
    simp

/-- What a successful send on a topic leaves : the put, on the publisher of the URI's key. -/
structure Published (X : Externals UUID UUri) (uri : UUri) (payload : UPayload)
    (a : UAttributes UUID UUri) (pub : Handle) (header : Buffer P) (encoding : Encoding)
    (t t' : ZenohUTransport UUID UUri Listener) : Prop where
  only : OnlyPublishes t t'
  owned : Owned X t'
  publisher : t'.entities.entries[pub]? = some (.publisher (X.uriHash uri))
  bytes : header.bytes = fieldsBytes P (headerFields P X a) ++ List.replicate (sinkPadding P X a) 0
  history : t'.history = .put pub payload header.bytes encoding :: t.history

theorem exists_published {t t' : ZenohUTransport UUID UUri Listener} (howned : Owned X t)
    {uri : UUri} (hrpc : X.isRPCMethod uri = false) {payload : UPayload}
    {a : UAttributes UUID UUri}
    (hcount : fieldsSize P (headerFields P X a) + sinkPadding P X a < P.sizeMod)
    {declared sent : Bool}
    (hsend : send P X uri payload a declared sent t = (.returned .OK, t')) :
    ∃ (pub : Handle) (header : Buffer P) (encoding : Encoding),
      Published X uri payload a pub header encoding t t' := by
  obtain ⟨pub, header, encoding, hbuild, hlookup, hhistory⟩ := send_publish hrpc hsend
  obtain ⟨hfit, hbytes⟩ := buildHeader_returned P X hcount hbuild
  have hsize : header.length ≤ P.maxSize := by
    rw [hbytes, List.length_append, List.length_replicate]
    exact hfit
  have honly : OnlyPublishes t t' := by
    have h := onlyPublishes_send (P := P) X uri payload a declared sent t
    rwa [hsend] at h
  have howned' := howned.of_onlyPublishes honly
  exact ⟨pub, ⟨header, hsize⟩, encoding, honly, howned', ((howned'.publisher _ _).1 hlookup).2,
    hbytes, hhistory⟩

section Published

variable {t t' : ZenohUTransport UUID UUri Listener} {uri : UUri} {payload : UPayload}
  {a : UAttributes UUID UUri} {pub : Handle} {header : Buffer P} {encoding : Encoding}
  (h : Published X uri payload a pub header encoding t t')

include h

theorem Published.header_ne : header.bytes ≠ [] := by
  simp [h.bytes, headerFields, fieldBytes]

/-- The subscribers of the container are the ones zenoh delivers to. -/
theorem Published.delivery : Delivery t' pub (t'.container (X.uriHash uri)).subVector := by
  refine ⟨h.owned.distinct false (X.uriHash uri), fun k => ?_⟩
  refine (h.owned.listener false (X.uriHash uri) k).trans ⟨?_, ?_⟩
  · rintro ⟨arg, hholds⟩
    exact ⟨X.uriHash uri, arg, h.publisher, hholds⟩
  · rintro ⟨key, arg, hpub, hholds⟩
    cases h.publisher.symm.trans hpub
    exact ⟨arg, hholds⟩

end Published

/-! ## What the listeners get -/

variable [DecidableEq Listener]

/-- What a listener got, with the URI it was called with, newest first. -/
def receivedBy (listener : Listener) (history : List (Observation UUID UUri Listener)) :
    List (UUri × UPayload) :=
  history.filterMap fun o =>
    match o with
    | .received uri listener' payload _ _ _ =>
      if listener' = listener then some (uri, payload) else none
    | _ => none

theorem receivedBy_received (listener : Listener)
    (history : List (Observation UUID UUri Listener)) (p : UUri × Listener) (payload : UPayload)
    (attributes : UAttributes UUID UUri) (query : Option Handle) (answer : UCode) :
    receivedBy listener (.received p.1 p.2 payload attributes query answer :: history) =
      if p.2 = listener then (p.1, payload) :: receivedBy listener history
      else receivedBy listener history := by
  unfold receivedBy
  split_ifs with hlistener
  · exact List.filterMap_cons_some (if_pos hlistener)
  · exact List.filterMap_cons_none (if_neg hlistener)

/-- After a send that led from `t` to `t'` zenoh delivers the put. Then for each listener of
the URI the callbacks return, and it got the payload once, with the URI. -/
def PublishReaches (P : Platform) (X : Externals UUID UUri) (table : List (UUri × Listener))
    (uri : UUri) (payload : UPayload) (t t' : ZenohUTransport UUID UUri Listener) : Prop :=
  ∀ (pub : Handle) (put : UPayload) (header : Buffer P) (encoding : Encoding),
    t'.history = .put pub put header.bytes encoding :: t.history →
    ∀ handles, Delivery t' pub handles → ∀ (stray : Handle → Stray) (answer : Handle → UCode),
      let r := deliver X (fun h => ⟨some (some header), put, stray h⟩) answer handles t'
      ∀ listener, (uri, listener) ∈ table → r.1 = .returned () ∧
        receivedBy listener r.2.history = (uri, payload) :: receivedBy listener t.history

/-- The URI with which the callback of a subscriber calls the listener, if it does. -/
def callsWith (t : ZenohUTransport UUID UUri Listener) (listener : Listener) (h : Handle) :
    Option UUri :=
  (callbackArg t h).bind fun p => if p.2 = listener then some p.1 else none

/-- A header that parses is handed to each listener. -/
theorem deliver_of_parses {header : Buffer P} (hne : header.bytes ≠ [])
    (hparse : ∀ stray, ∃ a : UAttributes UUID UUri,
      parseHeader P X stray header = .returned (some a))
    (put : UPayload) (stray : Handle → Stray) (answer : Handle → UCode) (handles : List Handle)
    (t : ZenohUTransport UUID UUri Listener) :
    let r := deliver X (fun h => ⟨some (some header), put, stray h⟩) answer handles t
    r.1 = .returned () ∧ ∀ listener, receivedBy listener r.2.history =
      ((handles.filterMap (callsWith t listener)).map (·, put)).reverse ++
        receivedBy listener t.history := by
  induction handles generalizing t with
  | nil => exact ⟨rfl, fun listener => rfl⟩
  | cons h handles ih =>
    have hheader := headerOf_attached hne put (stray h)
    obtain ⟨a, ha⟩ := hparse (stray h)
    intro r
    have hr : r = deliver X (fun h => ⟨some (some header), put, stray h⟩) answer (h :: handles) t :=
      rfl
    unfold deliver SubHandler at hr
    cases harg : callbackArg t h with
    | none =>
      rw [harg] at hr
      obtain ⟨hexit, hreceived⟩ := ih t
      rw [hr]
      refine ⟨hexit, fun listener => (hreceived listener).trans ?_⟩
      rw [List.filterMap_cons_none (by rw [callsWith, harg]; rfl)]
    | some p =>
      rw [harg] at hr
      dsimp only at hr
      rw [hheader] at hr
      dsimp only at hr
      rw [ha] at hr
      obtain ⟨hexit, hreceived⟩ := ih (t.observe (.received p.1 p.2 put a none (answer h)))
      rw [hr]
      refine ⟨hexit, fun listener => (hreceived listener).trans ?_⟩
      change ((handles.filterMap (callsWith t listener)).map (·, put)).reverse ++
        receivedBy listener (.received p.1 p.2 put a none (answer h) :: t.history) = _
      rw [receivedBy_received]
      by_cases hlistener : p.2 = listener
      · have hcalls : callsWith t listener h = some p.1 := by
          rw [callsWith, harg, Option.bind_some, if_pos hlistener]
        rw [List.filterMap_cons_some hcalls, List.map_cons, List.reverse_cons, List.append_assoc,
          if_pos hlistener]
        rfl
      · have hcalls : callsWith t listener h = none := by
          rw [callsWith, harg, Option.bind_some, if_neg hlistener]
        rw [List.filterMap_cons_none hcalls, if_neg hlistener]

/-- Of distinct values exactly one is mapped to `b`, and the others to nothing. -/
theorem filterMap_eq_singleton_iff {α β : Type*} {f : α → Option β} {b : β} {xs : List α}
    (h : xs.Nodup) :
    xs.filterMap f = [b] ↔ ∃ x, ∀ y c, (y ∈ xs ∧ f y = some c) ↔ y = x ∧ c = b := by
  induction xs with
  | nil =>
    refine iff_of_false (by simp) ?_
    rintro ⟨x, hx⟩
    exact List.not_mem_nil ((hx x b).2 ⟨rfl, rfl⟩).1
  | cons x xs ih =>
    obtain ⟨hx, hxs⟩ := List.nodup_cons.1 h
    cases hfx : f x with
    | none =>
      rw [List.filterMap_cons_none hfx, ih hxs]
      refine exists_congr fun z => forall₂_congr fun y c => ?_
      rw [List.mem_cons]
      refine iff_congr ?_ Iff.rfl
      constructor
      · exact fun hy => ⟨Or.inr hy.1, hy.2⟩
      · rintro ⟨rfl | hy, hfy⟩
        · rw [hfx] at hfy
          cases hfy
        · exact ⟨hy, hfy⟩
    | some c =>
      rw [List.filterMap_cons_some hfx, List.cons.injEq, List.filterMap_eq_nil_iff]
      constructor
      · rintro ⟨rfl, hnone⟩
        refine ⟨x, fun y c' => ⟨?_, ?_⟩⟩
        · rintro ⟨hy, hfy⟩
          rcases List.mem_cons.1 hy with rfl | hy
          · rw [hfx] at hfy
            exact ⟨rfl, (Option.some.inj hfy).symm⟩
          · rw [hnone y hy] at hfy
            cases hfy
        · rintro ⟨rfl, rfl⟩
          exact ⟨List.mem_cons_self, hfx⟩
      · rintro ⟨z, hz⟩
        obtain ⟨rfl, rfl⟩ := (hz x c).1 ⟨List.mem_cons_self, hfx⟩
        refine ⟨rfl, fun y hy => Option.eq_none_iff_forall_ne_some.2 fun c' hfy => ?_⟩
        obtain ⟨rfl, -⟩ := (hz y c').1 ⟨List.mem_cons_of_mem _ hy, hfy⟩
        exact hx hy

/-- Of the subscribers of a key, the ones that call the listener. -/
theorem callsWith_iff {t : ZenohUTransport UUID UUri Listener} {pub : Handle} {key : ℕ}
    (hpub : t.entities.entries[pub]? = some (.publisher key)) {handles : List Handle}
    (hdelivery : Delivery t pub handles) (listener : Listener) (k : Handle) (uri : UUri) :
    (k ∈ handles ∧ callsWith t listener k = some uri) ↔ SubscribedAs t key k (uri, listener) := by
  have harg {arg : Handle} (hholds : t.entities.Holds k (.subscriber key arg)) :
      callbackArg t k = t.args.entries[arg]? := by
    rw [callbackArg, hholds.2]
  rw [hdelivery.mem]
  constructor
  · rintro ⟨⟨key', arg, hpub', hholds⟩, hcalls⟩
    cases hpub.symm.trans hpub'
    rw [callsWith, harg hholds, Option.bind_eq_some_iff] at hcalls
    obtain ⟨p, hp, huri⟩ := hcalls
    split_ifs at huri with hlistener
    cases huri
    subst hlistener
    exact ⟨arg, hholds, hp⟩
  · rintro ⟨arg, hholds, hp⟩
    refine ⟨⟨key, arg, hpub, hholds⟩, ?_⟩
    rw [callsWith, harg hholds, hp, Option.bind_some, if_pos rfl]

section Reached

variable {t t' : ZenohUTransport UUID UUri Listener} {uri : UUri} {payload : UPayload}
  {a : UAttributes UUID UUri} {pub : Handle} {header : Buffer P} {encoding : Encoding}
  (h : Published X uri payload a pub header encoding t t')

include h

/-- A listener is called once and with the URI if and only if it is subscribed once. -/
theorem Published.calledOnce_iff {handles : List Handle} (hdelivery : Delivery t' pub handles)
    (listener : Listener) :
    handles.filterMap (callsWith t' listener) = [uri] ↔ SubscribedOnce X t uri listener := by
  rw [filterMap_eq_singleton_iff hdelivery.nodup]
  refine exists_congr fun k => forall₂_congr fun k' uri' => ?_
  rw [callsWith_iff h.publisher hdelivery, subscribedAs_of_onlyPublishes h.only]

/-- The put itself is nothing that a listener gets. -/
theorem Published.receivedBy_eq (listener : Listener) :
    receivedBy listener t'.history = receivedBy listener t.history := by
  rw [h.history]
  rfl

theorem Published.paddingParses (hlen : ∀ id, (X.serializeToBytes id).length = 16)
    {table : List (UUri × Listener)} (hreaches : PublishReaches P X table uri payload t t')
    {listener : Listener} (hmem : (uri, listener) ∈ table) : PaddingParses P X a := by
  obtain ⟨-, hreceived⟩ := hreaches pub payload header encoding h.history _ h.delivery
    (fun _ => zeroStray) (fun _ => .OK) listener hmem
  by_contra hpad
  have hparse (stray : Stray) := (parseHeader_padded hlen h.bytes stray).2 hpad
  rw [deliver_of_undefined h.header_ne hparse, h.receivedBy_eq] at hreceived
  exact List.cons_ne_self _ _ hreceived.symm

theorem Published.reaches (hlen : ∀ id, (X.serializeToBytes id).length = 16)
    {table : List (UUri × Listener)}
    (hall : ∀ listener, (uri, listener) ∈ table →
      PaddingParses P X a ∧ SubscribedOnce X t uri listener) :
    PublishReaches P X table uri payload t t' := by
  intro pub' put header' encoding' hhistory handles hdelivery stray answer r listener hmem
  obtain ⟨hput, -⟩ := List.cons.inj (h.history.symm.trans hhistory)
  obtain ⟨rfl, rfl, hheader, -⟩ := Observation.put.inj hput
  have hbytes := h.bytes
  have hne := h.header_ne
  rw [hheader] at hbytes hne
  obtain ⟨hpad, hsubscribed⟩ := hall listener hmem
  obtain ⟨hexit, hreceived⟩ := deliver_of_parses hne
    (fun stray => (parseHeader_padded hlen hbytes stray).1 hpad) payload stray answer handles t'
  refine ⟨hexit, (hreceived listener).trans ?_⟩
  rw [(h.calledOnce_iff hdelivery listener).2 hsubscribed, h.receivedBy_eq]
  rfl

end Reached

/-- In every state reached by calls of which those that unregister on the key of the URI took
their own handle, and in every state where no queryable has the key, a message that is
published with success reaches each listener of its URI once if and only if there is none or
the padding for the sink parses. -/
theorem publishReaches_iff (hlen : ∀ id, (X.serializeToBytes id).length = 16)
    {calls : List (Call P UUID UUri Listener)} {t t' : ZenohUTransport UUID UUri Listener}
    (hrun : Run (step X) init calls t) {uri : UUri} (hrpc : X.isRPCMethod uri = false)
    (hown : Along (step X) (RemovesOwnHandle X (X.uriHash uri)) init calls ∨
      (t.container (X.uriHash uri)).queryVector = [])
    {payload : UPayload} {a : UAttributes UUID UUri}
    (hcount : fieldsSize P (headerFields P X a) + sinkPadding P X a < P.sizeMod)
    {declared sent : Bool}
    (hsend : send P X uri payload a declared sent t = (.returned .OK, t')) :
    PublishReaches P X (tableAfter X calls) uri payload t t' ↔
      ((∃ listener, (uri, listener) ∈ tableAfter X calls) → PaddingParses P X a) := by
  obtain ⟨howned, htable⟩ := tabled_of_run hrun
  obtain ⟨pub, header, encoding, h⟩ := exists_published howned hrpc hcount hsend
  have hsubscribed {listener : Listener} (hmem : (uri, listener) ∈ tableAfter X calls) :
      SubscribedOnce X t uri listener := by
    rcases hown with hown | hempty
    · exact (paired_of_run hrun hown).subscribedOnce rfl hrpc hmem
    · exact htable.subscribedOnce howned hempty hmem
  constructor
  · rintro hreaches ⟨listener, hmem⟩
    exact h.paddingParses hlen hreaches hmem
  · intro hpad
    exact h.reaches hlen fun listener hmem => ⟨hpad ⟨listener, hmem⟩, hsubscribed hmem⟩

/-- A listener of the topic `a`. -/
def oneRegistration : List (Call ⟨.eight, .little⟩ (UInt64 × UInt64) Bytes Bool) :=
  [.registerListener [97] false true]

/-- The state after `oneRegistration`. -/
def oneListener : ZenohUTransport (UInt64 × UInt64) Bytes Bool :=
  (registerListener .sample [97] false true init).2

/-- The state after a message with the attributes is published on `a`. -/
def afterPublish (a : UAttributes (UInt64 × UInt64) Bytes) :
    ZenohUTransport (UInt64 × UInt64) Bytes Bool :=
  (send ⟨.eight, .little⟩ .sample [97] ⟨some [7]⟩ a true true oneListener).2

theorem run_oneRegistration : Run (step .sample) init oneRegistration oneListener :=
  .cons rfl (.nil _)

theorem publishReaches_iff_oneListener :
    PublishReaches ⟨.eight, .little⟩ .sample (tableAfter .sample oneRegistration) [97] ⟨some [7]⟩
        oneListener (afterPublish (.builder (0, 0) 1 0)) ↔
      ((∃ listener, ([97], listener) ∈ tableAfter .sample oneRegistration) →
        PaddingParses ⟨.eight, .little⟩ .sample (.builder (0, 0) 1 0)) :=
  have hlen (id : UInt64 × UInt64) : (Externals.sample.serializeToBytes id).length = 16 := by
    simp [Externals.sample]
  have hown : Along (step .sample) (RemovesOwnHandle .sample (Externals.sample.uriHash [97])) init
      oneRegistration := ⟨trivial, fun _ _ => trivial⟩
  have hsend : send ⟨.eight, .little⟩ .sample [97] ⟨some [7]⟩ (.builder (0, 0) 1 0) true true
      oneListener = (.returned .OK, afterPublish (.builder (0, 0) 1 0)) := rfl
  publishReaches_iff hlen run_oneRegistration (by decide) (Or.inl hown) (by decide) hsend

/-- The message with a sink whose base64 has four bytes reaches no one. -/
theorem not_publishReaches_sink :
    Run (step .sample) init oneRegistration oneListener ∧
      send ⟨.eight, .little⟩ .sample [97] ⟨some [7]⟩ sinkAttributes.toUAttributes true true
        oneListener = (.returned .OK, afterPublish sinkAttributes.toUAttributes) ∧
      ¬PublishReaches ⟨.eight, .little⟩ .sample (tableAfter .sample oneRegistration) [97]
        ⟨some [7]⟩ oneListener (afterPublish sinkAttributes.toUAttributes) := by
  have hsend : send ⟨.eight, .little⟩ .sample [97] ⟨some [7]⟩ sinkAttributes.toUAttributes true
      true oneListener = (.returned .OK, afterPublish sinkAttributes.toUAttributes) := rfl
  refine ⟨run_oneRegistration, hsend, fun hreaches => ?_⟩
  obtain ⟨pub, header, encoding, h⟩ := exists_published (tabled_of_run run_oneRegistration).1
    (by decide) (by decide) hsend
  have hpad := h.paddingParses (fun _ => by simp [Externals.sample]) hreaches
    (show ([97], false) ∈ tableAfter .sample oneRegistration by decide)
  exact absurd (hpad [97] rfl) (by decide)

end ZenohUTransport

end UpClientZenoh
