import UpClientZenoh.Execution
import UpClientZenoh.Ledger
import UpClientZenoh.MessageBuilder
import UpClientZenoh.MessageParser

/-!
# Transport

`ZenohUTransport` : publishing, listener registration, and the callbacks that zenoh runs.

A zenoh handle and a callback argument are positions in a ledger of what was declared,
cloned or allocated. Whether zenoh accepts a declaration, a put or a reply, and what a
listener answers, are arguments of the operations. What an operation does to the outside is
entered in `history`, newest first. An operation returns how the call ends and the state it
leaves, also where the call does not return.

`Call` and `step` are the sequential system : one complete call or callback after another.
-/

open NativeBytes MemoryAccess

namespace UpClientZenoh

open MessageBuilder MessageParser

/-! ## State -/

/-- A zenoh handle, or a pointer to a callback argument. -/
abbrev Handle := ℕ

/-- What is declared to zenoh. The key expression is the decimal numeral of `key`, and
`arg` is the argument of the callback. -/
inductive Entity
  | publisher (key : ℕ)
  | subscriber (key : ℕ) (arg : Handle)
  | queryable (key : ℕ) (arg : Handle)
  deriving DecidableEq, Repr

/-- `z_encoding_prefix_t`, as far as it is used. -/
inductive Encoding
  | APP_OCTET_STREAM
  | APP_JSON
  | TEXT_PLAIN
  deriving DecidableEq, Repr

/-- The listeners of a key. Listeners are compared by address. -/
structure ListenerContainer (Listener : Type) where
  subVector : List Handle
  queryVector : List Handle
  listenerVector : List Listener
  deriving DecidableEq, Repr

/-- `make_shared<ListenerContainer>()`. -/
def ListenerContainer.empty {Listener : Type} : ListenerContainer Listener :=
  ⟨[], [], []⟩

/-- A sample or a query as its callback sees it : the attachment, `none` if it is not valid,
with its entry `header`, `none` if its start is null. -/
structure Incoming (P : Platform) where
  attachment : Option (Option (Buffer P))
  payload : UPayload
  stray : Stray

/-- What a call does that can be seen from outside, or in `queryMap_`. -/
inductive Observation (UUID UUri Listener : Type)
  /-- A successful `z_publisher_put`. -/
  | put (pub : Handle) (payload : UPayload) (header : Bytes) (encoding : Encoding)
  /-- `queryMap_[uuidStr] = query`. -/
  | stored (uuidStr : Bytes) (query : Handle)
  /-- A call of `onReceive`, of a query if `query` is set, and its answer. -/
  | received (uri : UUri) (listener : Listener) (payload : UPayload)
      (attributes : UAttributes UUID UUri) (query : Option Handle) (answer : UCode)
  /-- A successful `z_query_reply` on the query found under `uuidStr`. -/
  | replied (uuidStr : Bytes) (query : Handle) (payload : UPayload) (header : Bytes)
      (encoding : Encoding)
  deriving DecidableEq

/-- The members of a `ZenohUTransport` and the zenoh objects it made. -/
structure ZenohUTransport (UUID UUri Listener : Type) where
  pubHandleMap : AList fun _ : ℕ => Handle
  listenerMap : AList fun _ : ℕ => ListenerContainer Listener
  queryMap : AList fun _ : Bytes => Handle
  /-- Publishers, subscribers and queryables, released when undeclared. -/
  entities : Ledger Entity
  /-- Clones of queries, released when dropped. -/
  queries : Ledger Unit
  /-- Callback arguments, released when deleted. -/
  args : Ledger (UUri × Listener)
  history : List (Observation UUID UUri Listener)

namespace ZenohUTransport

variable {UUID UUri Listener : Type}

/-- A transport after its constructor. -/
def init : ZenohUTransport UUID UUri Listener where
  pubHandleMap := ∅
  listenerMap := ∅
  queryMap := ∅
  entities := .empty
  queries := .empty
  args := .empty
  history := []

section Updates

variable (t : ZenohUTransport UUID UUri Listener)

/-- An accepted declaration. Its handle is `t.entities.next`. -/
def declare (entity : Entity) : ZenohUTransport UUID UUri Listener :=
  { t with entities := t.entities.alloc entity }

/-- `z_query_clone(query)`. The clone is `t.queries.next`. -/
def cloneQuery : ZenohUTransport UUID UUri Listener :=
  { t with queries := t.queries.alloc () }

/-- `z_drop(z_move(query))`. -/
def dropQuery (query : Handle) : ZenohUTransport UUID UUri Listener :=
  { t with queries := t.queries.release query }

/-- `new cbArgumentType(copyUri, this, listener)`. The pointer is `t.args.next`. -/
def newArg (uri : UUri) (listener : Listener) : ZenohUTransport UUID UUri Listener :=
  { t with args := t.args.alloc (uri, listener) }

/-- `delete arg`. -/
def deleteArg (arg : Handle) : ZenohUTransport UUID UUri Listener :=
  { t with args := t.args.release arg }

/-- `listenerMap_[uriHash] = listenerContainer`. -/
def setContainer (uriHash : ℕ) (container : ListenerContainer Listener) :
    ZenohUTransport UUID UUri Listener :=
  { t with listenerMap := t.listenerMap.insert uriHash container }

/-- `queryMap_[uuidStr] = query`. -/
def storeQuery (uuidStr : Bytes) (query : Handle) : ZenohUTransport UUID UUri Listener :=
  { t with
    queryMap := t.queryMap.insert uuidStr query
    history := .stored uuidStr query :: t.history }

/-- `queryMap_.erase(uuidStr)`. -/
def eraseQuery (uuidStr : Bytes) : ZenohUTransport UUID UUri Listener :=
  { t with queryMap := t.queryMap.erase uuidStr }

def observe (o : Observation UUID UUri Listener) : ZenohUTransport UUID UUri Listener :=
  { t with history := o :: t.history }

/-- `OnSubscriberClose(arg)`. -/
def OnSubscriberClose (arg : Handle) : ZenohUTransport UUID UUri Listener :=
  t.deleteArg arg

/-- `OnQueryClose(arg)`. -/
def OnQueryClose (arg : Handle) : ZenohUTransport UUID UUri Listener :=
  t.deleteArg arg

/-- `z_undeclare_subscriber` or `z_undeclare_queryable`. Zenoh drops the closure, which
closes its argument. -/
def undeclare (handle : Handle) : ZenohUTransport UUID UUri Listener :=
  let t' := { t with entities := t.entities.release handle }
  match t.entities.entries[handle]? with
  | some (.subscriber _ arg) => t'.OnSubscriberClose arg
  | some (.queryable _ arg) => t'.OnQueryClose arg
  | _ => t'

end Updates

variable {P : Platform} (X : Externals UUID UUri)

/-! ## Sending -/

/-- The result of a branch that logs `UMessageTypeToString(type).value()`. On a type without
a name `value` throws, and the call ends with `thrown`. -/
def wrongMessageType {α : Type} (type : UInt32) (thrown : Exit α) (result : α) : Exit α :=
  match X.messageTypeToString type with
  | some _ => .returned result
  | none => thrown

/-- `mapEncoding(encodingIn, encodingOut)`, `none` where it fails. -/
def mapEncoding (encodingIn : UInt32) : Option Encoding :=
  if encodingIn = X.PROTOBUF then some .APP_OCTET_STREAM
  else if encodingIn = X.JSON then some .APP_JSON
  else if encodingIn = X.SOMEIP then some .TEXT_PLAIN
  else if encodingIn = X.RAW then some .TEXT_PLAIN
  else none

/-- The encoding of a message, plain text without a serialization hint. -/
def encoding (attributes : UAttributes UUID UUri) : Option Encoding :=
  match attributes.serializationHint with
  | some hint => mapEncoding X hint
  | none => some .TEXT_PLAIN

/-- `pubHandleMap_.find(uriHash)`. -/
def findPublisher (uri : UUri) (t : ZenohUTransport UUID UUri Listener) : Option Handle :=
  t.pubHandleMap.lookup (X.uriHash uri)

/-- What follows the lookup. The section under `pubInitMutex_` tests the iterator from
before the lock again, and never looks the publisher up again. -/
def initPublisher (uri : UUri) (handleInfo : Option Handle) (declared : Bool)
    (t : ZenohUTransport UUID UUri Listener) :
    Option Handle × ZenohUTransport UUID UUri Listener :=
  let uriHash := X.uriHash uri
  match handleInfo with
  | some pub => (some pub, t)
  | none =>
    if declared = false then (none, t)
    else
      let pub := t.entities.next
      let t := t.declare (.publisher uriHash)
      (some pub, { t with pubHandleMap := t.pubHandleMap.insert uriHash pub })

variable (P)

/-- `sendPublish(uri, payload, attributes)`. -/
def sendPublish (uri : UUri) (payload : UPayload) (attributes : UAttributes UUID UUri)
    (declared put : Bool) (t : ZenohUTransport UUID UUri Listener) :
    Exit UCode × ZenohUTransport UUID UUri Listener :=
  if X.PUBLISH ≠ attributes.type then
    (wrongMessageType X attributes.type .terminated .INVALID_ARGUMENT, t)
  else
    match initPublisher X uri (findPublisher X uri t) declared t with
    | (none, t) => (.returned .UNAVAILABLE, t)
    | (some pub, t) =>
      match (buildHeader P X attributes).val with
      | .returned header =>
        if header = [] then (.returned .INTERNAL, t)
        else
          match encoding X attributes with
          | none => (.returned .UNAVAILABLE, t)
          | some encoding =>
            if put = false then (.returned .UNAVAILABLE, t)
            else (.returned .OK, t.observe (.put pub payload header encoding))
      | _ => (.terminated, t)

/-- `sendQueryable(uri, payload, attributes)`. The URI is not used. -/
def sendQueryable (payload : UPayload) (attributes : UAttributes UUID UUri) (replied : Bool)
    (t : ZenohUTransport UUID UUri Listener) : Exit UCode × ZenohUTransport UUID UUri Listener :=
  if X.RESPONSE ≠ attributes.type then
    (wrongMessageType X attributes.type .terminated .INVALID_ARGUMENT, t)
  else
    let uuidStr := X.serializeToString attributes.id
    match t.queryMap.lookup uuidStr with
    | none => (.returned .UNAVAILABLE, t)
    | some query =>
      match encoding X attributes with
      | none => (.returned .INTERNAL, t)
      | some encoding =>
        match (buildHeader P X attributes).val with
        | .returned header =>
          if header = [] then (.returned .INTERNAL, t)
          else if replied = false then (.returned .INTERNAL, t)
          else
            let t := t.observe (.replied uuidStr query payload header encoding)
            (.returned .OK, (t.dropQuery query).eraseQuery uuidStr)
        | _ => (.terminated, t)

/-- `send(uri, payload, attributes)`. `sent` is the outcome of the put or the reply. -/
def send (uri : UUri) (payload : UPayload) (attributes : UAttributes UUID UUri)
    (declared sent : Bool) (t : ZenohUTransport UUID UUri Listener) :
    Exit UCode × ZenohUTransport UUID UUri Listener :=
  if payload.size = 0 ∨ payload.data = none then (.returned .UNAVAILABLE, t)
  else if X.isRPCMethod uri = false then sendPublish P X uri payload attributes declared sent t
  else sendQueryable P X payload attributes sent t

variable {P}

theorem wrongMessageType_ne (type : UInt32) :
    wrongMessageType X type .terminated UCode.INVALID_ARGUMENT ≠ .returned .OK := by
  unfold wrongMessageType
  split <;> simp

/-- A `sendPublish` that fails has at most declared its publisher. One that succeeds has put
the message. -/
theorem sendPublish_cases (uri : UUri) (payload : UPayload) (attributes : UAttributes UUID UUri)
    (declared put : Bool) (t : ZenohUTransport UUID UUri Listener) :
    let r := sendPublish P X uri payload attributes declared put t
    let s := initPublisher X uri (findPublisher X uri t) declared t
    (r.1 ≠ .returned .OK ∧ (r.2 = t ∨ r.2 = s.2)) ∨
      ∃ pub header enc, X.PUBLISH = attributes.type ∧ s.1 = some pub ∧
        (buildHeader P X attributes).val = .returned header ∧ encoding X attributes = some enc ∧
        put = true ∧ r = (.returned .OK, s.2.observe (.put pub payload header enc)) := by
  intro r s
  have hr : r = sendPublish P X uri payload attributes declared put t := rfl
  unfold sendPublish at hr
  by_cases htype : X.PUBLISH = attributes.type
  swap
  · rw [if_pos htype] at hr
    rw [hr]
    exact Or.inl ⟨wrongMessageType_ne X _, Or.inl rfl⟩
  rw [if_neg (not_not.2 htype)] at hr
  rw [hr]
  dsimp only [s]
  obtain ⟨handle, t'⟩ := initPublisher X uri (findPublisher X uri t) declared t
  cases handle with
  | none => exact Or.inl ⟨by simp, Or.inr rfl⟩
  | some pub =>
    cases (buildHeader P X attributes).val with
    | returned header =>
      dsimp only
      by_cases hempty : header = []
      · rw [if_pos hempty]
        exact Or.inl ⟨by simp, Or.inr rfl⟩
      rw [if_neg hempty]
      cases encoding X attributes with
      | none => exact Or.inl ⟨by simp, Or.inr rfl⟩
      | some enc =>
        cases put with
        | false => exact Or.inl ⟨by simp, Or.inr rfl⟩
        | true => exact Or.inr ⟨pub, header, enc, htype, rfl, rfl, rfl, rfl, rfl⟩
    | terminated | threw | undefined | unfinished => exact Or.inl ⟨by simp, Or.inr rfl⟩

/-- A `sendQueryable` that fails leaves the state alone. One that succeeds has replied on
the query found under the id, dropped it and erased it. -/
theorem sendQueryable_cases (payload : UPayload) (attributes : UAttributes UUID UUri)
    (replied : Bool) (t : ZenohUTransport UUID UUri Listener) :
    let r := sendQueryable P X payload attributes replied t
    let uuidStr := X.serializeToString attributes.id
    (r.1 ≠ .returned .OK ∧ r.2 = t) ∨
      ∃ query header enc, X.RESPONSE = attributes.type ∧ t.queryMap.lookup uuidStr = some query ∧
        (buildHeader P X attributes).val = .returned header ∧ encoding X attributes = some enc ∧
        replied = true ∧ r = (.returned .OK, ((t.observe (.replied uuidStr query payload header
          enc)).dropQuery query).eraseQuery uuidStr) := by
  intro r uuidStr
  have hr : r = sendQueryable P X payload attributes replied t := rfl
  unfold sendQueryable at hr
  by_cases htype : X.RESPONSE = attributes.type
  swap
  · rw [if_pos htype] at hr
    rw [hr]
    exact Or.inl ⟨wrongMessageType_ne X _, rfl⟩
  rw [if_neg (not_not.2 htype)] at hr
  rw [hr]
  dsimp only [uuidStr]
  cases t.queryMap.lookup (X.serializeToString attributes.id) with
  | none => exact Or.inl ⟨by simp, rfl⟩
  | some query =>
    cases encoding X attributes with
    | none => exact Or.inl ⟨by simp, rfl⟩
    | some enc =>
      cases (buildHeader P X attributes).val with
      | returned header =>
        dsimp only
        by_cases hempty : header = []
        · rw [if_pos hempty]
          exact Or.inl ⟨by simp, rfl⟩
        rw [if_neg hempty]
        cases replied with
        | false => exact Or.inl ⟨by simp, rfl⟩
        | true => exact Or.inr ⟨query, header, enc, htype, rfl, rfl, rfl, rfl, rfl⟩
      | terminated | threw | undefined | unfinished => exact Or.inl ⟨by simp, rfl⟩

/-! ## Listeners -/

section Listeners

variable [DecidableEq Listener]

/-- `registerListener(uri, listener)`. A declaration that fails drops the closure, which
deletes the argument, and the function then deletes it once more before it returns `INTERNAL`.
The second `delete` is undefined. -/
def registerListener (uri : UUri) (listener : Listener) (declared : Bool)
    (t : ZenohUTransport UUID UUri Listener) : Exit UCode × ZenohUTransport UUID UUri Listener :=
  let uriHash := X.uriHash uri
  let container := (t.listenerMap.lookup uriHash).getD .empty
  if listener ∈ container.listenerVector then (.returned .INVALID_ARGUMENT, t)
  else
    let arg := t.args.next
    let t := t.newArg uri listener
    if X.isRPCMethod uri = false then
      if declared = false then (.undefined, (t.OnSubscriberClose arg).deleteArg arg)
      else
        let sub := t.entities.next
        let t := t.declare (.subscriber uriHash arg)
        (.returned .OK, t.setContainer uriHash
          { container with
            subVector := container.subVector ++ [sub]
            listenerVector := container.listenerVector ++ [listener] })
    else
      if declared = false then (.undefined, (t.OnQueryClose arg).deleteArg arg)
      else
        let qable := t.entities.next
        let t := t.declare (.queryable uriHash arg)
        (.returned .OK, t.setContainer uriHash
          { container with
            queryVector := container.queryVector ++ [qable]
            listenerVector := container.listenerVector ++ [listener] })

/-- The first half of `unregisterListener`'s loop : the position of the listener, and the
container without it. The position is an `int32_t`, here a natural number. -/
def eraseListener (listener : Listener) (container : ListenerContainer Listener) :
    Option (ℕ × ListenerContainer Listener) :=
  (container.listenerVector.idxOf? listener).map fun index =>
    (index, { container with listenerVector := container.listenerVector.eraseIdx index })

/-- The second half : undeclare and erase the handle at the position. -/
def eraseHandle (uriHash index : ℕ) (container : ListenerContainer Listener)
    (t : ZenohUTransport UUID UUri Listener) : Exit UCode × ZenohUTransport UUID UUri Listener :=
  if container.subVector ≠ [] then
    match container.subVector[index]? with
    | none => (.undefined, t)
    | some sub => (.returned .OK, (t.undeclare sub).setContainer uriHash
        { container with subVector := container.subVector.eraseIdx index })
  else
    match container.queryVector[index]? with
    | none => (.undefined, t)
    | some qable => (.returned .OK, (t.undeclare qable).setContainer uriHash
        { container with queryVector := container.queryVector.eraseIdx index })

/-- `unregisterListener(uri, listener)`. -/
def unregisterListener (uri : UUri) (listener : Listener)
    (t : ZenohUTransport UUID UUri Listener) : Exit UCode × ZenohUTransport UUID UUri Listener :=
  let uriHash := X.uriHash uri
  match t.listenerMap.lookup uriHash with
  | none => (.returned .INVALID_ARGUMENT, t)
  | some container =>
    match eraseListener listener container with
    | none => (.returned .OK, t)
    | some (index, container) =>
      eraseHandle uriHash index container (t.setContainer uriHash container)

end Listeners

/-! ## Callbacks -/

/-- The attached header, `none` where a callback stops for lack of one. -/
def headerOf (message : Incoming P) : Option (Buffer P) :=
  match message.attachment with
  | some (some header) => if header.bytes.length = 0 then none else some header
  | _ => none

theorem headerOf_attached {header : Buffer P} (hne : header.bytes ≠ []) (payload : UPayload)
    (stray : Stray) : headerOf (⟨some (some header), payload, stray⟩ : Incoming P) = some header :=
  if_neg (by simpa using hne)

variable (P)

/-- `getAllTlv` and then `getAttributes`. Where one of them accesses memory outside its
object, the call is undefined from there on. -/
def parseHeader (stray : Stray) (header : Buffer P) : Exit (Option (UAttributes UUID UUri)) :=
  if ¬(getAllTlv stray (some header)).InBounds then .undefined
  else
    match (getAllTlv stray (some header)).val with
    | .returned (some umap) =>
      if ¬(getAttributes P X stray umap).InBounds then .undefined
      else .returned (getAttributes P X stray umap).val
    | exit => exit.map fun _ => none

/-- `SubHandler(sample, arg)`. -/
def SubHandler (sample : Option (Incoming P)) (arg : Option (UUri × Listener)) (answer : UCode)
    (t : ZenohUTransport UUID UUri Listener) : Exit Unit × ZenohUTransport UUID UUri Listener :=
  match sample, arg with
  | some sample, some (uri, listener) =>
    match headerOf sample with
    | none => (.returned (), t)
    | some header =>
      match parseHeader P X sample.stray header with
      | .returned (some attributes) =>
        (.returned (), t.observe (.received uri listener sample.payload attributes none answer))
      | exit => (exit.map fun _ => (), t)
  | _, _ => (.returned (), t)

/-- `QueryHandler(query, arg)`. It is no `noexcept` function. -/
def QueryHandler (query : Incoming P) (arg : UUri × Listener) (answer : UCode)
    (t : ZenohUTransport UUID UUri Listener) : Exit Unit × ZenohUTransport UUID UUri Listener :=
  match headerOf query with
  | none => (.returned (), t)
  | some header =>
    let oquery := t.queries.next
    let t := t.cloneQuery
    match parseHeader P X query.stray header with
    | .returned (some attributes) =>
      let t := t.storeQuery (X.serializeToString attributes.id) oquery
      if X.REQUEST ≠ attributes.type then (wrongMessageType X attributes.type .threw (), t)
      else (.returned (),
        t.observe (.received arg.1 arg.2 query.payload attributes (some oquery) answer))
    | exit => (exit.map fun _ => (), t)

variable {P}

/-- The attached header decodes to the attributes. -/
def Decodes (message : Incoming P) (a : UAttributes UUID UUri) : Prop :=
  ∃ header, headerOf message = some header ∧
    parseHeader P X message.stray header = .returned (some a)

variable {X} in
theorem Decodes.unique {message : Incoming P} {a a' : UAttributes UUID UUri}
    (h : Decodes X message a) (h' : Decodes X message a') : a = a' := by
  obtain ⟨header, hheader, hparse⟩ := h
  obtain ⟨header', hheader', hparse'⟩ := h'
  obtain rfl := Option.some.inj (hheader.symm.trans hheader')
  exact Option.some.inj (Exit.returned.inj (hparse.symm.trans hparse'))

theorem not_decodes_of_headerOf {message : Incoming P} (h : headerOf message = none)
    (a : UAttributes UUID UUri) : ¬Decodes X message a := by
  rintro ⟨header, hheader, -⟩
  rw [h] at hheader
  cases hheader

theorem not_decodes_of_parseHeader {message : Incoming P} {header : Buffer P}
    (hheader : headerOf message = some header)
    (hparse : ∀ a, parseHeader P X message.stray header ≠ .returned (some a))
    (a : UAttributes UUID UUri) : ¬Decodes X message a := by
  rintro ⟨header', hheader', hparse'⟩
  obtain rfl := Option.some.inj (hheader.symm.trans hheader')
  exact hparse a hparse'

/-- `SubHandler` changes nothing but the history. -/
theorem SubHandler_cases (sample : Option (Incoming P)) (arg : Option (UUri × Listener))
    (answer : UCode) (t : ZenohUTransport UUID UUri Listener) :
    let r := SubHandler P X sample arg answer t
    r.2 = t ∨ ∃ message uri listener a, sample = some message ∧ arg = some (uri, listener) ∧
      Decodes X message a ∧
      r = (.returned (), t.observe (.received uri listener message.payload a none answer)) := by
  intro r
  have hr : r = SubHandler P X sample arg answer t := rfl
  unfold SubHandler at hr
  cases sample with
  | none => exact Or.inl (congrArg Prod.snd hr)
  | some message =>
    cases arg with
    | none => exact Or.inl (congrArg Prod.snd hr)
    | some arg =>
      dsimp only at hr
      cases hheader : headerOf message with
      | none =>
        rw [hheader] at hr
        exact Or.inl (congrArg Prod.snd hr)
      | some header =>
        rw [hheader] at hr
        dsimp only at hr
        cases hparse : parseHeader P X message.stray header with
        | returned attributes =>
          rw [hparse] at hr
          cases attributes with
          | none => exact Or.inl (congrArg Prod.snd hr)
          | some a =>
            exact Or.inr ⟨message, arg.1, arg.2, a, rfl, rfl, ⟨header, hheader, hparse⟩, hr⟩
        | terminated | threw | undefined | unfinished =>
          rw [hparse] at hr
          exact Or.inl (congrArg Prod.snd hr)

/-- A `QueryHandler` returns at once, or clones the query. If the header decodes it stores
the clone, and hands a request to the listener. -/
theorem QueryHandler_cases (query : Incoming P) (arg : UUri × Listener) (answer : UCode)
    (t : ZenohUTransport UUID UUri Listener) :
    let r := QueryHandler P X query arg answer t
    (headerOf query = none ∧ r = (.returned (), t)) ∨
    (headerOf query ≠ none ∧ (∀ a, ¬Decodes X query a) ∧ r.2 = t.cloneQuery) ∨
    ∃ a, Decodes X query a ∧
      let t' := t.cloneQuery.storeQuery (X.serializeToString a.id) t.queries.next
      (X.REQUEST ≠ a.type ∧ r = (wrongMessageType X a.type .threw (), t')) ∨
      (X.REQUEST = a.type ∧ r = (.returned (), t'.observe (.received arg.1 arg.2 query.payload a
        (some t.queries.next) answer))) := by
  intro r
  have hr : r = QueryHandler P X query arg answer t := rfl
  unfold QueryHandler at hr
  cases hheader : headerOf query with
  | none =>
    rw [hheader] at hr
    exact Or.inl ⟨rfl, hr⟩
  | some header =>
    rw [hheader] at hr
    dsimp only at hr
    refine Or.inr ?_
    cases hparse : parseHeader P X query.stray header with
    | returned attributes =>
      rw [hparse] at hr
      cases attributes with
      | none =>
        have hnone := not_decodes_of_parseHeader X hheader (by simp [hparse])
        exact Or.inl ⟨by simp, hnone, congrArg Prod.snd hr⟩
      | some a =>
        refine Or.inr ⟨a, ⟨header, hheader, hparse⟩, ?_⟩
        dsimp only at hr ⊢
        by_cases htype : X.REQUEST = a.type
        · rw [if_neg (not_not.2 htype)] at hr
          exact Or.inr ⟨htype, hr⟩
        · rw [if_pos htype] at hr
          exact Or.inl ⟨htype, hr⟩
    | terminated | threw | undefined | unfinished =>
      rw [hparse] at hr
      have hnone := not_decodes_of_parseHeader X hheader (by simp [hparse])
      exact Or.inl ⟨by simp, hnone, congrArg Prod.snd hr⟩

/-! ## Runs -/

/-- A complete call or callback, with the answers it gets from zenoh and the listener. -/
inductive Call (P : Platform) (UUID UUri Listener : Type)
  | send (uri : UUri) (payload : UPayload) (attributes : UAttributes UUID UUri)
      (declared sent : Bool)
  | registerListener (uri : UUri) (listener : Listener) (declared : Bool)
  | unregisterListener (uri : UUri) (listener : Listener)
  | SubHandler (sample : Option (Incoming P)) (arg : Option (UUri × Listener)) (answer : UCode)
  | QueryHandler (query : Incoming P) (arg : UUri × Listener) (answer : UCode)

variable [DecidableEq Listener]

/-- How a call ends, and the state it leaves. -/
def exec (t : ZenohUTransport UUID UUri Listener) :
    Call P UUID UUri Listener → Exit Unit × ZenohUTransport UUID UUri Listener
  | .send uri payload attributes declared sent =>
    (send P X uri payload attributes declared sent t).map (Exit.map fun _ => ()) id
  | .registerListener uri listener declared =>
    (registerListener X uri listener declared t).map (Exit.map fun _ => ()) id
  | .unregisterListener uri listener =>
    (unregisterListener X uri listener t).map (Exit.map fun _ => ()) id
  | .SubHandler sample arg answer => SubHandler P X sample arg answer t
  | .QueryHandler query arg answer => QueryHandler P X query arg answer t

/-- The state after a call that returns. A run also goes on after a registration whose
declaration fails, as if the second `delete` did nothing but be counted. -/
def step (t : ZenohUTransport UUID UUri Listener) (call : Call P UUID UUri Listener) :
    Option (ZenohUTransport UUID UUri Listener) :=
  match call, exec X t call with
  | _, (.returned _, t) => some t
  | .registerListener _ _ _, (_, t) => some t
  | _, _ => none

theorem step_of_returned {t t' : ZenohUTransport UUID UUri Listener}
    {call : Call P UUID UUri Listener} (h : exec X t call = (.returned (), t')) :
    step X t call = some t' := by
  unfold step
  rw [h]

theorem step_registerListener (t : ZenohUTransport UUID UUri Listener) (uri : UUri)
    (listener : Listener) (declared : Bool) :
    step X t (.registerListener uri listener declared : Call P UUID UUri Listener) =
      some (registerListener X uri listener declared t).2 := by
  unfold step
  dsimp only [exec]
  rcases registerListener X uri listener declared t with ⟨_ | _ | _ | _ | _, s⟩ <;> rfl

variable {X}

/-- A call that is a step returns, or is a registration. -/
theorem exec_of_step {t t' : ZenohUTransport UUID UUri Listener}
    {call : Call P UUID UUri Listener} (h : step X t call = some t') :
    exec X t call = (.returned (), t') ∨ ∃ uri listener declared,
      call = .registerListener uri listener declared ∧ (exec X t call).2 = t' := by
  unfold step at h
  cases call with
  | registerListener uri listener declared =>
    refine Or.inr ⟨uri, listener, declared, rfl, ?_⟩
    generalize exec X t (.registerListener uri listener declared) = r at h ⊢
    rcases r with ⟨_ | _ | _ | _ | _, s⟩ <;> simpa using h
  | send | unregisterListener | SubHandler | QueryHandler =>
    refine Or.inl ?_
    generalize exec X t _ = r at h ⊢
    rcases r with ⟨_ | _ | _ | _ | _, s⟩ <;> simp_all

theorem exec_snd_of_step {t t' : ZenohUTransport UUID UUri Listener}
    {call : Call P UUID UUri Listener} (h : step X t call = some t') : (exec X t call).2 = t' := by
  rcases exec_of_step h with h | ⟨-, -, -, -, h⟩
  · rw [h]
  · exact h

end ZenohUTransport

end UpClientZenoh
