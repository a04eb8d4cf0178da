import UpClientZenoh.ZenohUTransport

/-!
# RPC client

`ZenohRpcClient` : `invokeMethod` builds a header, allocates the channel of the replies and
the map of the attachment, and gets on the key of the URI. A future is the task that was
submitted for its channel : `handleReply`, on the replies that come through it.

`invokeMethod_cases` : a call comes to its get or leaves the client alone. The get is on the
key of the URI, with the header of the attributes, and only if zenoh accepts it a task is
submitted.
-/

open NativeBytes MemoryAccess

namespace UpClientZenoh

open MessageBuilder

/-- An accepted `z_get`. The key expression is the decimal numeral of `key`. -/
structure Get where
  key : ℕ
  value : UPayload
  header : Bytes
  deriving DecidableEq, Repr

/-- What a `ZenohRpcClient` made, and what it asked of zenoh and of the thread pool, newest
first. -/
structure ZenohRpcClient where
  /-- Reply channels, released when deleted. -/
  channels : Ledger Unit
  /-- The queue in each channel, released when dropped. -/
  fifos : Ledger Unit
  /-- Attachment maps, released when dropped. -/
  maps : Ledger Unit
  gets : List Get
  /-- The channels that `handleReply` was submitted for. -/
  submitted : List Handle
  deriving DecidableEq

namespace ZenohRpcClient

/-- A client after its constructor. -/
def init : ZenohRpcClient where
  channels := .empty
  fifos := .empty
  maps := .empty
  gets := []
  submitted := []

section Updates

variable (c : ZenohRpcClient)

/-- `new z_owned_reply_channel_t` and `zc_reply_fifo_new(16)`. The pointer is
`c.channels.next`. -/
def newChannel : ZenohRpcClient :=
  { c with
    channels := c.channels.alloc ()
    fifos := c.fifos.alloc () }

/-- `z_bytes_map_new()`. The map is `c.maps.next`. -/
def newMap : ZenohRpcClient :=
  { c with maps := c.maps.alloc () }

/-- `z_drop(&map)`. -/
def dropMap (map : Handle) : ZenohRpcClient :=
  { c with maps := c.maps.release map }

/-- An accepted `z_get`. -/
def get (g : Get) : ZenohRpcClient :=
  { c with gets := g :: c.gets }

/-- `threadPool_->submit(handleReply, channel)`. -/
def submit (channel : Handle) : ZenohRpcClient :=
  { c with submitted := channel :: c.submitted }

end Updates

variable {UUID UUri : Type} (P : Platform) (X : Externals UUID UUri)

/-- `opts.value.payload`, null where the payload is empty. -/
def getValue (payload : UPayload) : UPayload :=
  if payload.size ≠ 0 ∧ payload.data ≠ none then payload else ⟨none⟩

/-- `invokeMethod(uri, payload, attributes)`. The result is the channel of the future, `none`
for a future without a task. `accepted` is the outcome of `z_get`. -/
def invokeMethod (uri : UUri) (payload : UPayload) (attributes : UAttributes UUID UUri)
    (accepted : Bool) (c : ZenohRpcClient) : Exit (Option Handle) × ZenohRpcClient :=
  if X.isRPCMethod uri = false then (.returned none, c)
  else if X.REQUEST ≠ attributes.type then
    (ZenohUTransport.wrongMessageType X attributes.type .terminated none, c)
  else
    let uriHash := X.uriHash uri
    match (buildHeader P X attributes).val with
    | .returned header =>
      if header = [] then (.returned none, c)
      else
        let channel := c.channels.next
        let c := c.newChannel
        let map := c.maps.next
        let c := c.newMap
        if accepted = false then (.returned none, c.dropMap map)
        else
          let c := c.get ⟨uriHash, getValue payload, header⟩
          (.returned (some channel), (c.submit channel).dropMap map)
    | _ => (.terminated, c)

variable {P X}

theorem wrongMessageType_ne_future (type : UInt32) (channel : Handle) :
    ZenohUTransport.wrongMessageType X type .terminated none ≠ .returned (some channel) := by
  unfold ZenohUTransport.wrongMessageType
  split <;> simp

variable (P X) in
/-- A call with these arguments comes to its `z_get`, with the header. -/
def ReachesGet (uri : UUri) (attributes : UAttributes UUID UUri) (header : Bytes) : Prop :=
  X.isRPCMethod uri = true ∧ X.REQUEST = attributes.type ∧
    (buildHeader P X attributes).val = .returned header ∧ header ≠ []

/-- A call that does not come to its get changes nothing and gives no future. One that does
has allocated a channel and a map, and drops the map. -/
theorem invokeMethod_cases (uri : UUri) (payload : UPayload) (attributes : UAttributes UUID UUri)
    (accepted : Bool) (c : ZenohRpcClient) :
    let r := invokeMethod P X uri payload attributes accepted c
    let c' := c.newChannel.newMap
    ((∀ header, ¬ReachesGet P X uri attributes header) ∧ r.2 = c ∧
        ∀ channel, r.1 ≠ .returned (some channel)) ∨
      ∃ header, ReachesGet P X uri attributes header ∧
        ((accepted = false ∧ r = (.returned none, c'.dropMap c.maps.next)) ∨
          (accepted = true ∧ r = (.returned (some c.channels.next),
            ((c'.get ⟨X.uriHash uri, getValue payload, header⟩).submit c.channels.next).dropMap
              c.maps.next))) := by
  intro r c'
  have hr : r = invokeMethod P X uri payload attributes accepted c := rfl
  unfold invokeMethod at hr
  by_cases hrpc : X.isRPCMethod uri = false
  · rw [if_pos hrpc] at hr
    rw [hr]
    exact Or.inl ⟨fun header h => absurd (hrpc.symm.trans h.1) (by simp), rfl, by simp⟩
  rw [if_neg hrpc] at hr
  by_cases htype : X.REQUEST = attributes.type
  swap
  · rw [if_pos htype] at hr
    rw [hr]
    exact Or.inl ⟨fun header h => htype h.2.1, rfl, wrongMessageType_ne_future _⟩
  rw [if_neg (not_not.2 htype)] at hr
  rw [hr]
  unfold ReachesGet
  dsimp only
  cases (buildHeader P X attributes).val with
  | returned header =>
    dsimp only
    by_cases hempty : header = []
    · rw [if_pos hempty]
      refine Or.inl ⟨?_, rfl, by simp⟩
      rintro header' ⟨-, -, heq, hne⟩
      exact hne (Exit.returned.inj heq ▸ hempty)
    rw [if_neg hempty]
    refine Or.inr ⟨header, ⟨by simpa using hrpc, htype, rfl, hempty⟩, ?_⟩
    cases accepted with
    | false => exact Or.inl ⟨rfl, rfl⟩
    | true => exact Or.inr ⟨rfl, rfl⟩
  | terminated | threw | undefined | unfinished =>
    refine Or.inl ⟨?_, rfl, by simp⟩
    rintro header ⟨-, -, heq, -⟩
    cases heq

/-! ## Replies -/

/-- A reply as `handleReply` sees it : whether it is no error, and its sample. -/
structure Reply (P : Platform) where
  ok : Bool
  sample : Incoming P

variable (P X)

/-- The loop of `handleReply` over the replies that `recv` gives, up to the null one. A reply
that is taken is `replies.next`. It is dropped at the end of the loop's body, which a `break`
does not come to. -/
def replyLoop (stream : List (Reply P)) (retPayload : UPayload) (replies : Ledger Unit) :
    Exit UPayload × Ledger Unit :=
  match stream with
  | [] => (.returned retPayload, replies)
  | reply :: stream =>
    let taken := replies.next
    let replies := replies.alloc ()
    if reply.ok = false then (.returned retPayload, replies)
    else
      let sample := reply.sample
      if sample.payload.size = 0 ∨ sample.payload.data = none then (.returned retPayload, replies)
      else
        match sample.attachment with
        | none => (.returned retPayload, replies)
        | some none => (.returned retPayload, replies)
        | some (some index) =>
          match ZenohUTransport.parseHeader P X sample.stray index with
          | .returned (some _) => replyLoop stream sample.payload (replies.release taken)
          | exit => (exit.map fun _ => retPayload, replies)

/-- `z_drop(channel)` and `delete channel`. -/
def closeChannel (channel : Handle) (c : ZenohRpcClient) : ZenohRpcClient :=
  { c with
    fifos := c.fifos.release channel
    channels := c.channels.release channel }

/-- `handleReply(channel)`, on a channel that gives the replies of `stream`. It returns the
payload, or leaves the channel as it is where the process ends. -/
def handleReply (channel : Handle) (stream : List (Reply P)) (c : ZenohRpcClient)
    (replies : Ledger Unit) : Exit UPayload × ZenohRpcClient × Ledger Unit :=
  match replyLoop P X stream ⟨none⟩ replies with
  | (.returned retPayload, replies) => (.returned retPayload, c.closeChannel channel, replies)
  | (exit, replies) => (exit, c, replies)

end ZenohRpcClient

end UpClientZenoh
