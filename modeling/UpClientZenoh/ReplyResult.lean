import UpClientZenoh.HeaderParsing
import UpClientZenoh.ParserProgress
import UpClientZenoh.ZenohRpcClient

/-!
# The result of a request

`handleReply` takes the replies of a channel one after another, and each that it has no
objection to replaces the payload it is going to return.

`replyLoop_cons` : how the loop's body ends on one reply. `returnsLastValid_iff` : the result
is the payload of the last reply before the first that is not valid if and only if that one
does not come to a header that the parsers do not return from (`Unsound`). Such a header
breaks off inside a record, or has fields that are read or copied out of bounds.
-/

open MemoryAccess

namespace UpClientZenoh

namespace ZenohRpcClient

variable {UUID UUri : Type} {P : Platform} (X : Externals UUID UUri)

open MessageParser ZenohUTransport

/-! ## One reply -/

/-- An OK reply with a payload, and with a header that parses to attributes. -/
def validReply (reply : Reply P) : Bool :=
  reply.ok && decide (reply.sample.payload.size ≠ 0) && reply.sample.payload.data.isSome &&
    match reply.sample.attachment with
    | some (some header) =>
      match parseHeader P X reply.sample.stray header with
      | .returned (some _) => true
      | _ => false
    | _ => false

/-- An OK reply with a payload, and with a header that breaks off inside a record, or whose
fields do not have the sizes that keep the decoder in bounds. -/
def Unsound (reply : Reply P) : Prop :=
  reply.ok = true ∧ reply.sample.payload.size ≠ 0 ∧ reply.sample.payload.data ≠ none ∧
    ∃ header, reply.sample.attachment = some (some header) ∧ ¬SoundHeader header

/-- The body of the loop goes on with a valid reply's payload, breaks on a reply that is not
valid, or does not end. -/
theorem replyLoop_cons (reply : Reply P) (stream : List (Reply P)) (retPayload : UPayload)
    (replies : Ledger Unit) :
    let r := replyLoop P X (reply :: stream) retPayload replies
    (validReply X reply = true ∧ r = replyLoop P X stream reply.sample.payload
        ((replies.alloc ()).release replies.next)) ∨
      (validReply X reply = false ∧ ¬Unsound reply ∧
        r = (.returned retPayload, replies.alloc ())) ∨
      (validReply X reply = false ∧ Unsound reply ∧ (r.1 = .terminated ∨ r.1 = .undefined) ∧
        r.2 = replies.alloc ()) := by
  intro r
  have hr : r = replyLoop P X (reply :: stream) retPayload replies := rfl
  unfold replyLoop at hr
  unfold validReply Unsound
  by_cases hok : reply.ok = false
  · rw [if_pos hok] at hr
    exact Or.inr (Or.inl ⟨by simp [hok], by simp [hok], hr⟩)
  rw [if_neg hok] at hr
  rw [Bool.not_eq_false] at hok
  dsimp only at hr
  by_cases hpayload : reply.sample.payload.size = 0 ∨ reply.sample.payload.data = none
  · rw [if_pos hpayload] at hr
    refine Or.inr (Or.inl ⟨?_, ?_, hr⟩)
    · rcases hpayload with h | h <;> simp [h]
    · rintro ⟨-, hsize, hdata, -⟩
      exact hpayload.elim hsize hdata
  rw [if_neg hpayload] at hr
  rw [not_or] at hpayload
  have hdata : reply.sample.payload.data.isSome = true := Option.isSome_iff_ne_none.2 hpayload.2
  rcases hattachment : reply.sample.attachment with _ | _ | header
  · rw [hattachment] at hr
    exact Or.inr (Or.inl ⟨by simp, by simp, hr⟩)
  · rw [hattachment] at hr
    exact Or.inr (Or.inl ⟨by simp, by simp, hr⟩)
  rw [hattachment] at hr
  dsimp only at hr
  have hsound := parseHeader_returns_iff X reply.sample.stray header
  rcases parseHeader_ends X reply.sample.stray header with ⟨_ | a, hparse⟩ | hparse
  · rw [hparse] at hr
    refine Or.inr (Or.inl ⟨by simp [hparse], ?_, hr⟩)
    rintro ⟨-, -, -, header', heq, hunsound⟩
    cases heq
    exact hunsound (hsound.1 ⟨none, hparse⟩)
  · rw [hparse] at hr
    exact Or.inl ⟨by simp [hok, hpayload.1, hdata, hparse], hr⟩
  · have hunsound : ¬SoundHeader header := by
      rw [← hsound]
      rintro ⟨result, hreturned⟩
      rcases hparse with hparse | hparse <;> simp [hparse] at hreturned
    refine Or.inr (Or.inr ⟨?_, ⟨hok, hpayload.1, hpayload.2, header, rfl, hunsound⟩, ?_⟩)
    · rcases hparse with hparse | hparse <;> simp [hparse]
    · rcases hparse with hparse | hparse <;> rw [hparse] at hr <;> rw [hr]
      · exact ⟨Or.inl rfl, rfl⟩
      · exact ⟨Or.inr rfl, rfl⟩

/-! ## The stream -/

/-- The payload of the last of the replies, `retPayload` if there is none. -/
def lastPayload (retPayload : UPayload) (stream : List (Reply P)) : UPayload :=
  (stream.getLast?.map fun reply => reply.sample.payload).getD retPayload

theorem lastPayload_cons (retPayload : UPayload) (reply : Reply P) (stream : List (Reply P)) :
    lastPayload retPayload (reply :: stream) = lastPayload reply.sample.payload stream := by
  rw [lastPayload, lastPayload, List.getLast?_cons]
  cases stream.getLast? <;> rfl

/-- The first reply that is not valid, if there is one, does not come to an unsound header. -/
def StopsByReturn (stream : List (Reply P)) : Prop :=
  ∀ reply ∈ stream.find? fun reply => !validReply X reply, ¬Unsound reply

/-- The call returns the payload of the last reply of the longest prefix of valid ones, the
empty payload if that prefix is empty. -/
def ReturnsLastValid (stream : List (Reply P)) (exit : Exit UPayload) : Prop :=
  exit = .returned (lastPayload ⟨none⟩ (stream.takeWhile (validReply X)))

/-- The loop returns the last payload of the valid replies if and only if it returns. -/
theorem replyLoop_returned_iff (stream : List (Reply P)) (retPayload : UPayload)
    (replies : Ledger Unit) :
    (replyLoop P X stream retPayload replies).1 =
        .returned (lastPayload retPayload (stream.takeWhile (validReply X))) ↔
      StopsByReturn X stream := by
  unfold StopsByReturn
  induction stream generalizing retPayload replies with
  | nil => simp [replyLoop, lastPayload]
  | cons reply stream ih =>
    rcases replyLoop_cons X reply stream retPayload replies with
      ⟨hvalid, hr⟩ | ⟨hinvalid, hsound, hr⟩ | ⟨hinvalid, hunsound, hexit, -⟩
    · rw [hr, List.takeWhile_cons_of_pos hvalid, lastPayload_cons,
        List.find?_cons_of_neg (by simp [hvalid]), ih]
    · rw [hr, List.takeWhile_cons_of_neg (by simp [hinvalid]),
        List.find?_cons_of_pos (by simp [hinvalid])]
      simp [lastPayload, hsound]
    · rw [List.find?_cons_of_pos (by simp [hinvalid])]
      refine iff_of_false (fun hreturned => ?_) fun h => h reply rfl hunsound
      rcases hexit with hexit | hexit <;> rw [hexit] at hreturned <;> cases hreturned

/-- The result is that of the loop. -/
theorem handleReply_fst (channel : Handle) (stream : List (Reply P)) (c : ZenohRpcClient)
    (replies : Ledger Unit) :
    (handleReply P X channel stream c replies).1 = (replyLoop P X stream ⟨none⟩ replies).1 := by
  unfold handleReply
  rcases replyLoop P X stream ⟨none⟩ replies with ⟨_ | _ | _ | _ | _, replies'⟩ <;> rfl

/-- The result is the payload of the last valid reply before the first that is not valid if
and only if that one has no unsound header. -/
theorem returnsLastValid_iff (channel : Handle) (stream : List (Reply P)) (c : ZenohRpcClient)
    (replies : Ledger Unit) :
    ReturnsLastValid X stream (handleReply P X channel stream c replies).1 ↔
      StopsByReturn X stream := by
  rw [ReturnsLastValid, handleReply_fst, replyLoop_returned_iff]

/-- An OK reply with a payload and the circular record as its header. -/
def circularReply : Reply ⟨.eight, .little⟩ where
  ok := true
  sample := ⟨some (some circularRecord), ⟨some [7]⟩, zeroStray⟩

/-- The circular record ends the process. -/
theorem not_returnsLastValid_circularReply :
    ¬ReturnsLastValid .sample [circularReply]
      (handleReply ⟨.eight, .little⟩ .sample 0 [circularReply] .init .empty).1 := by
  have hterminated := (parseHeader_terminated_iff .sample zeroStray circularRecord).2
    ⟨_, _, declaresLength_circularRecord, by decide⟩
  have hunsound : Unsound circularReply := by
    refine ⟨rfl, by decide, by decide, circularRecord, rfl, ?_⟩
    rw [← parseHeader_returns_iff .sample zeroStray, hterminated]
    simp
  rw [ReturnsLastValid, handleReply_fst, replyLoop_returned_iff]
  exact fun h => h circularReply rfl hunsound

end ZenohRpcClient

end UpClientZenoh
