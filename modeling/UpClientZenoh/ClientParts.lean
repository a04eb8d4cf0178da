import UpClientZenoh.SessionManager

/-!
# Client parts

An `upZenohClient` is a `ZenohUTransport` and a `ZenohRpcClient`. The constructor of each
calls `init` on the session manager, and may fail. The destructor of each calls `term`,
whether or not its own `init` succeeded.

`termsPaired_iff` : along a sequence of complete constructions and destructions the count is
the number of live parts whose `init` succeeded, and a part whose `init` failed leaves the
manager alone when it is destroyed, if and only if such parts are destroyed at a count of
zero and no count wraps around (`TermsOwned`).
-/

open Execution

namespace UpClientZenoh

/-! ## Constructors -/

inductive PartKind
  | transport
  | rpcClient
  deriving DecidableEq, Repr

/-- A live `ZenohUTransport` or `ZenohRpcClient`. -/
structure Part (Object : Type) where
  object : Object
  kind : PartKind
  /-- Its own `init` returned `OK`. -/
  initialised : Bool
  /-- `session_`, `none` where the constructor has not set it. -/
  session : Option (Option SessionHandle)
  /-- `uSuccess_` or `rpcSuccess_`. -/
  success : UCode
  deriving DecidableEq

variable {Object : Type}

namespace Part

/-- `ZenohUTransport()`. The last statement sets `uSuccess_` to `OK`, whatever the others set
it to. -/
def constructTransport (object : Object) (configured opened : Bool) (m : ZenohSessionManager) :
    Part Object × ZenohSessionManager :=
  let r := m.init configured opened
  (⟨object, .transport, r.1 = .OK, r.2.getSession, .OK⟩, r.2)

/-- `ZenohRpcClient()`. -/
def constructRpcClient (object : Object) (configured opened : Bool) (m : ZenohSessionManager) :
    Part Object × ZenohSessionManager :=
  let r := m.init configured opened
  if r.1 ≠ .OK then (⟨object, .rpcClient, false, none, .UNAVAILABLE⟩, r.2)
  else
    match r.2.getSession with
    | some session => (⟨object, .rpcClient, true, some session, .OK⟩, r.2)
    | none => (⟨object, .rpcClient, true, none, .UNAVAILABLE⟩, r.2)

/-- The constructor of a part. -/
def construct (object : Object) (kind : PartKind) (configured opened : Bool)
    (m : ZenohSessionManager) : Part Object × ZenohSessionManager :=
  match kind with
  | .transport => constructTransport object configured opened m
  | .rpcClient => constructRpcClient object configured opened m

/-- A constructor calls `init` once and keeps its result. -/
theorem construct_init (object : Object) (kind : PartKind) (configured opened : Bool)
    (m : ZenohSessionManager) :
    let r := construct object kind configured opened m
    r.2 = (m.init configured opened).2 ∧
      (r.1.initialised = true ↔ (m.init configured opened).1 = .OK) := by
  cases kind with
  | transport => exact ⟨rfl, decide_eq_true_iff⟩
  | rpcClient =>
    unfold construct constructRpcClient
    dsimp only
    split_ifs with hok
    · exact ⟨rfl, by simp [hok]⟩
    · split <;> exact ⟨rfl, by simp [not_not.1 hok]⟩

end Part

/-! ## Lifetimes -/

/-- Where an object is between its base parts. -/
inductive Lifecycle
  | absent
  | constructing
  | constructed
  | destroying
  deriving DecidableEq, Repr

/-- The constructor or destructor of a part. -/
inductive PartEvent
  | construct (kind : PartKind) (configured opened : Bool)
  | destroy (kind : PartKind)
  deriving DecidableEq, Repr

namespace PartEvent

/-- Where an object is before its part is constructed or destroyed : the transport is
constructed first and destroyed last. -/
def before : PartEvent → Lifecycle
  | .construct .transport _ _ => .absent
  | .construct .rpcClient _ _ => .constructing
  | .destroy .rpcClient => .constructed
  | .destroy .transport => .destroying

def after : PartEvent → Lifecycle
  | .construct .transport _ _ => .constructing
  | .construct .rpcClient _ _ => .constructed
  | .destroy .rpcClient => .destroying
  | .destroy .transport => .absent

end PartEvent

/-- The manager and the objects that use it. -/
structure Clients (Object : Type) where
  manager : ZenohSessionManager
  lifecycle : Object → Lifecycle
  parts : List (Part Object)

namespace Clients

/-- No objects. -/
def init : Clients Object where
  manager := .initial
  lifecycle _ := .absent
  parts := []

variable [DecidableEq Object]

/-- The live part of a kind of an object. -/
def findPart (s : Clients Object) (object : Object) (kind : PartKind) : Option (Part Object) :=
  s.parts.find? fun part => part.object = object ∧ part.kind = kind

/-- A complete construction or destruction of a part. -/
def step (s : Clients Object) (e : Object × PartEvent) : Option (Clients Object) :=
  if s.lifecycle e.1 = e.2.before then
    let lifecycle := Function.update s.lifecycle e.1 e.2.after
    match e.2 with
    | .construct kind configured opened =>
      let r := Part.construct e.1 kind configured opened s.manager
      some ⟨r.2, lifecycle, r.1 :: s.parts⟩
    | .destroy kind =>
      match s.findPart e.1 kind with
      | some part => some ⟨s.manager.term.2, lifecycle, s.parts.erase part⟩
      | none => none
  else none

/-- The count is the number of live parts whose own `init` returned `OK`. -/
def Accounted (s : Clients Object) : Prop :=
  s.manager.refCount.toNat = s.parts.countP (·.initialised)

/-- The event leaves the count right. A part whose `init` failed leaves the manager alone when
it is destroyed. -/
def TermsPaired (s : Clients Object) (e : Object × PartEvent) : Prop :=
  ∀ s', step s e = some s' → Accounted s' ∧ ∀ kind part, e.2 = .destroy kind →
    s.findPart e.1 kind = some part → part.initialised = false → s'.manager = s.manager

/-- A part is constructed at a count that does not wrap around. A part whose `init` failed is
destroyed at a count of zero. -/
def TermsOwned (s : Clients Object) (e : Object × PartEvent) : Prop :=
  ∀ s', step s e = some s' →
    match e.2 with
    | .construct _ _ _ => s.manager.refCount + 1 ≠ 0
    | .destroy kind => ∀ part, s.findPart e.1 kind = some part → part.initialised = false →
        s.manager.refCount = 0

variable {s : Clients Object}

omit [DecidableEq Object] in
/-- Constructing a part keeps the count right if and only if it does not wrap around. -/
theorem accounted_construct_iff (hs : Accounted s) (object : Object) (kind : PartKind)
    (configured opened : Bool) (lifecycle : Object → Lifecycle) :
    let r := Part.construct object kind configured opened s.manager
    Accounted ⟨r.2, lifecycle, r.1 :: s.parts⟩ ↔ s.manager.refCount + 1 ≠ 0 := by
  intro r
  obtain ⟨hmanager, hinitialised⟩ :=
    Part.construct_init object kind configured opened s.manager
  unfold Accounted at hs ⊢
  dsimp only
  rw [hmanager, List.countP_cons, ← hs]
  rcases s.manager.init_cases configured opened with ⟨hok, hcount⟩ | ⟨hinternal, hzero, hcount⟩
  · rw [hcount, if_pos (hinitialised.2 hok)]
    constructor
    · intro htoNat hwrap
      rw [hwrap] at htoNat
      exact absurd htoNat (Nat.succ_ne_zero _).symm
    · exact ZenohSessionManager.toNat_add_one
  · have hfailed : ¬r.1.initialised = true := by
      rw [hinitialised, hinternal]
      decide
    rw [hcount, hzero, if_neg hfailed]
    exact iff_of_true rfl (by decide)

theorem findPart_mem {object : Object} {kind : PartKind} {part : Part Object}
    (h : s.findPart object kind = some part) : part ∈ s.parts :=
  List.mem_of_find?_eq_some h

theorem countP_erase {part : Part Object} (h : part ∈ s.parts) :
    s.parts.countP (·.initialised) =
      (s.parts.erase part).countP (·.initialised) + if part.initialised = true then 1 else 0 := by
  rw [(List.perm_cons_erase h).countP_eq, List.countP_cons]

/-- Destroying a part whose `init` succeeded keeps the count right. -/
theorem accounted_destroy (hs : Accounted s) {part : Part Object} (h : part ∈ s.parts)
    (hpart : part.initialised = true) (lifecycle : Object → Lifecycle) :
    Accounted ⟨s.manager.term.2, lifecycle, s.parts.erase part⟩ := by
  unfold Accounted at hs ⊢
  dsimp only
  rw [ZenohSessionManager.toNat_refCount_term, hs, countP_erase h, if_pos hpart,
    Nat.add_sub_cancel]

/-- Destroying a part whose `init` failed takes one off that belongs to another, unless there
is none. -/
theorem accounted_destroy_failed_iff (hs : Accounted s) {part : Part Object} (h : part ∈ s.parts)
    (hpart : part.initialised = false) (lifecycle : Object → Lifecycle) :
    (Accounted ⟨s.manager.term.2, lifecycle, s.parts.erase part⟩ ∧
      s.manager.term.2 = s.manager) ↔ s.manager.refCount = 0 := by
  have hcountP := countP_erase h
  rw [hpart, if_neg (by simp), add_zero] at hcountP
  unfold Accounted at hs ⊢
  dsimp only
  rw [ZenohSessionManager.toNat_refCount_term, ← hcountP, ← hs]
  rcases s.manager.term_cases with ⟨hzero, hsame⟩ | ⟨hne, -, -⟩
  · refine iff_of_true ⟨?_, hsame⟩ hzero
    rw [hzero]
    rfl
  · refine iff_of_false (fun h => ?_) hne
    have hpos : 0 < s.manager.refCount.toNat :=
      UInt32.lt_iff_toNat_lt.1 (UInt32.pos_iff_ne_zero.2 hne)
    omega

theorem step_construct {object : Object} {kind : PartKind} {configured opened : Bool}
    {s' : Clients Object} (h : step s (object, .construct kind configured opened) = some s') :
    ∃ lifecycle, s' = ⟨(Part.construct object kind configured opened s.manager).2, lifecycle,
      (Part.construct object kind configured opened s.manager).1 :: s.parts⟩ := by
  obtain ⟨-, hs'⟩ := Option.ite_none_right_eq_some.1 h
  exact ⟨_, (Option.some.inj hs').symm⟩

theorem step_destroy {object : Object} {kind : PartKind} {s' : Clients Object}
    (h : step s (object, .destroy kind) = some s') :
    ∃ part lifecycle, s.findPart object kind = some part ∧
      s' = ⟨s.manager.term.2, lifecycle, s.parts.erase part⟩ := by
  obtain ⟨-, hs'⟩ := Option.ite_none_right_eq_some.1 h
  dsimp only at hs'
  cases hpart : s.findPart object kind with
  | none =>
    rw [hpart] at hs'
    cases hs'
  | some part =>
    rw [hpart] at hs'
    exact ⟨part, _, rfl, (Option.some.inj hs').symm⟩

theorem termsPaired_construct_iff (hs : Accounted s) (object : Object) (kind : PartKind)
    (configured opened : Bool) :
    TermsPaired s (object, .construct kind configured opened) ↔
      TermsOwned s (object, .construct kind configured opened) := by
  refine forall_congr' fun s' => imp_congr_right fun hstep => ?_
  obtain ⟨lifecycle, rfl⟩ := step_construct hstep
  refine (and_iff_left ?_).trans
    (accounted_construct_iff hs object kind configured opened lifecycle)
  intro kind' part h
  cases h

theorem termsPaired_destroy_iff (hs : Accounted s) (object : Object) (kind : PartKind) :
    TermsPaired s (object, .destroy kind) ↔ TermsOwned s (object, .destroy kind) := by
  refine forall_congr' fun s' => imp_congr_right fun hstep => ?_
  obtain ⟨part, lifecycle, hfind, rfl⟩ := step_destroy hstep
  have hmem := findPart_mem hfind
  cases hpart : part.initialised with
  | false =>
    have hfailed := accounted_destroy_failed_iff hs hmem hpart lifecycle
    constructor
    · rintro ⟨haccounted, hsame⟩ _ _ _
      exact hfailed.1 ⟨haccounted, hsame kind part rfl hfind hpart⟩
    · intro hzero
      obtain ⟨haccounted, hsame⟩ := hfailed.2 (hzero part hfind hpart)
      exact ⟨haccounted, fun _ _ _ _ _ => hsame⟩
  | true =>
    have hother {part' : Part Object} (h : s.findPart object kind = some part')
        (hpart' : part'.initialised = false) : False := by
      obtain rfl := Option.some.inj (hfind.symm.trans h)
      rw [hpart] at hpart'
      cases hpart'
    refine iff_of_true ⟨accounted_destroy hs hmem hpart lifecycle, ?_⟩ ?_
    · intro kind' part' h hfind' hpart'
      cases h
      exact (hother hfind' hpart').elim
    · intro part' hfind' hpart'
      exact (hother hfind' hpart').elim

/-- An event keeps the accounts if and only if it owns its `term`. -/
theorem termsPaired_iff_termsOwned (hs : Accounted s) (e : Object × PartEvent) :
    TermsPaired s e ↔ TermsOwned s e := by
  obtain ⟨object, e⟩ := e
  cases e with
  | construct kind configured opened =>
    exact termsPaired_construct_iff hs object kind configured opened
  | destroy kind => exact termsPaired_destroy_iff hs object kind

omit [DecidableEq Object] in
theorem accounted_init : Accounted (init : Clients Object) :=
  rfl

/-- Along every sequence of constructions and destructions the accounts are right if and only
if every event owns its `term`. -/
theorem termsPaired_iff (es : List (Object × PartEvent)) :
    Along step TermsPaired init es ↔ Along step TermsOwned init es := by
  have hpreserves : Preserves step TermsPaired (Accounted : Clients Object → Prop) :=
    fun s e s' _ hpaired hstep => (hpaired s' hstep).1
  exact along_congr hpreserves (fun s e hs => termsPaired_iff_termsOwned hs e) accounted_init
    es

/-- One object gets no session, another does, and the first is destroyed. -/
def failedAndLive : List (Bool × PartEvent) :=
  [(false, .construct .transport true false), (false, .construct .rpcClient true false),
    (true, .construct .transport true true), (true, .construct .rpcClient true true),
    (false, .destroy .rpcClient), (false, .destroy .transport)]

/-- The count drops to one and then to zero, and the session is closed with both parts of the
second object alive. -/
theorem not_termsPaired_failedAndLive :
    ¬Along step TermsPaired init failedAndLive ∧ ∃ s, Run step init failedAndLive s ∧
      s.manager.session = none ∧ s.parts.countP (·.initialised) = 2 := by
  constructor
  · rintro ⟨-, h⟩
    obtain ⟨-, h⟩ := h _ rfl
    obtain ⟨-, h⟩ := h _ rfl
    obtain ⟨-, h⟩ := h _ rfl
    obtain ⟨hpaired, -⟩ := h _ rfl
    have haccounted : 1 = 2 := (hpaired _ rfl).1
    cases haccounted
  · exact ⟨_, .cons rfl (.cons rfl (.cons rfl (.cons rfl (.cons rfl (.cons rfl (.nil _)))))), rfl,
      rfl⟩

end Clients

end UpClientZenoh
