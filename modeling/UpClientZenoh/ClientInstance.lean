import UpClientZenoh.ClientParts

/-!
# Client instance

`upZenohClient::instance()`, called by any number of threads. The lookup through the weak
pointer and, where it missed, the section under `construction_mtx` are one step each, and so
is the drop of a handle. Other users of the session manager may move it to any state in
between.

`exclusive_along` : in every interleaving the handles that are held point to one client, a
client is constructed only when none is held, and one whose construction failed is never
visible. `handsOutUsable_iff` : in every interleaving each handle points to a client whose
parts both have a session if and only if every construction finds the manager and zenoh such
that both parts get one or the RPC client fails (`OpensAlike`). The transport reports success
whatever its `init` returned.
-/

open Execution

namespace UpClientZenoh

/-! ## Construction -/

/-- What zenoh answers during an `init` : it accepts the keys of the configuration, and
`z_open` succeeds. -/
structure InitOutcome where
  configured : Bool
  opened : Bool
  deriving DecidableEq, Repr

def InitOutcome.Opens (o : InitOutcome) : Prop :=
  o.configured = true ∧ o.opened = true

/-- The part called `init` with success, and has a valid session. -/
def Part.HasSession {Object : Type} (part : Part Object) : Prop :=
  part.initialised = true ∧ ∃ session, part.session = some (some session)

/-- A pointer to a client. -/
abbrev ClientPointer := ℕ

structure UpZenohClient where
  transport : Part ClientPointer
  rpcClient : Part ClientPointer
  deriving DecidableEq

namespace UpZenohClient

/-- `make_shared<upZenohClient>(ConstructToken())`. The transport is constructed first. -/
def construct (p : ClientPointer) (transport rpcClient : InitOutcome) (m : ZenohSessionManager) :
    UpZenohClient × ZenohSessionManager :=
  let r := Part.constructTransport p transport.configured transport.opened m
  let r' := Part.constructRpcClient p rpcClient.configured rpcClient.opened r.2
  (⟨r.1, r'.1⟩, r'.2)

/-- What the destructors of both parts leave of the manager. -/
def destroy (m : ZenohSessionManager) : ZenohSessionManager :=
  m.term.2.term.2

/-- The test at the end of `instance()`. -/
def Succeeded (c : UpZenohClient) : Prop :=
  c.rpcClient.success = .OK ∧ c.transport.success = .OK

instance (c : UpZenohClient) : Decidable c.Succeeded :=
  inferInstanceAs (Decidable (_ ∧ _))

def Usable (c : UpZenohClient) : Prop :=
  c.transport.HasSession ∧ c.rpcClient.HasSession

end UpZenohClient

/-- Both parts get a session, or the RPC client gets none. At a count of zero the transport
opens the session. At other counts the session is valid, unless the count wraps around. -/
structure OpensAlike (m : ZenohSessionManager) (transport rpcClient : InitOutcome) : Prop where
  first : m.refCount = 0 → rpcClient.Opens → transport.Opens
  wraps : m.refCount + 1 = 0 → ¬rpcClient.Opens
  valid : m.refCount ≠ 0 → m.refCount + 1 ≠ 0 → m.refCount + 1 + 1 ≠ 0 → m.session ≠ none

namespace ZenohSessionManager

variable (m : ZenohSessionManager)

/-- At a count of zero an `init` opens the session or fails. At other counts it succeeds. -/
theorem init_opens_cases (o : InitOutcome) :
    let r := m.init o.configured o.opened
    (m.refCount = 0 ∧ o.Opens ∧ r.1 = .OK ∧ r.2.refCount = 1 ∧ r.2.session ≠ none) ∨
      (m.refCount = 0 ∧ ¬o.Opens ∧ r.1 = .INTERNAL ∧ r.2.refCount = 0) ∨
      (m.refCount ≠ 0 ∧ r.1 = .OK ∧ r.2.refCount = m.refCount + 1 ∧ r.2.session = m.session) := by
  intro r
  have hr : r = m.init o.configured o.opened := rfl
  obtain ⟨configured, opened⟩ := o
  unfold init at hr
  by_cases hzero : m.refCount = 0
  · rw [if_pos hzero, initLocked, if_pos hzero] at hr
    cases configured with
    | false =>
      rw [if_pos rfl] at hr
      rw [hr]
      exact Or.inr (Or.inl ⟨hzero, fun h => Bool.false_ne_true h.1, rfl, hzero⟩)
    | true =>
      rw [if_neg (by simp)] at hr
      cases opened with
      | false =>
        rw [hr.trans (if_pos rfl)]
        exact Or.inr (Or.inl ⟨hzero, fun h => Bool.false_ne_true h.2, rfl, hzero⟩)
      | true =>
        have hcount : (m.open_ true).fetchAdd.2.refCount = 1 := by
          rw [fetchAdd, refCount_open_, hzero]
          rfl
        rw [if_neg (by simp [open_])] at hr
        rw [hr]
        exact Or.inl ⟨hzero, ⟨rfl, rfl⟩, rfl, hcount, by simp [fetchAdd, open_]⟩
  · rw [if_neg hzero] at hr
    rw [hr]
    exact Or.inr (Or.inr ⟨hzero, rfl, rfl, rfl⟩)

variable {m}

theorem getSession_of_zero (h : m.refCount = 0) : m.getSession = none :=
  if_neg (by rw [h]; decide)

theorem getSession_of_ne_zero (h : m.refCount ≠ 0) : m.getSession = some m.session :=
  if_pos (UInt32.pos_iff_ne_zero.2 h)

end ZenohSessionManager

/-- The RPC client reports success if and only if it is initialised and gets a session, valid
or not. -/
theorem Part.constructRpcClient_success_iff {Object : Type} (object : Object)
    (configured opened : Bool) (m : ZenohSessionManager) :
    (constructRpcClient object configured opened m).1.success = .OK ↔
      (m.init configured opened).1 = .OK ∧
        ∃ session, (m.init configured opened).2.getSession = some session := by
  unfold constructRpcClient
  dsimp only
  split_ifs with hok
  · exact iff_of_false (by simp) fun h => hok h.1
  · cases (m.init configured opened).2.getSession with
    | none => exact iff_of_false (by simp) (by simp)
    | some session => exact iff_of_true rfl ⟨not_not.1 hok, session, rfl⟩

/-- Each part has a session if and only if its `init` succeeds and `getSession` gives a valid
one. -/
theorem Part.construct_hasSession_iff {Object : Type} (object : Object) (kind : PartKind)
    (configured opened : Bool) (m : ZenohSessionManager) :
    (construct object kind configured opened m).1.HasSession ↔
      (m.init configured opened).1 = .OK ∧
        ∃ session, (m.init configured opened).2.getSession = some (some session) := by
  cases kind with
  | transport => exact and_congr decide_eq_true_iff Iff.rfl
  | rpcClient =>
    unfold construct constructRpcClient HasSession
    dsimp only
    split_ifs with hok
    · exact iff_of_false (by simp) fun h => hok h.1
    · cases (m.init configured opened).2.getSession <;> simp [not_not.1 hok]

namespace UpZenohClient

variable (p : ClientPointer) (o o' : InitOutcome) (m : ZenohSessionManager)

theorem succeeded_construct_iff : (construct p o o' m).1.Succeeded ↔
    ((m.init o.configured o.opened).2.init o'.configured o'.opened).1 = .OK ∧ ∃ session,
      ((m.init o.configured o.opened).2.init o'.configured o'.opened).2.getSession =
        some session :=
  (and_iff_left rfl).trans (Part.constructRpcClient_success_iff p o'.configured o'.opened
    (m.init o.configured o.opened).2)

theorem usable_construct_iff : (construct p o o' m).1.Usable ↔
    ((m.init o.configured o.opened).1 = .OK ∧ ∃ session,
      (m.init o.configured o.opened).2.getSession = some (some session)) ∧
    ((m.init o.configured o.opened).2.init o'.configured o'.opened).1 = .OK ∧ ∃ session,
      ((m.init o.configured o.opened).2.init o'.configured o'.opened).2.getSession =
        some (some session) :=
  and_congr (Part.construct_hasSession_iff p .transport o.configured o.opened m)
    (Part.construct_hasSession_iff p .rpcClient o'.configured o'.opened
      (m.init o.configured o.opened).2)

/-- Where the transport leaves a count of zero it has no session. -/
theorem usable_of_succeeded_iff_of_zero
    (hzero : (m.init o.configured o.opened).2.refCount = 0) :
    ((construct p o o' m).1.Succeeded → (construct p o o' m).1.Usable) ↔ ¬o'.Opens := by
  rw [succeeded_construct_iff, usable_construct_iff,
    ZenohSessionManager.getSession_of_zero hzero]
  rcases (m.init o.configured o.opened).2.init_opens_cases o' with
    ⟨-, hopens, hok, hcount, -⟩ | ⟨-, hopens, hinternal, -⟩ | ⟨hne, -⟩
  · have hsession := ZenohSessionManager.getSession_of_ne_zero (by rw [hcount]; decide)
    refine iff_of_false (fun h => ?_) (not_not.2 hopens)
    obtain ⟨⟨-, session, hnone⟩, -⟩ := h ⟨hok, _, hsession⟩
    cases hnone
  · refine iff_of_true (fun h => ?_) hopens
    rw [hinternal] at h
    cases h.1
  · exact absurd hzero hne

/-- Where it leaves another count both parts get what the manager has, unless the count wraps
around. -/
theorem usable_of_succeeded_iff_of_ne_zero
    (hne : (m.init o.configured o.opened).2.refCount ≠ 0) :
    ((construct p o o' m).1.Succeeded → (construct p o o' m).1.Usable) ↔
      ((m.init o.configured o.opened).2.refCount + 1 ≠ 0 →
        (m.init o.configured o.opened).2.session ≠ none) := by
  have hok : (m.init o.configured o.opened).1 = .OK := by
    rcases m.init_opens_cases o with ⟨-, -, hok, -⟩ | ⟨-, -, -, hcount⟩ | ⟨-, hok, -⟩
    · exact hok
    · exact absurd hcount hne
    · exact hok
  rw [succeeded_construct_iff, usable_construct_iff, hok,
    ZenohSessionManager.getSession_of_ne_zero hne]
  generalize (m.init o.configured o.opened).2 = m' at hne ⊢
  rcases m'.init_opens_cases o' with ⟨hzero, -⟩ | ⟨hzero, -⟩ | ⟨-, hok', hcount', hsession'⟩
  · exact absurd hzero hne
  · exact absurd hzero hne
  by_cases hwraps : m'.refCount + 1 = 0
  · rw [ZenohSessionManager.getSession_of_zero (hcount'.trans hwraps)]
    refine iff_of_true (fun h => ?_) fun h => absurd hwraps h
    obtain ⟨-, session, hnone⟩ := h
    cases hnone
  · rw [ZenohSessionManager.getSession_of_ne_zero (by rwa [hcount']), hok', hsession']
    cases m'.session <;> simp [hwraps]

/-- A construction that succeeds has a session in both parts if and only if they open
alike. -/
theorem usable_of_succeeded_iff :
    ((construct p o o' m).1.Succeeded → (construct p o o' m).1.Usable) ↔ OpensAlike m o o' := by
  rcases m.init_opens_cases o with ⟨hzero, hopens, -, hcount, hsession⟩ |
    ⟨hzero, hopens, -, hcount⟩ | ⟨hne, -, hcount, hsession⟩
  · rw [usable_of_succeeded_iff_of_ne_zero p o o' m (by rw [hcount]; decide)]
    refine iff_of_true (fun _ => hsession) ⟨fun _ _ => hopens, fun hwraps => ?_, fun hne => ?_⟩
    · rw [hzero] at hwraps
      exact absurd hwraps (by decide)
    · exact absurd hzero hne
  · rw [usable_of_succeeded_iff_of_zero p o o' m hcount]
    refine ⟨fun h => ⟨fun _ h' => absurd h' h, fun _ => h, fun hne => absurd hzero hne⟩, ?_⟩
    exact fun h h' => hopens (h.first hzero h')
  · by_cases hwraps : m.refCount + 1 = 0
    · rw [usable_of_succeeded_iff_of_zero p o o' m (hcount.trans hwraps)]
      refine ⟨fun h => ⟨fun hzero => absurd hzero hne, fun _ => h, ?_⟩, fun h => h.wraps hwraps⟩
      exact fun _ hne' => absurd hwraps hne'
    · rw [usable_of_succeeded_iff_of_ne_zero p o o' m (by rwa [hcount]), hcount, hsession]
      refine ⟨fun h => ⟨fun hzero => absurd hzero hne, ?_, fun _ _ => h⟩, fun h => ?_⟩
      · exact fun hwraps' => absurd hwraps' hwraps
      · exact h.valid hne hwraps

end UpZenohClient

/-! ## Instances -/

/-- The manager, the clients constructed, released when destroyed, and the handles that
`instance()` has returned and that are held, each a shared pointer. -/
structure Instances (Thread : Type) where
  manager : ZenohSessionManager
  clients : Ledger UpZenohClient
  w_handle : Option ClientPointer
  held : List ClientPointer
  /-- The thread is between its lookup and its section. -/
  missed : Thread → Bool

/-- A step of a call of `instance()`, the drop of a handle, or what others do to the
manager. -/
inductive InstanceStep (Thread : Type)
  | lock (thread : Thread)
  | construct (thread : Thread) (transport rpcClient : InitOutcome)
  | drop (p : ClientPointer)
  | other (m : ZenohSessionManager)

namespace Instances

variable {Thread : Type}

/-- No client. -/
def init : Instances Thread where
  manager := .initial
  clients := .empty
  w_handle := none
  held := []
  missed _ := false

/-- `w_handle.lock()`, null once the client is destroyed. -/
def lock (s : Instances Thread) : Option ClientPointer :=
  s.w_handle.filter fun p => s.clients.Live p

/-- The last shared pointer to a client destroys it. A client whose construction failed has
one, which `instance()` drops. -/
def step [DecidableEq Thread] (s : Instances Thread) :
    InstanceStep Thread → Option (Instances Thread)
  | .lock thread =>
    if s.missed thread = true then none
    else
      match s.lock with
      | some handle => some { s with held := handle :: s.held }
      | none => some { s with missed := Function.update s.missed thread true }
  | .construct thread transport rpcClient =>
    if s.missed thread = false then none
    else
      let missed := Function.update s.missed thread false
      match s.lock with
      | some handle => some { s with held := handle :: s.held, missed := missed }
      | none =>
        let handle := s.clients.next
        let r := UpZenohClient.construct handle transport rpcClient s.manager
        if r.1.Succeeded then some
          { manager := r.2
            clients := s.clients.alloc r.1
            w_handle := some handle
            held := handle :: s.held
            missed := missed }
        else some
          { s with
            manager := UpZenohClient.destroy r.2
            clients := (s.clients.alloc r.1).release handle
            missed := missed }
  | .drop p =>
    if p ∉ s.held then none
    else if p ∈ s.held.erase p then some { s with held := s.held.erase p }
    else some
      { s with
        manager := UpZenohClient.destroy s.manager
        clients := s.clients.release p
        held := s.held.erase p }
  | .other m => some { s with manager := m }

/-- A caller can see the client, through a handle or through the weak pointer. -/
def Visible (s : Instances Thread) (p : ClientPointer) : Prop :=
  p ∈ s.held ∨ s.w_handle = some p

/-- The handles that are held point to one client, which is alive. Only clients whose
construction succeeded are visible. -/
structure Singleton (s : Instances Thread) : Prop where
  same : ∀ p ∈ s.held, ∀ q ∈ s.held, p = q
  alive : ∀ p ∈ s.held, s.clients.Live p
  succeeded : ∀ p, s.Visible p → ∃ c, s.clients.entries[p]? = some c ∧ c.Succeeded

/-- The step keeps the client the only one. One that constructs a client does it while no
handle is held. -/
structure Exclusive [DecidableEq Thread] (s : Instances Thread) (e : InstanceStep Thread) :
    Prop where
  singleton : After step Singleton s e
  alone : ∀ s', step s e = some s' → s.clients.next < s'.clients.next → s.held = []

/-- Every handle that is held points to a client with a session in both parts. -/
def AllUsable (s : Instances Thread) : Prop :=
  ∀ p ∈ s.held, ∃ c, s.clients.entries[p]? = some c ∧ c.Usable

/-- The step returns usable clients only, and no handle if it constructs one that is not
usable. -/
structure HandsOutUsable [DecidableEq Thread] (s : Instances Thread) (e : InstanceStep Thread) :
    Prop where
  usable : After step AllUsable s e
  null : ∀ s', step s e = some s' → ∀ c, s'.clients.entries[s.clients.next]? = some c →
    ¬c.Usable → s'.held = s.held

/-- A step that constructs a client opens its sessions alike. -/
def ConstructsAlike (s : Instances Thread) : InstanceStep Thread → Prop
  | .construct thread transport rpcClient => s.missed thread = true → s.lock = none →
      OpensAlike s.manager transport rpcClient
  | _ => True

/-! ## Steps -/

/-- The live clients are those that are held, and the weak pointer is to the one that is
held. -/
structure Shared (s : Instances Thread) : Prop where
  live : ∀ p, s.clients.Live p ↔ p ∈ s.held
  weak : ∀ p ∈ s.held, s.w_handle = some p
  succeeded : ∀ p, s.w_handle = some p → ∃ c, s.clients.entries[p]? = some c ∧ c.Succeeded

section Steps

variable {s s' : Instances Thread}

theorem shared_init : Shared (init : Instances Thread) := by
  refine ⟨fun p => iff_of_false (fun h => Nat.not_lt_zero _ h.1) List.not_mem_nil,
    fun p hp => absurd hp List.not_mem_nil, fun p hp => ?_⟩
  cases hp

theorem Shared.singleton (h : Shared s) : Singleton s := by
  refine ⟨fun p hp q hq => ?_, fun p hp => (h.live p).2 hp, fun p hp => ?_⟩
  · exact Option.some.inj ((h.weak p hp).symm.trans (h.weak q hq))
  · rcases hp with hp | hp
    · exact h.succeeded p (h.weak p hp)
    · exact h.succeeded p hp

theorem Shared.mem_held_of_lock (h : Shared s) {p : ClientPointer} (hlock : s.lock = some p) :
    p ∈ s.held ∧ s.w_handle = some p := by
  obtain ⟨hweak, hlive⟩ := Option.filter_eq_some_iff.1 hlock
  exact ⟨(h.live p).1 (of_decide_eq_true hlive), hweak⟩

/-- Where the weak pointer has expired, no handle is held. -/
theorem Shared.held_of_lock (h : Shared s) (hlock : s.lock = none) : s.held = [] := by
  refine List.eq_nil_iff_forall_not_mem.2 fun p hp => ?_
  have hsome : s.lock = some p :=
    Option.filter_eq_some_iff.2 ⟨h.weak p hp, decide_eq_true ((h.live p).2 hp)⟩
  rw [hlock] at hsome
  cases hsome

/-- A step that leaves the weak pointer and the clients constructed, and hands out no other
client. -/
theorem Shared.of_weak (h : Shared s) (hweak : s'.w_handle = s.w_handle)
    (hclients : ∀ (p : ClientPointer) c, s.clients.entries[p]? = some c →
      s'.clients.entries[p]? = some c)
    (hheld : ∀ p ∈ s'.held, p ∈ s.held) (hlive : ∀ p, s'.clients.Live p ↔ p ∈ s'.held) :
    Shared s' := by
  refine ⟨hlive, fun p hp => ?_, fun p hp => ?_⟩
  · rw [hweak]
    exact h.weak p (hheld p hp)
  · rw [hweak] at hp
    obtain ⟨c, hc, hsucceeded⟩ := h.succeeded p hp
    exact ⟨c, hclients p c hc, hsucceeded⟩

/-- A client that was constructed while none was held is the only one. -/
theorem Shared.constructed (h : Shared s) (hlock : s.lock = none) {c : UpZenohClient}
    (hsucceeded : c.Succeeded) (hclients : s'.clients = s.clients.alloc c)
    (hweak : s'.w_handle = some s.clients.next) (hheld : s'.held = s.clients.next :: s.held) :
    Shared s' := by
  rw [h.held_of_lock hlock] at hheld
  refine ⟨fun p => ?_, fun p hp => ?_, fun p hp => ?_⟩
  · rw [hclients, hheld, Ledger.live_alloc, h.live, h.held_of_lock hlock, List.mem_singleton]
    exact or_iff_right List.not_mem_nil
  · rw [hheld, List.mem_singleton] at hp
    rw [hweak, hp]
  · rw [hweak] at hp
    obtain rfl := Option.some.inj hp
    rw [hclients]
    exact ⟨c, Ledger.getElem?_alloc_next, hsucceeded⟩

/-- A client whose construction failed leaves no trace. -/
theorem Shared.failed (h : Shared s) {c : UpZenohClient}
    (hclients : s'.clients = (s.clients.alloc c).release s.clients.next)
    (hweak : s'.w_handle = s.w_handle) (hheld : s'.held = s.held) : Shared s' := by
  refine h.of_weak hweak (fun p c' hc => ?_) (fun p hp => hheld ▸ hp) fun p => ?_
  · rw [hclients, Ledger.entries_release]
    exact Ledger.getElem?_alloc hc
  · rw [hclients, hheld, Ledger.live_release, Ledger.live_alloc, h.live]
    constructor
    · rintro ⟨hp | hp, hne⟩
      · exact hp
      · exact absurd hp hne
    · intro hp
      exact ⟨Or.inl hp, (((h.live p).2 hp).1).ne⟩

/-- The last handle takes the client with it. -/
theorem Shared.dropped (h : Shared s) {p : ClientPointer} (hp : p ∈ s.held)
    (hclients : s'.clients = if p ∈ s.held.erase p then s.clients else s.clients.release p)
    (hweak : s'.w_handle = s.w_handle) (hheld : s'.held = s.held.erase p) : Shared s' := by
  have hone : ∀ r ∈ s.held, r = p := fun r hr => h.singleton.same r hr p hp
  refine h.of_weak hweak (fun q c hc => ?_) (fun q hq => ?_) fun q => ?_
  · rw [hclients]
    split_ifs
    · exact hc
    · rwa [Ledger.entries_release]
  · rw [hheld] at hq
    exact List.mem_of_mem_erase hq
  · rw [hclients, hheld]
    split_ifs with hlast
    · rw [h.live]
      refine ⟨fun hq => ?_, List.mem_of_mem_erase⟩
      rwa [hone q hq]
    · rw [Ledger.live_release, h.live]
      refine iff_of_false (fun hq => hq.2 (hone q hq.1)) fun hq => hlast ?_
      rwa [hone q (List.mem_of_mem_erase hq)] at hq

/-- A step that constructs no client hands out the one that is held. -/
theorem AllUsable.of_entries (husable : AllUsable s)
    (hentries : s'.clients.entries = s.clients.entries) (hheld : ∀ p ∈ s'.held, p ∈ s.held) :
    AllUsable s' ∧ ∀ c, s'.clients.entries[s.clients.next]? = some c →
      ¬c.Usable → s'.held = s.held := by
  refine ⟨fun p hp => ?_, fun c hc => ?_⟩
  · rw [hentries]
    exact husable p (hheld p hp)
  · rw [hentries] at hc
    exact absurd (Ledger.getElem?_lt hc) (Nat.lt_irrefl _)

/-- A step that hands out only the client it constructs. -/
theorem AllUsable.constructed_iff {c : UpZenohClient} (hclients : s'.clients = s.clients.alloc c)
    (hheld : s'.held = [s.clients.next]) :
    (AllUsable s' ∧ ∀ c', s'.clients.entries[s.clients.next]? = some c' →
      ¬c'.Usable → s'.held = s.held) ↔ c.Usable := by
  have hnew : s'.clients.entries[s.clients.next]? = some c := by
    rw [hclients]
    exact Ledger.getElem?_alloc_next
  constructor
  · rintro ⟨husable, -⟩
    obtain ⟨c', hc', hcUsable⟩ := husable s.clients.next (by rw [hheld]; simp)
    rwa [Option.some.inj (hnew.symm.trans hc')]
  · intro hcUsable
    refine ⟨fun p hp => ?_, fun c' hc' hcUsable' => ?_⟩
    · rw [hheld, List.mem_singleton] at hp
      rw [hp]
      exact ⟨c, hnew, hcUsable⟩
    · rw [← Option.some.inj (hnew.symm.trans hc')] at hcUsable'
      exact absurd hcUsable hcUsable'

/-- A step whose construction fails. -/
theorem AllUsable.failed (husable : AllUsable s) {c : UpZenohClient}
    (hclients : s'.clients = (s.clients.alloc c).release s.clients.next)
    (hheld : s'.held = s.held) :
    AllUsable s' ∧ ∀ c', s'.clients.entries[s.clients.next]? = some c' →
      ¬c'.Usable → s'.held = s.held := by
  refine ⟨fun p hp => ?_, fun _ _ _ => hheld⟩
  rw [hheld] at hp
  obtain ⟨c', hc', hcUsable⟩ := husable p hp
  rw [hclients, Ledger.entries_release]
  exact ⟨c', Ledger.getElem?_alloc hc', hcUsable⟩

variable [DecidableEq Thread]

/-- What a step does to the clients : nothing, or it copies the handle that is held,
constructs a client, or drops a handle. -/
theorem step_cases {e : InstanceStep Thread} (hstep : step s e = some s') :
    (ConstructsAlike s e ∧ s'.clients = s.clients ∧ s'.w_handle = s.w_handle ∧
        (s'.held = s.held ∨ ∃ p, s.lock = some p ∧ s'.held = p :: s.held)) ∨
      (∃ thread o o', e = .construct thread o o' ∧ s.missed thread = true ∧ s.lock = none ∧
        let c := (UpZenohClient.construct s.clients.next o o' s.manager).1
        (c.Succeeded ∧ s'.clients = s.clients.alloc c ∧ s'.w_handle = some s.clients.next ∧
            s'.held = s.clients.next :: s.held) ∨
          (¬c.Succeeded ∧ s'.clients = (s.clients.alloc c).release s.clients.next ∧
            s'.w_handle = s.w_handle ∧ s'.held = s.held)) ∨
      ∃ p, e = .drop p ∧ p ∈ s.held ∧ s'.w_handle = s.w_handle ∧ s'.held = s.held.erase p ∧
        s'.clients = if p ∈ s.held.erase p then s.clients else s.clients.release p := by
  unfold step at hstep
  cases e with
  | lock thread =>
    refine Or.inl ?_
    dsimp only at hstep
    split_ifs at hstep with hmissed
    cases hlock : s.lock with
    | some p =>
      rw [hlock] at hstep
      obtain rfl := Option.some.inj hstep
      exact ⟨trivial, rfl, rfl, Or.inr ⟨p, rfl, rfl⟩⟩
    | none =>
      rw [hlock] at hstep
      obtain rfl := Option.some.inj hstep
      exact ⟨trivial, rfl, rfl, Or.inl rfl⟩
  | construct thread o o' =>
    dsimp only at hstep
    by_cases hmissed : s.missed thread = false
    · rw [if_pos hmissed] at hstep
      cases hstep
    rw [if_neg hmissed] at hstep
    cases hlock : s.lock with
    | some p =>
      rw [hlock] at hstep
      obtain rfl := Option.some.inj hstep
      refine Or.inl ⟨fun _ hnone => ?_, rfl, rfl, Or.inr ⟨p, rfl, rfl⟩⟩
      rw [hlock] at hnone
      cases hnone
    | none =>
      rw [hlock] at hstep
      dsimp only at hstep
      rw [Bool.not_eq_false] at hmissed
      refine Or.inr (Or.inl ⟨thread, o, o', rfl, hmissed, rfl, ?_⟩)
      split_ifs at hstep with hsucceeded <;> obtain rfl := Option.some.inj hstep
      · exact Or.inl ⟨hsucceeded, rfl, rfl, rfl⟩
      · exact Or.inr ⟨hsucceeded, rfl, rfl, rfl⟩
  | drop p =>
    refine Or.inr (Or.inr ⟨p, rfl, ?_⟩)
    dsimp only at hstep
    split_ifs at hstep with hmem hlast <;> obtain rfl := Option.some.inj hstep
    · exact ⟨hmem, rfl, rfl, (if_pos hlast).symm⟩
    · exact ⟨hmem, rfl, rfl, (if_neg hlast).symm⟩
  | other m =>
    obtain rfl := Option.some.inj hstep
    exact Or.inl ⟨trivial, rfl, rfl, Or.inl rfl⟩

theorem Shared.step (h : Shared s) {e : InstanceStep Thread} (hstep : step s e = some s') :
    Shared s' := by
  rcases step_cases hstep with ⟨-, hclients, hweak, hheld⟩ |
    ⟨thread, o, o', -, -, hlock,
      ⟨hsucceeded, hclients, hweak, hheld⟩ | ⟨-, hclients, hweak, hheld⟩⟩ |
    ⟨p, -, hp, hweak, hheld, hclients⟩
  · have hsame (p : ClientPointer) : p ∈ s'.held ↔ p ∈ s.held := by
      rcases hheld with heq | ⟨q, hq, heq⟩ <;> rw [heq]
      rw [List.mem_cons]
      exact or_iff_right_of_imp fun hpq => hpq ▸ (h.mem_held_of_lock hq).1
    refine h.of_weak hweak (fun p c hc => ?_) (fun p => (hsame p).1) fun p => ?_
    · rwa [hclients]
    · rw [hclients, hsame]
      exact h.live p
  · exact h.constructed hlock hsucceeded hclients hweak hheld
  · exact h.failed hclients hweak hheld
  · exact h.dropped hp hclients hweak hheld

/-- Only a construction adds a client. -/
theorem Shared.exclusive (h : Shared s) (e : InstanceStep Thread) : Exclusive s e := by
  refine ⟨fun s' hstep => (h.step hstep).singleton, fun s' hstep hnext => ?_⟩
  rcases step_cases hstep with ⟨-, hclients, -⟩ | ⟨thread, o, o', -, -, hlock, -⟩ |
    ⟨p, -, -, -, -, hclients⟩
  · rw [hclients] at hnext
    exact absurd hnext (Nat.lt_irrefl _)
  · exact h.held_of_lock hlock
  · rw [hclients] at hnext
    split_ifs at hnext
    · exact absurd hnext (Nat.lt_irrefl _)
    · rw [Ledger.next_release] at hnext
      exact absurd hnext (Nat.lt_irrefl _)

/-- A construction that is refused cannot be under way. -/
theorem constructsAlike_of_step_eq_none {e : InstanceStep Thread} (hstep : step s e = none) :
    ConstructsAlike s e := by
  cases e with
  | construct thread o o' =>
    intro hmissed hlock
    unfold step at hstep
    dsimp only at hstep
    rw [if_neg (by simp [hmissed]), hlock] at hstep
    dsimp only at hstep
    split_ifs at hstep
  | lock | drop | other => trivial

theorem handsOutUsable_iff_of_step {e : InstanceStep Thread} (hstep : step s e = some s') :
    HandsOutUsable s e ↔ AllUsable s' ∧ ∀ c,
      s'.clients.entries[s.clients.next]? = some c → ¬c.Usable → s'.held = s.held := by
  constructor
  · exact fun hout => ⟨hout.usable s' hstep, hout.null s' hstep⟩
  · rintro ⟨husable', hnull⟩
    refine ⟨fun s'' hs'' => ?_, fun s'' hs'' => ?_⟩
    all_goals obtain rfl := Option.some.inj (hstep.symm.trans hs'')
    · exact husable'
    · exact hnull

/-- A step hands out usable clients if and only if its construction opens the sessions
alike. -/
theorem Shared.handsOutUsable_iff_constructsAlike (h : Shared s) (husable : AllUsable s)
    (e : InstanceStep Thread) : HandsOutUsable s e ↔ ConstructsAlike s e := by
  cases hstep : s.step e with
  | none =>
    refine iff_of_true ⟨fun s' hs' => ?_, fun s' hs' => ?_⟩ (constructsAlike_of_step_eq_none hstep)
    all_goals
      rw [hstep] at hs'
      cases hs'
  | some s' =>
    rw [handsOutUsable_iff_of_step hstep]
    rcases step_cases hstep with ⟨hcond, hclients, -, hheld⟩ |
      ⟨thread, o, o', rfl, hmissed, hlock, hconstructed⟩ | ⟨p, rfl, -, -, hheld, hclients⟩
    · refine iff_of_true (husable.of_entries (by rw [hclients]) fun p hp => ?_) hcond
      rcases hheld with heq | ⟨q, hq, heq⟩ <;> rw [heq] at hp
      · exact hp
      · rcases List.mem_cons.1 hp with rfl | hp
        · exact (h.mem_held_of_lock hq).1
        · exact hp
    · have hcond : ConstructsAlike s (.construct thread o o') ↔ OpensAlike s.manager o o' :=
        ⟨fun hcond => hcond hmissed hlock, fun hcond _ _ => hcond⟩
      rw [hcond, ← UpZenohClient.usable_of_succeeded_iff s.clients.next]
      rcases hconstructed with ⟨hsucceeded, hclients, -, hheld⟩ | ⟨hfailed, hclients, -, hheld⟩
      · rw [h.held_of_lock hlock] at hheld
        rw [AllUsable.constructed_iff hclients hheld]
        exact ⟨fun hnew _ => hnew, fun hnew => hnew hsucceeded⟩
      · exact iff_of_true (husable.failed hclients hheld) fun hs => absurd hs hfailed
    · refine iff_of_true (husable.of_entries ?_ fun q hq => ?_) trivial
      · rw [hclients]
        split_ifs
        · rfl
        · rw [Ledger.entries_release]
      · rw [hheld] at hq
        exact List.mem_of_mem_erase hq

end Steps

/-! ## Runs -/

variable [DecidableEq Thread]

theorem preserves_shared :
    Preserves step (fun _ (_ : InstanceStep Thread) => True) (Shared : Instances Thread → Prop) :=
  fun _ _ _ hs _ hstep => hs.step hstep

/-- In every interleaving of calls, drops and constructions that fail, the handles that are
held point to one client, which was constructed while none was held, and no client whose
construction failed is visible. -/
theorem exclusive_along (es : List (InstanceStep Thread)) : Along step Exclusive init es := by
  have htrue : Along step (fun _ _ => True) (init : Instances Thread) es :=
    along_of_forall_mem (fun _ _ => trivial) init
  exact htrue.mono preserves_shared (fun s e hs _ => hs.exclusive e) shared_init

/-- In every interleaving each step hands out usable clients if and only if every construction
opens the sessions alike. -/
theorem handsOutUsable_iff (es : List (InstanceStep Thread)) :
    Along step HandsOutUsable init es ↔ Along step ConstructsAlike init es := by
  have hpreserves : Preserves step HandsOutUsable
      (fun s : Instances Thread => Shared s ∧ AllUsable s) :=
    fun _ _ s' hs hout hstep => ⟨hs.1.step hstep, hout.usable s' hstep⟩
  exact along_congr hpreserves (fun _ e hs => hs.1.handsOutUsable_iff_constructsAlike hs.2 e)
    ⟨shared_init, fun _ hp => absurd hp List.not_mem_nil⟩ es

/-- The first `z_open` fails and the second succeeds. -/
def secondOpens : List (InstanceStep Unit) :=
  [.lock (), .construct () ⟨true, false⟩ ⟨true, true⟩]

/-- The client is returned, and its transport has no session. -/
theorem not_handsOutUsable_secondOpens :
    ¬Along step HandsOutUsable init secondOpens ∧ ∃ s : Instances Unit,
      Run step init secondOpens s ∧ s.held = [0] ∧ ∃ c, s.clients.entries[0]? = some c ∧
        c.transport.initialised = false ∧ c.transport.session = none := by
  have hrun : Run step init secondOpens _ := .cons rfl (.cons rfl (.nil _))
  constructor
  · rintro ⟨-, h⟩
    obtain ⟨hout, -⟩ := h _ rfl
    obtain ⟨c, hc, ⟨hinitialised, -⟩, -⟩ := hout.usable _ rfl 0 List.mem_cons_self
    cases hc
    cases hinitialised
  · exact ⟨_, hrun, rfl, _, rfl, rfl, rfl⟩

end Instances

end UpClientZenoh
