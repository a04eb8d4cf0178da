import UpClientZenoh.DataModel
import UpClientZenoh.Execution
import UpClientZenoh.Ledger
import Mathlib.Data.Multiset.AddSub

/-!
# Session manager

`ZenohSessionManager` : one zenoh session for the process, counted by `refCount_`.

`init` tests the count outside the mutex. At zero it opens the session in a section under the
mutex, otherwise it only adds one. `Threads` runs any number of callers against the manager,
with each `init` in two steps. `sessionSafe_of_run` : as long as no addition outside the
mutex meets a count of zero (`AddsNotStale`), and none wraps the count around
(`AddsInRange`), the session is open while someone holds it, and `getSession` returns an open
session. The last `term` between a test and its addition breaks this, and nothing else does
(`sessionSafe_iff`).
-/

open Execution

namespace UpClientZenoh

/-- A handle of a zenoh session. -/
abbrev SessionHandle := ℕ

/-- The members of the manager, and the zenoh sessions it opened, released when closed. -/
structure ZenohSessionManager where
  /-- `session_`, `none` where `z_check` fails. -/
  session : Option SessionHandle
  refCount : UInt32
  sessions : Ledger Unit
  deriving DecidableEq

namespace ZenohSessionManager

/-- `instance()` at its first call. -/
def initial : ZenohSessionManager where
  session := none
  refCount := 0
  sessions := .empty

section Operations

variable (m : ZenohSessionManager)

/-- `session_ = z_open(z_move(config))`. -/
def open_ (opened : Bool) : ZenohSessionManager :=
  if opened = false then { m with session := none }
  else { m with session := some m.sessions.next, sessions := m.sessions.alloc () }

/-- `z_close(z_move(session_))`. -/
def close : ZenohSessionManager :=
  match m.session with
  | none => m
  | some session => { m with session := none, sessions := m.sessions.release session }

/-- `refCount_.fetch_add(1)`, and `init` returns. -/
def fetchAdd : UCode × ZenohSessionManager :=
  (.OK, { m with refCount := m.refCount + 1 })

/-- The section of `init` under the mutex. `configured` says whether zenoh accepts the keys of
the configuration. -/
def initLocked (configured opened : Bool) : UCode × ZenohSessionManager :=
  if m.refCount = 0 then
    if configured = false then (.INTERNAL, m)
    else if (m.open_ opened).session = none then (.INTERNAL, m.open_ opened)
    else (m.open_ opened).fetchAdd
  else m.fetchAdd

/-- `init(sessionConfig)`. -/
def init (configured opened : Bool) : UCode × ZenohSessionManager :=
  if m.refCount = 0 then m.initLocked configured opened else m.fetchAdd

/-- `term()`. -/
def term : UCode × ZenohSessionManager :=
  if 0 < m.refCount then
    let m := { m with refCount := m.refCount - 1 }
    if m.refCount = 0 then (.OK, m.close) else (.OK, m)
  else (.OK, m)

/-- `getSession()`. The handle it returns need not be valid. -/
def getSession : Option (Option SessionHandle) :=
  if 0 < m.refCount then some m.session else none

/-- `session_` is valid and was not closed. -/
def IsOpen : Prop :=
  ∃ session, m.session = some session ∧ m.sessions.Live session

end Operations

variable {m : ZenohSessionManager}

theorem isOpen_open_ : (m.open_ true).IsOpen :=
  ⟨m.sessions.next, rfl, Ledger.live_alloc.2 (Or.inr rfl)⟩

theorem IsOpen.congr {m' : ZenohSessionManager} (h : m.IsOpen) (hsession : m'.session = m.session)
    (hsessions : m'.sessions = m.sessions) : m'.IsOpen := by
  unfold IsOpen
  rwa [hsession, hsessions]

@[simp] theorem refCount_open_ (opened : Bool) : (m.open_ opened).refCount = m.refCount := by
  unfold open_
  split_ifs <;> rfl

@[simp] theorem refCount_close : m.close.refCount = m.refCount := by
  unfold close
  split <;> rfl

theorem toNat_add_one {c : UInt32} (h : c + 1 ≠ 0) : (c + 1).toNat = c.toNat + 1 := by
  have hlt : c.toNat < 2 ^ 32 := c.toNat_lt
  have hne : (c + 1).toNat ≠ 0 := fun h0 => h (UInt32.toNat_inj.1 h0)
  rw [UInt32.toNat_add] at hne ⊢
  change (c.toNat + 1) % 2 ^ 32 ≠ 0 at hne
  change (c.toNat + 1) % 2 ^ 32 = c.toNat + 1
  omega

theorem toNat_sub_one {c : UInt32} (h : 0 < c) : (c - 1).toNat + 1 = c.toNat := by
  have hpos : 0 < c.toNat := UInt32.lt_iff_toNat_lt.1 h
  have hle : 1 ≤ c := UInt32.le_iff_toNat_le.2 hpos
  rw [UInt32.toNat_sub_of_le c 1 hle]
  exact Nat.sub_add_cancel hpos

theorem session_close : m.close.session = none := by
  unfold close
  split
  · assumption
  · rfl

/-- A section of `init` that succeeds adds one and leaves the session open. One that fails
leaves the count at zero. -/
theorem initLocked_cases (m : ZenohSessionManager) (configured opened : Bool) :
    let r := m.initLocked configured opened
    (r.1 = .OK ∧ r.2.refCount = m.refCount + 1 ∧
        (m.refCount = 0 ∧ r.2.IsOpen ∨ m.refCount ≠ 0 ∧ r.2.session = m.session ∧
          r.2.sessions = m.sessions)) ∨
      (r.1 = .INTERNAL ∧ m.refCount = 0 ∧ r.2.refCount = 0 ∧
        (m.session = none → r.2.session = none)) := by
  intro r
  have hr : r = m.initLocked configured opened := rfl
  unfold initLocked at hr
  split_ifs at hr with hzero hconfigured hsession
  · rw [hr]
    exact Or.inr ⟨rfl, hzero, hzero, id⟩
  · rw [hr]
    exact Or.inr ⟨rfl, hzero, (refCount_open_ opened).trans hzero, fun _ => hsession⟩
  · rw [hr]
    refine Or.inl ⟨rfl, ?_, Or.inl ⟨hzero, ?_⟩⟩
    · rw [fetchAdd, refCount_open_]
    · rcases opened with _ | _
      · exact absurd rfl hsession
      · exact isOpen_open_
  · rw [hr]
    exact Or.inl ⟨rfl, rfl, Or.inr ⟨hzero, rfl, rfl⟩⟩

/-- An `init` adds one and returns `OK`, or fails at a count of zero. -/
theorem init_cases (m : ZenohSessionManager) (configured opened : Bool) :
    let r := m.init configured opened
    (r.1 = .OK ∧ r.2.refCount = m.refCount + 1) ∨
      (r.1 = .INTERNAL ∧ m.refCount = 0 ∧ r.2.refCount = 0) := by
  unfold init
  split_ifs
  · rcases m.initLocked_cases configured opened with
      ⟨hok, hcount, -⟩ | ⟨hinternal, hzero, hcount, -⟩
    · exact Or.inl ⟨hok, hcount⟩
    · exact Or.inr ⟨hinternal, hzero, hcount⟩
  · exact Or.inl ⟨rfl, rfl⟩

/-- A `term` at a nonzero count takes one off, and closes the session with the last. -/
theorem term_cases (m : ZenohSessionManager) :
    let m' := m.term.2
    (m.refCount = 0 ∧ m' = m) ∨ (m.refCount ≠ 0 ∧ m'.refCount = m.refCount - 1 ∧
      (m'.refCount = 0 → m'.session = none) ∧
      (m'.refCount ≠ 0 → m'.session = m.session ∧ m'.sessions = m.sessions)) := by
  intro m'
  have hm' : m' = m.term.2 := rfl
  unfold term at hm'
  dsimp only at hm'
  split_ifs at hm' with hpos hlast
  · rw [hm']
    refine Or.inr ⟨UInt32.pos_iff_ne_zero.1 hpos, refCount_close, fun _ => session_close,
      fun hne => ?_⟩
    exact absurd (refCount_close.trans hlast) hne
  · rw [hm']
    exact Or.inr ⟨UInt32.pos_iff_ne_zero.1 hpos, rfl, fun hzero => absurd hzero hlast,
      fun _ => ⟨rfl, rfl⟩⟩
  · exact Or.inl ⟨not_not.1 fun hne => hpos (UInt32.pos_iff_ne_zero.2 hne), hm'⟩

theorem toNat_refCount_term (m : ZenohSessionManager) :
    m.term.2.refCount.toNat = m.refCount.toNat - 1 := by
  rcases m.term_cases with ⟨hzero, hsame⟩ | ⟨hne, hcount, -⟩
  · rw [hsame, hzero]
    rfl
  · have hsub := toNat_sub_one (UInt32.pos_iff_ne_zero.2 hne)
    rw [hcount]
    omega

end ZenohSessionManager

/-! ## Threads -/

/-- Where a thread is in `init`. -/
inductive InitPc
  /-- Not in `init`. -/
  | idle
  /-- The test found zero : the section under the mutex is next. -/
  | slow
  /-- The test found a nonzero count : the addition is next. -/
  | fast
  deriving DecidableEq, Repr

/-- An atomic step of a thread. -/
inductive ThreadStep
  /-- `init` tests the count. -/
  | test
  /-- The section of `init` under the mutex. -/
  | locked (configured opened : Bool)
  /-- The addition of `init` outside the mutex. -/
  | unlocked
  | term
  | getSession
  deriving DecidableEq, Repr

/-- The manager and its callers. -/
structure Threads (Thread : Type) where
  manager : ZenohSessionManager
  pc : Thread → InitPc
  /-- The calls of `init` that returned `OK` and whose `term` has not run, by their thread. -/
  held : Multiset Thread

namespace Threads

variable {Thread : Type}

/-- Nobody has called the manager. -/
def init : Threads Thread where
  manager := .initial
  pc _ := .idle
  held := 0

variable [DecidableEq Thread]

/-- The state after a call of `init` by `i` returns. -/
def returnInit (s : Threads Thread) (i : Thread) (r : UCode × ZenohSessionManager) :
    Threads Thread where
  manager := r.2
  pc := Function.update s.pc i .idle
  held := if r.1 = .OK then i ::ₘ s.held else s.held

/-- A step of a thread. `term` is called for an `init` of the same thread that returned
`OK`. -/
def step (s : Threads Thread) (e : Thread × ThreadStep) : Option (Threads Thread) :=
  match e.2 with
  | .test =>
    if s.pc e.1 = .idle then
      let pc := if s.manager.refCount = 0 then .slow else .fast
      some { s with pc := Function.update s.pc e.1 pc }
    else none
  | .locked configured opened =>
    if s.pc e.1 = .slow then some (s.returnInit e.1 (s.manager.initLocked configured opened))
    else none
  | .unlocked =>
    if s.pc e.1 = .fast then some (s.returnInit e.1 s.manager.fetchAdd)
    else none
  | .term =>
    if s.pc e.1 = .idle ∧ e.1 ∈ s.held then
      some { s with manager := s.manager.term.2, held := s.held.erase e.1 }
    else none
  | .getSession => if s.pc e.1 = .idle then some s else none

/-- The session is open while someone holds it, and `getSession` returns no other. -/
structure SessionSafe (s : Threads Thread) : Prop where
  held : s.held ≠ 0 → s.manager.IsOpen
  got : ∀ session, s.manager.getSession = some session →
    ∃ h, session = some h ∧ s.manager.sessions.Live h

/-- No addition wraps the count around. -/
def AddsInRange (s : Threads Thread) (e : Thread × ThreadStep) : Prop :=
  match e.2 with
  | .locked _ _ => s.manager.refCount + 1 ≠ 0
  | .unlocked => s.manager.refCount + 1 ≠ 0
  | _ => True

/-- No addition outside the mutex meets a count of zero. -/
def AddsNotStale (s : Threads Thread) (e : Thread × ThreadStep) : Prop :=
  match e.2 with
  | .unlocked => s.pc e.1 = .fast → s.manager.refCount ≠ 0
  | _ => True

/-- The count is the number of holders. The session is open if and only if it is counted. -/
structure Counted (s : Threads Thread) : Prop where
  count : s.manager.refCount.toNat = s.held.card
  opened : s.manager.refCount ≠ 0 → s.manager.IsOpen
  closed : s.manager.refCount = 0 → s.manager.session = none

omit [DecidableEq Thread] in
theorem counted_init : Counted (init : Threads Thread) :=
  ⟨rfl, fun h => absurd rfl h, fun _ => rfl⟩

omit [DecidableEq Thread] in
theorem Counted.sessionSafe {s : Threads Thread} (h : Counted s) : SessionSafe s := by
  constructor
  · intro hheld
    refine h.opened fun hzero => hheld ?_
    rw [← Multiset.card_eq_zero, ← h.count, hzero]
    rfl
  · intro session hsession
    unfold ZenohSessionManager.getSession at hsession
    split_ifs at hsession with hpos
    obtain rfl := Option.some.inj hsession
    exact h.opened (UInt32.pos_iff_ne_zero.1 hpos)

/-- An `init` that returns `OK` at a count that does not wrap around. -/
theorem Counted.returnInit {s : Threads Thread} (h : Counted s) (i : Thread)
    {r : UCode × ZenohSessionManager} (hok : r.1 = .OK)
    (hcount : r.2.refCount = s.manager.refCount + 1) (hwrap : s.manager.refCount + 1 ≠ 0)
    (hopen : r.2.IsOpen) : Counted (s.returnInit i r) := by
  refine ⟨?_, fun _ => hopen, fun hzero => absurd (hcount.symm.trans hzero) hwrap⟩
  rw [Threads.returnInit, hok, if_pos rfl, hcount, ZenohSessionManager.toNat_add_one hwrap,
    Multiset.card_cons, h.count]

theorem preserves_counted :
    Preserves step (fun s e => AddsInRange s e ∧ AddsNotStale s e)
      (Counted : Threads Thread → Prop) := by
  rintro s ⟨i, e⟩ s' hs ⟨hrange, hstale⟩ hstep
  cases e
  all_goals
    obtain ⟨hpc, hs'⟩ := Option.ite_none_right_eq_some.1 hstep
    obtain rfl := Option.some.inj hs'
  case test => exact ⟨hs.count, hs.opened, hs.closed⟩
  case locked configured opened =>
    rcases s.manager.initLocked_cases configured opened with
      ⟨hok, hcount, hopen⟩ | ⟨hinternal, hzero, hcount, hclosed⟩
    · refine hs.returnInit i hok hcount hrange ?_
      rcases hopen with ⟨-, hopen⟩ | ⟨hne, hsession, hsessions⟩
      · exact hopen
      · exact (hs.opened hne).congr hsession hsessions
    · refine ⟨?_, fun hne => absurd hcount hne, fun _ => hclosed (hs.closed hzero)⟩
      rw [returnInit, hinternal, if_neg (by decide), hcount, ← hs.count, hzero]
  case unlocked => exact hs.returnInit i rfl rfl hrange (hs.opened (hstale hpc))
  case term =>
    have hcount : s.manager.term.2.refCount.toNat = (s.held.erase i).card := by
      rw [ZenohSessionManager.toNat_refCount_term, hs.count, Multiset.card_erase_of_mem hpc.2,
        Nat.pred_eq_sub_one]
    rcases s.manager.term_cases with ⟨-, hsame⟩ | ⟨hne, -, hclosed, hsame⟩
    · refine ⟨hcount, ?_, ?_⟩ <;> dsimp only <;> rw [hsame]
      · exact hs.opened
      · exact hs.closed
    · refine ⟨hcount, fun hne' => ?_, hclosed⟩
      obtain ⟨hsession, hsessions⟩ := hsame hne'
      exact (hs.opened hne).congr hsession hsessions
  case getSession => exact hs

/-- In every state reached by steps whose additions are in range and not stale the session is
safe. -/
theorem sessionSafe_of_run {es : List (Thread × ThreadStep)} {s : Threads Thread}
    (hrun : Run step init es s)
    (hadds : Along step (fun s e => AddsInRange s e ∧ AddsNotStale s e) init es) :
    SessionSafe s :=
  (hrun.preserves preserves_counted counted_init hadds).sessionSafe

/-- Two threads share a session, and the one that opened it leaves. -/
def sharedSession : List (Bool × ThreadStep) :=
  [(false, .test), (false, .locked true true), (true, .test), (true, .unlocked), (false, .term)]

theorem sessionSafe_sharedSession :
    ∃ s, Run step (init : Threads Bool) sharedSession s ∧ SessionSafe s := by
  have hrun : Run step (init : Threads Bool) sharedSession _ :=
    .cons rfl (.cons rfl (.cons rfl (.cons rfl (.cons rfl (.nil _)))))
  have hone : (0 + 1 : UInt32) ≠ 0 := by decide
  have htwo : (0 + 1 + 1 : UInt32) ≠ 0 := by decide
  refine ⟨_, hrun, sessionSafe_of_run hrun ?_⟩
  exact .cons ⟨trivial, trivial⟩ rfl (.cons ⟨hone, trivial⟩ rfl (.cons ⟨trivial, trivial⟩ rfl
    (.cons ⟨htwo, fun _ => hone⟩ rfl (.cons ⟨trivial, trivial⟩ rfl trivial))))

/-- One thread tests a nonzero count, the other closes the session, and the first adds one. -/
def staleAdd : List (Bool × ThreadStep) :=
  [(false, .test), (false, .locked true true), (true, .test), (false, .term), (true, .unlocked)]

/-- The thread holds a closed session. -/
theorem not_sessionSafe_staleAdd :
    ¬∀ s, Run step (init : Threads Bool) staleAdd s → SessionSafe s := by
  intro h
  have hsafe := h _ (.cons rfl (.cons rfl (.cons rfl (.cons rfl (.cons rfl (.nil _))))))
  obtain ⟨session, hsession, -⟩ := hsafe.held (by decide)
  cases hsession

/-- Without wraparound only stale additions make the session unsafe. -/
theorem sessionSafe_iff (es : List (Thread × ThreadStep)) :
    Along step (fun s e => AddsInRange s e ∧ ∀ s', step s e = some s' → SessionSafe s') init es ↔
      Along step (fun s e => AddsInRange s e ∧ AddsNotStale s e) init es := by
  have hiff (s : Threads Thread) (e : Thread × ThreadStep) (hs : Counted s) :
      (AddsInRange s e ∧ AddsNotStale s e) ↔
        AddsInRange s e ∧ ∀ s', step s e = some s' → SessionSafe s' := by
    refine and_congr_right fun hrange => ⟨fun hstale s' hstep => ?_, fun hsafe => ?_⟩
    · exact (preserves_counted hs ⟨hrange, hstale⟩ hstep).sessionSafe
    · obtain ⟨i, e⟩ := e
      cases e with
      | unlocked =>
        intro hpc hzero
        obtain ⟨session, hsession, -⟩ := (hsafe _ (if_pos hpc)).held (Multiset.cons_ne_zero)
        have hnone : s.manager.session = some session := hsession
        rw [hs.closed hzero] at hnone
        cases hnone
      | test | locked | term | getSession => trivial
  exact (along_congr preserves_counted hiff counted_init es).symm

end Threads

end UpClientZenoh
