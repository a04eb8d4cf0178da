import UpClientZenoh.ZenohUTransport

/-!
# Publisher race

Threads that send. The lookup in `pubHandleMap_` and, where it missed, the section under
`pubInitMutex_` are one step each, and steps of other threads fall between them.

The section tests the iterator of the lookup again, and not the map. `onePerKey_iff` : along
every interleaving no key gets two publishers, and `pubHandleMap_` keeps every publisher, if
and only if no section declares a publisher for a key that has got one since the lookup
(`FindsNone`).
-/

open Execution

namespace UpClientZenoh

open ZenohUTransport

variable {Thread UUID UUri Listener : Type} (X : Externals UUID UUri)

/-! ## Senders -/

/-- The transport, and the URI of each thread that is between its lookup and its section. -/
structure Senders (Thread UUID UUri Listener : Type) where
  transport : ZenohUTransport UUID UUri Listener
  missed : Thread → Option UUri

/-- A step of a `sendPublish`. `declared` is the outcome of `z_declare_publisher`. -/
inductive SendStep (Thread UUri : Type)
  | find (thread : Thread) (uri : UUri)
  | initPublisher (thread : Thread) (declared : Bool)
  deriving DecidableEq

namespace Senders

/-- No thread sends. -/
def init : Senders Thread UUID UUri Listener where
  transport := .init
  missed _ := none

/-- A lookup that finds the publisher is the last step of its send. -/
def step [DecidableEq Thread] (s : Senders Thread UUID UUri Listener) :
    SendStep Thread UUri → Option (Senders Thread UUID UUri Listener)
  | .find thread uri =>
    match s.missed thread, findPublisher X uri s.transport with
    | some _, _ => none
    | none, some _ => some s
    | none, none => some { s with missed := Function.update s.missed thread (some uri) }
  | .initPublisher thread declared =>
    match s.missed thread with
    | none => none
    | some uri => some
      { transport := (ZenohUTransport.initPublisher X uri none declared s.transport).2
        missed := Function.update s.missed thread none }

/-- No key has two publishers, and each publisher is in `pubHandleMap_`. -/
structure OnePerKey (s : Senders Thread UUID UUri Listener) : Prop where
  once : ∀ (h h' : Handle) key, s.transport.entities.entries[h]? = some (.publisher key) →
    s.transport.entities.entries[h']? = some (.publisher key) → h = h'
  kept : ∀ (h : Handle) key, s.transport.entities.entries[h]? = some (.publisher key) →
    s.transport.pubHandleMap.lookup key = some h

/-- What `pubHandleMap_` has under a key is a publisher of the key. -/
def Listed (s : Senders Thread UUID UUri Listener) : Prop :=
  ∀ key h, s.transport.pubHandleMap.lookup key = some h →
    s.transport.entities.entries[h]? = some (.publisher key)

/-- A section that declares a publisher would find none for its key. -/
def FindsNone (s : Senders Thread UUID UUri Listener) : SendStep Thread UUri → Prop
  | .find _ _ => True
  | .initPublisher thread declared => ∀ uri, s.missed thread = some uri → declared = true →
      s.transport.pubHandleMap.lookup (X.uriHash uri) = none

/-! ## Steps -/

section Steps

variable {X} {s s' : Senders Thread UUID UUri Listener}

theorem OnePerKey.of_kept
    (h : ∀ (h : Handle) key, s.transport.entities.entries[h]? = some (.publisher key) →
      s.transport.pubHandleMap.lookup key = some h) : OnePerKey s :=
  ⟨fun k k' key hk hk' => Option.some.inj ((h k key hk).symm.trans (h k' key hk')), h⟩

theorem OnePerKey.congr (htransport : s'.transport = s.transport) : OnePerKey s' ↔ OnePerKey s := by
  constructor
  · intro h
    exact .of_kept (by rw [← htransport]; exact h.kept)
  · intro h
    exact .of_kept (by rw [htransport]; exact h.kept)

/-- What a step does to the transport : nothing, or it declares a publisher for the URI of
its thread. -/
theorem step_cases [DecidableEq Thread] {e : SendStep Thread UUri} (h : step X s e = some s') :
    (s'.transport = s.transport ∧ FindsNone X s e) ∨
      ∃ thread uri, e = .initPublisher thread true ∧ s.missed thread = some uri ∧
        s'.transport.entities = s.transport.entities.alloc (.publisher (X.uriHash uri)) ∧
        s'.transport.pubHandleMap =
          s.transport.pubHandleMap.insert (X.uriHash uri) s.transport.entities.next := by
  cases e with
  | find thread uri =>
    refine Or.inl ⟨?_, trivial⟩
    unfold step at h
    dsimp only at h
    split at h
    · cases h
    · rw [← Option.some.inj h]
    · rw [← Option.some.inj h]
  | initPublisher thread declared =>
    unfold step at h
    dsimp only at h
    cases hmissed : s.missed thread with
    | none =>
      rw [hmissed] at h
      cases h
    | some uri =>
      rw [hmissed] at h
      rw [← Option.some.inj h]
      cases declared with
      | false => exact Or.inl ⟨rfl, fun _ _ hdeclared => by cases hdeclared⟩
      | true => exact Or.inr ⟨thread, uri, rfl, hmissed, rfl, rfl⟩

theorem listed_init : Listed (init : Senders Thread UUID UUri Listener) := by
  intro key h hlookup
  cases hlookup

theorem onePerKey_init : OnePerKey (init : Senders Thread UUID UUri Listener) := by
  refine .of_kept fun h key hentry => ?_
  simp [init, ZenohUTransport.init, Ledger.empty] at hentry

/-- A declaration keeps the publishers if and only if its key had none. -/
theorem onePerKey_declare_iff (hlisted : Listed s) (hone : OnePerKey s) {key : ℕ}
    (hentities : s'.transport.entities = s.transport.entities.alloc (.publisher key))
    (hmap : s'.transport.pubHandleMap =
      s.transport.pubHandleMap.insert key s.transport.entities.next) :
    OnePerKey s' ↔ s.transport.pubHandleMap.lookup key = none := by
  constructor
  · intro hone'
    rw [Option.eq_none_iff_forall_ne_some]
    intro h hlookup
    -- the publisher that was there is overwritten
    have hold := hlisted key h hlookup
    have hkept := hone'.kept h key (by rw [hentities]; exact Ledger.getElem?_alloc hold)
    rw [hmap, AList.lookup_insert] at hkept
    exact absurd (Option.some.inj hkept) (Ledger.getElem?_lt hold).ne'
  · intro hnone
    refine .of_kept fun h key' hentry => ?_
    rw [hentities] at hentry
    rw [hmap]
    rcases Ledger.getElem?_alloc_eq_some.1 hentry with hentry | ⟨rfl, heq⟩
    · have hkept := hone.kept h key' hentry
      have hne : key' ≠ key := by
        rintro rfl
        rw [hnone] at hkept
        cases hkept
      rw [AList.lookup_insert_ne hne, hkept]
    · cases heq
      exact AList.lookup_insert _

variable [DecidableEq Thread]

theorem preserves_listed :
    Preserves (step X) (fun _ _ => True)
      (Listed : Senders Thread UUID UUri Listener → Prop) := by
  intro s e s' hlisted _ hstep
  rcases step_cases hstep with ⟨htransport, -⟩ | ⟨thread, uri, -, -, hentities, hmap⟩
  · unfold Listed
    rw [htransport]
    exact hlisted
  · intro key h hlookup
    rw [hmap] at hlookup
    rw [hentities]
    by_cases hkey : key = X.uriHash uri
    · subst hkey
      rw [AList.lookup_insert] at hlookup
      obtain rfl := Option.some.inj hlookup
      exact Ledger.getElem?_alloc_next
    · rw [AList.lookup_insert_ne hkey] at hlookup
      exact Ledger.getElem?_alloc (hlisted key h hlookup)

/-- A step keeps the publishers if and only if it does not declare one for a key that has
one. -/
theorem after_onePerKey_iff (hlisted : Listed s) (hone : OnePerKey s) (e : SendStep Thread UUri) :
    After (step X) OnePerKey s e ↔ FindsNone X s e := by
  cases hstep : step X s e with
  | none =>
    refine iff_of_true (fun s' h => ?_) ?_
    · rw [hstep] at h
      cases h
    · cases e with
      | find => trivial
      | initPublisher thread declared =>
        intro uri hmissed
        simp [step, hmissed] at hstep
  | some s' =>
    rw [after_iff_of_step hstep]
    rcases step_cases hstep with
      ⟨htransport, hnone⟩ | ⟨thread, uri, rfl, hmissed, hentities, hmap⟩
    · exact iff_of_true ((OnePerKey.congr htransport).2 hone) hnone
    · rw [onePerKey_declare_iff hlisted hone hentities hmap]
      constructor
      · intro hnone uri' hmissed' _
        obtain rfl := Option.some.inj (hmissed.symm.trans hmissed')
        exact hnone
      · exact fun hnone => hnone uri hmissed rfl

end Steps

/-! ## Runs -/

variable [DecidableEq Thread]

/-- Along every interleaving of sends no key gets two publishers and none is overwritten, if
and only if no section declares a publisher for a key that has one. -/
theorem onePerKey_iff (es : List (SendStep Thread UUri)) :
    Along (step X) (After (step X) OnePerKey) (init : Senders Thread UUID UUri Listener) es ↔
      Along (step X) (FindsNone X) (init : Senders Thread UUID UUri Listener) es :=
  along_after_iff preserves_listed (fun _ e hlisted hone => after_onePerKey_iff hlisted hone e)
    listed_init onePerKey_init es

/-- Two threads send on the topic `a`, and both lookups come before both sections. -/
def bothMissed : List (SendStep Bool Bytes) :=
  [.find false [97], .find true [97], .initPublisher false true, .initPublisher true true]

/-- The topic has two publishers, and `pubHandleMap_` has the second one. -/
theorem not_onePerKey_bothMissed :
    ¬Along (step .sample) (After (step .sample) OnePerKey)
        (init : Senders Bool (UInt64 × UInt64) Bytes Bool) bothMissed ∧
      ∃ s : Senders Bool (UInt64 × UInt64) Bytes Bool, Run (step .sample) init bothMissed s ∧
        s.transport.entities.entries =
          [.publisher (Externals.sample.uriHash [97]), .publisher (Externals.sample.uriHash [97])] ∧
        s.transport.pubHandleMap.lookup (Externals.sample.uriHash [97]) = some 1 := by
  constructor
  · rintro ⟨-, h⟩
    obtain ⟨-, h⟩ := h _ rfl
    obtain ⟨-, h⟩ := h _ rfl
    obtain ⟨hone, -⟩ := h _ rfl
    have heq := (hone _ rfl).once 0 1 (Externals.sample.uriHash [97]) rfl rfl
    cases heq
  · exact ⟨_, .cons rfl (.cons rfl (.cons rfl (.cons rfl (.nil _)))), rfl, rfl⟩

end Senders

end UpClientZenoh
