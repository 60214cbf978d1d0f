import SmeshDurable.Auth.Jwks
import SmeshDurable.Library.Timed
import Mathlib.Data.List.Pairwise

/-!
# Refreshing the keys of the verifier

Concurrent calls look a key up in a cached snapshot and refresh the snapshot when it is stale or
lacks the key. Refreshes go one at a time, under a lock that is held from the second look at the
cache to the installation of the new snapshot. A refresh for a key that the cache lacks first
takes a reservation, so that unknown ids cannot drive the provider.

A call samples the clock once, when it begins, and takes one step from one await point to the
next. The state also records what was fetched, installed and answered.
-/

namespace SmeshDurable.Auth

open Transaction

/-! ## States -/

/-- How far a call has come. -/
inductive Phase where
  /-- It sampled the clock and waits for the cache. -/
  | begun
  /-- It did not find a fresh key in the snapshot with the revision, and waits for the lock. -/
  | waiting (observed : Nat)
  /-- It holds the lock and waits for the cache. -/
  | holding (observed : Nat)
  /-- The cache lacks the key; it waits for the reservation. -/
  | unknown
  /-- It waits for the provider. -/
  | fetching (unknown : Bool) (number : Nat)
  /-- It found the key the cache lacked and waits to give the reservation back. -/
  | clearing (snapshot : JwksSnapshot) (number : Nat)
  /-- It waits for the cache to install the snapshot. -/
  | installing (snapshot : JwksSnapshot) (number : Nat)

/-- The call holds the refresh lock. -/
def Phase.holds : Phase → Bool
  | .begun | .waiting _ => false
  | _ => true

/-- The revision the call found before it waited for the lock. -/
def Phase.observed? : Phase → Option Nat
  | .waiting observed | .holding observed => some observed
  | _ => none

/-- The number of the fetch the call made. -/
def Phase.number? : Phase → Option Nat
  | .fetching _ number | .clearing _ number | .installing _ number => some number
  | _ => none

/-- A call of `key_for`; `since` counts the snapshots installed before it began. -/
structure Call where
  kid : String
  now : Nat
  since : Nat
  phase : Phase

/-- A fetch: what it was made for, when its call sampled the clock and when it started. -/
structure Fetch where
  kid : String
  unknown : Bool
  sampled : Nat
  started : Nat
deriving DecidableEq

/-- An installed snapshot with the number of its fetch. -/
structure Install where
  snapshot : JwksSnapshot
  number : Nat

structure Answer where
  call : Call
  result : Except AuthenticationError Jwk

structure Verifier where
  cache : JwksSnapshot
  refreshLock : Option Nat
  lastUnknownRefresh : Option Nat
  calls : Nat → Option Call
  /-- The fetches in the order they started; the first has the number one. -/
  fetches : List Fetch
  /-- The numbers of the fetches that found the key the cache lacked. -/
  found : List Nat
  /-- The snapshots in the order they were installed, the first by the start of the verifier. -/
  installs : List Install
  answers : List Answer

namespace Verifier

/-- The verifier with its first snapshot. -/
def opened (snapshot : JwksSnapshot) : Verifier where
  cache := snapshot
  refreshLock := none
  lastUnknownRefresh := none
  calls := fun _ => none
  fetches := []
  found := []
  installs := [⟨snapshot, 0⟩]
  answers := []

def setCall (s : Verifier) (id : Nat) (call : Option Call) : Verifier :=
  { s with calls := Function.update s.calls id call }

/-- The call ends; the lock it holds is released. -/
def finish (s : Verifier) (id : Nat) (call : Call) : Verifier :=
  { s.setCall id none with
    refreshLock := if call.phase.holds then none else s.refreshLock }

def answer (s : Verifier) (id : Nat) (call : Call) (result : Except AuthenticationError Jwk) :
    Verifier :=
  { s.finish id call with answers := s.answers ++ [⟨call, result⟩] }

def goto (s : Verifier) (id : Nat) (call : Call) (phase : Phase) : Verifier :=
  s.setCall id (some { call with phase := phase })

/-- The call asks the provider. -/
def startFetch (s : Verifier) (id : Nat) (call : Call) (unknown : Bool) (now : Nat) : Verifier :=
  { s.goto id call (.fetching unknown (s.fetches.length + 1)) with
    fetches := s.fetches ++ [⟨call.kid, unknown, call.now, now⟩] }

/-- The key of the call if the cached snapshot was fresh when the call began. -/
def freshKey (s : Verifier) (call : Call) : Option Jwk :=
  if call.now < s.cache.freshUntil then s.cache.keys.lookup call.kid else none

theorem freshKey_eq_some {s : Verifier} {call : Call} {key : Jwk} :
    s.freshKey call = some key ↔
      call.now < s.cache.freshUntil ∧ s.cache.keys.lookup call.kid = some key := by
  unfold freshKey
  split
  case isTrue h => simp only [h, true_and]
  case isFalse h => simp only [h, false_and, reduceCtorEq]

/-- The reservation of an earlier refresh does not refuse a call that sampled `now`. -/
def grants (config : JwtVerifierConfig) (s : Verifier) (now : Nat) : Prop :=
  ∀ previous ∈ s.lastUnknownRefresh, config.unknownKidRefreshIntervalSeconds ≤ now - previous

instance (config : JwtVerifierConfig) (s : Verifier) (now : Nat) :
    Decidable (s.grants config now) :=
  inferInstanceAs (Decidable (∀ previous ∈ s.lastUnknownRefresh, _))

end Verifier

/-! ## Steps -/

inductive Event where
  | begin (id : Nat) (kid : String)
  | look (id : Nat)
  | lock (id : Nat)
  | lookAgain (id : Nat)
  | reserve (id : Nat)
  | provide (id : Nat) (fetched : Option JwksFetch)
  | clear (id : Nat)
  | install (id : Nat)
  /-- The caller drops the call. -/
  | drop (id : Nat)

structure Action where
  event : Event
  now : Nat

section Steps

variable [JwkSetParser] (config : JwtVerifierConfig)

namespace Verifier

/-- The first look at the cache. -/
def look (s : Verifier) (id : Nat) (call : Call) : Verifier :=
  match s.freshKey call with
  | some key => s.answer id call (.ok key)
  | none => s.goto id call (.waiting s.cache.revision)

/-- The look at the cache under the lock: another call may have refreshed it. -/
def lookAgain (s : Verifier) (id : Nat) (call : Call) (observed now : Nat) : Verifier :=
  match s.freshKey call with
  | some key => s.answer id call (.ok key)
  | none =>
    match s.cache.keys.lookup call.kid with
    | some key =>
      if s.cache.revision ≠ observed then s.answer id call (.ok key)
      else s.startFetch id call false now
    | none => s.goto id call .unknown

/-- Ask for the reservation and, with it, the provider. -/
def reserve (s : Verifier) (id : Nat) (call : Call) (now : Nat) : Verifier :=
  if s.grants config call.now then
    { s.startFetch id call true now with lastUnknownRefresh := some call.now }
  else s.answer id call (.error .unknownKeyId)

/-- The answer of the provider. -/
def provide (s : Verifier) (id : Nat) (call : Call) (unknown : Bool) (number : Nat)
    (fetched : Option JwksFetch) : Verifier :=
  match fetchSnapshot config fetched call.now with
  | .error e => s.answer id call (.error e)
  | .ok snapshot =>
    if unknown = true ∧ (snapshot.keys.lookup call.kid).isSome then
      { s.goto id call (.clearing snapshot number) with found := s.found ++ [number] }
    else s.goto id call (.installing snapshot number)

def clear (s : Verifier) (id : Nat) (call : Call) (snapshot : JwksSnapshot) (number : Nat) :
    Verifier :=
  { s.goto id call (.installing snapshot number) with lastUnknownRefresh := none }

def install (s : Verifier) (id : Nat) (call : Call) (snapshot : JwksSnapshot) (number : Nat) :
    Verifier :=
  let installed : JwksSnapshot :=
    { snapshot with revision := saturatingAdd s.cache.revision 1 }
  { s.answer id call (expect (snapshot.keys.lookup call.kid) .unknownKeyId) with
    cache := installed
    installs := s.installs ++ [⟨installed, number⟩] }

/-- One step; a call that is not there, or has not come that far, takes none. -/
def next (s : Verifier) (a : Action) : Verifier :=
  match a.event with
  | .begin id kid =>
    match s.calls id with
    | none => s.setCall id (some ⟨kid, a.now, s.installs.length, .begun⟩)
    | some _ => s
  | .look id =>
    match s.calls id with
    | some call => match call.phase with
        | .begun => s.look id call
        | _ => s
    | none => s
  | .lock id =>
    match s.calls id, s.refreshLock with
    | some call, none => match call.phase with
        | .waiting observed => { s.goto id call (.holding observed) with refreshLock := some id }
        | _ => s
    | _, _ => s
  | .lookAgain id =>
    match s.calls id with
    | some call => match call.phase with
        | .holding observed => s.lookAgain id call observed a.now
        | _ => s
    | none => s
  | .reserve id =>
    match s.calls id with
    | some call => match call.phase with
        | .unknown => s.reserve config id call a.now
        | _ => s
    | none => s
  | .provide id fetched =>
    match s.calls id with
    | some call => match call.phase with
        | .fetching unknown number => s.provide config id call unknown number fetched
        | _ => s
    | none => s
  | .clear id =>
    match s.calls id with
    | some call => match call.phase with
        | .clearing snapshot number => s.clear id call snapshot number
        | _ => s
    | none => s
  | .install id =>
    match s.calls id with
    | some call => match call.phase with
        | .installing snapshot number => s.install id call snapshot number
        | _ => s
    | none => s
  | .drop id =>
    match s.calls id with
    | some call => s.finish id call
    | none => s

end Verifier

/-- The verifier as a clocked system: the clock is the monotonic one, in seconds. -/
def refreshSystem : Clocked Verifier Action where
  time a := a.now
  next := Verifier.next config

end Steps

/-! ## What a step changes -/

section Moves

variable [JwkSetParser] (config : JwtVerifierConfig)

/-- The changes a step can make. -/
inductive Verifier.Moves (s : Verifier) (a : Action) : Verifier → Prop
  | begin (id : Nat) (kid : String) (hfree : s.calls id = none) :
      Moves s a (s.setCall id (some ⟨kid, a.now, s.installs.length, .begun⟩))
  | drop (id : Nat) (call : Call) (hcall : s.calls id = some call) : Moves s a (s.finish id call)
  | hit (id : Nat) (call : Call) (key : Jwk) (hcall : s.calls id = some call)
      (hkey : s.cache.keys.lookup call.kid = some key)
      (hfresh : call.now < s.cache.freshUntil ∨
        ∃ observed, call.phase.observed? = some observed ∧ s.cache.revision ≠ observed) :
      Moves s a (s.answer id call (.ok key))
  | miss (id : Nat) (call : Call) (hcall : s.calls id = some call) (hphase : call.phase = .begun) :
      Moves s a (s.goto id call (.waiting s.cache.revision))
  | lock (id : Nat) (call : Call) (observed : Nat) (hcall : s.calls id = some call)
      (hphase : call.phase = .waiting observed) (hopen : s.refreshLock = none) :
      Moves s a { s.goto id call (.holding observed) with refreshLock := some id }
  | stale (id : Nat) (call : Call) (hcall : s.calls id = some call)
      (hheld : call.phase.holds = true) : Moves s a (s.startFetch id call false a.now)
  | lack (id : Nat) (call : Call) (hcall : s.calls id = some call)
      (hheld : call.phase.holds = true) : Moves s a (s.goto id call .unknown)
  | reserve (id : Nat) (call : Call) (hevent : a.event = .reserve id)
      (hcall : s.calls id = some call) (hphase : call.phase = .unknown)
      (hgrants : s.grants config call.now) :
      Moves s a { s.startFetch id call true a.now with lastUnknownRefresh := some call.now }
  | fail (id : Nat) (call : Call) (e : AuthenticationError) (hcall : s.calls id = some call) :
      Moves s a (s.answer id call (.error e))
  | discover (id : Nat) (call : Call) (snapshot : JwksSnapshot) (number : Nat)
      (hcall : s.calls id = some call) (hphase : call.phase = .fetching true number) :
      Moves s a { s.goto id call (.clearing snapshot number) with found := s.found ++ [number] }
  | fetched (id : Nat) (call : Call) (snapshot : JwksSnapshot) (unknown : Bool) (number : Nat)
      (hcall : s.calls id = some call) (hphase : call.phase = .fetching unknown number) :
      Moves s a (s.goto id call (.installing snapshot number))
  | clear (id : Nat) (call : Call) (snapshot : JwksSnapshot) (number : Nat)
      (hcall : s.calls id = some call) (hphase : call.phase = .clearing snapshot number) :
      Moves s a (s.clear id call snapshot number)
  | install (id : Nat) (call : Call) (snapshot : JwksSnapshot) (number : Nat)
      (hcall : s.calls id = some call) (hphase : call.phase = .installing snapshot number) :
      Moves s a (s.install id call snapshot number)

variable {config}

/-- A step leaves the verifier as it is or makes one of the changes. -/
theorem Verifier.next_cases (s : Verifier) (a : Action) :
    s.next config a = s ∨ s.Moves config a (s.next config a) := by
  obtain ⟨event, now⟩ := a
  unfold Verifier.next
  cases event with
  | begin id kid =>
    dsimp only
    split
    case h_1 hfree => exact .inr (.begin id kid hfree)
    case h_2 => exact .inl rfl
  | look id =>
    dsimp only
    split
    case h_2 => exact .inl rfl
    case h_1 call hcall =>
      split
      case h_2 => exact .inl rfl
      case h_1 hphase =>
        right
        unfold Verifier.look
        split
        case h_1 key hkey =>
          obtain ⟨hfresh, hkey⟩ := freshKey_eq_some.mp hkey
          exact .hit id call key hcall hkey (.inl hfresh)
        case h_2 => exact .miss id call hcall hphase
  | lock id =>
    dsimp only
    split
    case h_2 => exact .inl rfl
    case h_1 call hcall hopen =>
      split
      case h_2 => exact .inl rfl
      case h_1 observed hphase => exact .inr (.lock id call observed hcall hphase hopen)
  | lookAgain id =>
    dsimp only
    split
    case h_2 => exact .inl rfl
    case h_1 call hcall =>
      split
      case h_2 => exact .inl rfl
      case h_1 observed hphase =>
        have hheld : call.phase.holds = true := by rw [hphase]; rfl
        right
        unfold Verifier.lookAgain
        split
        case h_1 key hkey =>
          obtain ⟨hfresh, hkey⟩ := freshKey_eq_some.mp hkey
          exact .hit id call key hcall hkey (.inl hfresh)
        case h_2 =>
          split
          case h_1 key hkey =>
            split
            case isTrue hrevision =>
              exact .hit id call key hcall hkey
                (.inr ⟨observed, by rw [hphase]; rfl, hrevision⟩)
            case isFalse => exact .stale id call hcall hheld
          case h_2 => exact .lack id call hcall hheld
  | reserve id =>
    dsimp only
    split
    case h_2 => exact .inl rfl
    case h_1 call hcall =>
      split
      case h_2 => exact .inl rfl
      case h_1 hphase =>
        right
        unfold Verifier.reserve
        split
        case isTrue hgrants => exact .reserve id call rfl hcall hphase hgrants
        case isFalse => exact .fail id call _ hcall
  | provide id fetched =>
    dsimp only
    split
    case h_2 => exact .inl rfl
    case h_1 call hcall =>
      split
      case h_2 => exact .inl rfl
      case h_1 unknown number hphase =>
        right
        unfold Verifier.provide
        split
        case h_1 => exact .fail id call _ hcall
        case h_2 snapshot _ =>
          split
          case isTrue h => exact .discover id call snapshot number hcall (by rw [hphase, h.1])
          case isFalse => exact .fetched id call snapshot unknown number hcall hphase
  | clear id =>
    dsimp only
    split
    case h_2 => exact .inl rfl
    case h_1 call hcall =>
      split
      case h_2 => exact .inl rfl
      case h_1 snapshot number hphase => exact .inr (.clear id call snapshot number hcall hphase)
  | install id =>
    dsimp only
    split
    case h_2 => exact .inl rfl
    case h_1 call hcall =>
      split
      case h_2 => exact .inl rfl
      case h_1 snapshot number hphase => exact .inr (.install id call snapshot number hcall hphase)
  | drop id =>
    dsimp only
    split
    case h_2 => exact .inl rfl
    case h_1 call hcall => exact .inr (.drop id call hcall)

end Moves

end SmeshDurable.Auth
