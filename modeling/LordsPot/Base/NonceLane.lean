import Mathlib.Data.List.Infix
import LordsPot.Library.Machine

/-!
# The nonce lane of the Base service

`withNonceLane` is a mutex over a chain of promises: a call takes the promise of the call before
it and leaves its own in `nonceLane`, so a promise is named here by the call whose `release`
resolves it. Every `await` is a point where other calls and `resetNonceLane` may run; what lies
between two of them is one step. The log, newest event first, is kept for the statements only: no
step reads it.
-/

open Transition

namespace LordsPot.Base

/-- Calls of `submitBuyTickets` and `submitClaimWinnings`, numbered as they are made. -/
abbrev CallId := Nat

/-- Where a call is: the `await` it is at, or how it has ended. A result is the nonce of the
broadcast transaction; `none` is a rejection. -/
inductive Phase where
  | unmade
  /-- `submitClaimWinnings` is at `estimateGas`. -/
  | estimating
  /-- at `await prev` -/
  | waiting (prev : Option CallId)
  /-- at `getTransactionCount` -/
  | counting
  /-- at `vault.buyTickets` or `vault.claimWinnings` -/
  | broadcasting (nonce : Nat)
  /-- at `return await fn()`, with `fn` done -/
  | finishing (result : Option Nat)
  | settled (result : Option Nat)
  deriving DecidableEq, Repr

/-- The call runs the function it gave to `withNonceLane`. -/
def Phase.inside : Phase → Bool
  | .counting | .broadcasting _ | .finishing _ => true
  | _ => false

/-- Its promise is resolved. -/
def Phase.released : Phase → Bool
  | .settled _ => true
  | _ => false

/-- Where a call that enters the lane has its nonce from. -/
inductive Source where
  | pendingCount
  | counter (nonce : Nat)
  deriving DecidableEq, Repr

inductive Event where
  | joined (call : CallId)
  | entered (call : CallId) (source : Source)
  | resynced (call : CallId) (nonce : Nat)
  | accepted (call : CallId) (nonce : Nat)
  | failed (call : CallId)
  | reset
  deriving DecidableEq, Repr

structure Lane where
  nextNonce : Option Nat
  /-- `none` is `Promise.resolve()`. -/
  nonceLane : Option CallId
  made : Nat
  phase : CallId → Phase
  log : List Event

namespace Lane

def goto (s : Lane) (i : CallId) (p : Phase) : Lane :=
  { s with phase := Function.update s.phase i p }

/-- Has the promise a call waits for been resolved? -/
def released (s : Lane) : Option CallId → Bool
  | none => true
  | some prev => (s.phase prev).released

/-- `withNonceLane` up to `await prev`. -/
def withNonceLane (s : Lane) (i : CallId) : Lane :=
  { s.goto i (.waiting s.nonceLane) with nonceLane := some i, log := .joined i :: s.log }

/-- The function given to `withNonceLane` up to its first `await`. -/
def enter (s : Lane) (i : CallId) : Lane :=
  match s.nextNonce with
  | none => { s.goto i .counting with log := .entered i .pendingCount :: s.log }
  | some nonce =>
    { s.goto i (.broadcasting nonce) with log := .entered i (.counter nonce) :: s.log }

/-- From the answer of `getTransactionCount` to the broadcast. -/
def counted (s : Lane) (i : CallId) : Option Nat → Lane
  | none => s.goto i (.finishing none)
  | some nonce =>
    { s.goto i (.broadcasting nonce) with
      nextNonce := some nonce, log := .resynced i nonce :: s.log }

/-- From the broadcast to the end of the function: `this.nextNonce = nonce + 1`, or the `catch`. -/
def broadcast (s : Lane) (i : CallId) (nonce : Nat) : Bool → Lane
  | true =>
    { s.goto i (.finishing (some nonce)) with
      nextNonce := some (nonce + 1), log := .accepted i nonce :: s.log }
  | false =>
    { s.goto i (.finishing none) with nextNonce := none, log := .failed i :: s.log }

end Lane

/-- What happens next, with the answer of the provider where there is one. -/
inductive Action where
  | submitBuyTickets
  | submitClaimWinnings
  | estimated (call : CallId) (succeeds : Bool)
  | enter (call : CallId)
  | counted (call : CallId) (answer : Option Nat)
  | broadcast (call : CallId) (succeeds : Bool)
  | release (call : CallId)
  | resetNonceLane
  deriving DecidableEq, Repr

def step (s : Lane) : Action → Option Lane
  | .submitBuyTickets => some ({ s with made := s.made + 1 }.withNonceLane s.made)
  | .submitClaimWinnings => some ({ s with made := s.made + 1 }.goto s.made .estimating)
  | .estimated i succeeds =>
    match s.phase i with
    | .estimating => some (if succeeds then s.withNonceLane i else s.goto i (.settled none))
    | _ => none
  | .enter i =>
    match s.phase i with
    | .waiting prev => if s.released prev then some (s.enter i) else none
    | _ => none
  | .counted i answer =>
    match s.phase i with
    | .counting => some (s.counted i answer)
    | _ => none
  | .broadcast i succeeds =>
    match s.phase i with
    | .broadcasting nonce => some (s.broadcast i nonce succeeds)
    | _ => none
  | .release i =>
    match s.phase i with
    | .finishing result => some (s.goto i (.settled result))
    | _ => none
  | .resetNonceLane => some { s with nextNonce := none, log := .reset :: s.log }

def Lane.Initial (s : Lane) : Prop :=
  s.nextNonce = none ∧ s.nonceLane = none ∧ s.made = 0 ∧ (∀ i, s.phase i = .unmade) ∧ s.log = []

def lane : Machine Lane Action where
  init := Lane.Initial
  step := step

/-! ## What the log says -/

def Event.join : Event → Option CallId
  | .joined i => some i
  | _ => none

def Event.entry : Event → Option CallId
  | .entered i _ => some i
  | _ => none

def Event.acceptance : Event → Option Nat
  | .accepted _ nonce => some nonce
  | _ => none

def Event.resync : Event → Bool
  | .resynced .. => true
  | _ => false

/-- The calls that asked for the lane, last first. -/
def joins (log : List Event) : List CallId := log.filterMap Event.join

/-- The calls that entered it, last first. -/
def entries (log : List Event) : List CallId := log.filterMap Event.entry

/-- The nonces of the accepted broadcasts, last first. -/
def acceptances (log : List Event) : List Nat := log.filterMap Event.acceptance

/-- `resetNonceLane()` was called or a broadcast failed, and no call has entered the lane since. -/
def needsResync : List Event → Bool
  | [] => false
  | .reset :: _ | .failed _ :: _ => true
  | .entered .. :: _ => false
  | _ :: log => needsResync log

/-! ## The claimed properties -/

/-- At most one call is between the choice of its nonce and the end of its broadcast. -/
def Exclusive (s : Lane) : Prop :=
  ∀ i j, (s.phase i).inside = true → (s.phase j).inside = true → i = j

/-- The calls enter the lane in the order in which they ask for it, none passed by. -/
def InTurn (s : Lane) : Prop := entries s.log <:+ joins s.log

/-- What the provider answers to each call. -/
structure Fate where
  count : CallId → Option Nat
  succeeds : CallId → Bool

/-- A step of a call in the lane that meets with its fate. -/
def Fate.allows (fate : Fate) : Action → Bool
  | .enter _ | .release _ => true
  | .counted i answer => answer = fate.count i
  | .broadcast i succeeds => succeeds = fate.succeeds i
  | _ => false

/-- A waiting call gets to enter the lane whatever the calls before it meet with. -/
def Unblocked (s : Lane) : Prop :=
  ∀ i prev, s.phase i = .waiting prev → ∀ fate : Fate, ∃ as s',
    (∀ a ∈ as, fate.allows a = true) ∧ lane.run s as = some s' ∧ (s'.phase i).inside = true

/-- Since a resync the accepted broadcasts have used the nonces from its answer on, without a gap,
up to the next one. -/
def Consecutive (s : Lane) : Prop :=
  ∀ i nonce mid earlier, (mid ++ .resynced i nonce :: earlier) <:+ s.log →
    (∀ e ∈ mid, e.resync = false) →
    (acceptances mid).reverse = List.range' nonce (acceptances mid).length

/-- The first call to enter the lane after a `resetNonceLane()` or a failed broadcast takes its
nonce from the pending count of the chain. -/
def Resyncs (s : Lane) : Prop :=
  ∀ i source earlier, (.entered i source :: earlier) <:+ s.log → needsResync earlier = true →
    source = .pendingCount ∧ ∀ nonce, .accepted i nonce ∈ s.log → .resynced i nonce ∈ s.log

structure Serves (s : Lane) : Prop where
  exclusive : Exclusive s
  inTurn : InTurn s
  unblocked : Unblocked s
  consecutive : Consecutive s
  resyncs : Resyncs s

/-- The step is not one that accepts a broadcast whose call was in the lane when
`resetNonceLane()` was last called. -/
def keepsReset (s : Lane) : Action → Bool
  | .broadcast _ true => !needsResync s.log
  | _ => true

/-- The step is not one by which a call asks for the lane while an earlier `submitClaimWinnings` is
at its gas estimate. -/
def keepsTurn (s : Lane) : Action → Bool
  | .submitBuyTickets => (List.range s.made).all fun j => s.phase j ≠ .estimating
  | .estimated i true => (List.range i).all fun j => s.phase j ≠ .estimating
  | _ => true

/-! ## Steps -/

/-- What a step does, with what it requires. -/
inductive Move (s : Lane) : Action → Lane → Prop where
  | buys : Move s .submitBuyTickets ({ s with made := s.made + 1 }.withNonceLane s.made)
  | claims : Move s .submitClaimWinnings ({ s with made := s.made + 1 }.goto s.made .estimating)
  | estimated {i : CallId} (estimates : s.phase i = .estimating) :
      Move s (.estimated i true) (s.withNonceLane i)
  | refused {i : CallId} (estimates : s.phase i = .estimating) :
      Move s (.estimated i false) (s.goto i (.settled none))
  | enters {i : CallId} {prev : Option CallId} (waits : s.phase i = .waiting prev)
      (free : s.released prev = true) : Move s (.enter i) (s.enter i)
  | counted {i : CallId} {answer : Option Nat} (counts : s.phase i = .counting) :
      Move s (.counted i answer) (s.counted i answer)
  | broadcast {i : CallId} {nonce : Nat} {succeeds : Bool} (sends : s.phase i = .broadcasting nonce) :
      Move s (.broadcast i succeeds) (s.broadcast i nonce succeeds)
  | releases {i : CallId} {result : Option Nat} (done : s.phase i = .finishing result) :
      Move s (.release i) (s.goto i (.settled result))
  | resets : Move s .resetNonceLane { s with nextNonce := none, log := .reset :: s.log }

theorem move_of_step {s s' : Lane} {a : Action} (h : step s a = some s') : Move s a s' := by
  cases a with
  | submitBuyTickets => cases h; exact .buys
  | submitClaimWinnings => cases h; exact .claims
  | estimated i succeeds =>
    simp only [step] at h
    split at h
    · rename_i estimates
      cases succeeds with
      | true => cases h; exact .estimated estimates
      | false => cases h; exact .refused estimates
    · cases h
  | enter i =>
    simp only [step] at h
    split at h
    · rename_i prev waits
      split at h
      · rename_i free
        cases h
        exact .enters waits free
      · cases h
    · cases h
  | counted i answer =>
    simp only [step] at h
    split at h
    · rename_i counts
      cases h
      exact .counted counts
    · cases h
  | broadcast i succeeds =>
    simp only [step] at h
    split at h
    · rename_i nonce sends
      cases h
      exact .broadcast sends
    · cases h
  | release i =>
    simp only [step] at h
    split at h
    · rename_i result done
      cases h
      exact .releases done
    · cases h
  | resetNonceLane => cases h; exact .resets

/-- Entering puts the call inside and records where its nonce is from. -/
theorem enter_eq (s : Lane) (i : CallId) :
    (s.nextNonce = none ∧
      s.enter i = { s.goto i .counting with log := .entered i .pendingCount :: s.log }) ∨
    ∃ nonce, s.nextNonce = some nonce ∧
      s.enter i =
        { s.goto i (.broadcasting nonce) with log := .entered i (.counter nonce) :: s.log } := by
  unfold Lane.enter
  cases h : s.nextNonce with
  | none => exact .inl ⟨rfl, rfl⟩
  | some nonce => exact .inr ⟨nonce, rfl, rfl⟩

end LordsPot.Base
