import LordsPot.Relay.Errors
import LordsPot.Relay.Owners

/-!
# Watching the jobs

The relay's machine with a note on every process: the reverts a job has seen and how they were
classified, the error its `catch` was given, the tickets it has broadcast, and the status its order
was in when it ended. The notes change nothing, but that every classification is the one that
`classifyMinedRevert` makes of a simulation, or `classifyError` of the error that was thrown.
-/

namespace LordsPot.Relay

open Transition

/-- A chunk whose transaction mined as a revert and was not recovered. -/
structure Revert where
  tickets : List ChunkTicket
  cls : RevertClass
  deriving Repr, DecidableEq

/-- What is noted of a process. -/
structure Mark where
  hash : Bytes32 := ""
  /-- The tickets that no job from now on may broadcast, when this one starts. -/
  barred : List Uuid := []
  /-- The tickets it has broadcast. -/
  sent : List Uuid := []
  /-- The reverts it has seen, newest first. -/
  reverts : List Revert := []
  /-- What `submitAndConfirmChunk` throws once the chunk is released. -/
  own : Option Caught := none
  caught : Option Caught := none
  /-- The status of its order when it ended. -/
  ended : Option OrderStatus := none
  deriving Repr, DecidableEq

/-! ## What a call adds -/

def Proc.sends : Proc → Call → List Uuid
  | .relaying _ _ (.submitting _ _ chunk _), .submit _ => chunk.map (·.id)
  | _, _ => []

/-- An already processed chunk counts when its event is not found. -/
def Proc.sees : Proc → Call → List Revert
  | .relaying _ _ (.classifying _ tickets _ _), .classify cls =>
      if cls = .already_processed then [] else [{ tickets := tickets, cls := cls }]
  | .relaying _ _ (.findingExisting _ tickets _ _), .findExisting none =>
      [{ tickets := tickets, cls := .already_processed }]
  | _, _ => []

/-- What a fresh chunk will be given up with. -/
def Proc.givesUp : Proc → Call → Option Caught
  | .relaying _ _ (.awaiting b _ txHash (.fresh ..)), .receipt none => some (.timedOut b txHash)
  | .relaying _ _ (.awaiting b _ txHash (.fresh ..)), .receipt (some false) =>
      some (.reverted b txHash)
  | _, _ => none

/-- Inside the job's `try`. -/
def Proc.trying : Proc → Bool
  | .relaying .. => true
  | _ => false

def Proc.isCatching : Proc → Bool
  | .catching _ => true
  | _ => false

/-- Where a call leaves a process: it throws when its answer is lost. -/
def Proc.answered (p p' : Proc) (lost : Bool) : Proc := if lost then p.thrown else p'

def ends (p p' : Proc) : Bool := p' == .ended && p != .ended

/-- The note on a process that goes from `p` to `p'` with a call; `err` is what the call throws, if
it throws, and `db` what it leaves. -/
def Mark.after (m : Mark) (p : Proc) (call : Call) (lost : Bool) (err : Err) (p' : Proc) (db : Db) :
    Mark where
  hash := m.hash
  barred := m.barred
  sent := m.sent ++ p.sends call
  reverts := (if lost then [] else p.sees call) ++ m.reverts
  own := (if lost then none else p.givesUp call).or m.own
  caught :=
    if p.trying && p'.isCatching then
      if lost || call == .throw then some (.call err) else m.own
    else m.caught
  ended := if ends p p' then (db.order? m.hash).map (·.status) else m.ended

/-- The tickets of the chunks whose revert was permanent. -/
def Mark.permanent (m : Mark) : List Uuid :=
  (m.reverts.filter (·.cls.isPermanent)).flatMap fun r => r.tickets.map (·.id)

/-! ## The machine -/

structure Watch where
  relay : State
  marks : Nat → Mark := fun _ => {}
  /-- The tickets of permanent reverts that jobs have ended with. -/
  barred : List Uuid := []

/-- A step of the relay, with what the simulation shows in case it classifies a mined revert, and
the error in case its call throws. -/
structure Event where
  action : Action
  simulation : Simulation := .clean
  err : Err := {}
  deriving Repr, DecidableEq

/-- The next process is noted. -/
def Watch.start (w : Watch) (s : State) (m : Mark) : Watch :=
  { w with relay := s, marks := Function.update w.marks w.relay.procs.length m }

/-- Process `i` has made a call. -/
def Watch.noted (w : Watch) (s : State) (i : Nat) (p : Proc) (call : Call) (lost : Bool) (err : Err)
    (p' : Proc) : Watch where
  relay := s
  marks := Function.update w.marks i ((w.marks i).after p call lost err p' s.db)
  barred := if ends p p' then w.barred ++ (w.marks i).permanent else w.barred

section Machine

variable (keccak256 : String → Bytes32) (parseError : String → Option String)

/-- A classification is what the code makes of the simulation or of the error. -/
def classified (w : Watch) (e : Event) : Bool :=
  match e.action with
  | .call i (.classify cls) _ => match w.relay.procs[i]? with
    | some (.catching _) => (w.marks i).caught.all fun c => cls == classifyError parseError c.err
    | some (.relaying ..) | some (.confirmerClassifying ..) =>
        cls == classifyMinedRevert parseError e.simulation
    | _ => true
  | _ => true

def watchStep (w : Watch) (e : Event) : Option Watch :=
  if classified parseError w e then
    (step keccak256 w.relay e.action).map fun s =>
      match e.action with
      | .job hash => w.start s { hash := hash, barred := w.barred }
      | .confirm hash | .reset hash => w.start s { hash := hash }
      | .call i call lost => match w.relay.procs[i]?, s.procs[i]? with
        | some p, some p' => w.noted s i p call lost e.err p'
        | _, _ => { w with relay := s }
      | .requeue | .mine .. | .revert _ | .rollover _ => { w with relay := s }
  else none

/-- The relay, with notes on its processes. -/
def watching : Machine Watch Event where
  init w := Initial keccak256 w.relay ∧ (∀ i, w.marks i = {}) ∧ w.barred = []
  step := watchStep keccak256 parseError

/-- **How reverts are to be honoured.** Permanent and paused ones decide the status of the order;
the order of a job that gives up over a revert is retried only if the revert is transient; and
tickets of a permanent revert are left alone by every later job. -/
structure Heeded (m : Mark) : Prop where
  permanent : ∀ status, m.ended = some status → ∀ r ∈ m.reverts, r.cls.isPermanent = true →
    status = .FAILED_PERMANENT
  paused : ∀ status, m.ended = some status → ∀ r ∈ m.reverts, r.cls.isPaused = true →
    status = .DEFERRED
  transient : m.ended = some .RETRY_PENDING → ∀ c, m.caught = some c → c.isReverted = true →
    ∀ r ∈ m.reverts.head?, r.cls.isTransient = true
  barred : ∀ id ∈ m.sent, id ∉ m.barred

/-- The error in the `catch` is of the class of each permanent or paused revert, the job's last write
is made and for a paused one it finds the order in PROCESSING, or in DEFERRED already. A job that
gives up over a revert has seen it classified as transient. -/
def Mark.agrees (m : Mark) (call : Call) (db : Db) : Bool :=
  (m.reverts.all fun r => match r.cls with
    | .permanent _ => call == .write &&
        m.caught.any fun c => (classifyError parseError c.err).isPermanent
    | .paused _ => call == .write &&
        (m.caught.any fun c => (classifyError parseError c.err).isPaused) &&
        (db.order? m.hash).all fun o => o.status == .PROCESSING || o.status == .DEFERRED
    | .already_processed | .transient _ => true) &&
  (!m.caught.any (·.isReverted) || m.reverts.head?.all (·.cls.isTransient))

/-- A job that ends here meets `Mark.agrees`. -/
def agreed (w : Watch) (e : Event) : Bool :=
  match e.action with
  | .call i call _ => (step keccak256 w.relay e.action).all fun s =>
      match w.relay.procs[i]?, s.procs[i]? with
      | some p, some p' => !ends p p' || (w.marks i).agrees parseError call w.relay.db
      | _, _ => true
  | _ => true

end Machine

/-! ## What the notes say -/

section Step

variable {keccak256 : String → Bytes32} {parseError : String → Option String} {w w' : Watch}
  {e : Event}

theorem mem_barred_noted {s : State} {i : Nat} {p p' : Proc} {call : Call} {lost : Bool} {err : Err}
    {id : Uuid} : id ∈ (w.noted s i p call lost err p').barred ↔
      id ∈ w.barred ∨ ends p p' = true ∧ id ∈ (w.marks i).permanent := by
  rw [Watch.noted]
  split
  · rename_i fin
    simp [fin]
  · rename_i fin
    simp [fin]

/-- A step is one of the relay that no call makes, the start of a process, or a call. -/
inductive WatchMove (keccak256 : String → Bytes32) (parseError : String → Option String) (w : Watch)
    (e : Event) : Watch → Prop where
  | idle {s : State} (procs : s.procs = w.relay.procs) :
      WatchMove keccak256 parseError w e { w with relay := s }
  | job {s : State} {hash : Bytes32} (procs : s.procs = w.relay.procs ++ [.reading hash]) :
      WatchMove keccak256 parseError w e (w.start s { hash := hash, barred := w.barred })
  | other {s : State} {hash : Bytes32} {p : Proc} (procs : s.procs = w.relay.procs ++ [p])
      (known : p.hash? = none ∨ p.hash? = some hash) :
      WatchMove keccak256 parseError w e (w.start s { hash := hash })
  | call {s : State} {i : Nat} {p p' : Proc} {call : Call} {lost : Bool}
      (action : e.action = .call i call lost) (hi : w.relay.procs[i]? = some p)
      (hstep : procStep keccak256 w.relay p call = some (s, p'))
      (classes : ∀ order cls c, p = .catching order → call = .classify cls →
        (w.marks i).caught = some c → cls = classifyError parseError c.err) :
      WatchMove keccak256 parseError w e
        (w.noted { s with procs := w.relay.procs.set i (p.answered p' lost) }
          i p call lost e.err (p.answered p' lost))

theorem classes_of_classified {i : Nat} {call : Call} {lost : Bool} {p : Proc}
    (ok : classified parseError w e = true) (action : e.action = .call i call lost)
    (hi : w.relay.procs[i]? = some p) {order : OrderRead} {cls : RevertClass} {c : Caught}
    (at? : p = .catching order) (is : call = .classify cls) (caught : (w.marks i).caught = some c) :
    cls = classifyError parseError c.err := by
  subst at? is
  simp only [classified, action, hi, caught, Option.all_some, beq_iff_eq] at ok
  exact ok

theorem watchMove (hs : watchStep keccak256 parseError w e = some w') :
    WatchMove keccak256 parseError w e w' := by
  simp only [watchStep] at hs
  split at hs
  case isFalse => cases hs
  rename_i ok
  obtain ⟨s, hstep, rfl⟩ := Option.map_eq_some_iff.1 hs
  cases action : e.action with
  | job hash =>
    rw [action] at hstep
    cases hstep
    exact .job rfl
  | confirm hash =>
    rw [action] at hstep
    cases hstep
    exact .other rfl (.inr rfl)
  | reset hash =>
    rw [action] at hstep
    simp only [step] at hstep
    split at hstep <;> cases hstep
    exact .other rfl (.inl rfl)
  | requeue | revert hash =>
    rw [action] at hstep
    cases hstep
    exact .idle rfl
  | mine hash ticketIds | rollover drawing =>
    rw [action] at hstep
    simp only [step] at hstep
    split at hstep <;> cases hstep
    exact .idle rfl
  | call i call lost =>
    rw [action] at hstep
    obtain ⟨p, hi, hstep⟩ := Option.bind_eq_some_iff.1 hstep
    obtain ⟨⟨s₁, p'⟩, hproc, same⟩ := Option.bind_eq_some_iff.1 hstep
    cases same
    have now : (w.relay.procs.set i (if lost then p.thrown else p'))[i]? =
        some (p.answered p' lost) :=
      List.getElem?_set_self (List.getElem?_eq_some_iff.1 hi).1
    simp only [hi, now]
    exact .call action hi hproc fun _ _ _ => classes_of_classified ok action hi

/-- The notes are beside the relay. -/
theorem relay_watchStep (hs : watchStep keccak256 parseError w e = some w') :
    step keccak256 w.relay e.action = some w'.relay := by
  simp only [watchStep] at hs
  split at hs
  · obtain ⟨s, hstep, rfl⟩ := Option.map_eq_some_iff.1 hs
    rw [hstep]
    congr 1
    cases e.action with
    | call i call lost =>
      dsimp only
      split <;> rfl
    | _ => rfl
  · cases hs

/-- What is reached while watching is reached by the relay. -/
theorem reachable_relay {ok : Watch → Event → Prop}
    (h : (watching keccak256 parseError).ReachableBy ok w) :
    (machine keccak256).Reachable w.relay :=
  Machine.ReachableBy.project (M := machine keccak256) (N := watching keccak256 parseError)
    (·.relay) (fun _ hi => hi.1)
    (fun _ e _ _ hs => .inr ⟨e.action, trivial, relay_watchStep hs⟩) h

end Step

end LordsPot.Relay
