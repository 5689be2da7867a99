import LordsPot.Harvest.Worker

/-!
# The harvest lock

`runHarvestTick` around the steps of a tick: `SET harvest_lock NX EX`, the tick, and the `DEL` of
its `finally`, which asks nobody whose lock it deletes. A tick that outlives `LOCK_TTL_SEC` runs on
without the lock. Every run of ticks under the lock is a run of overlapping ticks.
-/

namespace LordsPot.Harvest

open Transition

structure Locked where
  harvest : State
  /-- When `harvest_lock` expires; none when the key is not there. -/
  lock : Option Nat := none
  /-- The ticks whose `finally` is still to come. -/
  running : List Nat := []
  deriving Repr

inductive LockAct where
  /-- A process whose own tick is not in flight takes the lock and starts one. -/
  | start
  | harvest (act : Action)
  /-- The `finally` of a tick that has ended. -/
  | del (i : Nat)
  deriving Repr, DecidableEq

/-- The loop is through, or an await threw. -/
def Tick.finished : Tick → Bool
  | .next [] | .ended => true
  | _ => false

/-- A process that dies runs no `finally`. -/
def stillRunning (running : List Nat) : Action → List Nat
  | .tick i .crash => running.filter (· != i)
  | _ => running

def lockStep (s : Locked) : LockAct → Option Locked
  | .start =>
      if s.lock.all fun expiry => decide (expiry ≤ s.harvest.now) then
        (step s.harvest .start).map fun harvest =>
          { harvest := harvest
            lock := some (s.harvest.now + LOCK_TTL_SEC * 1000)
            running := s.running ++ [s.harvest.ticks.length] }
      else none
  | .harvest .start => none
  | .harvest act =>
      (step s.harvest act).map fun harvest =>
        { s with harvest := harvest, running := stillRunning s.running act }
  | .del i =>
      if s.running.contains i && s.harvest.ticks[i]?.any Tick.finished then
        some { s with lock := none, running := s.running.filter (· != i) }
      else none

/-- No tick has run, and no two tickets have the same NFT. -/
structure LockInitial (s : Locked) : Prop where
  harvest : Initial s.harvest
  nfts : (s.harvest.db.tickets.filterMap (·.megapotNftId)).Nodup
  free : s.lock = none
  idle : s.running = []

def lockMachine : Machine Locked LockAct := ⟨LockInitial, lockStep⟩

/-- A condition on the harvest's own steps. -/
def onHarvest (ok : State → Action → Bool) (s : Locked) : LockAct → Bool
  | .harvest act => ok s.harvest act
  | .start | .del _ => true

/-- A step under the lock is a step of the harvest, or of the lock alone. -/
theorem lockStep_harvest {s s' : Locked} {a : LockAct} (hs : lockStep s a = some s') :
    s'.harvest = s.harvest ∨ ∃ act, step s.harvest act = some s'.harvest ∧
      (a = .harvest act ∨ act = .start) := by
  unfold lockStep at hs
  split at hs
  · split at hs
    · obtain ⟨harvest, started, rfl⟩ := Option.map_eq_some_iff.1 hs
      exact .inr ⟨.start, started, .inr rfl⟩
    · cases hs
  · cases hs
  · rename_i act _
    obtain ⟨harvest, stepped, rfl⟩ := Option.map_eq_some_iff.1 hs
    exact .inr ⟨act, stepped, .inl rfl⟩
  · split at hs
    · cases hs
      exact .inl rfl
    · cases hs

/-- **Every run under the lock is a run of the harvest.** -/
theorem harvest_of_locked {ok : State → Action → Bool} (start : ∀ s, ok s .start = true) {s : Locked}
    (h : lockMachine.ReachableBy (fun s a => onHarvest ok s a = true) s) :
    machine.ReachableBy (fun s a => ok s a = true) s.harvest := by
  refine Machine.ReachableBy.project (M := machine) Locked.harvest
    (fun _ initial => LockInitial.harvest initial) ?_ h
  intro s a s' allowed hs
  rcases lockStep_harvest hs with same | ⟨act, stepped, rfl | rfl⟩
  · exact .inl same
  · exact .inr ⟨act, allowed, stepped⟩
  · exact .inr ⟨.start, start _, stepped⟩

end LordsPot.Harvest
