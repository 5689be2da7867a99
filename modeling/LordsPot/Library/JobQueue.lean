import LordsPot.Library.Table

/-!
# Queues of jobs with ids

A queue keeps its jobs under their ids, those that have ended too until they are removed. Adding a job
whose id is kept does nothing. A job that is taken can be given back while a worker is still at it, so
that several work on one job. A job that throws is tried again until its attempts are used up.
-/

namespace JobQueue

inductive Status where
  | waiting | active | completed | failed
  deriving Repr, DecidableEq

structure Job (α : Type) where
  id : String
  data : α
  status : Status := .waiting
  attemptsMade : Nat := 0
  deriving Repr

variable {α : Type}

def add (id : String) (data : α) (jobs : List (Job α)) : List (Job α) :=
  if jobs.any (·.id == id) then jobs else jobs ++ [{ id := id, data := data }]

/-- A worker takes the job, if it waits. -/
def take? (id : String) (jobs : List (Job α)) : Option (Job α) :=
  jobs.find? fun job => job.id == id && job.status == .waiting

def setStatus (id : String) (status : Status) (jobs : List (Job α)) : List (Job α) :=
  Table.updateMany (·.id == id) (fun job => { job with status := status }) jobs

/-- A worker that was lost: its job waits again. -/
def stall (id : String) (jobs : List (Job α)) : List (Job α) :=
  Table.updateMany (fun job => job.id == id && job.status == .active)
    (fun job => { job with status := .waiting }) jobs

/-- A worker has thrown. -/
def threw (attempts : Nat) (id : String) (jobs : List (Job α)) : List (Job α) :=
  Table.updateMany (·.id == id)
    (fun job => { job with
      status := if job.attemptsMade + 1 < attempts then .waiting else .failed
      attemptsMade := job.attemptsMade + 1 }) jobs

/-- A job that has ended is dropped. -/
def remove (id : String) (jobs : List (Job α)) : List (Job α) :=
  jobs.filter fun job => !(job.id == id && (job.status == .completed || job.status == .failed))

/-- What the queue does to a job by itself: give it back when its worker is lost, fail it when that
has happened too often, drop it when it has ended. -/
inductive Upkeep where
  | stall | fail | remove
  deriving Repr, DecidableEq

def upkeep (id : String) (jobs : List (Job α)) : Upkeep → List (Job α)
  | .stall => stall id jobs
  | .fail => setStatus id .failed jobs
  | .remove => remove id jobs

variable {id : String} {data : α} {jobs : List (Job α)} {job : Job α}

theorem mem_add (h : job ∈ add id data jobs) : job ∈ jobs ∨ job = { id := id, data := data } := by
  unfold add at h
  split at h
  · exact .inl h
  · exact (List.mem_append.1 h).imp_right List.mem_singleton.1

theorem mem_take (h : take? id jobs = some job) : job ∈ jobs ∧ job.id = id := by
  have same := List.find?_some h
  rw [Bool.and_eq_true, beq_iff_eq] at same
  exact ⟨List.mem_of_find?_eq_some h, same.1⟩

/-- Job by job: the same id and data, and completed only if it was or is the one that is completed. -/
structure Kept (completes : String → Prop) (job job' : Job α) : Prop where
  id : job'.id = job.id
  data : job'.data = job.data
  completed : job'.status = .completed → job.status = .completed ∨ completes job.id

theorem mem_update (p : Job α → Bool) (f : Job α → Job α) {completes : String → Prop}
    (change : ∀ job, p job = true → Kept completes job (f job)) (h : job ∈ Table.updateMany p f jobs) :
    ∃ old ∈ jobs, Kept completes old job := by
  obtain ⟨old, mem, rfl⟩ := Table.mem_updateMany.1 h
  refine ⟨old, mem, ?_⟩
  split
  · rename_i hit
    exact change old hit
  · exact ⟨rfl, rfl, .inl⟩

theorem mem_complete (h : job ∈ setStatus id .completed jobs) :
    ∃ old ∈ jobs, Kept (· = id) old job := by
  refine mem_update (·.id == id) (fun job => { job with status := .completed }) (fun old hit => ?_) h
  exact ⟨rfl, rfl, fun _ => .inr (beq_iff_eq.1 hit)⟩

theorem mem_setStatus {status : Status} (differs : status ≠ .completed)
    (h : job ∈ setStatus id status jobs) : ∃ old ∈ jobs, Kept (fun _ => False) old job := by
  refine mem_update (·.id == id) (fun job => { job with status := status }) (fun old _ => ?_) h
  exact ⟨rfl, rfl, fun done => absurd done differs⟩

theorem mem_stall (h : job ∈ stall id jobs) : ∃ old ∈ jobs, Kept (fun _ => False) old job := by
  refine mem_update (fun job => job.id == id && job.status == .active)
    (fun job => { job with status := .waiting }) (fun old _ => ?_) h
  exact ⟨rfl, rfl, fun done => by cases done⟩

theorem mem_threw {attempts : Nat} (h : job ∈ threw attempts id jobs) :
    ∃ old ∈ jobs, Kept (fun _ => False) old job := by
  refine mem_update (·.id == id) (fun job => { job with
    status := if job.attemptsMade + 1 < attempts then .waiting else .failed
    attemptsMade := job.attemptsMade + 1 }) (fun old _ => ⟨rfl, rfl, fun done => ?_⟩) h
  dsimp only at done
  split at done
  · cases done
  · cases done

theorem mem_upkeep {act : Upkeep} (h : job ∈ upkeep id jobs act) :
    ∃ old ∈ jobs, Kept (fun _ => False) old job := by
  cases act with
  | stall => exact mem_stall h
  | fail => exact mem_setStatus (fun differs => by cases differs) h
  | remove => exact ⟨job, (List.mem_filter.1 h).1, rfl, rfl, .inl⟩

/-! ## What stays in the queue -/

theorem held_update (p : Job α → Bool) (f : Job α → Job α) (data : ∀ job, (f job).data = job.data)
    (h : job ∈ jobs) : ∃ job' ∈ Table.updateMany p f jobs, job'.data = job.data := by
  refine ⟨_, Table.mem_updateMany.2 ⟨job, h, rfl⟩, ?_⟩
  split
  · exact data job
  · rfl

theorem held_setStatus {status : Status} (h : job ∈ jobs) :
    ∃ job' ∈ setStatus id status jobs, job'.data = job.data :=
  held_update (·.id == id) (fun job => { job with status := status }) (fun _ => rfl) h

theorem held_threw {attempts : Nat} (h : job ∈ jobs) :
    ∃ job' ∈ threw attempts id jobs, job'.data = job.data :=
  held_update (·.id == id) (fun job => { job with
    status := if job.attemptsMade + 1 < attempts then .waiting else .failed
    attemptsMade := job.attemptsMade + 1 }) (fun _ => rfl) h

theorem held_add (h : job ∈ jobs) : job ∈ add id data jobs := by
  unfold add
  split
  · exact h
  · exact List.mem_append_left _ h

/-- A job with this id is there once it has been added. -/
theorem exists_add (id : String) (data : α) (jobs : List (Job α)) :
    ∃ job ∈ add id data jobs, job.id = id := by
  unfold add
  split
  · rename_i there
    obtain ⟨job, mem, same⟩ := List.any_eq_true.1 there
    exact ⟨job, mem, beq_iff_eq.1 same⟩
  · exact ⟨_, List.mem_append_right _ (List.mem_singleton_self _), rfl⟩

/-- No failed job of this id is dropped. -/
def keepsFailed (id : String) (jobs : List (Job α)) : Upkeep → Bool
  | .remove => jobs.all fun job => job.id != id || job.status != .failed
  | _ => true

/-- Upkeep drops only what has been completed. -/
theorem held_upkeep {act : Upkeep} (keeps : keepsFailed id jobs act = true) (h : job ∈ jobs)
    (unfinished : job.status ≠ .completed) : ∃ job' ∈ upkeep id jobs act, job'.data = job.data := by
  cases act with
  | stall =>
    exact held_update (fun job => job.id == id && job.status == .active)
      (fun job => { job with status := .waiting }) (fun _ => rfl) h
  | fail => exact held_setStatus h
  | remove =>
    have kept := List.all_eq_true.1 keeps job h
    refine ⟨job, List.mem_filter.2 ⟨h, ?_⟩, rfl⟩
    rw [Bool.or_eq_true, bne_iff_ne, bne_iff_ne] at kept
    rcases kept with other | fine
    · simp [other]
    · simp [fine, unfinished]

end JobQueue
