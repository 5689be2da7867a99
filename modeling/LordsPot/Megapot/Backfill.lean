import Mathlib.Data.List.Pairwise
import LordsPot.Library.Machine
import LordsPot.Megapot.Payload

/-!
# The backfill of settled rounds

`syncAllSettledRounds` walks the rounds from the newest down, page by page, and stops at the highest
epoch it found stored when it started. It takes for granted that nothing below that epoch is
missing. A run that fails half way, or passes over a round without drawing data, leaves the newer
rounds stored and the older ones not, and so does a single epoch saved on its own; the next run stops
above them.
-/

namespace LordsPot.Megapot.Backfill

open Transition

/-- The `limit` of a page. -/
def PAGE_LIMIT : Nat := 100

/-- Where a run stands at its awaits. -/
inductive Phase where
  /-- The query for the highest stored epoch. -/
  | findingHighest
  | fetchingPage (highestDbId : Nat) (cursor : Option Nat)
  /-- `processActiveRound` of a round on a page, with the rounds after it and the next cursor. -/
  | processingActive (highestDbId : Nat) (todo : List MegapotRoundResponse) (next : Option Nat)
  | upserting (highestDbId : Nat) (round : SettledRound) (todo : List MegapotRoundResponse)
      (next : Option Nat)
  | completed
  | failed
  /-- The fetch of a single epoch, by `ensureSettledEpochSynced` or `transitionLoop`. -/
  | fetchingSingle (megapotId : Nat)
  | upsertingSingle (round : SettledRound)
  | ended
  deriving Repr

/-- A run, with the rounds that were settled when it started and whether the drawing data of all of
them was posted then. -/
structure Run where
  phase : Phase
  listed : List Nat := []
  drawn : Bool := false
  deriving Repr

structure State where
  db : Db := {}
  /-- What the API lists, newest first. -/
  rounds : List MegapotRoundResponse := []
  runs : List Run := []
  deriving Repr

/-- The awaited call a run returns from. -/
inductive Call where
  | findHighest
  /-- A page of `length` rounds, fewer only at the end of the list. -/
  | fetchPage (length : Nat)
  | processActive
  | fetchSingle
  | upsert (createdAt : Nat)
  /-- The call throws without effect, or the process dies. -/
  | throw
  deriving Repr

inductive Action where
  /-- The API lists new rounds, or knows more of the old ones. -/
  | publish (rounds : List MegapotRoundResponse)
  | sync
  | single (megapotId : Nat)
  /-- When the answer is `lost`, the call throws after its effect. -/
  | call (i : Nat) (call : Call) (lost : Bool)
  deriving Repr

/-! ## What the calls return -/

/-- `findFirst` by descending id, or 0. -/
def highestDbId (db : Db) : Nat := (db.megapotEpochs.map (·.megapotId)).foldr max 0

/-- The rounds after a cursor. -/
def after (rounds : List MegapotRoundResponse) : Option Nat → List MegapotRoundResponse
  | none => rounds
  | some cursor => rounds.filter (·.id < cursor)

/-- The cursor behind a page, when there is more. -/
def nextCursor (rest : List MegapotRoundResponse) (length : Nat) : Option Nat :=
  if length < rest.length then (rest.take length).getLast?.map (·.id) else none

/-- Whether the drawing data of a round is posted. -/
def isDrawn (data : MegapotRoundResponse) : Bool := data.drawing?.isSome

/-- Newest first; what was settled stays so, and posted drawing data stays posted. -/
def publishes (rounds rounds' : List MegapotRoundResponse) : Bool :=
  decide (rounds'.Pairwise fun r r' => r'.id < r.id) &&
    rounds.all fun r => r.status != "settled" ||
      rounds'.any fun r' => r'.id == r.id && r'.status == "settled" && (!isDrawn r || isDrawn r')

/-! ## The loop -/

/-- The loop over a page at the next round that it awaits something for. -/
def walk (highestDbId : Nat) (next : Option Nat) : List MegapotRoundResponse → Phase
  | [] => match next with
    | some cursor => .fetchingPage highestDbId (some cursor)
    | none => .completed
  | round :: todo =>
    if round.status = "active" then .processingActive highestDbId todo next
    else if round.status = "settled" then
      if round.id ≤ highestDbId then .completed
      else match settledRound round with
        | none => .failed
        | some none => walk highestDbId next todo
        | some (some settled) => .upserting highestDbId settled todo next
    else walk highestDbId next todo

/-- What a run does at a call: the database and the phase after it. -/
def runStep (db : Db) (rounds : List MegapotRoundResponse) : Phase → Call → Option (Db × Phase)
  | .findingHighest, .findHighest => some (db, .fetchingPage (highestDbId db) none)
  | .fetchingPage highestDbId cursor, .fetchPage length =>
      let rest := after rounds cursor
      if 0 < length ∧ length ≤ PAGE_LIMIT then
        some (db, walk highestDbId (nextCursor rest length) (rest.take length))
      else none
  | .processingActive highestDbId todo next, .processActive => some (db, walk highestDbId next todo)
  | .upserting highestDbId round todo next, .upsert createdAt =>
      some (upsertSettledEpoch db { round with createdAt := createdAt }, walk highestDbId next todo)
  | .fetchingSingle megapotId, .fetchSingle =>
      match rounds.find? (·.id == megapotId) with
      | none => some (db, .ended)
      | some data => match settledRound data with
        | some (some round) => some (db, .upsertingSingle round)
        | _ => some (db, .ended)
  | .upsertingSingle round, .upsert createdAt =>
      some (upsertSettledEpoch db { round with createdAt := createdAt }, .ended)
  | .fetchingSingle _, .throw | .upsertingSingle _, .throw => some (db, .ended)
  | .completed, _ | .failed, _ | .ended, _ => none
  | _, .throw => some (db, .failed)
  | _, _ => none

/-- Where a run is after a call that throws. -/
def Phase.thrown : Phase → Phase
  | .fetchingSingle _ | .upsertingSingle _ => .ended
  | _ => .failed

def Phase.completed? : Phase → Bool
  | .completed => true
  | _ => false

/-- The rounds that are settled. -/
def settledIds (rounds : List MegapotRoundResponse) : List Nat :=
  (rounds.filter (·.status == "settled")).map (·.id)

def allDrawn (rounds : List MegapotRoundResponse) : Bool :=
  rounds.all fun r => r.status != "settled" || isDrawn r

def step (s : State) : Action → Option State
  | .publish rounds => if publishes s.rounds rounds then some { s with rounds := rounds } else none
  | .sync => some { s with
      runs := s.runs ++ [{ phase := .findingHighest, listed := settledIds s.rounds
                           drawn := allDrawn s.rounds }] }
  | .single megapotId => some { s with runs := s.runs ++ [{ phase := .fetchingSingle megapotId }] }
  | .call i call lost => do
      let run ← s.runs[i]?
      let (db, phase) ← runStep s.db s.rounds run.phase call
      pure { s with
        db := db
        runs := s.runs.set i { run with phase := if lost then run.phase.thrown else phase } }

/-- Any stored epochs, and no run yet. -/
structure Initial (s : State) : Prop where
  newestFirst : s.rounds.Pairwise fun r r' => r'.id < r.id
  noRuns : s.runs = []

def machine : Machine State Action := ⟨Initial, step⟩

/-! ## What a run has covered -/

/-- The epoch has its row. -/
def Stored (db : Db) (id : Nat) : Prop := id ∈ db.megapotEpochs.map (·.megapotId)

theorem stored_upsert (db : Db) (round : SettledRound) (id : Nat) :
    Stored (upsertSettledEpoch db round) id ↔ Stored db id ∨ id = round.megapotId := by
  unfold upsertSettledEpoch Stored
  split
  · rename_i present
    obtain ⟨e, he, same⟩ := List.any_eq_true.1 present
    rw [Table.map_updateMany (·.megapotId) fun e _ _ => upsertPayload_megapotId round e]
    refine ⟨.inl, ?_⟩
    rintro (old | rfl)
    · exact old
    · exact List.mem_map.2 ⟨e, he, beq_iff_eq.1 same⟩
  · simp

/-- A round whose upsert is due. -/
def Due (id : Nat) (r : MegapotRoundResponse) : Prop :=
  r.id = id ∧ r.status = "settled" ∧ isDrawn r = true

/-- In the loop over a page, every listed epoch is stored, on the rest of the page, or behind the
next cursor; and those up to the highest stored epoch are stored. -/
structure Walking (stored : Nat → Prop) (listed : List Nat) (highestDbId : Nat)
    (todo : List MegapotRoundResponse) (next : Option Nat) : Prop where
  low : ∀ id ∈ listed, id ≤ highestDbId → stored id
  rest : ∀ id ∈ listed, stored id ∨ (∃ r ∈ todo, Due id r) ∨ ∃ c, next = some c ∧ id < c
  sorted : todo.Pairwise fun r r' => r'.id < r.id
  cursor : ∀ c, next = some c → ∀ r ∈ todo, c ≤ r.id

/-- What a phase says of the listed epochs. -/
def Covers (stored : Nat → Prop) (listed : List Nat) : Phase → Prop
  | .fetchingPage highestDbId none => ∀ id ∈ listed, id ≤ highestDbId → stored id
  | .fetchingPage highestDbId (some cursor) => Walking stored listed highestDbId [] (some cursor)
  | .processingActive highestDbId todo next => Walking stored listed highestDbId todo next
  | .upserting highestDbId round todo next =>
      Walking (fun id => stored id ∨ id = round.megapotId) listed highestDbId todo next
  | .completed => ∀ id ∈ listed, stored id
  | _ => True

section Walk

variable {stored stored' : Nat → Prop} {listed : List Nat} {highestDbId : Nat}
  {todo : List MegapotRoundResponse} {next : Option Nat}

theorem Walking.mono (h : Walking stored listed highestDbId todo next)
    (more : ∀ id, stored id → stored' id) : Walking stored' listed highestDbId todo next where
  low id hid le := more id (h.low id hid le)
  rest id hid := (h.rest id hid).imp_left (more id)
  sorted := h.sorted
  cursor := h.cursor

theorem Covers.mono {phase : Phase} (h : Covers stored listed phase)
    (more : ∀ id, stored id → stored' id) : Covers stored' listed phase := by
  cases phase with
  | fetchingPage highestDbId cursor =>
    cases cursor with
    | none => exact fun id hid le => more id (h id hid le)
    | some cursor => exact Walking.mono h more
  | processingActive => exact Walking.mono h more
  | upserting => exact Walking.mono h fun id => Or.imp_left (more id)
  | completed => exact fun id hid => more id (h id hid)
  | _ => trivial

/-- A round that is not due can be passed over. -/
theorem Walking.skip {r : MegapotRoundResponse} (h : Walking stored listed highestDbId (r :: todo) next)
    (skip : ∀ id, Due id r → stored' id) (more : ∀ id, stored id → stored' id) :
    Walking stored' listed highestDbId todo next where
  low id hid le := more id (h.low id hid le)
  rest id hid := by
    rcases h.rest id hid with done | ⟨r', hr', due⟩ | behind
    · exact .inl (more id done)
    · rcases List.mem_cons.1 hr' with rfl | later
      · exact .inl (skip id due)
      · exact .inr (.inl ⟨r', later, due⟩)
    · exact .inr (.inr behind)
  sorted := (List.pairwise_cons.1 h.sorted).2
  cursor c hc r hr := h.cursor c hc r (List.mem_cons_of_mem _ hr)

/-- At a round that is stored, every epoch below it is. -/
theorem Walking.halt {r : MegapotRoundResponse} (h : Walking stored listed highestDbId (r :: todo) next)
    (le : r.id ≤ highestDbId) : ∀ id ∈ listed, stored id := by
  intro id hid
  rcases h.rest id hid with done | ⟨r', hr', due⟩ | ⟨c, hc, lt⟩
  · exact done
  · refine h.low id hid ?_
    have below := due.1
    rcases List.mem_cons.1 hr' with rfl | later
    · omega
    · have := (List.pairwise_cons.1 h.sorted).1 r' later
      omega
  · have := h.cursor c hc r List.mem_cons_self
    exact h.low id hid (by omega)

theorem settledRound_megapotId {data : MegapotRoundResponse} {round : SettledRound}
    (h : settledRound data = some (some round)) : round.megapotId = data.id := by
  unfold settledRound at h
  split at h
  · cases h
  split at h
  · cases h
  obtain ⟨tiers, -, h⟩ := Option.bind_eq_some_iff.1 h
  obtain ⟨rawTopPrize, -, h⟩ := Option.bind_eq_some_iff.1 h
  cases h
  rfl

/-- A round that is passed over without an error is not settled or lacks its drawing data. -/
theorem settledRound_skipped {data : MegapotRoundResponse} (h : settledRound data = some none)
    (settled : data.status = "settled") : isDrawn data = false := by
  unfold settledRound at h
  rw [if_neg (by simpa using settled)] at h
  split at h
  · rename_i missing
    rw [isDrawn, missing, Option.isSome_none]
  · obtain ⟨tiers, -, h⟩ := Option.bind_eq_some_iff.1 h
    obtain ⟨rawTopPrize, -, h⟩ := Option.bind_eq_some_iff.1 h
    cases h

theorem Walking.walk (h : Walking stored listed highestDbId todo next) :
    Covers stored listed (walk highestDbId next todo) := by
  induction todo with
  | nil =>
    cases next with
    | none =>
      intro id hid
      rcases h.rest id hid with done | ⟨r, hr, -⟩ | ⟨c, hc, -⟩
      · exact done
      · cases hr
      · cases hc
    | some cursor => exact h
  | cons round todo ih =>
    rw [Backfill.walk]
    split
    · rename_i active
      refine h.skip (fun id due => ?_) fun _ => id
      have settled := active.symm.trans due.2.1
      exact absurd settled (by decide)
    split
    · rename_i settled
      split
      · rename_i le
        exact h.halt le
      split
      · trivial
      · rename_i skipped
        refine ih (h.skip (fun id due => ?_) fun _ => id)
        have missing := settledRound_skipped skipped settled
        rw [due.2.2] at missing
        cases missing
      · rename_i round' written
        refine h.skip (fun id due => ?_) fun _ => .inl
        exact .inr (due.1.symm.trans (settledRound_megapotId written).symm)
    · rename_i unsettled
      exact ih (h.skip (fun id due => absurd due.2.1 unsettled) fun _ => id)

end Walk

/-! ## What a step keeps -/

/-- The listed epochs are still listed as settled, with their drawing data. -/
def Listed (rounds : List MegapotRoundResponse) (listed : List Nat) : Prop :=
  ∀ id ∈ listed, ∃ r ∈ rounds, Due id r

/-- What is known of a run that started with all drawing data posted. -/
def RunCovers (s : State) (run : Run) : Prop :=
  run.drawn = true → Listed s.rounds run.listed ∧ Covers (Stored s.db) run.listed run.phase

structure Inv (s : State) : Prop where
  newestFirst : s.rounds.Pairwise fun r r' => r'.id < r.id
  runs : ∀ run ∈ s.runs, RunCovers s run

/-- A run reads the highest stored epoch only while no settled round up to it lacks its row. -/
def noGap (s : State) : Action → Bool
  | .call _ .findHighest _ => (settledIds s.rounds).all fun id =>
      highestDbId s.db < id || s.db.megapotEpochs.any (·.megapotId == id)
  | _ => true

section Steps

variable {s s' : State} {rounds rounds' : List MegapotRoundResponse} {listed : List Nat}

theorem Listed.publish (h : Listed rounds listed) (published : publishes rounds rounds' = true) :
    Listed rounds' listed := by
  intro id hid
  obtain ⟨r, hr, same, settled, drawn⟩ := h id hid
  have kept := List.all_eq_true.1 (Bool.and_eq_true_iff.1 published).2 r hr
  simp only [settled, drawn, bne_self_eq_false, Bool.false_or, Bool.not_true, List.any_eq_true,
    Bool.and_eq_true, beq_iff_eq] at kept
  obtain ⟨r', hr', ⟨same', settled'⟩, drawn'⟩ := kept
  exact ⟨r', hr', same'.trans same, settled', drawn'⟩

/-- What a new run finds. -/
theorem listed_settledIds (drawn : allDrawn rounds = true) : Listed rounds (settledIds rounds) := by
  intro id hid
  obtain ⟨r, hr, same⟩ := List.mem_map.1 hid
  obtain ⟨hr, settled⟩ := List.mem_filter.1 hr
  have settled := beq_iff_eq.1 settled
  refine ⟨r, hr, same, settled, ?_⟩
  simpa [settled] using List.all_eq_true.1 drawn r hr

/-- The last round of a page is the oldest. -/
theorem getLast_oldest {page : List MegapotRoundResponse} (sorted : page.Pairwise fun r r' => r'.id < r.id)
    {last r : MegapotRoundResponse} (h : page.getLast? = some last) (hr : r ∈ page) : last.id ≤ r.id := by
  obtain ⟨page, rfl⟩ := List.getLast?_eq_some_iff.1 h
  rcases List.mem_append.1 hr with before | here
  · exact Nat.le_of_lt ((List.pairwise_append.1 sorted).2.2 r before last List.mem_cons_self)
  · rw [List.mem_singleton.1 here]

/-- A page that is served holds what is next, and its cursor leaves the rest. -/
theorem walking_page {stored : Nat → Prop} {highestDbId : Nat} {cursor : Option Nat} {length : Nat}
    (newestFirst : rounds.Pairwise fun r r' => r'.id < r.id) (due : Listed rounds listed)
    (h : Covers stored listed (.fetchingPage highestDbId cursor)) (some : 0 < length) :
    Walking stored listed highestDbId ((after rounds cursor).take length)
      (nextCursor (after rounds cursor) length) := by
  have low : ∀ id ∈ listed, id ≤ highestDbId → stored id := by
    cases cursor with
    | none => exact h
    | some cursor => exact Walking.low h
  have ahead : ∀ id ∈ listed, stored id ∨ ∃ r ∈ after rounds cursor, Due id r := by
    intro id hid
    obtain ⟨r, hr, due⟩ := due id hid
    cases cursor with
    | none => exact .inr ⟨r, hr, due⟩
    | some cursor =>
      rcases Walking.rest h id hid with done | ⟨r', hr', -⟩ | ⟨c, hc, lt⟩
      · exact .inl done
      · cases hr'
      · cases hc
        have below : r.id < cursor := due.1.symm ▸ lt
        exact .inr ⟨r, List.mem_filter.2 ⟨hr, by simpa using below⟩, due⟩
  have sorted : (after rounds cursor).Pairwise fun r r' => r'.id < r.id := by
    cases cursor with
    | none => exact newestFirst
    | some cursor => exact newestFirst.sublist List.filter_sublist
  generalize after rounds cursor = rest at ahead sorted
  have page := sorted.sublist (List.take_sublist length rest)
  refine ⟨low, fun id hid => ?_, page, fun c hc r hr => ?_⟩
  · refine (ahead id hid).imp_right ?_
    rintro ⟨r, hr, due⟩
    rw [← List.take_append_drop length rest] at hr sorted
    rcases List.mem_append.1 hr with here | later
    · exact .inl ⟨r, here, due⟩
    · have more : length < rest.length := by
        have := List.length_pos_of_mem later
        rw [List.length_drop] at this
        omega
      obtain ⟨last, hlast⟩ : ∃ last, (rest.take length).getLast? = Option.some last := by
        rw [← Option.isSome_iff_exists, List.getLast?_isSome, ← List.length_pos_iff, List.length_take]
        omega
      have oldest := (List.pairwise_append.1 sorted).2.2 last (List.mem_of_getLast? hlast) r later
      refine .inr ⟨last.id, ?_, due.1 ▸ oldest⟩
      rw [nextCursor, if_pos more, hlast]
      rfl
  · rw [nextCursor] at hc
    split at hc
    · obtain ⟨last, hlast, rfl⟩ := Option.map_eq_some_iff.1 hc
      exact getLast_oldest page hlast hr
    · cases hc

/-- What a call of a run does: the steps of the loop, or one that ends or leaves it. -/
inductive Ran (db : Db) (rounds : List MegapotRoundResponse) : Phase → Call → Db → Phase → Prop where
  | highest : Ran db rounds .findingHighest .findHighest db (.fetchingPage (highestDbId db) none)
  | page {highestDbId : Nat} {cursor : Option Nat} {length : Nat} : 0 < length →
      Ran db rounds (.fetchingPage highestDbId cursor) (.fetchPage length) db
        (walk highestDbId (nextCursor (after rounds cursor) length) ((after rounds cursor).take length))
  | active {highestDbId : Nat} {todo : List MegapotRoundResponse} {next : Option Nat} :
      Ran db rounds (.processingActive highestDbId todo next) .processActive db
        (walk highestDbId next todo)
  | upsert {highestDbId createdAt : Nat} {round : SettledRound} {todo : List MegapotRoundResponse}
      {next : Option Nat} :
      Ran db rounds (.upserting highestDbId round todo next) (.upsert createdAt)
        (upsertSettledEpoch db { round with createdAt := createdAt }) (walk highestDbId next todo)
  | aside {phase phase' : Phase} {call : Call} {db' : Db} :
      db' = db ∨ (∃ round, db' = upsertSettledEpoch db round) →
      (∀ stored listed, Covers stored listed phase') → Ran db rounds phase call db' phase'

theorem ran_of_runStep {db db' : Db} {phase phase' : Phase} {call : Call}
    (hs : runStep db rounds phase call = some (db', phase')) : Ran db rounds phase call db' phase' := by
  unfold runStep at hs
  split at hs
  · cases hs
    exact .highest
  · split at hs
    · rename_i size
      cases hs
      exact .page size.1
    · cases hs
  · cases hs
    exact .active
  · cases hs
    exact .upsert
  · split at hs
    · cases hs
      exact .aside (.inl rfl) fun _ _ => trivial
    · split at hs
      · cases hs
        exact .aside (.inl rfl) fun _ _ => trivial
      · cases hs
        exact .aside (.inl rfl) fun _ _ => trivial
  · cases hs
    exact .aside (.inr ⟨_, rfl⟩) fun _ _ => trivial
  · cases hs
    exact .aside (.inl rfl) fun _ _ => trivial
  · cases hs
    exact .aside (.inl rfl) fun _ _ => trivial
  · cases hs
  · cases hs
  · cases hs
  · cases hs
    exact .aside (.inl rfl) fun _ _ => trivial
  · cases hs

/-- The phase after a call covers what the run has to; only the read of the highest epoch depends on
there being no gap. -/
theorem covers_runStep {db db' : Db} {phase phase' : Phase} {call : Call}
    (newestFirst : rounds.Pairwise fun r r' => r'.id < r.id) (due : Listed rounds listed)
    (noGap : call = .findHighest → ∀ id ∈ listed, id ≤ highestDbId db → Stored db id)
    (h : Covers (Stored db) listed phase) (hs : runStep db rounds phase call = some (db', phase')) :
    Covers (Stored db') listed phase' := by
  cases ran_of_runStep hs with
  | highest => exact noGap rfl
  | page size => exact (walking_page newestFirst due h size).walk
  | active => exact Walking.walk h
  | upsert =>
    refine Walking.walk (Walking.mono h fun id stored => (stored_upsert ..).2 ?_)
    exact stored
  | aside _ covers => exact covers _ _

/-- A call leaves the database, or upserts a round. -/
theorem runStep_db {db db' : Db} {phase phase' : Phase} {call : Call}
    (hs : runStep db rounds phase call = some (db', phase')) :
    db' = db ∨ ∃ round, db' = upsertSettledEpoch db round := by
  cases ran_of_runStep hs with
  | highest => exact .inl rfl
  | page => exact .inl rfl
  | active => exact .inl rfl
  | upsert => exact .inr ⟨_, rfl⟩
  | aside written => exact written

theorem stored_runStep {db db' : Db} {phase phase' : Phase} {call : Call}
    (hs : runStep db rounds phase call = some (db', phase')) (id : Nat) (h : Stored db id) :
    Stored db' id := by
  rcases runStep_db hs with rfl | ⟨round, rfl⟩
  · exact h
  · exact (stored_upsert db round id).2 (.inl h)

theorem covers_thrown {stored : Nat → Prop} (phase : Phase) : Covers stored listed phase.thrown := by
  cases phase <;> trivial

theorem Inv.step {a : Action} (h : Inv s) (hok : noGap s a = true) (hs : step s a = some s') :
    Inv s' := by
  cases a with
  | publish rounds =>
    simp only [Backfill.step] at hs
    split at hs
    · rename_i published
      cases hs
      refine ⟨of_decide_eq_true (Bool.and_eq_true_iff.1 published).1, fun run hrun drawn => ?_⟩
      obtain ⟨due, covers⟩ := h.runs run hrun drawn
      exact ⟨due.publish published, covers⟩
    · cases hs
  | sync =>
    cases hs
    refine ⟨h.newestFirst, fun run hrun drawn => ?_⟩
    rcases List.mem_append.1 hrun with old | new
    · exact h.runs run old drawn
    · cases List.mem_singleton.1 new
      exact ⟨listed_settledIds drawn, trivial⟩
  | single megapotId =>
    cases hs
    refine ⟨h.newestFirst, fun run hrun drawn => ?_⟩
    rcases List.mem_append.1 hrun with old | new
    · exact h.runs run old drawn
    · cases List.mem_singleton.1 new
      cases drawn
  | call i call lost =>
    simp only [Backfill.step, Option.bind_eq_bind, Option.bind_eq_some_iff, Option.pure_def,
      Option.some.injEq] at hs
    obtain ⟨run, hi, ⟨db, phase⟩, stepped, rfl⟩ := hs
    refine ⟨h.newestFirst, fun run' hrun drawn => ?_⟩
    rcases List.mem_or_eq_of_mem_set hrun with other | rfl
    · obtain ⟨due, covers⟩ := h.runs run' other drawn
      exact ⟨due, covers.mono (stored_runStep stepped)⟩
    · obtain ⟨due, covers⟩ := h.runs run (List.mem_of_getElem? hi) drawn
      refine ⟨due, ?_⟩
      cases lost with
      | true => exact covers_thrown _
      | false =>
        refine covers_runStep h.newestFirst due ?_ covers stepped
        rintro rfl id hid le
        obtain ⟨r, hr, same, settled, -⟩ := due id hid
        have mem : id ∈ settledIds s.rounds :=
          List.mem_map.2 ⟨r, List.mem_filter.2 ⟨hr, beq_iff_eq.2 settled⟩, same⟩
        have stored := List.all_eq_true.1 hok id mem
        rw [Bool.or_eq_true, decide_eq_true_eq, List.any_eq_true] at stored
        obtain ⟨e, he, same⟩ := stored.resolve_left (Nat.not_lt.2 le)
        exact List.mem_map.2 ⟨e, he, beq_iff_eq.1 same⟩

end Steps

/-- **The backfill without gaps**: as long as every run starts above stored epochs only, a run that
completes leaves every round it found settled and drawn with its row. -/
theorem backfill_complete (s : State) (h : machine.ReachableBy (fun s a => noGap s a = true) s) :
    ∀ run ∈ s.runs, run.phase.completed? = true → run.drawn = true →
      ∀ id ∈ run.listed, Stored s.db id := by
  have inv : Inv s := by
    refine h.invariant (fun s init => ⟨init.newestFirst, ?_⟩) fun s a s' ih ok hs => ih.step ok hs
    rw [init.noRuns]
    exact fun _ mem => absurd mem List.not_mem_nil
  intro run hrun completed drawn
  obtain ⟨-, covers⟩ := inv.runs run hrun drawn
  cases hp : run.phase with
  | completed => rwa [hp] at covers
  | _ =>
    rw [hp] at completed
    cases completed

/-! ## A run that stops above a gap -/

/-- A settled round with its drawing data. -/
def drawnRound (id : Nat) : MegapotRoundResponse where
  id := id
  status := "settled"
  topPrizeAmount := .obj [("amount", .str "10")]
  winningNumbers := some { normals := [3, 9, 14, 20, 27], bonusball := 4 }
  prizeTiers := .arr [.obj [("tier_id", .num (.int 1)), ("payout", .obj [("amount", .str "10")]),
    ("ticket_count", .num (.int 0))]]

/-- Two settled rounds below the live one. -/
def listing : State where
  rounds := [{ id := 3, status := "active" }, drawnRound 2, drawnRound 1]

theorem initial_listing : Initial listing where
  newestFirst := by decide
  noRuns := rfl

/-- A run of all calls. -/
def backfilling : List Action :=
  [.sync, .call 0 .findHighest false, .call 0 (.fetchPage 100) false, .call 0 .processActive false,
    .call 0 (.upsert 0) false, .call 0 (.upsert 0) false]

theorem backfill_complete_listing : ∃ s : State, Stored s.db 1 ∧ Stored s.db 2 := by
  obtain ⟨s, reached, run⟩ := Machine.exists_reachableBy_of_runBy (M := machine) noGap initial_listing
    backfilling (fun s => s.runs.any fun run => run.phase.completed? && run.drawn && run.listed == [2, 1])
    (by decide +kernel)
  obtain ⟨run, hrun, checked⟩ := List.any_eq_true.1 run
  simp only [Bool.and_eq_true, beq_iff_eq] at checked
  have stored := backfill_complete s reached run hrun checked.1.1 checked.1.2
  rw [checked.2] at stored
  exact ⟨s, stored 1 (by decide), stored 2 (by decide)⟩

/-- The first run fails once the newest round is stored; the next one stops there. -/
def interrupted : List Action :=
  [.sync, .call 0 .findHighest false, .call 0 (.fetchPage 100) false, .call 0 .processActive false,
    .call 0 (.upsert 0) false, .call 0 .throw false,
    .sync, .call 1 .findHighest false, .call 1 (.fetchPage 100) false, .call 1 .processActive false]

theorem not_backfill_complete : ¬ ∀ s, machine.Reachable s →
    ∀ run ∈ s.runs, run.phase.completed? = true → run.drawn = true →
      ∀ id ∈ run.listed, Stored s.db id := by
  intro all
  obtain ⟨s, reached, run⟩ := Machine.exists_reachable_of_run (M := machine) initial_listing interrupted
    (fun s => s.runs.any fun run => run.phase.completed? && run.drawn && run.listed.contains 1 &&
      !s.db.megapotEpochs.any (·.megapotId == 1)) (by decide +kernel)
  obtain ⟨run, hrun, checked⟩ := List.any_eq_true.1 run
  simp only [Bool.and_eq_true, List.contains_iff_mem, Bool.not_eq_true', List.any_eq_false,
    beq_iff_eq] at checked
  obtain ⟨⟨⟨completed, drawn⟩, listed⟩, missing⟩ := checked
  obtain ⟨e, he, same⟩ := List.mem_map.1 (all s reached run hrun completed drawn 1 listed)
  exact missing e he same

end LordsPot.Megapot.Backfill
