import LordsPot.Settlement.Watermark

/-!
# Any number of graders

`settleEpoch` alone, run by any number of processes on one epoch at once. Each page is graded from
what was read, and its updates are guarded by DRAW_PENDING, so that a ticket is written once, with a
value that depends on the ticket and the epoch only. Whoever returns true leaves the same table.
-/

namespace LordsPot.Settlement

open Transition

/-! ## A page as one change of every row -/

/-- A pending row with its grade. -/
def graded (epoch : EpochRead) (tiers : Tiers) (t : Ticket) : Ticket :=
  match gradeTicket epoch tiers (selectGradable t) with
  | none => { t with winStatus := .LOST }
  | some (prize, amount) =>
    { t with winStatus := prize.winStatus, winAmount := amount
             isFreeTicketTier := prize = .WON_FREE_TICKET }

theorem Prize.winStatus_ne (prize : Prize) : prize.winStatus ≠ .DRAW_PENDING := by
  cases prize <;> decide

theorem graded_winStatus (epoch : EpochRead) (tiers : Tiers) (t : Ticket) :
    (graded epoch tiers t).winStatus ≠ .DRAW_PENDING := by
  unfold graded
  split
  · exact WinStatus.noConfusion
  · exact Prize.winStatus_ne _

section Page

variable {epoch : EpochRead} {tiers : Tiers} {page : List GradableTicket}

/-- Every entry of a group is a ticket of the page with the group's grade. -/
structure GradesOf (epoch : EpochRead) (tiers : Tiers) (page : List GradableTicket) (grades : Grades) :
    Prop where
  losers : ∀ id ∈ grades.losers, ∃ t ∈ page, t.id = id ∧ gradeTicket epoch tiers t = none
  winners : ∀ g ∈ grades.winnersByGroup, ∀ id ∈ g.ids,
    ∃ t ∈ page, t.id = id ∧ gradeTicket epoch tiers t = some (g.status, g.amount)

theorem mem_ids_addWinner {status : Prize} {amount : Nat} {id : Uuid} {groups : List Group} {g : Group}
    {x : Uuid} (hg : g ∈ addWinner status amount id groups) (hx : x ∈ g.ids) :
    (x = id ∧ g.status = status ∧ g.amount = amount) ∨
      ∃ g' ∈ groups, g'.status = g.status ∧ g'.amount = g.amount ∧ x ∈ g'.ids := by
  induction groups with
  | nil =>
    cases List.mem_singleton.1 hg
    exact .inl ⟨List.mem_singleton.1 hx, rfl, rfl⟩
  | cons first groups ih =>
    rw [addWinner] at hg
    split at hg
    · rename_i same
      rcases List.mem_cons.1 hg with rfl | later
      · rcases List.mem_append.1 hx with old | new
        · exact .inr ⟨first, List.mem_cons_self, rfl, rfl, old⟩
        · exact .inl ⟨List.mem_singleton.1 new, same⟩
      · exact .inr ⟨g, List.mem_cons_of_mem _ later, rfl, rfl, hx⟩
    · rcases List.mem_cons.1 hg with rfl | later
      · exact .inr ⟨g, List.mem_cons_self, rfl, rfl, hx⟩
      · refine (ih later).imp_right ?_
        rintro ⟨g', hg', found⟩
        exact ⟨g', List.mem_cons_of_mem _ hg', found⟩

theorem GradesOf.add {grades : Grades} {t : GradableTicket} (h : GradesOf epoch tiers page grades)
    (ht : t ∈ page) : GradesOf epoch tiers page (grades.add epoch tiers t) := by
  unfold Grades.add
  split
  · rename_i lost
    refine ⟨fun id hid => ?_, h.winners⟩
    rcases List.mem_append.1 hid with old | new
    · exact h.losers id old
    · exact ⟨t, ht, (List.mem_singleton.1 new).symm, lost⟩
  · rename_i prize amount won
    refine ⟨h.losers, fun g hg id hid => ?_⟩
    rcases mem_ids_addWinner hg hid with ⟨rfl, status, amount⟩ | ⟨g', hg', status, amount, old⟩
    · exact ⟨t, ht, rfl, by rw [won, status, amount]⟩
    · rw [← status, ← amount]
      exact h.winners g' hg' id old

theorem gradesOf_gradePage (epoch : EpochRead) (tiers : Tiers) (page : List GradableTicket) :
    GradesOf epoch tiers page (gradePage epoch tiers page) := by
  have run : ∀ (todo : List GradableTicket) (grades : Grades), (∀ t ∈ todo, t ∈ page) →
      GradesOf epoch tiers page grades →
      GradesOf epoch tiers page (todo.foldl (Grades.add epoch tiers) grades) := by
    intro todo
    induction todo with
    | nil => exact fun _ _ h => h
    | cons t todo ih =>
      intro grades inside h
      exact ih _ (fun x hx => inside x (List.mem_cons_of_mem _ hx)) (h.add (inside t List.mem_cons_self))
  exact run page {} (fun _ h => h) ⟨fun _ h => absurd h List.not_mem_nil, fun _ h => absurd h List.not_mem_nil⟩

/-- What the update of a group makes of one row. -/
def markWinner (t : Ticket) (g : Group) : Ticket :=
  if g.ids.contains t.id && t.winStatus == .DRAW_PENDING then
    { t with winStatus := g.status.winStatus, winAmount := g.amount
             isFreeTicketTier := g.status = .WON_FREE_TICKET }
  else t

/-- What the transaction makes of one row. -/
def markRow (grades : Grades) (t : Ticket) : Ticket :=
  grades.winnersByGroup.foldl markWinner
    (if grades.losers.contains t.id && t.winStatus == .DRAW_PENDING then { t with winStatus := .LOST }
      else t)

theorem settlePage_map (db : Db) (grades : Grades) :
    (settlePage db grades).tickets = db.tickets.map (markRow grades) := by
  have groups : ∀ (groups : List Group) (rows : List Ticket),
      groups.foldl (fun rows g => markWinners g rows) rows = rows.map (groups.foldl markWinner) := by
    intro groups
    induction groups with
    | nil => exact fun rows => (List.map_id' rows).symm
    | cons g groups ih =>
      intro rows
      rw [List.foldl_cons, ih, markWinners, Table.updateMany, List.map_map]
      rfl
  show List.foldl _ _ _ = _
  rw [groups, markLosers, Table.updateMany, List.map_map]
  rfl

theorem foldl_markWinner_same {t : Ticket} {groups : List Group}
    (same : ∀ g ∈ groups, markWinner t g = t) : groups.foldl markWinner t = t := by
  induction groups with
  | nil => rfl
  | cons g groups ih =>
    rw [List.foldl_cons, same g List.mem_cons_self]
    exact ih fun g' hg' => same g' (List.mem_cons_of_mem _ hg')

/-- The updates leave a row that is not pending. -/
theorem foldl_markWinner_done {t : Ticket} (done : t.winStatus ≠ .DRAW_PENDING) (groups : List Group) :
    groups.foldl markWinner t = t :=
  foldl_markWinner_same fun g _ => by rw [markWinner, if_neg (by simp [done])]

theorem foldl_markWinner {t : Ticket} {prize : Prize} {amount : Nat} {groups : List Group}
    (pending : t.winStatus = .DRAW_PENDING)
    (only : ∀ g ∈ groups, t.id ∈ g.ids → g.status = prize ∧ g.amount = amount)
    (some : ∃ g ∈ groups, t.id ∈ g.ids) :
    groups.foldl markWinner t = { t with
      winStatus := prize.winStatus, winAmount := amount, isFreeTicketTier := prize = .WON_FREE_TICKET } := by
  induction groups with
  | nil =>
    obtain ⟨g, hg, -⟩ := some
    cases hg
  | cons g groups ih =>
    rw [List.foldl_cons, markWinner]
    by_cases hit : t.id ∈ g.ids
    · obtain ⟨status, amount⟩ := only g List.mem_cons_self hit
      rw [if_pos (by simp [hit, pending]), status, amount]
      exact foldl_markWinner_done (Prize.winStatus_ne prize) groups
    · rw [if_neg (by simp [hit])]
      refine ih (fun g' hg' => only g' (List.mem_cons_of_mem _ hg')) ?_
      obtain ⟨g', hg', mem⟩ := some
      rcases List.mem_cons.1 hg' with rfl | later
      · exact absurd mem hit
      · exact ⟨g', later, mem⟩

/-- A row after a page that was graded from this row's own numbers. -/
theorem markRow_gradePage {t : Ticket} (own : ∀ g ∈ page, g.id = t.id → g = selectGradable t) :
    markRow (gradePage epoch tiers page) t =
      if t.winStatus = .DRAW_PENDING ∧ t.id ∈ page.map (·.id) then graded epoch tiers t else t := by
  have grades := gradesOf_gradePage epoch tiers page
  have has : t.id ∈ page.map (·.id) → (gradePage epoch tiers page).Has t.id := has_gradePage epoch tiers
  generalize gradePage epoch tiers page = found at grades has
  have lost : t.id ∈ found.losers → gradeTicket epoch tiers (selectGradable t) = none := by
    intro mem
    obtain ⟨g, hg, same, none⟩ := grades.losers _ mem
    rwa [own g hg same] at none
  have won : ∀ g ∈ found.winnersByGroup, t.id ∈ g.ids →
      gradeTicket epoch tiers (selectGradable t) = some (g.status, g.amount) := by
    intro g hg mem
    obtain ⟨x, hx, same, some⟩ := grades.winners g hg _ mem
    rwa [own x hx same] at some
  have inPage : ∀ g ∈ found.winnersByGroup, t.id ∈ g.ids → t.id ∈ page.map (·.id) := by
    intro g hg mem
    obtain ⟨x, hx, same, -⟩ := grades.winners g hg _ mem
    exact List.mem_map.2 ⟨x, hx, same⟩
  by_cases pending : t.winStatus = .DRAW_PENDING
  · by_cases mem : t.id ∈ page.map (·.id)
    · rw [if_pos ⟨pending, mem⟩, markRow, graded]
      cases grade : gradeTicket epoch tiers (selectGradable t) with
      | none =>
        have loser : t.id ∈ found.losers := by
          refine (has mem).resolve_right ?_
          rintro ⟨g, hg, hit⟩
          rw [won g hg hit] at grade
          cases grade
        rw [if_pos (by simp [loser, pending])]
        exact foldl_markWinner_done WinStatus.noConfusion _
      | some result =>
        have winner : t.id ∉ found.losers := by
          intro hit
          rw [lost hit] at grade
          cases grade
        rw [if_neg (by simp [winner])]
        refine foldl_markWinner pending (fun g hg hit => ?_) ((has mem).resolve_left winner)
        rw [won g hg hit] at grade
        cases grade
        exact ⟨rfl, rfl⟩
    · have loser : t.id ∉ found.losers := by
        intro hit
        obtain ⟨x, hx, same, -⟩ := grades.losers _ hit
        exact mem (List.mem_map.2 ⟨x, hx, same⟩)
      rw [if_neg fun both => mem both.2, markRow, if_neg (by simp [loser])]
      refine foldl_markWinner_same fun g hg => ?_
      have other : t.id ∉ g.ids := fun hit => mem (inPage g hg hit)
      rw [markWinner, if_neg (by simp [other])]
  · rw [if_neg fun both => pending both.1, markRow, if_neg (by simp [pending])]
    exact foldl_markWinner_done pending _

/-- A page that was graded from the rows' own numbers, as one change of the table. -/
theorem settlePage_gradePage {db : Db}
    (own : ∀ g ∈ page, ∀ t ∈ db.tickets, g.id = t.id → g = selectGradable t) :
    (settlePage db (gradePage epoch tiers page)).tickets = db.tickets.map fun t =>
      if t.winStatus = .DRAW_PENDING ∧ t.id ∈ page.map (·.id) then graded epoch tiers t else t := by
  rw [settlePage_map]
  exact List.map_congr_left fun t ht => markRow_gradePage fun g hg => own g hg t ht

end Page

/-! ## Graders -/

namespace Grading

/-- Where a call of `settleEpoch` stands at its awaits. -/
inductive Phase where
  | paging (tiers : Tiers) (batch : Nat)
  | grading (tiers : Tiers) (batch : Nat) (tickets : List GradableTicket)
  | marking
  | returned (settled : Bool)
  | threw
  deriving Repr, DecidableEq

inductive Call where
  | findPage (tickets : List GradableTicket)
  | transaction
  | mark (now : Nat)
  /-- The call throws without effect, or the process dies. -/
  | throw
  deriving Repr

structure State where
  db : Db
  runs : List Phase
  deriving Repr

/-- Grader `i` makes a call; when the answer is `lost`, the call throws after its effect. -/
structure Action where
  i : Nat
  call : Call
  lost : Bool := false
  deriving Repr

section Steps

variable (stringToNumber : String → JsNumber) (epoch : EpochRead)

/-- `settleEpoch` up to its first await. -/
def settleEpoch : Phase :=
  match parsePrizeTiers stringToNumber epoch.prizeTiers with
  | .error _ => .returned false
  | .ok tiers => .paging tiers 0

/-- `settleEpoch` after the transaction of a page. -/
def afterTransaction (tiers : Tiers) (batch length : Nat) : Phase :=
  if length < TICKET_BATCH then .marking
  else if batch = MAX_BATCHES_PER_EPOCH - 1 then .returned false
  else .paging tiers (batch + 1)

def runStep (db : Db) : Phase → Call → Option (Db × Phase)
  | .paging tiers batch, .findPage tickets =>
      if isPage db epoch.megapotId tickets then
        some (db, if tickets.isEmpty then .marking else .grading tiers batch tickets)
      else none
  | .grading tiers batch tickets, .transaction =>
      some (settlePage db (gradePage epoch tiers tickets), afterTransaction tiers batch tickets.length)
  | .marking, .mark now => some (markSettled db epoch.megapotId now, .returned true)
  | .paging .., .throw | .grading .., .throw | .marking, .throw => some (db, .threw)
  | _, _ => none

def step (s : State) (a : Action) : Option State := do
  let run ← s.runs[a.i]?
  let (db, run') ← runStep epoch s.db run a.call
  pure { db := db, runs := s.runs.set a.i (if a.lost then .threw else run') }

/-- Any number of graders on one database. -/
def machine (db : Db) (graders : Nat) : Machine State Action where
  init s := s = { db := db, runs := List.replicate graders (settleEpoch stringToNumber epoch) }
  step := step epoch

/-- The tick that is at a phase of `settleEpoch`, with the epochs after this one. -/
def Phase.tick (rest : List EpochRead) : Phase → Tick
  | .paging tiers batch => .paging epoch tiers batch rest
  | .grading tiers batch tickets => .grading epoch tiers batch tickets rest
  | .marking => .marking epoch.megapotId rest
  | .returned _ => settleEpochs stringToNumber rest
  | .threw => .ended

def Call.ofTick : Call → Settlement.Call
  | .findPage tickets => .findPage tickets
  | .transaction | .mark _ => .write
  | .throw => .throw

theorem settleEpochs_cons (rest : List EpochRead) : settleEpochs stringToNumber (epoch :: rest) =
    (settleEpoch stringToNumber epoch).tick stringToNumber epoch rest := by
  rw [settleEpochs, settleEpoch]
  cases parsePrizeTiers stringToNumber epoch.prizeTiers with
  | error e => rfl
  | ok tiers => rfl

/-- A grader's steps are those of a settlement tick. -/
theorem tickStep_tick {db db' : Db} {now : Nat} {run run' : Phase} {call : Call}
    (rest : List EpochRead) (clock : ∀ t, call = .mark t → t = now)
    (hs : runStep epoch db run call = some (db', run')) :
    tickStep stringToNumber db now (run.tick stringToNumber epoch rest) call.ofTick =
      some (db', run'.tick stringToNumber epoch rest) := by
  unfold runStep at hs
  split at hs
  · split at hs
    · rename_i page
      cases hs
      simp only [Phase.tick, Call.ofTick, tickStep, page, if_true]
      split <;> rfl
    · cases hs
  · rename_i tiers batch tickets
    cases hs
    have next : afterPage stringToNumber epoch tiers batch tickets.length rest =
        (afterTransaction tiers batch tickets.length).tick stringToNumber epoch rest := by
      rw [afterPage, afterTransaction]
      split
      · rfl
      · split
        · rfl
        · rfl
    simp only [Phase.tick, Call.ofTick, tickStep, next]
  · cases hs
    rw [clock _ rfl]
    rfl
  · cases hs; rfl
  · cases hs; rfl
  · cases hs; rfl
  · cases hs

end Steps

/-! ## What is left to grade -/

/-- A ticket that a grader of the epoch finds at first. -/
def due (db : Db) (megapotId : Nat) (t : Ticket) : Bool :=
  t.winStatus == .DRAW_PENDING && db.ofEpoch megapotId t

/-- The tickets of `db` when those named in `done` are graded. -/
def rows (epoch : EpochRead) (tiers : Tiers) (db : Db) (done : List Uuid) : List Ticket :=
  db.tickets.map fun t =>
    if due db epoch.megapotId t = true ∧ t.id ∈ done then graded epoch tiers t else t

/-- What is then left to grade. -/
def left (epoch : EpochRead) (db : Db) (done : List Uuid) : List GradableTicket :=
  (gradable db epoch.megapotId).filter fun g => g.id ∉ done

variable {epoch : EpochRead} {tiers : Tiers} {db db' : Db} {done : List Uuid}

theorem ofEpoch_of_same {megapotId : Nat} {t t' : Ticket} (orders : db'.relayOrders = db.relayOrders)
    (hash : t'.orderHash = t.orderHash) : db'.ofEpoch megapotId t' = db.ofEpoch megapotId t := by
  rw [Db.ofEpoch, Db.ofEpoch, orders, hash]

/-- The row of a ticket is gradable when it was and the ticket is not done. -/
theorem due_row (epoch : EpochRead) (tiers : Tiers) (done : List Uuid)
    (orders : db'.relayOrders = db.relayOrders) (t : Ticket) :
    due db' epoch.megapotId
        (if due db epoch.megapotId t = true ∧ t.id ∈ done then graded epoch tiers t else t) =
      (decide (t.id ∉ done) && due db epoch.megapotId t) := by
  have same : db'.ofEpoch epoch.megapotId t = db.ofEpoch epoch.megapotId t :=
    ofEpoch_of_same orders rfl
  split
  · rename_i both
    have off : ((graded epoch tiers t).winStatus == .DRAW_PENDING) = false :=
      beq_false_of_ne (graded_winStatus epoch tiers t)
    simp [due, off, both.2]
  · rename_i other
    by_cases isDue : due db epoch.megapotId t = true
    · have notDone : t.id ∉ done := fun mem => other ⟨isDue, mem⟩
      simp [due, same, notDone]
    · have isDue := Bool.eq_false_iff.2 isDue
      have notDue : due db' epoch.megapotId t = false := by
        rw [due, same]
        exact isDue
      rw [notDue, isDue, Bool.and_false]

theorem gradable_rows (orders : db'.relayOrders = db.relayOrders)
    (tickets : db'.tickets = rows epoch tiers db done) :
    gradable db' epoch.megapotId = left epoch db done := by
  have shape : ∀ db : Db, gradable db epoch.megapotId =
      (db.tickets.filter (due db epoch.megapotId)).map selectGradable := fun _ => rfl
  rw [shape, left, shape, tickets, rows, List.filter_map, List.map_map, List.filter_map,
    List.filter_filter]
  have select := List.filter_congr (l := db.tickets) fun t _ =>
    due_row epoch tiers done orders t
  refine (congrArg (List.map _) select).trans (List.map_congr_left fun t ht => ?_)
  have notDone := (Bool.and_eq_true_iff.1 (List.mem_filter.1 ht).2).1
  have other : ¬ (due db epoch.megapotId t = true ∧ t.id ∈ done) := fun both =>
    of_decide_eq_true notDone both.2
  rw [Function.comp_apply, if_neg other]

/-- What is graded is never due again. -/
theorem left_append (ids : List Uuid) : left epoch db (done ++ ids) =
    (left epoch db done).filter fun g => g.id ∉ ids := by
  rw [left, left, List.filter_filter]
  refine List.filter_congr fun g _ => ?_
  simp [not_or, Bool.and_comm]

theorem left_mono (epoch : EpochRead) (db : Db) {done' : List Uuid} (more : ∀ id ∈ done, id ∈ done') :
    (left epoch db done').Sublist (left epoch db done) := by
  refine List.monotone_filter_right _ fun g h => ?_
  exact decide_eq_true fun mem => of_decide_eq_true h (more _ mem)

theorem left_mono_nil {done' : List Uuid} (more : ∀ id ∈ done, id ∈ done')
    (none : left epoch db done = []) : left epoch db done' = [] :=
  List.sublist_nil.1 (none ▸ left_mono epoch db more)

/-- A page of what is left. -/
theorem left_page {page : List GradableTicket} (sub : page.Subperm (left epoch db done)) :
    (left epoch db (done ++ page.map (·.id))).length + page.length ≤ (left epoch db done).length := by
  have own : page.filter (fun g => g.id ∈ page.map (·.id)) = page :=
    List.filter_eq_self.2 fun g hg => by simpa using ⟨g, hg, rfl⟩
  have inside := (sub.filter fun g => g.id ∈ page.map (·.id)).length_le
  rw [own] at inside
  have parts := List.length_eq_length_filter_add (l := left epoch db done)
    fun g => decide (g.id ∈ page.map (·.id))
  rw [left_append]
  have outside : (left epoch db done).filter (fun g => decide (g.id ∉ page.map (·.id))) =
      (left epoch db done).filter fun g => !decide (g.id ∈ page.map (·.id)) :=
    List.filter_congr fun g _ => by rw [decide_not]
  rw [outside]
  omega

/-- A short page is all that is left. -/
theorem left_short {page : List GradableTicket} (sub : page.Subperm (left epoch db done))
    (size : page.length = min TICKET_BATCH (left epoch db done).length)
    (short : page.length < TICKET_BATCH) : left epoch db (done ++ page.map (·.id)) = [] := by
  have all := left_page sub
  rw [← List.length_eq_zero_iff]
  omega

/-- A graded row keeps its ticket's numbers. -/
theorem selectGradable_row (epoch : EpochRead) (tiers : Tiers) (db : Db) (done : List Uuid) (t : Ticket) :
    (if due db epoch.megapotId t = true ∧ t.id ∈ done then graded epoch tiers t else t).id = t.id ∧
    selectGradable (if due db epoch.megapotId t = true ∧ t.id ∈ done then graded epoch tiers t else t) =
      selectGradable t := by
  split
  · unfold graded
    split
    · exact ⟨rfl, rfl⟩
    · exact ⟨rfl, rfl⟩
  · exact ⟨rfl, rfl⟩

/-- The page's transaction, whenever it comes: its tickets are done. -/
theorem settlePage_rows_page {page : List GradableTicket} (ids : (db.tickets.map (·.id)).Nodup)
    (tickets : db'.tickets = rows epoch tiers db done)
    (sub : ∀ g ∈ page, g ∈ gradable db epoch.megapotId) :
    (settlePage db' (gradePage epoch tiers page)).tickets =
      rows epoch tiers db (done ++ page.map (·.id)) := by
  have source : ∀ g ∈ page, ∃ t ∈ db.tickets, due db epoch.megapotId t = true ∧ selectGradable t = g := by
    intro g hg
    obtain ⟨t, ht, same⟩ := List.mem_map.1 (sub g hg)
    obtain ⟨ht, isDue⟩ := List.mem_filter.1 ht
    exact ⟨t, ht, isDue, same⟩
  have ofId : ∀ g ∈ page, ∀ t ∈ db.tickets, g.id = t.id →
      due db epoch.megapotId t = true ∧ g = selectGradable t := by
    intro g hg t ht same
    obtain ⟨t', ht', isDue, rfl⟩ := source g hg
    cases List.inj_on_of_nodup_map ids ht' ht same
    exact ⟨isDue, rfl⟩
  rw [settlePage_gradePage]
  · rw [tickets, rows, rows, List.map_map]
    refine List.map_congr_left fun t ht => ?_
    have inPage : t.id ∈ page.map (·.id) → due db epoch.megapotId t = true := by
      intro mem
      obtain ⟨g, hg, same⟩ := List.mem_map.1 mem
      exact (ofId g hg t ht same).1
    rw [Function.comp_apply]
    by_cases before : due db epoch.megapotId t = true ∧ t.id ∈ done
    · rw [if_pos before, if_neg fun both => graded_winStatus epoch tiers t both.1,
        if_pos ⟨before.1, List.mem_append_left _ before.2⟩]
    · rw [if_neg before]
      by_cases mem : t.id ∈ page.map (·.id)
      · have isDue := inPage mem
        have pending := beq_iff_eq.1 (Bool.and_eq_true_iff.1 isDue).1
        rw [if_pos ⟨pending, mem⟩, if_pos ⟨isDue, List.mem_append_right _ mem⟩]
      · rw [if_neg fun both => mem both.2, if_neg]
        rintro ⟨isDue, either⟩
        exact (List.mem_append.1 either).elim (fun old => before ⟨isDue, old⟩) mem
  · intro g hg t' ht' same
    rw [tickets] at ht'
    obtain ⟨t, ht, rfl⟩ := List.mem_map.1 ht'
    obtain ⟨id, numbers⟩ := selectGradable_row epoch tiers db done t
    rw [numbers]
    exact (ofId g hg t ht (same.trans id)).2

/-! ## What a grader knows -/

/-- Full pages that a grader has settled. -/
def Phase.fullPages : Phase → Nat
  | .paging _ batch | .grading _ batch _ => batch
  | .returned false => MAX_BATCHES_PER_EPOCH
  | _ => 0

/-- What a grader's phase says when the tickets in `done` are graded. -/
def Knows (epoch : EpochRead) (tiers : Tiers) (db : Db) (done : List Uuid) : Phase → Prop
  | .paging tiers' batch => tiers' = tiers ∧
      TICKET_BATCH * batch + (left epoch db done).length ≤ (gradable db epoch.megapotId).length
  | .grading tiers' batch page => tiers' = tiers ∧ (∀ g ∈ page, g ∈ gradable db epoch.megapotId) ∧
      TICKET_BATCH * batch + (left epoch db done).length ≤ (gradable db epoch.megapotId).length ∧
      TICKET_BATCH * batch + page.length + (left epoch db (done ++ page.map (·.id))).length ≤
        (gradable db epoch.megapotId).length ∧
      (page.length < TICKET_BATCH → left epoch db (done ++ page.map (·.id)) = [])
  | .marking | .returned true => left epoch db done = []
  | .returned false => TICKET_BATCH * MAX_BATCHES_PER_EPOCH + (left epoch db done).length ≤
      (gradable db epoch.megapotId).length
  | .threw => True

structure Inv (epoch : EpochRead) (tiers : Tiers) (db : Db) (done : List Uuid) (s : State) : Prop where
  orders : s.db.relayOrders = db.relayOrders
  tickets : s.db.tickets = rows epoch tiers db done
  runs : ∀ run ∈ s.runs, Knows epoch tiers db done run

theorem Knows.mono {done' : List Uuid} {run : Phase} (h : Knows epoch tiers db done run)
    (more : ∀ id ∈ done, id ∈ done') : Knows epoch tiers db done' run := by
  have less := (left_mono epoch db more).length_le
  cases run with
  | paging tiers' batch => exact ⟨h.1, by have := h.2; omega⟩
  | grading tiers' batch page =>
    obtain ⟨same, inside, before, shrunk, short⟩ := h
    have more' : ∀ id ∈ done ++ page.map (·.id), id ∈ done' ++ page.map (·.id) := by
      intro id mem
      exact List.mem_append.2 ((List.mem_append.1 mem).imp_left (more id))
    have less' := (left_mono epoch db more').length_le
    exact ⟨same, inside, by omega, by omega, fun h => left_mono_nil more' (short h)⟩
  | marking => exact left_mono_nil more h
  | returned settled =>
    cases settled with
    | true => exact left_mono_nil more h
    | false =>
      have h : TICKET_BATCH * MAX_BATCHES_PER_EPOCH + _ ≤ _ := h
      show TICKET_BATCH * MAX_BATCHES_PER_EPOCH + _ ≤ _
      omega
  | threw => trivial

/-- A page is read of what is left. -/
theorem Knows.page {batch : Nat} {page : List GradableTicket}
    (h : Knows epoch tiers db done (.paging tiers batch))
    (sub : page.Subperm (left epoch db done))
    (size : page.length = min TICKET_BATCH (left epoch db done).length) :
    Knows epoch tiers db done (if page.isEmpty then .marking else .grading tiers batch page) := by
  split
  · rename_i empty
    cases List.isEmpty_iff.1 empty
    rw [List.length_nil] at size
    refine List.length_eq_zero_iff.1 ?_
    have : TICKET_BATCH ≠ 0 := by decide
    omega
  · have shrunk := h.2
    have all := left_page sub
    refine ⟨rfl, fun g hg => ?_, shrunk, by omega, left_short sub size⟩
    exact (List.mem_filter.1 (sub.subset hg)).1

/-- A page is settled. -/
theorem Knows.settled {batch : Nat} {page : List GradableTicket}
    (h : Knows epoch tiers db done (.grading tiers batch page)) :
    Knows epoch tiers db (done ++ page.map (·.id)) (afterTransaction tiers batch page.length) := by
  obtain ⟨-, -, -, shrunk, short⟩ := h
  unfold afterTransaction
  split
  · rename_i small
    exact short small
  · rename_i full
    split
    · rename_i last
      show TICKET_BATCH * MAX_BATCHES_PER_EPOCH + _ ≤ _
      subst last
      simp only [TICKET_BATCH, MAX_BATCHES_PER_EPOCH] at *
      omega
    · refine ⟨rfl, ?_⟩
      simp only [TICKET_BATCH] at *
      omega

/-- What a grader does: it reads, or settles a page, or writes the watermark. -/
theorem Inv.runStep {s : State} {run run' : Phase} {call : Call} (ids : (db.tickets.map (·.id)).Nodup)
    (h : Inv epoch tiers db done s) (hr : run ∈ s.runs)
    (hs : runStep epoch s.db run call = some (db', run')) : ∃ done', (∀ id ∈ done, id ∈ done') ∧
      db'.relayOrders = db.relayOrders ∧ db'.tickets = rows epoch tiers db done' ∧
      Knows epoch tiers db done' run' := by
  have knows := h.runs run hr
  unfold Grading.runStep at hs
  split at hs
  · split at hs
    · rename_i page
      cases hs
      obtain ⟨sub, size⟩ := Bool.and_eq_true_iff.1 page
      rw [gradable_rows h.orders h.tickets] at sub size
      cases knows.1
      exact ⟨done, fun _ => id, h.orders, h.tickets,
        knows.page (of_decide_eq_true sub) (beq_iff_eq.1 size)⟩
    · cases hs
  · cases hs
    cases knows.1
    exact ⟨_, fun _ => List.mem_append_left _, h.orders, settlePage_rows_page ids h.tickets knows.2.1,
      knows.settled⟩
  · cases hs
    exact ⟨done, fun _ => id, h.orders, h.tickets, knows⟩
  · cases hs
    exact ⟨done, fun _ => id, h.orders, h.tickets, trivial⟩
  · cases hs
    exact ⟨done, fun _ => id, h.orders, h.tickets, trivial⟩
  · cases hs
    exact ⟨done, fun _ => id, h.orders, h.tickets, trivial⟩
  · cases hs

theorem Inv.step {s s' : State} {a : Action} (ids : (db.tickets.map (·.id)).Nodup)
    (h : Inv epoch tiers db done s) (hs : step epoch s a = some s') :
    ∃ done', Inv epoch tiers db done' s' := by
  simp only [Grading.step, Option.bind_eq_bind, Option.bind_eq_some_iff, Option.pure_def,
    Option.some.injEq] at hs
  obtain ⟨run, hi, ⟨db', run'⟩, stepped, rfl⟩ := hs
  obtain ⟨done', more, orders, tickets, knows⟩ := h.runStep ids (List.mem_of_getElem? hi) stepped
  refine ⟨done', orders, tickets, fun other hother => ?_⟩
  rcases List.mem_or_eq_of_mem_set hother with old | rfl
  · exact (h.runs other old).mono more
  · split
    · trivial
    · exact knows

/-! ## The graders end -/

/-- A bound for the calls a grader still makes when `n` tickets were due at first. -/
def Phase.rank (n : Nat) : Phase → Nat
  | .paging _ batch => 2 * (n / TICKET_BATCH - batch) + 3
  | .grading _ batch _ => 2 * (n / TICKET_BATCH - batch) + 2
  | .marking => 1
  | .returned _ | .threw => 0

/-- Every call lowers the rank of its grader: a full page has taken its tickets from what is due. -/
theorem rank_runStep {run run' : Phase} {call : Call} {before after : Db}
    (knows : Knows epoch tiers db done run)
    (hs : runStep epoch before run call = some (after, run')) :
    run'.rank (gradable db epoch.megapotId).length < run.rank (gradable db epoch.megapotId).length := by
  unfold Grading.runStep at hs
  split at hs
  · split at hs
    · cases hs
      split
      · simp only [Phase.rank]
        omega
      · simp only [Phase.rank]
        omega
    · cases hs
  · rename_i batch tickets
    cases hs
    obtain ⟨-, -, -, shrunk, -⟩ := knows
    unfold afterTransaction
    split
    · simp only [Phase.rank]
      omega
    · split
      · simp only [Phase.rank]
        omega
      · rename_i full _
        simp only [Phase.rank, TICKET_BATCH] at *
        omega
  · cases hs; exact Nat.zero_lt_one
  · cases hs; exact Nat.succ_pos _
  · cases hs; exact Nat.succ_pos _
  · cases hs; exact Nat.zero_lt_one
  · cases hs

theorem sum_set {α : Type} (f : α → Nat) {l : List α} {i : Nat} {a b : α} (h : l[i]? = some a) :
    ((l.set i b).map f).sum + f a = (l.map f).sum + f b := by
  induction l generalizing i with
  | nil => cases h
  | cons x l ih =>
    cases i with
    | zero =>
      cases h
      simp only [List.set_cons_zero, List.map_cons, List.sum_cons]
      omega
    | succ i =>
      have tail := ih h
      simp only [List.set_cons_succ, List.map_cons, List.sum_cons]
      omega

/-- The rank of all graders. -/
def rank (n : Nat) (s : State) : Nat := (s.runs.map (Phase.rank n)).sum

theorem rank_step {s s' : State} {a : Action} (h : Inv epoch tiers db done s)
    (hs : step epoch s a = some s') :
    rank (gradable db epoch.megapotId).length s' < rank (gradable db epoch.megapotId).length s := by
  simp only [Grading.step, Option.bind_eq_bind, Option.bind_eq_some_iff, Option.pure_def,
    Option.some.injEq] at hs
  obtain ⟨run, hi, ⟨after, run'⟩, stepped, rfl⟩ := hs
  have lower := rank_runStep (h.runs run (List.mem_of_getElem? hi)) stepped
  have whole := sum_set (Phase.rank (gradable db epoch.megapotId).length) (b := if a.lost then .threw else run') hi
  have threw : (if a.lost then Phase.threw else run').rank (gradable db epoch.megapotId).length ≤
      run'.rank (gradable db epoch.megapotId).length := by
    split
    · exact Nat.zero_le _
    · exact le_rfl
  simp only [rank]
  omega

/-- A run keeps what is known, and is no longer than the rank it starts with. -/
theorem Inv.run {s s' : State} {as : List Action} (stringToNumber : String → JsNumber) (graders : Nat)
    (ids : (db.tickets.map (·.id)).Nodup) (h : Inv epoch tiers db done s)
    (hr : (machine stringToNumber epoch db graders).run s as = some s') :
    (∃ done', Inv epoch tiers db done' s') ∧
      as.length + rank (gradable db epoch.megapotId).length s' ≤
        rank (gradable db epoch.megapotId).length s := by
  induction as generalizing s done with
  | nil =>
    cases hr
    exact ⟨⟨done, h⟩, by rw [List.length_nil]; omega⟩
  | cons a as ih =>
    obtain ⟨next, first, later⟩ := Machine.run_cons.1 hr
    obtain ⟨done', kept⟩ := h.step ids first
    obtain ⟨inv, bound⟩ := ih kept later
    have lower := rank_step h first
    refine ⟨inv, ?_⟩
    rw [List.length_cons]
    omega

def Phase.ended : Phase → Bool
  | .returned _ | .threw => true
  | _ => false

/-- A grader that has not ended can go on without an error. -/
theorem runStep_enabled (before : Db) {run : Phase} (going : run.ended = false) :
    ∃ call after run', runStep epoch before run call = some (after, run') ∧ run' ≠ .threw := by
  cases run with
  | paging tiers batch =>
    have page : isPage before epoch.megapotId
        ((gradable before epoch.megapotId).take TICKET_BATCH) = true := by
      rw [isPage, Bool.and_eq_true, decide_eq_true_eq, beq_iff_eq, List.length_take]
      exact ⟨(List.take_sublist ..).subperm, rfl⟩
    refine ⟨.findPage ((gradable before epoch.megapotId).take TICKET_BATCH), before, _, if_pos page, ?_⟩
    split <;> exact Phase.noConfusion
  | grading tiers batch tickets =>
    refine ⟨.transaction, _, _, rfl, ?_⟩
    unfold afterTransaction
    split
    · exact Phase.noConfusion
    · split <;> exact Phase.noConfusion
  | marking => exact ⟨.mark 0, _, _, rfl, Phase.noConfusion⟩
  | returned settled => cases going
  | threw => cases going

/-! ## The result -/

/-- What settling the epoch is to make of a ticket that is due: its tier is twice the number of its
balls in the winning set, and one more for the bonus ball. -/
def outcome (epoch : EpochRead) (tiers : Tiers) (t : Ticket) : Ticket :=
  let tier := 2 * (t.normalBalls.filter fun ball => ball ∈ epoch.winningNormals).length +
    if t.bonusBall = epoch.winningBonusBall then 1 else 0
  let amount := (tiers.get tier).getD 0
  if amount = 0 then { t with winStatus := .LOST }
  else if tier = 1 ∨ tier = 4 then
    { t with winStatus := .WON_FREE_TICKET, winAmount := amount, isFreeTicketTier := true }
  else { t with winStatus := .WON_UNCLAIMED, winAmount := amount, isFreeTicketTier := false }

theorem graded_eq_outcome (epoch : EpochRead) (tiers : Tiers) (t : Ticket) :
    graded epoch tiers t = outcome epoch tiers t := by
  have tier : calcTierId t.normalBalls t.bonusBall epoch.winningNormals epoch.winningBonusBall =
      2 * (t.normalBalls.filter fun ball => ball ∈ epoch.winningNormals).length +
        if t.bonusBall = epoch.winningBonusBall then 1 else 0 := by
    rw [calcTierId, List.countP_eq_length_filter]
    simp only [List.contains_eq_mem]
  unfold graded outcome gradeTicket
  simp only [selectGradable, tier]
  generalize 2 * (t.normalBalls.filter fun ball => ball ∈ epoch.winningNormals).length +
    (if t.bonusBall = epoch.winningBonusBall then 1 else 0) = tier
  generalize (tiers.get tier).getD 0 = amount
  by_cases none : amount = 0
  · simp only [if_pos none]
  · simp only [if_neg none]
    by_cases free : tier = 1 ∨ tier = 4
    · have free' : FREE_TICKET_TIERS.contains tier = true := by simpa [FREE_TICKET_TIERS] using free
      simp only [if_pos free, if_pos free']
      rfl
    · have free' : ¬ FREE_TICKET_TIERS.contains tier = true := by simpa [FREE_TICKET_TIERS] using free
      simp only [if_neg free, if_neg free']
      rfl

/-- **Any interleaving of graders settles the epoch alike.** Whoever returns true leaves every ticket
that was due with its outcome and all others as they were, whatever the others did in between; after
each full page at least a page fewer is due; and the graders end, since none of them is ever stuck and
the calls of all of them together are bounded. -/
theorem settleEpoch_confluent (stringToNumber : String → JsNumber) (epoch : EpochRead) (tiers : Tiers)
    (db : Db) (graders : Nat) (parsed : parsePrizeTiers stringToNumber epoch.prizeTiers = .ok tiers)
    (ids : (db.tickets.map (·.id)).Nodup) (start s : State) (as : List Action)
    (init : (machine stringToNumber epoch db graders).init start)
    (run : (machine stringToNumber epoch db graders).run start as = some s) :
    (.returned true ∈ s.runs → s.db.tickets = db.tickets.map fun t =>
      if t.winStatus = .DRAW_PENDING ∧ db.ofEpoch epoch.megapotId t = true then outcome epoch tiers t
      else t) ∧
    (∀ grader ∈ s.runs, TICKET_BATCH * grader.fullPages + (gradable s.db epoch.megapotId).length ≤
      (gradable db epoch.megapotId).length) ∧
    (∀ grader ∈ s.runs, grader.ended = false → ∃ call after grader',
      runStep epoch s.db grader call = some (after, grader') ∧ grader' ≠ .threw) ∧
    as.length ≤ graders * (2 * ((gradable db epoch.megapotId).length / TICKET_BATCH) + 3) := by
  have first : settleEpoch stringToNumber epoch = .paging tiers 0 := by
    rw [settleEpoch, parsed]
  have known : Inv epoch tiers db [] start := by
    cases init
    have same : rows epoch tiers db [] = db.tickets := by
      simp [rows]
    have whole : left epoch db [] = gradable db epoch.megapotId := by
      simp [left]
    refine ⟨rfl, same.symm, fun grader hg => ?_⟩
    rw [List.eq_of_mem_replicate hg, first]
    exact ⟨rfl, by rw [whole]; omega⟩
  obtain ⟨⟨done, inv⟩, bound⟩ := known.run stringToNumber graders ids run
  have due_left := gradable_rows inv.orders inv.tickets
  refine ⟨fun returned => ?_, fun grader hg => ?_, fun grader _ going => runStep_enabled s.db going, ?_⟩
  · have none : left epoch db done = [] := inv.runs _ returned
    rw [inv.tickets, rows]
    refine List.map_congr_left fun t ht => ?_
    have reading : due db epoch.megapotId t = true ↔
        t.winStatus = .DRAW_PENDING ∧ db.ofEpoch epoch.megapotId t = true := by
      rw [due, Bool.and_eq_true, beq_iff_eq]
    by_cases isDue : due db epoch.megapotId t = true
    · have mem : selectGradable t ∈ gradable db epoch.megapotId :=
        List.mem_map_of_mem (List.mem_filter.2 ⟨ht, isDue⟩)
      have graded : t.id ∈ done := by
        by_contra notDone
        have : selectGradable t ∈ left epoch db done :=
          List.mem_filter.2 ⟨mem, decide_eq_true notDone⟩
        rw [none] at this
        cases this
      rw [if_pos ⟨isDue, graded⟩, if_pos (reading.1 isDue), graded_eq_outcome]
    · rw [if_neg fun both => isDue both.1, if_neg fun both => isDue (reading.2 both)]
  · have knows := inv.runs grader hg
    rw [due_left]
    have fewer : (left epoch db done).length ≤ (gradable db epoch.megapotId).length :=
      List.length_filter_le ..
    cases grader with
    | paging tiers' batch => exact knows.2
    | grading tiers' batch page => exact knows.2.2.1
    | marking => simpa [Phase.fullPages] using fewer
    | returned settled =>
      cases settled with
      | true => simpa [Phase.fullPages] using fewer
      | false => exact knows
    | threw => simpa [Phase.fullPages] using fewer
  · cases init
    have ranks : rank (gradable db epoch.megapotId).length
        { db := db, runs := List.replicate graders (settleEpoch stringToNumber epoch) } =
          graders * (2 * ((gradable db epoch.megapotId).length / TICKET_BATCH) + 3) := by
      rw [rank, first, List.map_replicate, List.sum_replicate_nat]
      rfl
    rw [ranks] at bound
    omega

/-! ## Two graders -/

def drawing : EpochRead where
  megapotId := 7
  winningNormals := [3, 9, 14, 20, 27]
  winningBonusBall := 4
  prizeTiers := .arr [.obj [("tierId", .num (.int 5)), ("amount", .str "90")]]

/-- A ticket with two matches and the bonus ball, and one without any. -/
def bought : Db where
  relayOrders := [{ hash := "o", signature := "s", buyer := "w", fulfillEpoch := some 7, status := .SUCCESS }]
  tickets := [{ id := "a", orderHash := "o", normalBalls := [3, 9, 10, 11, 12], bonusBall := 4 },
    { id := "b", orderHash := "o", normalBalls := [1, 2, 5, 6, 7], bonusBall := 8 }]

/-- Both read the page, in different orders, before either settles it. -/
def raced : List Action :=
  let page := bought.tickets.map selectGradable
  [{ i := 0, call := .findPage page }, { i := 1, call := .findPage page.reverse },
    { i := 1, call := .transaction }, { i := 0, call := .transaction }, { i := 0, call := .mark 1 }]

theorem settleEpoch_confluent_raced : ∃ s : State,
    s.db.tickets.map (fun t => (t.winStatus, t.winAmount)) = [(.WON_UNCLAIMED, 90), (.LOST, 0)] := by
  obtain ⟨s, run, returned⟩ := (Option.any_eq_true ..).1 (show ((machine (fun _ => .other) drawing bought 2).run
    { db := bought, runs := List.replicate 2 (settleEpoch (fun _ => .other) drawing) } raced).any
      (·.runs.contains (.returned true)) = true by decide +kernel)
  have settled := (settleEpoch_confluent (fun _ => .other) drawing [(5, 90)] bought 2 rfl (by decide) _ s
    raced rfl run).1 (List.contains_iff_mem.1 returned)
  refine ⟨s, ?_⟩
  rw [settled]
  decide

end Grading

end LordsPot.Settlement
