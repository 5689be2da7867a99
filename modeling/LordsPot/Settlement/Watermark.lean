import LordsPot.Relay.Effect
import LordsPot.Settlement.Worker

/-!
# The settlement watermark

An epoch's watermark says that none of its tickets is pending. A tick knows this from the last
page it read: a short page holds all that is pending, and after an empty one nothing is. What it
knows stays true while no order with pending tickets turns SUCCESS with that epoch, so the
watermark is right as long as none does after the last page has been read.
-/

namespace LordsPot.Settlement

open Transition

/-- Only tickets among `ids` are pending in the epoch. -/
def PendingAmong (db : Db) (megapotId : Nat) (ids : List Uuid) : Prop :=
  ∀ t ∈ db.tickets, t.winStatus = .DRAW_PENDING → db.ofEpoch megapotId t = true → t.id ∈ ids

/-- No ticket of an epoch with a watermark is pending. -/
def WatermarksTrue (db : Db) : Prop :=
  ∀ e ∈ db.megapotEpochs, e.ticketsSettledAt.isSome = true → PendingAmong db e.megapotId []

/-- The epoch whose last page the tick has read, with the tickets of that page it has yet to
settle. -/
def Tick.last? : Tick → Option (Nat × List Uuid)
  | .grading epoch _ _ tickets _ =>
      if tickets.length < TICKET_BATCH then some (epoch.megapotId, tickets.map (·.id)) else none
  | .marking megapotId _ => some (megapotId, [])
  | _ => none

/-- The epoch has its watermark, or a tick has read its last page. -/
def closed (s : State) (megapotId : Nat) : Bool :=
  (s.relay.db.megapotEpochs.any fun e => e.megapotId == megapotId && e.ticketsSettledAt.isSome) ||
    s.ticks.any fun tick => tick.last?.any (·.1 == megapotId)

/-- An order that has pending tickets turns SUCCESS with an epoch only before the last page of
that epoch is read. -/
def watermarkSafe (s : State) : Action → Bool
  | .relay (.call i call _) => match s.relay.procs[i]?.bind (·.succeeds s.relay.db call) with
    | some (hash, some megapotId) => !closed s megapotId ||
        s.relay.db.tickets.all fun t => t.orderHash != hash || t.winStatus != .DRAW_PENDING
    | _ => true
  | _ => true

/-! ## What stays pending -/

section Pending

variable {db db' : Db} {megapotId : Nat} {ids : List Uuid}

/-- What is pending in the epoch was pending in it. -/
def NothingNew (db db' : Db) (megapotId : Nat) : Prop :=
  ∀ t' ∈ db'.tickets, t'.winStatus = .DRAW_PENDING → db'.ofEpoch megapotId t' = true →
    ∃ t ∈ db.tickets, t.id = t'.id ∧ t.winStatus = .DRAW_PENDING ∧ db.ofEpoch megapotId t = true

theorem NothingNew.of_same (tickets : db'.tickets = db.tickets)
    (orders : db'.relayOrders = db.relayOrders) : NothingNew db db' megapotId := by
  intro t ht pending of
  refine ⟨t, tickets ▸ ht, rfl, pending, ?_⟩
  rwa [Db.ofEpoch, orders] at of

theorem PendingAmong.keeps (h : PendingAmong db megapotId ids) (new : NothingNew db db' megapotId) :
    PendingAmong db' megapotId ids := by
  intro t' ht' pending of
  obtain ⟨t, ht, same, pending, of⟩ := new t' ht' pending of
  exact same ▸ h t ht pending of

/-- A short page holds all that is pending. -/
theorem isPage_covers {tickets : List GradableTicket} (page : isPage db megapotId tickets = true)
    (short : tickets.length < TICKET_BATCH) : PendingAmong db megapotId (tickets.map (·.id)) := by
  obtain ⟨sub, length⟩ := Bool.and_eq_true_iff.1 page
  have length := beq_iff_eq.1 length
  have all : (gradable db megapotId).length ≤ tickets.length := by omega
  have perm := (of_decide_eq_true sub).perm_of_length_le all
  intro t ht pending of
  have mem : selectGradable t ∈ gradable db megapotId :=
    List.mem_map_of_mem (List.mem_filter.2 ⟨ht, by simp [pending, of]⟩)
  exact List.mem_map_of_mem (perm.mem_iff.2 mem)

/-- A settled page leaves nothing of itself pending. -/
theorem PendingAmong.settlePage {epoch : EpochRead} {tiers : Tiers} {tickets : List GradableTicket}
    (h : PendingAmong db megapotId (tickets.map (·.id))) :
    PendingAmong (settlePage db (gradePage epoch tiers tickets)) megapotId [] := by
  intro t' ht' pending of
  obtain ⟨t, ht, row⟩ := mem_settlePage ht'
  obtain ⟨pending, other⟩ := row.pending pending
  refine absurd (h t ht pending ?_) other
  rwa [Db.ofEpoch, row.order] at of

theorem nothingNew_settlePage {epoch : EpochRead} {tiers : Tiers} {tickets : List GradableTicket} :
    NothingNew db (settlePage db (gradePage epoch tiers tickets)) megapotId := by
  intro t' ht' pending of
  obtain ⟨t, ht, row⟩ := mem_settlePage ht'
  refine ⟨t, ht, row.id.symm, (row.pending pending).1, ?_⟩
  rwa [Db.ofEpoch, row.order] at of

/-- Settled rows after an upsert were settled before. -/
theorem settled_upsert {round : SettledRound} {e' : MegapotEpoch}
    (he' : e' ∈ (upsertSettledEpoch db round).megapotEpochs)
    (settled : e'.ticketsSettledAt.isSome = true) :
    ∃ e ∈ db.megapotEpochs, e.megapotId = e'.megapotId ∧ e.ticketsSettledAt.isSome = true := by
  unfold upsertSettledEpoch at he'
  split at he'
  · obtain ⟨e, he, rfl⟩ := Table.mem_updateMany.1 he'
    split at settled
    · rename_i hit
      exact ⟨e, he, by rw [if_pos hit, upsertPayload_megapotId], settled⟩
    · rename_i hit
      exact ⟨e, he, by rw [if_neg hit], settled⟩
  · rcases List.mem_append.1 he' with old | new
    · exact ⟨e', old, rfl, settled⟩
    · cases List.mem_singleton.1 new
      cases settled

/-- Settled rows after a watermark were settled before, or are those of its epoch. -/
theorem settled_mark {now : Nat} {e' : MegapotEpoch}
    (he' : e' ∈ (markSettled db megapotId now).megapotEpochs)
    (settled : e'.ticketsSettledAt.isSome = true) : e'.megapotId = megapotId ∨
    ∃ e ∈ db.megapotEpochs, e.megapotId = e'.megapotId ∧ e.ticketsSettledAt.isSome = true := by
  obtain ⟨e, he, rfl⟩ := Table.mem_updateMany.1 he'
  split at settled
  · rename_i hit
    exact .inl (by rw [if_pos hit]; exact beq_iff_eq.1 hit)
  · rename_i hit
    exact .inr ⟨e, he, by rw [if_neg hit], settled⟩

end Pending

/-! ## What is known of the epochs -/

/-- What the watermarks and the last pages say. -/
structure Watermarks (s : State) : Prop where
  rows : WatermarksTrue s.relay.db
  ticks : ∀ tick ∈ s.ticks, ∀ megapotId ids, tick.last? = some (megapotId, ids) →
    PendingAmong s.relay.db megapotId ids

section Steps

variable {stringToNumber : String → JsNumber} {keccak256 : String → Bytes32} {s s' : State}

theorem closed_of_row {e : MegapotEpoch} (he : e ∈ s.relay.db.megapotEpochs)
    (settled : e.ticketsSettledAt.isSome = true) : closed s e.megapotId = true := by
  refine Bool.or_eq_true_iff.2 (.inl (List.any_eq_true.2 ⟨e, he, ?_⟩))
  rw [settled, Bool.and_true, beq_iff_eq]

theorem closed_of_tick {tick : Tick} {megapotId : Nat} {ids : List Uuid} (ht : tick ∈ s.ticks)
    (last : tick.last? = some (megapotId, ids)) : closed s megapotId = true := by
  refine Bool.or_eq_true_iff.2 (.inr (List.any_eq_true.2 ⟨tick, ht, ?_⟩))
  rw [last, Option.any_some, beq_iff_eq]

/-- What is closed stays so when nothing new is pending in a closed epoch. -/
theorem Watermarks.keeps (h : Watermarks s) {db' : Db}
    (epochs : ∀ e' ∈ db'.megapotEpochs, e'.ticketsSettledAt.isSome = true →
      ∃ e ∈ s.relay.db.megapotEpochs, e.megapotId = e'.megapotId ∧ e.ticketsSettledAt.isSome = true)
    (new : ∀ megapotId, closed s megapotId = true → NothingNew s.relay.db db' megapotId) :
    Watermarks { s with relay := { s.relay with db := db' } } where
  rows e' he' settled := by
    obtain ⟨e, he, same, settled⟩ := epochs e' he' settled
    exact same ▸ (h.rows e he settled).keeps (new _ (closed_of_row he settled))
  ticks tick ht megapotId ids last :=
    (h.ticks tick ht megapotId ids last).keeps (new _ (closed_of_tick ht last))

theorem Watermarks.upsert (h : Watermarks s) (round : SettledRound) :
    Watermarks { s with relay := { s.relay with db := upsertSettledEpoch s.relay.db round } } :=
  h.keeps (fun _ => settled_upsert) fun _ _ =>
    .of_same (upsertSettledEpoch_tickets ..) (upsertSettledEpoch_relayOrders ..)

@[simp] theorem healEpochs_last? (current : Option Nat) (epochs : List Nat) :
    (healEpochs current epochs).last? = none := by
  induction epochs with
  | nil => rfl
  | cons fulfillEpoch rest ih =>
    rw [healEpochs]
    split
    · exact ih
    · rfl

@[simp] theorem settleEpochs_last? (epochs : List EpochRead) :
    (settleEpochs stringToNumber epochs).last? = none := by
  induction epochs with
  | nil => rfl
  | cons epoch rest ih =>
    rw [settleEpochs]
    split
    · exact ih
    · rfl

/-- What a call does, and what its tick knows afterwards. -/
structure Told (s : State) (db' : Db) (tick' : Tick) : Prop where
  kept : Watermarks { s with relay := { s.relay with db := db' } }
  knows : ∀ megapotId ids, tick'.last? = some (megapotId, ids) → PendingAmong db' megapotId ids

theorem Told.nothing {db' : Db} {tick' : Tick}
    (kept : Watermarks { s with relay := { s.relay with db := db' } }) (idle : tick'.last? = none) :
    Told s db' tick' :=
  ⟨kept, fun _ _ last => by rw [idle] at last; cases last⟩

/-- A page is read. -/
theorem Watermarks.page (h : Watermarks s) {epoch : EpochRead} {tiers : Tiers} {batch : Nat}
    {tickets : List GradableTicket} {rest : List EpochRead}
    (page : isPage s.relay.db epoch.megapotId tickets = true) :
    Told s s.relay.db (if tickets.isEmpty then .marking epoch.megapotId rest
      else .grading epoch tiers batch tickets rest) := by
  refine ⟨h, fun megapotId ids last => ?_⟩
  split at last
  · rename_i empty
    cases List.isEmpty_iff.1 empty
    cases last
    exact isPage_covers page (by decide)
  · rw [Tick.last?] at last
    split at last
    · rename_i short
      cases last
      exact isPage_covers page short
    · cases last

/-- A page is settled. -/
theorem Watermarks.settle (h : Watermarks s) {epoch : EpochRead} {tiers : Tiers} {batch : Nat}
    {tickets : List GradableTicket} {rest : List EpochRead}
    (ht : .grading epoch tiers batch tickets rest ∈ s.ticks) :
    Told s (settlePage s.relay.db (gradePage epoch tiers tickets))
      (afterPage stringToNumber epoch tiers batch tickets.length rest) := by
  refine ⟨h.keeps (fun e he settled => ⟨e, he, rfl, settled⟩) fun _ _ => nothingNew_settlePage,
    fun megapotId ids last => ?_⟩
  unfold afterPage at last
  split at last
  · rename_i short
    cases last
    exact (h.ticks _ ht _ _ (if_pos short)).settlePage
  · split at last
    · rw [settleEpochs_last?] at last
      cases last
    · cases last

/-- The watermark is written: the tick knows that nothing is pending. -/
theorem Watermarks.mark (h : Watermarks s) {megapotId : Nat} {rest : List EpochRead}
    (ht : .marking megapotId rest ∈ s.ticks) :
    Told s (markSettled s.relay.db megapotId s.now) (settleEpochs stringToNumber rest) := by
  have none : PendingAmong s.relay.db megapotId [] := h.ticks _ ht _ _ rfl
  have same : ∀ n, NothingNew s.relay.db (markSettled s.relay.db megapotId s.now) n :=
    fun _ => .of_same rfl rfl
  refine .nothing ⟨fun e' he' settled => ?_, fun tick ht n ids last =>
    (h.ticks tick ht n ids last).keeps (same n)⟩ (settleEpochs_last? _)
  rcases settled_mark he' settled with rfl | ⟨e, he, eq, settled⟩
  · exact none.keeps (same _)
  · exact (eq ▸ h.rows e he settled).keeps (same _)

theorem Watermarks.tickStep (h : Watermarks s) {tick tick' : Tick} (ht : tick ∈ s.ticks) {call : Call}
    {db' : Db} (hs : tickStep stringToNumber s.relay.db s.now tick call = some (db', tick')) :
    Told s db' tick' := by
  unfold Settlement.tickStep at hs
  split at hs
  case h_1 =>
    split at hs <;> cases hs
    exact .nothing h (by split <;> rfl)
  case h_2 => cases hs; exact .nothing h (healEpochs_last? ..)
  case h_3 =>
    cases hs
    refine .nothing h ?_
    split
    · exact healEpochs_last? ..
    · rfl
  case h_4 fulfillEpoch current rest round =>
    cases hs
    refine .nothing ?_ (healEpochs_last? ..)
    cases round with
    | none => exact h
    | some round => exact h.upsert round
  case h_5 => cases hs; exact .nothing h (settleEpochs_last? _)
  case h_6 =>
    split at hs
    · rename_i page
      cases hs
      exact h.page page
    · cases hs
  case h_7 => cases hs; exact h.settle ht
  case h_8 => cases hs; exact h.mark ht
  case h_9 => cases hs; exact .nothing h rfl
  case h_10 => cases hs; exact .nothing h rfl
  case h_11 => cases hs

/-- A safe step of the relay makes nothing pending in a closed epoch. -/
theorem relay_nothingNew {action : Relay.Action} (ok : watermarkSafe s (.relay action) = true)
    {relay' : Relay.State} (hs : Relay.step keccak256 s.relay action = some relay') {megapotId : Nat}
    (shut : closed s megapotId = true) : NothingNew s.relay.db relay'.db megapotId := by
  intro t' ht' pending of
  obtain ⟨t, ht, id, results, before⟩ := Relay.step_ofEpoch hs ht' of
  have pending : t.winStatus = .DRAW_PENDING := (congrArg (·.1) results).symm.trans pending
  rcases before with of | ⟨i, call, lost, p, rfl, hi, now⟩
  · exact ⟨t, ht, id.symm, pending, of⟩
  · -- the order turns SUCCESS with this epoch, and the ticket is one of its pending ones
    rw [watermarkSafe, hi, Option.bind_some, now] at ok
    rcases Bool.or_eq_true_iff.1 ok with before | none
    · rw [shut] at before
      cases before
    · have := List.all_eq_true.1 none t ht
      simp [pending] at this

/-- The relay leaves the epochs alone. -/
theorem relay_megapotEpochs {action : Relay.Action} {r r' : Relay.State}
    (hs : Relay.step keccak256 r action = some r') : r'.db.megapotEpochs = r.db.megapotEpochs := by
  rcases Relay.step_db hs with same | requeued | ⟨_, _, _, _, _, -, -, effect, eq⟩
  · rw [same]
  · rw [requeued]
    rfl
  · rw [eq]
    exact effect.megapotEpochs

/-- **The watermark rule**: a safe step keeps the watermarks true. -/
theorem Watermarks.step (h : Watermarks s) {a : Action} (ok : watermarkSafe s a = true)
    (hs : step stringToNumber keccak256 s a = some s') : Watermarks s' := by
  cases a with
  | relay action =>
    obtain ⟨relay', hr, rfl⟩ := Option.map_eq_some_iff.1 hs
    have kept : Watermarks { s with relay := { s.relay with db := relay'.db } } :=
      h.keeps (fun e he settled => ⟨e, relay_megapotEpochs hr ▸ he, rfl, settled⟩)
        fun _ => relay_nothingNew ok hr
    exact ⟨kept.rows, kept.ticks⟩
  | start =>
    cases hs
    refine ⟨h.rows, fun tick ht megapotId ids last => ?_⟩
    rcases List.mem_append.1 ht with old | new
    · exact h.ticks tick old megapotId ids last
    · cases List.mem_singleton.1 new
      cases last
  | tick i call lost =>
    obtain ⟨tick, hi, hs⟩ := Option.bind_eq_some_iff.1 hs
    obtain ⟨⟨db', tick'⟩, hstep, hs⟩ := Option.bind_eq_some_iff.1 hs
    cases hs
    have told := h.tickStep (List.mem_of_getElem? hi) hstep
    refine ⟨told.kept.rows, fun q hq megapotId ids last => ?_⟩
    rcases List.mem_or_eq_of_mem_set hq with old | rfl
    · exact told.kept.ticks q old megapotId ids last
    · split at last
      · cases last
      · exact told.knows megapotId ids last
  | upsert round =>
    cases hs
    exact h.upsert round
  | clock ms => cases hs; exact ⟨h.rows, h.ticks⟩

theorem Watermarks.initial (h : Initial keccak256 s) : Watermarks s where
  rows e he settled t ht pending of := by
    obtain ⟨o, ho, -, -, success⟩ := Db.ofEpoch_iff.1 of
    exact absurd success (h.relay.notDone o ho)
  ticks := by rw [h.noTicks]; nofun

end Steps

/-- **No ticket of an epoch with a watermark is pending**, as long as no order with pending tickets
turns SUCCESS with an epoch whose last page has been read. -/
theorem watermarks_true {stringToNumber : String → JsNumber} {keccak256 : String → Bytes32} {s : State}
    (h : (machine stringToNumber keccak256).ReachableBy (fun s a => watermarkSafe s a = true) s) :
    WatermarksTrue s.relay.db :=
  (Machine.ReachableBy.invariant (I := Watermarks) (fun _ => .initial)
    (fun _ _ _ watermarks ok hs => watermarks.step ok hs) h).rows

/-! ## One order and one tick -/

/-- A job relays a ticket in round 1, and its chunk is mined in drawing 1. -/
def relayed : List Relay.Action :=
  Relay.lockJob 0 1 (Relay.alike ["1-"]) ++ [.call 0 (.findStuck []) false] ++
    Relay.sendChunk 0 (Relay.alike ["1-"]) "b" "0x1" ++ [.call 0 .write false, .mine "0x1" [101]] ++
      [.receipt (some true), .write, .collect [101]].map fun call => .call 0 call false

/-- Its SUCCESS update. -/
def succeed : Action := .relay (.call 0 .write false)

/-- Drawing 1 is settled and its round saved; no tier pays. -/
def settled : List Action :=
  [.relay (.rollover 2), .upsert {
    megapotId := 1
    winningNormals := [6, 7, 8, 9, 10]
    winningBonusBall := 2
    prizeTiers := .arr [.obj [("tierId", .num (.int 0)), ("amount", .str "0")]] }]

/-- One tick. -/
def tick (calls : List Call) : List Action :=
  .start :: calls.map fun call => .tick 0 call false

def idle : State := { relay := Relay.queued (Relay.alike ["1-"]) }

theorem initial_idle : Initial id idle where
  relay := Relay.initial_queued _ (by decide) (by decide +kernel)
  noTicks := rfl

/-- The tick finds nothing of drawing 1 and writes the watermark; then the job ends. -/
theorem stranded : ¬ ∀ (stringToNumber : String → JsNumber) (keccak256 : String → Bytes32) (s : State),
    (machine stringToNumber keccak256).Reachable s → WatermarksTrue s.relay.db := by
  intro all
  obtain ⟨s, hs, hp⟩ := Machine.exists_reachable_of_run (M := machine (fun _ => .other) id)
    initial_idle (relayed.map .relay ++ settled ++
      tick [.findPending [], .findUnsettled, .findPage [], .write] ++ [succeed])
    (fun s => s.relay.db.megapotEpochs.any fun e => e.ticketsSettledAt.isSome &&
      s.relay.db.tickets.any fun t =>
        t.winStatus == .DRAW_PENDING && s.relay.db.ofEpoch e.megapotId t)
    (by decide +kernel)
  simp only [List.any_eq_true, Bool.and_eq_true, beq_iff_eq] at hp
  obtain ⟨e, he, marked, t, ht, pending, of⟩ := hp
  exact absurd (all _ _ s hs e he marked t ht pending of) List.not_mem_nil

/-- The job ends before the tick starts, which grades the ticket. -/
theorem watermarks_true_graded : ∃ s : State,
    (s.relay.db.megapotEpochs.any (·.ticketsSettledAt.isSome) &&
      s.relay.db.tickets.any (·.winStatus == .LOST)) = true ∧ WatermarksTrue s.relay.db := by
  obtain ⟨s, hs, hp⟩ := Machine.exists_reachableBy_of_runBy
    (M := machine (fun _ => .other) id) watermarkSafe initial_idle (relayed.map .relay ++ succeed :: settled ++
      tick [.findPending [1], .roundState (some 2), .count, .findUnsettled,
        .findPage [{ id := "1-", normalBalls := [1, 2, 3, 4, 5], bonusBall := 1 }], .write, .write])
    (fun s => s.relay.db.megapotEpochs.any (·.ticketsSettledAt.isSome) &&
      s.relay.db.tickets.any (·.winStatus == .LOST)) (by decide +kernel)
  exact ⟨s, hp, watermarks_true hs⟩

end LordsPot.Settlement
