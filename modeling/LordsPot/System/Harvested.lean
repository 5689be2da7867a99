import LordsPot.System.LifeCycle

/-!
# The harvest watermark

Once an epoch has its harvest watermark no tick looks at it again, so nothing of it may be left to
claim. The check before the watermark sees the winners that are in no batch. It does not see the
tickets that are yet to be graded, nor the orders that are yet to turn SUCCESS.
-/

namespace LordsPot

open Transition

/-- The epoch a tick is about to write the watermark of. -/
def Harvest.Tick.marks? : Harvest.Tick → Option Nat
  | .watermark e _ => some e
  | _ => none

namespace System

/-- No ticket of an epoch with a harvest watermark is still to be claimed. -/
def HarvestedTrue (db : Db) : Prop :=
  ∀ e ∈ db.megapotEpochs, e.ticketsHarvestedAt.isSome = true →
    ∀ t ∈ db.tickets, db.ofEpoch e.megapotId t = true → Harvest.harvestable t = false

/-- Still to be graded, or to be claimed. -/
def unresolved (t : Ticket) : Bool := t.winStatus == .DRAW_PENDING || Harvest.harvestable t

/-- The epoch has its harvest watermark, or a tick has found nothing owed. -/
def harvestClosed (s : State) (megapotId : Nat) : Bool :=
  (s.db.megapotEpochs.any fun e => e.megapotId == megapotId && e.ticketsHarvestedAt.isSome) ||
    s.harvestTicks.any fun tick => tick.marks? == some megapotId

/-- When a tick finds nothing owed, no ticket of the epoch is unresolved; and an order with
unresolved tickets turns SUCCESS with an epoch only before that. -/
def harvestSafe (s : State) : Action → Bool
  | .settlement (.relay (.call i call _)) =>
      match s.settlement.relay.procs[i]?.bind (·.succeeds s.db call) with
      | some (hash, some megapotId) => !harvestClosed s megapotId ||
          s.db.tickets.all fun t => t.orderHash != hash || !unresolved t
      | _ => true
  | .harvest (.tick i .checkOwed) => match s.harvestTicks[i]? with
      | some (.checkingOwed e _) => s.db.tickets.any (Harvest.owed s.db e) ||
          s.db.tickets.all fun t => !s.db.ofEpoch e t || !unresolved t
      | _ => true
  | _ => true

/-! ## The rows with a watermark -/

/-- The epoch has its harvest watermark. -/
def Marked (db : Db) (megapotId : Nat) : Prop :=
  ∃ e ∈ db.megapotEpochs, e.megapotId = megapotId ∧ e.ticketsHarvestedAt.isSome = true

theorem harvestClosed_iff {s : State} {megapotId : Nat} : harvestClosed s megapotId = true ↔
    Marked s.db megapotId ∨ ∃ tick ∈ s.harvestTicks, tick.marks? = some megapotId := by
  simp [harvestClosed, Marked]

section Rows

variable {db : Db} {megapotId : Nat}

/-- A change of the epochs that sets no harvest watermark. -/
theorem marked_updateMany {db' : Db} {p : MegapotEpoch → Bool} {f : MegapotEpoch → MegapotEpoch}
    (rows : db'.megapotEpochs = Table.updateMany p f db.megapotEpochs)
    (keep : ∀ e, (f e).megapotId = e.megapotId ∧ (f e).ticketsHarvestedAt = e.ticketsHarvestedAt)
    (marked : Marked db' megapotId) : Marked db megapotId := by
  obtain ⟨e', he', id, harvested⟩ := marked
  rw [rows] at he'
  obtain ⟨e, he, rfl⟩ := Table.mem_updateMany.1 he'
  refine ⟨e, he, ?_⟩
  split at id
  · rename_i hit
    rw [if_pos hit] at harvested
    exact ⟨(keep e).1 ▸ id, (keep e).2 ▸ harvested⟩
  · rename_i hit
    rw [if_neg hit] at harvested
    exact ⟨id, harvested⟩

theorem marked_upsert {round : SettledRound} (marked : Marked (upsertSettledEpoch db round) megapotId) :
    Marked db megapotId := by
  unfold upsertSettledEpoch at marked
  split at marked
  · exact marked_updateMany (f := upsertPayload round) rfl (fun _ => ⟨rfl, rfl⟩) marked
  · obtain ⟨e', he', id, harvested⟩ := marked
    rcases List.mem_append.1 he' with old | new
    · exact ⟨e', old, id, harvested⟩
    · cases List.mem_singleton.1 new
      cases harvested

theorem marked_settlementWrite {db' : Db} (write : Settlement.TickWrite db db') :
    db'.relayOrders = db.relayOrders ∧ ∀ n, Marked db' n → Marked db n := by
  cases write with
  | nothing => exact ⟨rfl, fun _ => id⟩
  | upsert round => exact ⟨upsertSettledEpoch_relayOrders .., fun _ => marked_upsert⟩
  | settle grades => exact ⟨rfl, fun _ => id⟩
  | mark megapotId now =>
    exact ⟨rfl, fun _ => marked_updateMany (f := fun e => { e with ticketsSettledAt := some now })
      rfl fun _ => ⟨rfl, rfl⟩⟩

end Rows

/-! ## What a harvest tick knows -/

section Tick

open Harvest (Effect)

variable {s s' : Harvest.State} {t t' : Harvest.Tick} {act : Harvest.TickAct} {megapotId : Nat}

theorem harvest_relayOrders (effect : Effect s t act s' t') : s'.db.relayOrders = s.db.relayOrders := by
  cases effect <;> rfl

/-- The watermark is written by the tick that is about to. -/
theorem marked_harvest (effect : Effect s t act s' t') (marked : Marked s'.db megapotId) :
    Marked s.db megapotId ∨ t.marks? = some megapotId := by
  cases effect with
  | setWatermark =>
    rename_i e epochs
    obtain ⟨r', hr', id, harvested⟩ := marked
    obtain ⟨r, hr, rfl⟩ := Table.mem_updateMany.1 hr'
    split at id
    · rename_i hit
      rw [beq_iff_eq] at hit
      exact .inr (congrArg some (hit.symm.trans id))
    · rename_i hit
      rw [if_neg hit] at harvested
      exact .inl ⟨r, hr, id, harvested⟩
  | _ => exact .inl marked

theorem marks?_of_plain (plain : t.plain = true) : t.marks? = none := by
  cases t with
  | watermark => cases plain
  | _ => rfl

/-- A tick is about to write a watermark when it has found nothing owed. -/
theorem marks_harvest (effect : Effect s t act s' t') (marks : t'.marks? = some megapotId) :
    ∃ epochs, act = .checkOwed ∧ t = .checkingOwed megapotId epochs ∧
      s.db.tickets.any (Harvest.owed s.db megapotId) = false := by
  have not_plain : t'.plain = false := by
    by_contra plain
    rw [marks?_of_plain (by simpa using plain)] at marks
    cases marks
  cases effect with
  | nothingOwed none =>
    cases marks
    exact ⟨_, rfl, rfl, by simpa using none⟩
  | moves plain => simp [plain] at not_plain
  | submit _ next =>
    rcases next with rfl | plain
    · cases marks
    · simp [plain] at not_plain
  | rehearse _ next =>
    rcases next with rfl | ⟨-, rfl⟩ | plain
    · cases marks
    · cases marks
    · simp [plain] at not_plain
  | quarantine next =>
    rcases next with ⟨-, rfl⟩ | plain
    · cases marks
    · simp [plain] at not_plain
  | bind next => rcases next with ⟨-, rfl⟩ | ⟨-, rfl⟩ <;> cases marks
  | _ => cases marks

end Tick

/-! ## What is known of the epochs -/

/-- Nothing of a closed epoch is unresolved. -/
def Resolved (s : State) : Prop :=
  ∀ megapotId, harvestClosed s megapotId = true →
    ∀ t ∈ s.db.tickets, s.db.ofEpoch megapotId t = true → unresolved t = false

theorem unresolved_iff {t : Ticket} : unresolved t = true ↔
    t.winStatus = .DRAW_PENDING ∨ t.winStatus = .WON_UNCLAIMED ∨ t.winStatus = .WON_FREE_TICKET := by
  simp [unresolved, Harvest.harvestable]

/-- What is resolved stays so. -/
theorem Forward.resolved {t t' : Ticket} (forward : Forward t t') (resolved : unresolved t = false) :
    unresolved t' = false := by
  have open? : ∀ {t : Ticket}, unresolved t = false ↔ ¬ (t.winStatus = .DRAW_PENDING ∨
      t.winStatus = .WON_UNCLAIMED ∨ t.winStatus = .WON_FREE_TICKET) := by
    intro t
    rw [← unresolved_iff, Bool.not_eq_true]
  rw [open?] at resolved ⊢
  have path := forward.status
  generalize t'.winStatus = status at path
  induction path with
  | refl => exact resolved
  | tail _ next _ =>
    cases next with
    | lost | won | wonTicket => simp_all
    | claimed | claimedTicket => simp
    | paidOut => simp

section Steps

variable {stringToNumber : String → JsNumber} {keccak256 : String → Bytes32} {s s' : State}

/-- A step that closes no epoch and writes no order. -/
theorem Resolved.keeps (h : Resolved s) (closed : ∀ n, harvestClosed s' n = true → harvestClosed s n = true)
    (forwards : Forwards s.db.tickets s'.db.tickets) (orders : s'.db.relayOrders = s.db.relayOrders) :
    Resolved s' := by
  intro megapotId shut t' ht' of
  obtain ⟨t, ht, forward⟩ := forwards.each t' ht'
  refine forward.resolved (h megapotId (closed megapotId shut) t ht ?_)
  rwa [Db.ofEpoch, orders, forward.order] at of

/-- A step that writes no harvest watermark, no order and no harvest tick. -/
theorem Resolved.quiet (h : Resolved s) (marked : ∀ n, Marked s'.db n → Marked s.db n)
    (ticks : s'.harvestTicks = s.harvestTicks) (forwards : Forwards s.db.tickets s'.db.tickets)
    (orders : s'.db.relayOrders = s.db.relayOrders) : Resolved s' := by
  refine h.keeps (fun n shut => ?_) forwards orders
  rw [harvestClosed_iff] at shut ⊢
  rw [ticks] at shut
  exact shut.imp_left (marked n)

/-- A safe step of the relay leaves the closed epochs resolved. -/
theorem Resolved.relay (h : Resolved s) {action : Relay.Action} {relay' : Relay.State}
    (ok : harvestSafe s (.settlement (.relay action)) = true)
    (hs : Relay.step keccak256 s.settlement.relay action = some relay') :
    Resolved { s with settlement := { s.settlement with relay := relay' } } := by
  intro megapotId shut t' ht' of
  have shut : harvestClosed s megapotId = true := by
    rw [harvestClosed_iff] at shut ⊢
    refine shut.imp_left fun marked => ?_
    rwa [Marked, State.db, Settlement.relay_megapotEpochs hs] at marked
  obtain ⟨t, ht, -, results, before⟩ := Relay.step_ofEpoch hs ht' of
  have resolved : unresolved t = false := by
    rcases before with of | ⟨i, call, lost, p, rfl, hi, now⟩
    · exact h megapotId shut t ht of
    · -- the order turns SUCCESS with this epoch, which the condition allows without unresolved tickets
      rw [harvestSafe, hi, Option.bind_some, State.db, now] at ok
      rcases Bool.or_eq_true_iff.1 ok with open? | none
      · rw [shut] at open?
        cases open?
      · have own := List.all_eq_true.1 none t ht
        simpa using own
  have same : t'.winStatus = t.winStatus := congrArg (·.1) results
  rwa [unresolved, Harvest.harvestable, ← same] at resolved

theorem Resolved.settlement (h : Resolved s) {action : Settlement.Action}
    {settlement : Settlement.State} (ok : harvestSafe s (.settlement action) = true)
    (hs : Settlement.step stringToNumber keccak256 s.settlement action = some settlement) :
    Resolved { s with settlement := settlement } := by
  have forwards := forwards_settlement hs
  rcases Settlement.step_writes hs with ⟨action, relay, rfl, stepped, rfl⟩ | write
  · exact h.relay ok stepped
  · obtain ⟨orders, marked⟩ := marked_settlementWrite write
    exact h.quiet marked rfl forwards orders

/-- A tick closes an epoch when nothing of it is unresolved. -/
theorem Resolved.harvestTick (h : Resolved s) {i : Nat} {act : Harvest.TickAct} {s₁ : Harvest.State}
    {u u' : Harvest.Tick} (ok : harvestSafe s (.harvest (.tick i act)) = true)
    (hu : s.harvestTicks[i]? = some u) (effect : Harvest.Effect s.harvest u act s₁ u')
    (forwards : Forwards s.db.tickets s₁.db.tickets) :
    Resolved (s.putHarvest { s₁ with ticks := s.harvestTicks.set i u' }) := by
  intro megapotId shut t' ht' of
  obtain ⟨t, ht, forward⟩ := forwards.each t' ht'
  have before : s.db.ofEpoch megapotId t = true := by
    rwa [State.putHarvest_db, Db.ofEpoch, harvest_relayOrders effect, forward.order] at of
  refine forward.resolved ?_
  rcases harvestClosed_iff.1 shut with marked | ⟨v, hv, marks⟩
  · rcases marked_harvest effect marked with old | own
    · exact h megapotId (harvestClosed_iff.2 (.inl old)) t ht before
    · exact h megapotId (harvestClosed_iff.2 (.inr ⟨u, List.mem_of_getElem? hu, own⟩)) t ht before
  · rcases List.mem_or_eq_of_mem_set hv with old | rfl
    · exact h megapotId (harvestClosed_iff.2 (.inr ⟨v, old, marks⟩)) t ht before
    · obtain ⟨epochs, rfl, rfl, none⟩ := marks_harvest effect marks
      rw [harvestSafe, hu] at ok
      rcases Bool.or_eq_true_iff.1 ok with some | resolved
      · rw [show s.db.tickets.any (Harvest.owed s.db megapotId) = false from none] at some
        cases some
      · have own := List.all_eq_true.1 resolved t ht
        simpa [before] using own

theorem Resolved.harvest (h : Resolved s) {action : Harvest.Action} {s₁ : Harvest.State}
    (own : action.own = true) (ok : harvestSafe s (.harvest action) = true)
    (hs : Harvest.step s.harvest action = some s₁) : Resolved (s.putHarvest s₁) := by
  have forwards := forwards_harvest own hs
  cases Harvest.stepMove hs with
  | start =>
    refine h.keeps (fun n shut => ?_) forwards rfl
    rcases harvestClosed_iff.1 shut with marked | ⟨v, hv, marks⟩
    · exact harvestClosed_iff.2 (.inl marked)
    · rcases List.mem_append.1 hv with old | new
      · exact harvestClosed_iff.2 (.inr ⟨v, old, marks⟩)
      · cases List.mem_singleton.1 new
        cases marks
  | tick here effect => exact h.harvestTick ok here effect forwards
  | mine | unquarantine => exact h
  | clock | grade | settled => cases own

/-- **The harvest rule**: a safe step leaves the closed epochs resolved. -/
theorem Resolved.step (h : Resolved s) {a : Action} (ok : harvestSafe s a = true)
    (hs : step stringToNumber keccak256 s a = some s') : Resolved s' := by
  rcases step_cases hs with ⟨_, _, rfl, stepped, rfl⟩ | ⟨_, _, rfl, own, stepped, rfl⟩ |
    ⟨_, p, -, own, stepped, rfl⟩ | ⟨_, -, rfl⟩
  · exact h.settlement ok stepped
  · exact h.harvest own ok stepped
  · have written := payout_written own stepped
    refine h.quiet (fun n marked => ?_) rfl (forwards_write written.tickets) written.orders
    rwa [Marked, State.putPayout_db, written.epochs] at marked
  · exact h

theorem Resolved.initial (h : Initial keccak256 s) : Resolved s := by
  intro megapotId _ t _ of
  obtain ⟨o, ho, -, -, success⟩ := Db.ofEpoch_iff.1 of
  exact absurd success (h.settlement.relay.notDone o ho)

theorem Resolved.harvestedTrue (h : Resolved s) : HarvestedTrue s.db := by
  intro e he harvested t ht of
  have resolved := h e.megapotId (harvestClosed_iff.2 (.inl ⟨e, he, rfl, harvested⟩)) t ht of
  exact (Bool.or_eq_false_iff.1 resolved).2

end Steps

/-- **A harvested epoch has nothing left to claim**, as long as the check before the watermark finds
the epoch without unresolved tickets, and no order with unresolved tickets turns SUCCESS with that
epoch afterwards. -/
theorem harvested_true {stringToNumber : String → JsNumber} {keccak256 : String → Bytes32} {s : State}
    (h : (machine stringToNumber keccak256).ReachableBy (fun s a => harvestSafe s a = true) s) :
    HarvestedTrue s.db :=
  (Machine.ReachableBy.invariant (I := Resolved) (fun _ => .initial)
    (fun _ _ _ resolved ok hs => resolved.step ok hs) h).harvestedTrue

/-- Two settlement ticks list drawing 1; the first finds nothing of it and writes its watermark, and
so does a harvest tick. Then the order turns SUCCESS, and the second tick grades its ticket. -/
def overlooked : List Action :=
  settle (Settlement.relayed.map .relay ++ draw won ++
      [.start, .tick 0 (.findPending []) false, .start, .tick 1 (.findPending []) false,
        .tick 0 .findUnsettled false, .tick 1 .findUnsettled false,
        .tick 0 (.findPage []) false, .tick 0 .write false]) ++
    harvestTick 0 [.findInFlight none, .find [], .checkOwed, .setWatermark] ++
    settle [Settlement.succeed, .tick 1 (.findPage page) false, .tick 1 .write false]

theorem winner_overlooked : ¬ ∀ (stringToNumber : String → JsNumber) (keccak256 : String → Bytes32)
    (s : State), (machine stringToNumber keccak256).Reachable s → HarvestedTrue s.db := by
  intro all
  obtain ⟨s, hs, hp⟩ := Machine.exists_reachable_of_run (M := machine (fun _ => .other) id)
    initial_idle overlooked
    (fun s => s.db.megapotEpochs.any fun e => e.ticketsHarvestedAt.isSome &&
      s.db.tickets.any fun t => s.db.ofEpoch e.megapotId t && Harvest.harvestable t)
    (by decide +kernel)
  simp only [List.any_eq_true, Bool.and_eq_true] at hp
  obtain ⟨e, he, harvested, t, ht, of, winner⟩ := hp
  rw [all _ _ s hs e he harvested t ht of] at winner
  cases winner

/-- The ticket is graded and harvested before the watermark. -/
theorem harvested_true_claimed : ∃ s : State,
    (s.db.megapotEpochs.all (·.ticketsHarvestedAt.isSome) &&
      s.db.tickets.all (·.winStatus == .CLAIMED_ON_BASE)) = true ∧ HarvestedTrue s.db := by
  obtain ⟨s, hs, hp⟩ := Machine.exists_reachableBy_of_runBy (M := machine (fun _ => .other) id)
    harvestSafe initial_idle
    (graded ++ harvested ++ harvestTick 2 [.findInFlight none, .find [], .checkOwed, .setWatermark])
    (fun s => s.db.megapotEpochs.all (·.ticketsHarvestedAt.isSome) &&
      s.db.tickets.all (·.winStatus == .CLAIMED_ON_BASE)) (by decide +kernel)
  exact ⟨s, hp, harvested_true hs⟩

end System

end LordsPot
