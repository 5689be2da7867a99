import Mathlib.Logic.Relation
import LordsPot.Harvest.Book
import LordsPot.Payout.Tickets
import LordsPot.Relay.Effect
import LordsPot.System.Backend

/-!
# The life of a ticket

Five components write ticket rows, each under a guard of its own. A row is graded once, then
harvested, then paid out, and its prize is fixed when it is graded, whatever the interleaving.
-/

namespace LordsPot.System

open Transition

/-- The steps of a ticket's life. -/
inductive Next : WinStatus → WinStatus → Prop where
  | lost : Next .DRAW_PENDING .LOST
  | won : Next .DRAW_PENDING .WON_UNCLAIMED
  | wonTicket : Next .DRAW_PENDING .WON_FREE_TICKET
  | claimed : Next .WON_UNCLAIMED .CLAIMED_ON_BASE
  | claimedTicket : Next .WON_FREE_TICKET .CLAIMED_ON_BASE
  | paidOut : Next .CLAIMED_ON_BASE .PAID_OUT_ON_SOLANA

/-- A ticket row later in its life. -/
structure Forward (t t' : Ticket) : Prop where
  id : t'.id = t.id
  order : t'.orderHash = t.orderHash
  status : Relation.ReflTransGen Next t.winStatus t'.winStatus
  prize : t.winStatus ≠ .DRAW_PENDING →
    t'.winAmount = t.winAmount ∧ t'.isFreeTicketTier = t.isFreeTicketTier

/-- The same tickets, each at its place in life or later. -/
structure Forwards (rows rows' : List Ticket) : Prop where
  ids : rows'.map (·.id) = rows.map (·.id)
  each : ∀ t' ∈ rows', ∃ t ∈ rows, Forward t t'

theorem not_next_pending {status : WinStatus} : ¬ Next status .DRAW_PENDING := by
  intro next
  cases next

/-- Nothing becomes pending. -/
theorem Forward.graded {t t' : Ticket} (h : Forward t t') (graded : t.winStatus ≠ .DRAW_PENDING) :
    t'.winStatus ≠ .DRAW_PENDING := by
  intro pending
  have path := h.status
  rw [pending] at path
  rcases Relation.ReflTransGen.cases_tail path with same | ⟨_, -, last⟩
  · exact graded same.symm
  · exact not_next_pending last

theorem Forward.refl (t : Ticket) : Forward t t := ⟨rfl, rfl, .refl, fun _ => ⟨rfl, rfl⟩⟩

theorem Forward.trans {t t' t'' : Ticket} (h : Forward t t') (h' : Forward t' t'') :
    Forward t t'' := by
  refine ⟨h'.id.trans h.id, h'.order.trans h.order, h.status.trans h'.status, fun graded => ?_⟩
  have first := h.prize graded
  have second := h'.prize (h.graded graded)
  exact ⟨second.1.trans first.1, second.2.trans first.2⟩

theorem Forwards.refl (rows : List Ticket) : Forwards rows rows :=
  ⟨rfl, fun t ht => ⟨t, ht, .refl t⟩⟩

theorem Forwards.trans {rows rows' rows'' : List Ticket} (h : Forwards rows rows')
    (h' : Forwards rows' rows'') : Forwards rows rows'' := by
  refine ⟨h'.ids.trans h.ids, fun t'' ht'' => ?_⟩
  obtain ⟨t', ht', later⟩ := h'.each t'' ht''
  obtain ⟨t, ht, sooner⟩ := h.each t' ht'
  exact ⟨t, ht, sooner.trans later⟩

/-- An update that moves the rows it hits forward. -/
theorem forwards_updateMany {p : Ticket → Bool} {f : Ticket → Ticket} {rows : List Ticket}
    (moves : ∀ t, p t = true → Forward t (f t)) : Forwards rows (Table.updateMany p f rows) := by
  refine ⟨Table.map_updateMany _ fun t _ hp => (moves t hp).id, fun t' ht' => ?_⟩
  obtain ⟨t, ht, rfl⟩ := Table.mem_updateMany.1 ht'
  refine ⟨t, ht, ?_⟩
  split
  · rename_i hp
    exact moves t hp
  · exact .refl t

/-- An update that keeps the status and the prize. -/
theorem forwards_keep {p : Ticket → Bool} {f : Ticket → Ticket} {rows : List Ticket}
    (keep : ∀ t, (f t).id = t.id ∧ (f t).orderHash = t.orderHash ∧ (f t).winStatus = t.winStatus ∧
      (f t).winAmount = t.winAmount ∧ (f t).isFreeTicketTier = t.isFreeTicketTier) :
    Forwards rows (Table.updateMany p f rows) := by
  refine forwards_updateMany fun t _ => ?_
  obtain ⟨id, order, status, amount, tier⟩ := keep t
  exact ⟨id, order, by rw [status], fun _ => ⟨amount, tier⟩⟩

/-! ## The components -/

section Relay

variable {keccak256 : String → Bytes32} {r r' : Relay.State}

/-- The relay leaves what grading and payout write alone. -/
theorem forwards_relay {action : Relay.Action} (hs : Relay.step keccak256 r action = some r') :
    Forwards r.db.tickets r'.db.tickets := by
  rcases Relay.step_db hs with same | requeued | ⟨_, _, _, _, s₁, -, -, effect, eq⟩
  · rw [same]
    exact .refl _
  · rw [requeued]
    exact .refl _
  · rw [eq]
    constructor
    · have columns := congrArg (List.map fun c : Relay.ChunkTicket => c.id) effect.columns
      rw [List.map_map, List.map_map] at columns
      exact columns
    · intro t' ht'
      obtain ⟨t, ht, row⟩ := effect.rows t' ht'
      have results := row.results
      simp only [Ticket.results, Prod.mk.injEq] at results
      obtain ⟨status, amount, tier, -, -⟩ := results
      exact ⟨t, ht, congrArg (·.id) row.columns, row.order, by rw [status], fun _ => ⟨amount, tier⟩⟩

end Relay

section Settlement

theorem settlePage_ids {db : Db} {grades : Settlement.Grades} :
    (Settlement.settlePage db grades).tickets.map (·.id) = db.tickets.map (·.id) := by
  have groups : ∀ (groups : List Settlement.Group) (rows : List Ticket),
      (groups.foldl (fun rows g => Settlement.markWinners g rows) rows).map (·.id) =
        rows.map (·.id) := by
    intro groups
    induction groups with
    | nil => exact fun rows => rfl
    | cons g groups ih => exact fun rows => (ih _).trans (Table.map_updateMany _ fun _ _ _ => rfl)
  exact (groups _ _).trans (Table.map_updateMany _ fun _ _ _ => rfl)

theorem forwards_settlePage {db : Db} {grades : Settlement.Grades} :
    Forwards db.tickets (Settlement.settlePage db grades).tickets := by
  refine ⟨settlePage_ids, Settlement.settlePage_rows .refl .trans (fun t pending => ?_)
    fun t g pending => ?_⟩
  · refine ⟨rfl, rfl, ?_, fun graded => absurd pending graded⟩
    rw [pending]
    exact .single .lost
  · refine ⟨rfl, rfl, ?_, fun graded => absurd pending graded⟩
    rw [pending]
    cases g.status with
    | WON_UNCLAIMED => exact .single .won
    | WON_FREE_TICKET => exact .single .wonTicket

variable {stringToNumber : String → JsNumber} {keccak256 : String → Bytes32} {s s' : Settlement.State}

theorem forwards_settlementWrite {db db' : Db} (write : Settlement.TickWrite db db') :
    Forwards db.tickets db'.tickets := by
  cases write with
  | nothing => exact .refl _
  | upsert round =>
    rw [upsertSettledEpoch_tickets]
    exact .refl _
  | settle grades => exact forwards_settlePage
  | mark megapotId now => exact .refl _

theorem forwards_settlement {action : Settlement.Action}
    (hs : Settlement.step stringToNumber keccak256 s action = some s') :
    Forwards s.relay.db.tickets s'.relay.db.tickets := by
  rcases Settlement.step_writes hs with ⟨action, relay, rfl, stepped, rfl⟩ | write
  · exact forwards_relay stepped
  · exact forwards_settlementWrite write

end Settlement

section Harvest

variable {s s' : Harvest.State}

theorem harvestable_iff {t : Ticket} : Harvest.harvestable t = true ↔
    t.winStatus = .WON_UNCLAIMED ∨ t.winStatus = .WON_FREE_TICKET := by
  simp [Harvest.harvestable]

theorem Forward.of_harvest {t t' : Ticket} {u u' : Harvest.Tick} (rule : Harvest.RowRule u u' t t') :
    Forward t t' := by
  refine ⟨by rw [rule.rest], by rw [rule.rest], ?_, fun _ => ⟨by rw [rule.rest], by rw [rule.rest]⟩⟩
  rcases rule.status with same | ⟨-, won, claimed⟩
  · rw [same]
  · rw [claimed]
    rcases harvestable_iff.1 won with cash | ticket
    · rw [cash]
      exact .single .claimed
    · rw [ticket]
      exact .single .claimedTicket

theorem forwards_harvest {action : Harvest.Action} (own : action.own = true)
    (hs : Harvest.step s action = some s') : Forwards s.db.tickets s'.db.tickets := by
  cases Harvest.stepMove hs with
  | tick here effect =>
    refine ⟨effect.ids, fun t' ht' => ?_⟩
    obtain ⟨t, ht, rule⟩ := Table.exists_of_forall₂_right effect.rows ht'
    exact ⟨t, ht, .of_harvest rule⟩
  | start | mine | unquarantine => exact .refl _
  | clock | grade | settled => cases own

end Harvest

section Payout

variable {s s' : Payout.State}

theorem forwards_write {rows : List Ticket} (write : Payout.TicketWrite s rows) :
    Forwards s.db.tickets rows := by
  cases write with
  | nothing => exact .refl _
  | bind | unbind => exact forwards_keep fun _ => ⟨rfl, rfl, rfl, rfl, rfl⟩
  | payOut =>
    refine forwards_updateMany fun t hp => ?_
    rw [Bool.and_eq_true, beq_iff_eq] at hp
    refine ⟨rfl, rfl, ?_, fun _ => ⟨rfl, rfl⟩⟩
    rw [hp.2]
    exact .single .paidOut

theorem payout_written {action : Payout.Action} (own : action.own = true)
    (hs : Payout.step s action = some s') : Payout.Written s s'.db := by
  cases action with
  | request w => cases hs; exact .same
  | route i act =>
    obtain ⟨r, db, r', handed, hr, routed, rfl⟩ := Payout.step_route hs
    exact Payout.routeStep_written hr routed
  | tick act =>
    obtain ⟨db, tick, rfl, same | ⟨c, _, _, _, _, _, -, -, resolved⟩⟩ := Payout.tickStep_frame hs
    · rw [same]
      exact .same
    · rw [resolved]
      exact Payout.resolve_written ..
  | land v sig slot bt =>
    obtain ⟨-, -, -, -, -, p, rfl⟩ := Payout.step_land hs
    exact .same
  | blocks n => cases hs; exact .same
  | program p => cases hs; exact .same
  | clock | harvest | epoch => cases own

end Payout

/-! ## The backend -/

section System

variable {stringToNumber : String → JsNumber} {keccak256 : String → Bytes32} {s s' : State}

/-- A step of the backend is a step of one component. -/
theorem step_cases {a : Action} (hs : step stringToNumber keccak256 s a = some s') :
    (∃ action settlement, a = .settlement action ∧
      Settlement.step stringToNumber keccak256 s.settlement action = some settlement ∧
      s' = { s with settlement := settlement }) ∨
    (∃ action h, a = .harvest action ∧ action.own = true ∧
      Harvest.step s.harvest action = some h ∧ s' = s.putHarvest h) ∨
    (∃ action p, a = .payout action ∧ action.own = true ∧
      Payout.step s.payout action = some p ∧ s' = s.putPayout p) ∨
    ∃ ticketId, a = .quarantine ticketId ∧
      s' = { s with quarantined := s.quarantined ++ [ticketId] } := by
  cases a with
  | settlement action =>
    obtain ⟨settlement, stepped, rfl⟩ := Option.map_eq_some_iff.1 hs
    exact .inl ⟨action, settlement, rfl, stepped, rfl⟩
  | harvest action =>
    simp only [step] at hs
    split at hs
    · rename_i own
      obtain ⟨h, stepped, rfl⟩ := Option.map_eq_some_iff.1 hs
      exact .inr (.inl ⟨action, h, rfl, own, stepped, rfl⟩)
    · cases hs
  | payout action =>
    simp only [step] at hs
    split at hs
    · rename_i own
      obtain ⟨p, stepped, rfl⟩ := Option.map_eq_some_iff.1 hs
      exact .inr (.inr (.inl ⟨action, p, rfl, own, stepped, rfl⟩))
    · cases hs
  | quarantine ticketId =>
    cases hs
    exact .inr (.inr (.inr ⟨ticketId, rfl, rfl⟩))

/-- **The life cycle rule**: every step moves tickets forward. -/
theorem forwards_step {a : Action} (hs : step stringToNumber keccak256 s a = some s') :
    Forwards s.db.tickets s'.db.tickets := by
  rcases step_cases hs with ⟨_, _, -, stepped, rfl⟩ | ⟨_, _, -, own, stepped, rfl⟩ |
    ⟨_, _, -, own, stepped, rfl⟩ | ⟨_, -, rfl⟩
  · exact forwards_settlement stepped
  · exact forwards_harvest own stepped
  · exact forwards_write (payout_written own stepped).tickets
  · exact .refl _

theorem forwards_run {as : List Action}
    (hr : (machine stringToNumber keccak256).run s as = some s') :
    Forwards s.db.tickets s'.db.tickets := by
  induction as generalizing s with
  | nil =>
    cases hr
    exact .refl _
  | cons a as ih =>
    obtain ⟨t, ht, hr⟩ := Machine.run_cons.1 hr
    exact (forwards_step ht).trans (ih hr)

theorem ticketIds_of_reachable {ok : State → Action → Prop}
    (h : (machine stringToNumber keccak256).ReachableBy ok s) : (s.db.tickets.map (·.id)).Nodup :=
  Machine.ReachableBy.invariant (M := machine stringToNumber keccak256)
    (I := fun s => (s.db.tickets.map (·.id)).Nodup)
    (fun _ (hi : Initial keccak256 _) => hi.settlement.relay.ticketIds)
    (fun _ _ _ distinct _ hs => (forwards_step hs).ids ▸ distinct) h

end System

/-- Each ticket's status has gone forward only, and its prize is the same if it was graded. -/
def TicketsForward (s s' : State) : Prop :=
  s'.db.tickets.map (·.id) = s.db.tickets.map (·.id) ∧
  ∀ t ∈ s.db.tickets, ∀ t' ∈ s'.db.tickets, t'.id = t.id →
    Relation.ReflTransGen Next t.winStatus t'.winStatus ∧
    (t.winStatus ≠ .DRAW_PENDING →
      t'.winAmount = t.winAmount ∧ t'.isFreeTicketTier = t.isFreeTicketTier)

/-- **The life cycle of a ticket**: from any reachable state and along any run, tickets only go
forward. -/
theorem tickets_forward {stringToNumber : String → JsNumber} {keccak256 : String → Bytes32}
    {s s' : State} {as : List Action} (h : (machine stringToNumber keccak256).Reachable s)
    (hr : (machine stringToNumber keccak256).run s as = some s') : TicketsForward s s' := by
  have forwards := forwards_run hr
  refine ⟨forwards.ids, fun t ht t' ht' same => ?_⟩
  obtain ⟨t₀, ht₀, forward⟩ := forwards.each t' ht'
  obtain rfl : t₀ = t :=
    List.inj_on_of_nodup_map (ticketIds_of_reachable h) ht₀ ht (forward.id.symm.trans same)
  exact ⟨forward.status, forward.prize⟩

/-- A winner is harvested and paid out. -/
theorem tickets_forward_paid : ∃ s s' : State,
    (s.db.tickets.all fun t => t.winStatus == .WON_UNCLAIMED && t.winAmount == 100) = true ∧
    (s'.db.tickets.all (·.winStatus == .PAID_OUT_ON_SOLANA)) = true ∧ TicketsForward s s' := by
  obtain ⟨s, hs, hp⟩ := Machine.exists_reachable_of_run (M := machine (fun _ => .other) id)
    initial_idle graded
    (fun s => (s.db.tickets.all fun t => t.winStatus == .WON_UNCLAIMED && t.winAmount == 100) &&
      ((machine (fun _ => .other) id).run s (harvested ++ paid)).any fun s' =>
        s'.db.tickets.all (·.winStatus == .PAID_OUT_ON_SOLANA)) (by decide +kernel)
  obtain ⟨won, ran⟩ := Bool.and_eq_true_iff.1 hp
  obtain ⟨s', hr, paid⟩ := (Option.any_eq_true ..).1 ran
  exact ⟨s, s', won, paid, tickets_forward hs hr⟩

end LordsPot.System
