import LordsPot.Payout.Outside
import LordsPot.Relay.Arrival
import LordsPot.System.Vouchers

/-!
# What the backend leaves alone

No component touches the columns that an order and its tickets were created with; and the others leave
the payout path what it holds.
-/

namespace LordsPot.System

open Transition Payout

/-! ## The columns of a purchase -/

section Created

variable {db db' : Db}

theorem created_settlePage (db : Db) (grades : Settlement.Grades) :
    (Settlement.settlePage db grades).created = db.created := by
  have groups : ∀ (groups : List Settlement.Group) (rows : List Ticket),
      (groups.foldl (fun rows g => Settlement.markWinners g rows) rows).map (·.created) =
        rows.map (·.created) := by
    intro groups
    induction groups with
    | nil => exact fun rows => rfl
    | cons g groups ih =>
      exact fun rows => (ih _).trans (Relay.created_tickets (by exact fun _ => rfl) rows)
  exact Relay.created_of_columns rfl
    ((groups _ _).trans (Relay.created_tickets (by exact fun _ => rfl) db.tickets))

theorem created_settlementWrite (write : Settlement.TickWrite db db') : db'.created = db.created := by
  cases write with
  | nothing | mark => rfl
  | upsert round =>
    rw [Db.created, Db.created, upsertSettledEpoch_relayOrders, upsertSettledEpoch_tickets]
  | settle grades => exact created_settlePage db grades

theorem created_harvest {s s' : Harvest.State} {action : Harvest.Action} (own : action.own = true)
    (hs : Harvest.step s action = some s') : s'.db.created = s.db.created := by
  cases Harvest.stepMove hs with
  | tick here effect =>
    refine Relay.created_of_columns ?_ ?_
    · cases effect <;> rfl
    · refine Table.map_of_forall₂ Ticket.created (fun t t' rule => ?_) effect.rows
      rw [rule.rest]
      rfl
  | start | mine | unquarantine => rfl
  | clock | grade | settled => cases own

theorem created_payout {s : Payout.State} {db' : Db} (written : Written s db') :
    db'.created = s.db.created := by
  have tickets : ∀ {rows}, TicketWrite s rows → rows.map (·.created) = s.db.tickets.map (·.created) := by
    intro rows write
    cases write with
    | nothing => rfl
    | bind | unbind | payOut => exact Relay.created_tickets (by exact fun _ => rfl) s.db.tickets
  exact Relay.created_of_columns (by rw [written.orders]) (tickets written.tickets)

end Created

section Steps

variable {stringToNumber : String → JsNumber} {keccak256 : String → Bytes32} {s s' : State}

/-- **The columns of a purchase** stay as they were created. -/
theorem created_step {a : Action} (hs : step stringToNumber keccak256 s a = some s') :
    s'.db.created = s.db.created := by
  rcases step_cases hs with ⟨action, settlement, -, stepped, rfl⟩ | ⟨action, h, -, own, stepped, rfl⟩ |
    ⟨action, p, -, own, stepped, rfl⟩ | ⟨_, -, rfl⟩
  · rcases Settlement.step_writes stepped with ⟨action, relay, rfl, relayed, rfl⟩ | write
    · exact Relay.created_step relayed
    · exact created_settlementWrite write
  · exact created_harvest own stepped
  · exact created_payout (payout_written own stepped)
  · rfl

/-! ## The payout path's surroundings -/

/-- A ticket that is harvested has its prize for good. -/
theorem Forward.harvested {t t' : Ticket} (forward : Forward t t') (h : Harvested t) :
    Harvested t' ∧ t'.winAmount = t.winAmount := by
  have graded : t.winStatus ≠ .DRAW_PENDING := by rcases h with is | is <;> simp [is]
  have stays : ∀ {status}, Relation.ReflTransGen Next t.winStatus status →
      status = .CLAIMED_ON_BASE ∨ status = .PAID_OUT_ON_SOLANA := by
    intro status path
    induction path with
    | refl => exact h
    | tail _ next ih =>
      rcases ih with rfl | rfl <;> cases next
      exact .inr rfl
  exact ⟨stays forward.status, (forward.prize graded).1⟩

theorem later_of_apart {db db' : Db} (ids : (db.tickets.map (·.id)).Nodup) (apart : Apart db db')
    (forwards : Forwards db.tickets db'.tickets) : Later Stays db db' := by
  refine .of_rows ids forwards.ids apart.orders (Table.forall₂_of_keys forwards.ids ids fun t' ht' => ?_)
  obtain ⟨t, ht, elsewhere⟩ := Table.exists_of_forall₂_right apart.rows ht'
  obtain ⟨t₀, ht₀, forward⟩ := forwards.each t' ht'
  obtain rfl : t₀ = t := List.inj_on_of_nodup_map ids ht₀ ht (forward.id.symm.trans elsewhere.id)
  exact ⟨t₀, ht₀, forward.id, ⟨forward.id, forward.order, forward.harvested⟩, elsewhere.claim⟩

theorem settlement_now {s s' : Settlement.State} {action : Settlement.Action}
    (hs : Settlement.step stringToNumber keccak256 s action = some s') : s.now ≤ s'.now := by
  cases action with
  | relay action =>
    obtain ⟨relay, -, rfl⟩ := Option.map_eq_some_iff.1 hs
    exact le_rfl
  | tick i call lost =>
    obtain ⟨tick, -, hs⟩ := Option.bind_eq_some_iff.1 hs
    obtain ⟨written, -, hs⟩ := Option.bind_eq_some_iff.1 hs
    cases hs
    exact le_rfl
  | clock ms =>
    cases hs
    exact Nat.le_add_right ..
  | start | upsert => cases hs; exact le_rfl

/-- **The payout path's surroundings**: a step of another component is one of the rest of the system. -/
theorem outside_of_step {a : Action} (hashes : (s.db.relayOrders.map (·.hash)).Nodup)
    (ids : (s.db.tickets.map (·.id)).Nodup) (hs : step stringToNumber keccak256 s a = some s') :
    (∃ action p, a = .payout action ∧ action.own = true ∧ Payout.step s.payout action = some p ∧
      s' = s.putPayout p) ∨ Outside s.payout s'.payout := by
  have forwards := forwards_step hs
  rcases step_cases hs with ⟨action, settlement, -, stepped, rfl⟩ | ⟨action, h, -, own, stepped, rfl⟩ |
    ⟨action, p, rfl, own, stepped, rfl⟩ | ⟨_, -, rfl⟩
  · have apart := apart_settlement hashes ids stepped
    exact .inr ⟨later_of_apart ids apart forwards, settlement_now stepped, le_rfl, apart.claims, rfl, rfl, rfl, rfl⟩
  · have apart := apart_harvest own ids stepped
    exact .inr ⟨later_of_apart ids apart forwards, le_rfl, le_rfl, apart.claims, rfl, rfl, rfl, rfl⟩
  · exact .inl ⟨action, p, rfl, own, stepped, rfl⟩
  · exact .inr ⟨later_of_apart ids (.refl _) forwards, le_rfl, le_rfl, rfl, rfl, rfl, rfl, rfl⟩

end Steps

end LordsPot.System
