import LordsPot.Payout.Expiry

/-!
# Tickets bound to claims

What each step does to the binding of tickets. A claim's bound rows are changed by its
own handler and by its release only, and every ticket is bound to a claim of its buyer.
-/

namespace LordsPot.Payout

open Transition

/-- The sum and the ids of the tickets bound to a claim. -/
def boundRows (db : Db) (k : Uuid) : Nat × List Uuid := (boundSum db k, boundIds db k)

/-- The claim, amount and tickets a handler carries once it has summed them. -/
def Request.holding? : Request → Option (Uuid × Nat × List Uuid)
  | .summed _ k a ids | .withinCeiling _ k a ids => some (k, a, ids)
  | .built v | .stamped v => some (v.claimId, v.amount, v.tickets)
  | _ => none

theorem Request.claimId?_of_holding {r : Request} {k : Uuid} {a : Nat} {ids : List Uuid}
    (h : r.holding? = some (k, a, ids)) : r.claimId? = some k := by
  cases r <;> cases h <;> rfl

/-! ## Writes that leave a claim's tickets alone -/

section Frame

variable {db : Db} {k : Uuid}

/-- A change of ticket rows that keeps the summed columns and who is bound to `k`. -/
theorem boundRows_updateMany {p : Ticket → Bool} {f : Ticket → Ticket} {db' : Db}
    (h : db'.tickets = Table.updateMany p f db.tickets)
    (amount : ∀ t, (f t).winAmount = t.winAmount) (id : ∀ t, (f t).id = t.id)
    (agree : ∀ t ∈ db.tickets, boundTo k (if p t then f t else t) = boundTo k t) :
    boundRows db' k = boundRows db k := by
  rw [boundRows, boundRows, boundSum, boundSum, boundIds, boundIds, h,
    Table.sumWhere_updateMany agree amount, Table.filter_updateMany agree,
    Table.map_updateMany (·.id) fun t _ _ => id t]

theorem boundRows_congr {db' : Db} (h : db'.tickets = db.tickets) :
    boundRows db' k = boundRows db k := by
  rw [boundRows, boundRows, boundSum, boundSum, boundIds, boundIds, h]

theorem boundTo_eq_true {t : Ticket} : boundTo k t = true ↔ t.payoutClaimId = some k :=
  decide_eq_true_iff

theorem claimable_unbound {w : Wallet} {epochs : List Nat} {t : Ticket}
    (h : claimable db w epochs t = true) : t.payoutClaimId = none := by
  simp only [claimable, Bool.and_eq_true, beq_iff_eq] at h
  exact h.1.2

theorem buyer?_of_claimable {w : Wallet} {epochs : List Nat} {t : Ticket}
    (h : claimable db w epochs t = true) : db.buyer? t = some w := by
  unfold claimable at h
  rw [Db.buyer?]
  cases ho : db.relayOrder? t with
  | none => simp [ho] at h
  | some o =>
    simp only [ho, Bool.and_eq_true, beq_iff_eq] at h
    rw [Option.map_some, h.2.1]

theorem boundRows_bindTickets {w : Wallet} {epochs : List Nat} {j : Uuid} (hk : j ≠ k) :
    boundRows (bindTickets db w epochs j) k = boundRows db k := by
  refine boundRows_updateMany rfl (fun _ => rfl) (fun _ => rfl) fun t _ => ?_
  split
  · rename_i h
    simp [boundTo, claimable_unbound h, hk]
  · rfl

theorem boundRows_unbindTickets {j : Uuid} (hk : j ≠ k) :
    boundRows (unbindTickets db j) k = boundRows db k := by
  refine boundRows_updateMany rfl (fun _ => rfl) (fun _ => rfl) fun t _ => ?_
  split
  · rename_i h
    simp [boundTo, boundTo_eq_true.1 h, hk]
  · rfl

theorem boundRows_confirmClaim {j : Uuid} {sig : Signature} {now : Nat} :
    boundRows (confirmClaim db j sig now) k = boundRows db k := by
  unfold confirmClaim
  split
  · refine boundRows_updateMany rfl (fun _ => rfl) (fun _ => rfl) fun t _ => ?_
    split <;> rfl
  · rfl

theorem boundRows_releaseClaim {j : Uuid} {st : PayoutStatus} {reason : String} (hk : j ≠ k) :
    boundRows (releaseClaim db j st reason) k = boundRows db k := by
  unfold releaseClaim
  split
  · exact (boundRows_congr rfl).trans (boundRows_unbindTickets hk)
  · rfl

theorem boundRows_resolve {j : Uuid} {now : Nat} {v : Verdict} (hk : j ≠ k) :
    boundRows (resolve db j now v) k = boundRows db k := by
  rcases resolve_cases db j now v with same | ⟨status, reason, released⟩ | ⟨hit, -, confirmed⟩
  · rw [same]
  · rw [released, boundRows_releaseClaim hk]
  · rw [confirmed, boundRows_confirmClaim]

theorem status_releaseClaim {j : Uuid} {st : PayoutStatus} {reason : String} {c' : PayoutClaim}
    (h : (releaseClaim db j st reason).claim? j = some c') : c'.status = st := by
  rw [claim?_releaseClaim] at h
  obtain ⟨c, hc, rfl⟩ := Option.map_eq_some_iff.1 h
  rw [if_pos (beq_iff_eq.2 (Table.key_of_findUnique hc))]

/-- A claim that was neither resolved as landed nor left pending has given its tickets back. -/
def Released (st : PayoutStatus) : Prop := st ≠ .PENDING ∧ st ≠ .CONFIRMED

/-- A resolution takes tickets from released claims only. -/
theorem boundRows_resolve_standing {j : Uuid} {now : Nat} {v : Verdict} {c' : PayoutClaim}
    (hc : (resolve db j now v).claim? k = some c') (standing : ¬ Released c'.status) :
    boundRows (resolve db j now v) k = boundRows db k := by
  by_cases hk : j = k
  · subst hk
    have release : ∀ {st reason}, (releaseClaim db j st reason).claim? j = some c' →
        st = .EXPIRED ∨ st = .FAILED → boundRows (releaseClaim db j st reason) j = boundRows db j := by
      intro st reason h hst
      refine absurd ?_ standing
      rw [status_releaseClaim h]
      rcases hst with rfl | rfl <;> exact ⟨by decide, by decide⟩
    cases v with
    | landed hit =>
      simp only [resolve] at hc ⊢
      split at hc
      · rename_i hf
        rw [if_pos hf]
        exact release hc (.inr rfl)
      · rename_i hf
        rw [if_neg hf]
        exact boundRows_confirmClaim
    | neverSigned => exact release hc (.inl rfl)
    | expired => exact release hc (.inl rfl)
    | wait => rfl
  · exact boundRows_resolve hk

theorem boundRows_harvest {batchId : Uuid} {txHash : TxHash} {now : Nat} :
    boundRows (Harvest.finalizeBatchSuccess db batchId txHash now) k = boundRows db k := by
  refine boundRows_updateMany rfl (fun _ => rfl) (fun _ => rfl) fun t _ => ?_
  split <;> rfl

end Frame

/-! ## What a handler's step does to tickets -/

/-- A ticket row after a step: the row before it, with another binding at most. -/
def Rebound (db db' : Db) (allowed : Ticket → Uuid → Prop) : Prop :=
  ∀ t' ∈ db'.tickets, ∃ t ∈ db.tickets, t'.id = t.id ∧ t'.orderHash = t.orderHash ∧
    t'.winAmount = t.winAmount ∧
    ∀ k, t'.payoutClaimId = some k → t.payoutClaimId = some k ∨ allowed t k

theorem rebound_updateMany {db db' : Db} {allowed : Ticket → Uuid → Prop} {p : Ticket → Bool}
    {f : Ticket → Ticket} (h : db'.tickets = Table.updateMany p f db.tickets)
    (keep : ∀ t, (f t).id = t.id ∧ (f t).orderHash = t.orderHash ∧ (f t).winAmount = t.winAmount)
    (bound : ∀ t ∈ db.tickets, p t = true → ∀ k, (f t).payoutClaimId = some k →
      t.payoutClaimId = some k ∨ allowed t k) : Rebound db db' allowed := by
  intro t' ht'
  rw [h] at ht'
  obtain ⟨t, ht, rfl⟩ := Table.mem_updateMany.1 ht'
  refine ⟨t, ht, ?_⟩
  split
  · rename_i hp
    exact ⟨(keep t).1, (keep t).2.1, (keep t).2.2, bound t ht hp⟩
  · exact ⟨rfl, rfl, rfl, fun k hk => .inl hk⟩

theorem rebound_same {db db' : Db} {allowed : Ticket → Uuid → Prop}
    (h : db'.tickets = db.tickets) : Rebound db db' allowed := fun t ht =>
  ⟨t, h ▸ ht, rfl, rfl, rfl, fun _ hk => .inl hk⟩

/-- The tickets of one handler step: only its own claim's binding changes, only its bind
binds, and a sum it carries is the sum it read. -/
structure TicketSpec (db : Db) (r : Request) (db' : Db) (r' : Request) : Prop where
  orders : db'.relayOrders = db.relayOrders
  ids : db'.tickets.map (·.id) = db.tickets.map (·.id)
  owned : ∀ k, boundRows db' k = boundRows db k ∨ (∃ w epochs, r = .created w k epochs) ∨
    (∃ status, r = .releasing k status) ∨ ∃ status, r = .deleting k status
  rebound : Rebound db db' fun t k => ∃ w epochs, r = .created w k epochs ∧
    claimable db w epochs t = true
  kept : ∀ k i, issue? db k = some i → (∃ i', issue? db' k = some i' ∧ i'.wallet = i.wallet) ∨
    ∀ t ∈ db'.tickets, t.payoutClaimId ≠ some k
  holding : ∀ k a ids, r'.holding? = some (k, a, ids) → boundRows db' k = boundRows db k ∧
    (r.holding? = some (k, a, ids) ∨ (∃ w, r = .bound w k) ∧ boundRows db k = (a, ids) ∧ 0 < a)

/-- Only its own handler touches the tickets of a claim. -/
theorem TicketSpec.bound {db db' : Db} {r r' : Request} (h : TicketSpec db r db' r') {k : Uuid}
    (other : r.claimId? ≠ some k) : boundRows db' k = boundRows db k := by
  rcases h.owned k with same | ⟨w, epochs, rfl⟩ | ⟨status, rfl⟩ | ⟨status, rfl⟩
  · exact same
  · exact absurd rfl other
  · exact absurd rfl other
  · exact absurd rfl other

section TicketSpec

variable {now : Nat} {db : Db} {r r' : Request} {act : RouteAct} {handed : Option Voucher}

/-- A step that writes no ticket. -/
theorem TicketSpec.still {db' : Db} (tickets : db'.tickets = db.tickets)
    (orders : db'.relayOrders = db.relayOrders)
    (kept : ∀ k i, issue? db k = some i → ∃ i', issue? db' k = some i' ∧ i'.wallet = i.wallet)
    (holding : ∀ k a ids, r'.holding? = some (k, a, ids) →
      r.holding? = some (k, a, ids) ∨ (∃ w, r = .bound w k) ∧ boundRows db k = (a, ids) ∧ 0 < a) :
    TicketSpec db r db' r' :=
  ⟨orders, by rw [tickets], fun _ => .inl (boundRows_congr tickets), rebound_same tickets,
    fun k i hi => .inl (kept k i hi), fun k a ids h => ⟨boundRows_congr tickets, holding k a ids h⟩⟩

/-- A step that writes nothing. -/
theorem TicketSpec.quiet (holding : ∀ k a ids, r'.holding? = some (k, a, ids) →
      r.holding? = some (k, a, ids) ∨ (∃ w, r = .bound w k) ∧ boundRows db k = (a, ids) ∧ 0 < a) :
    TicketSpec db r db r' :=
  .still rfl rfl (fun _ i hi => ⟨i, hi, rfl⟩) holding

theorem ticketSpec_bind {w : Wallet} {k : Uuid} {epochs : List Nat} :
    TicketSpec db (.created w k epochs) (bindTickets db w epochs k) (.bound w k) where
  orders := rfl
  ids := Table.map_updateMany _ fun _ _ _ => rfl
  owned j := by
    by_cases hj : k = j
    · exact .inr (.inl ⟨w, epochs, by rw [hj]⟩)
    · exact .inl (boundRows_bindTickets hj)
  rebound := rebound_updateMany rfl (fun _ => ⟨rfl, rfl, rfl⟩) fun t _ hp j hj => by
    cases hj
    exact .inr ⟨w, epochs, rfl, hp⟩
  kept _ i hi := .inl ⟨i, hi, rfl⟩
  holding _ _ _ h := by cases h

/-- Unbinding the tickets of the handler's own claim. -/
theorem ticketSpec_unbind {db' : Db} {k : Uuid}
    (own : (∃ status, r = .releasing k status) ∨ ∃ status, r = .deleting k status)
    (tickets : db'.tickets = (unbindTickets db k).tickets) (orders : db'.relayOrders = db.relayOrders)
    (others : ∀ j, j ≠ k → issue? db' j = issue? db j) (empty : r'.holding? = none) :
    TicketSpec db r db' r' where
  orders := orders
  ids := by
    rw [tickets]
    exact Table.map_updateMany _ fun _ _ _ => rfl
  owned j := by
    by_cases hj : k = j
    · exact .inr (.inr (hj ▸ own))
    · exact .inl ((boundRows_congr tickets).trans (boundRows_unbindTickets hj))
  rebound := by
    refine rebound_updateMany tickets (fun _ => ⟨rfl, rfl, rfl⟩) ?_
    intro t _ _ j hj
    cases hj
  kept j i hi := by
    by_cases hj : j = k
    · refine .inr fun t ht => ?_
      rw [tickets] at ht
      obtain ⟨t₀, -, rfl⟩ := Table.mem_updateMany.1 ht
      split
      · nofun
      · rename_i h
        rw [hj]
        exact fun he => h (boundTo_eq_true.2 he)
    · exact .inl ⟨i, (others j hj).trans hi, rfl⟩
  holding _ _ _ h := by
    rw [empty] at h
    cases h

theorem ticketSpec_create {w : Wallet} {id : Uuid} {epochs : List Nat} (fresh : db.claim? id = none) :
    TicketSpec db (.revealed w epochs) (createClaim db id w now) (.created w id epochs) := by
  refine .still rfl rfl (fun k i hi => ⟨i, ?_, rfl⟩) (fun _ _ _ h => by cases h)
  rw [issue?, claim?_createClaim db k w now fresh, if_neg]
  · exact hi
  · rintro rfl
    rw [issue?, fresh] at hi
    cases hi

theorem ticketSpec_stamp {v : Voucher} :
    TicketSpec db (.built v) (stampClaim db v.claimId v.amount v.lastValidBlockHeight)
      (.stamped v) := by
  refine .still rfl rfl (fun k i hi => ?_) (fun _ _ _ h => .inl h)
  obtain ⟨c, hc, rfl⟩ := issue?_eq_some.1 hi
  rw [issue?, claim?_stampClaim, hc]
  refine ⟨_, rfl, ?_⟩
  simp only
  split <;> rfl

/-- **The ticket rule**: every step of a handler meets the specification. -/
theorem routeStep_tickets {program : Program} {adminKey : Wallet} {db' : Db}
    (h : routeStep now program adminKey db r act = some (db', r', handed)) :
    TicketSpec db r db' r' := by
  cases routeMove h with
  | answer | unpaused | noneLive | reveal | empty | refuse | noBuild | noStamp | handOut | crash =>
    exact .quiet fun _ _ _ h => by cases h
  | create fresh => exact ticketSpec_create fresh
  | bind => exact ticketSpec_bind
  | sum positive =>
    refine .quiet fun _ _ _ h => ?_
    cases h
    exact .inr ⟨⟨_, rfl⟩, rfl, positive⟩
  | ceiling | build => exact .quiet fun _ _ _ h => .inl h
  | stamp => exact ticketSpec_stamp
  | release => exact ticketSpec_unbind (.inl ⟨_, rfl⟩) rfl rfl (fun _ _ => rfl) rfl
  | delete =>
    refine ticketSpec_unbind (.inr ⟨_, rfl⟩) rfl rfl (fun j hj => ?_) rfl
    rw [issue?, claim?_deleteClaim, if_neg hj]
    rfl

end TicketSpec

end LordsPot.Payout
