import LordsPot.System.Whole

/-!
# What leaves the vault

Every claim on record is that of a voucher for tickets that were bought, have won and were harvested;
and where the payout path takes safe steps, nothing else leaves the vault but what the treasury
withdraws.
-/

namespace LordsPot

open Transition

namespace Whole

/-! ## What a claim is worth -/

/-- The voucher was handed out for harvested tickets and asks for what they have won; and its wallet has
bought each of them in a transaction that went through. -/
structure Worth (s : State) (v : Payout.Voucher) : Prop where
  handed : v ∈ s.backend.vouchers
  backs : Payout.Backs s.db v.wallet v.amount v.tickets
  bought : ∀ t ∈ s.db.tickets, t.id ∈ v.tickets → ∃ o ∈ s.db.relayOrders, o.hash = t.orderHash ∧
    ∃ tx, OnSolana.PaidFor s.solana o tx ∧ ∃ p ∈ tx.purchases, p.1.buyer = v.wallet ∧
      Ingest.ticketData t ∈ p.1.ticketsData.map OnSolana.numbers

/-- What a wallet has claimed on record. -/
def claimed (s : State) (w : Wallet) : Nat :=
  (((OnSolana.claims s.log).filter (·.1 == w)).map (·.2)).sum

section

variable {logs : Signature → List String} {parseLogs : List String → List Ingest.AnchorEvent}
  {stringToNumber : String → JsNumber} {keccak256 : String → Bytes32} {adminPublicKey : Wallet} {s : State}

/-- A ticket is in the transaction that its buyer has paid for. -/
theorem Books.bought (inj : Function.Injective keccak256) (h : Books logs parseLogs keccak256 adminPublicKey s)
    {t : Ticket} (ht : t ∈ s.db.tickets) {w : Wallet} (buyer : s.db.buyer? t = some w) :
    ∃ o ∈ s.db.relayOrders, o.hash = t.orderHash ∧ ∃ tx, OnSolana.PaidFor s.solana o tx ∧
      ∃ p ∈ tx.purchases, p.1.buyer = w ∧ Ingest.ticketData t ∈ p.1.ticketsData.map OnSolana.numbers := by
  have backed := OnSolana.backed_of_reachable h.seen
  obtain ⟨o, found, rfl⟩ := Option.map_eq_some_iff.1 buyer
  have ho : o ∈ s.db.relayOrders := Table.mem_of_findUnique found
  have same : o.hash = t.orderHash := Table.key_of_findUnique found
  obtain ⟨tx, paid⟩ := backed.paidFor (backed.storeOk inj) (List.mem_map_of_mem ho)
  have paid := paid.of_created
  exact ⟨o, ho, same, tx, paid, paid.bought ht same⟩

theorem Books.worth (inj : Function.Injective keccak256) (h : Books logs parseLogs keccak256 adminPublicKey s)
    (earned : Payout.Earned s.payout) {v : Payout.Voucher} (hv : v ∈ redeemed s) : Worth s v := by
  obtain ⟨l, hl, rfl⟩ := List.mem_map.1 (List.mem_reverse.1 hv)
  have handed := earned.book.landedHanded l hl
  have backs := earned.voucher handed
  refine ⟨handed, backs, fun t ht listed => h.bought inj ht ?_⟩
  obtain ⟨u, hu, is, -, buyer⟩ := backs.rows t.id listed
  rwa [List.inj_on_of_nodup_map earned.ids hu ht is] at buyer

/-- What is claimed on record is what landed vouchers transfer. -/
theorem Books.claimed (h : Books logs parseLogs keccak256 adminPublicKey s) (w : Wallet) :
    claimed s w = Payout.transferred s.payout w := by
  have landed : s.payout.landed = s.backend.landed := rfl
  rw [Whole.claimed, h.claims, redeemed, Payout.transferred, landed, ← List.map_reverse, List.map_map,
    List.filter_map, List.map_map, List.filter_reverse, List.map_reverse, List.sum_reverse]
  rfl

/-- **Claims are earned**: however the steps of the program, ingestion, backend and users mix, the claims
on record are those of distinct vouchers, each handed out by the backend for harvested tickets that its
wallet has bought on Solana, and for exactly what these have won. -/
theorem claims_earned (inj : Function.Injective keccak256)
    (h : (machine logs parseLogs stringToNumber keccak256 adminPublicKey).Reachable s) :
    OnSolana.claims s.log = ((redeemed s).map fun v => (v.wallet, v.amount)) ∧ (redeemed s).Nodup ∧
      ∀ v ∈ redeemed s, Worth s v := by
  obtain ⟨books, earned⟩ := earned_of_reachable inj h
  exact ⟨books.claims, List.nodup_reverse.2 earned.book.landedOnce, fun v hv => books.worth inj earned hv⟩

/-- In safe runs no two of the vouchers that have been redeemed share a ticket. -/
theorem apart_of_paying (h : Payout.Paying s.payout) :
    (redeemed s).Pairwise fun v v' => v.tickets.Disjoint v'.tickets := by
  refine List.Nodup.pairwise_of_forall_ne (List.nodup_reverse.2 h.book.landedOnce) ?_
  intro v hv v' hv' differ t ht ht'
  obtain ⟨l, hl, rfl⟩ := List.mem_map.1 (List.mem_reverse.1 hv)
  obtain ⟨l', hl', rfl⟩ := List.mem_map.1 (List.mem_reverse.1 hv')
  exact h.noDoublePayment.apart l hl l' hl' (fun same => differ (congrArg _ same)) t ht ht'

/-- What has been claimed is what the tickets of the vouchers have won. -/
theorem Books.claims_sum (inj : Function.Injective keccak256)
    (h : Books logs parseLogs keccak256 adminPublicKey s) (paying : Payout.Paying s.payout) :
    ((OnSolana.claims s.log).map (·.2)).sum =
      Table.sumWhere (fun t => (redeemed s).any (·.tickets.contains t.id)) (·.winAmount) s.db.tickets := by
  have apart : (redeemed s).Pairwise fun v v' => ∀ t ∈ s.db.tickets, v.tickets.contains t.id = true →
      v'.tickets.contains t.id = false := by
    refine (apart_of_paying paying).imp fun disjoint t _ here => Bool.eq_false_iff.2 fun there => ?_
    exact disjoint (List.contains_iff_mem.1 here) (List.contains_iff_mem.1 there)
  calc ((OnSolana.claims s.log).map (·.2)).sum
      = ((redeemed s).map (·.amount)).sum := by
        rw [h.claims, List.map_map]
        rfl
    _ = ((redeemed s).map fun v =>
          Table.sumWhere (fun t => v.tickets.contains t.id) (·.winAmount) s.db.tickets).sum :=
        congrArg List.sum (List.map_congr_left fun v hv => (h.worth inj paying.toEarned hv).backs.amount)
    _ = _ := Table.sum_sumWhere (fun (v : Payout.Voucher) (t : Ticket) => v.tickets.contains t.id) _ apart

/-- **Claims are within the winnings**: as long as the payout path takes safe steps, a wallet has claimed
no more on record than its tickets have won, and no ticket is in two vouchers that have been redeemed. -/
theorem claims_within_winnings (inj : Function.Injective keccak256)
    (h : (machine logs parseLogs stringToNumber keccak256 adminPublicKey).ReachableBy
      (fun s a => paySafe s a = true) s) :
    (∀ w, claimed s w ≤ Table.sumWhere (fun t => s.db.buyer? t == some w) (·.winAmount) s.db.tickets) ∧
      (redeemed s).Pairwise fun v v' => v.tickets.Disjoint v'.tickets := by
  obtain ⟨books, paying⟩ := paying_of_reachable inj h
  exact ⟨fun w => books.claimed w ▸ paying.noDoublePayment.total w, apart_of_paying paying⟩

/-- **What leaves the vault**: as long as the payout path takes safe steps, the vault holds what has come
in, less what has been withdrawn and what the tickets of redeemed vouchers have won. -/
theorem vault_accounted (inj : Function.Injective keccak256)
    (h : (machine logs parseLogs stringToNumber keccak256 adminPublicKey).ReachableBy
      (fun s a => paySafe s a = true) s) :
    s.solana.chain.amount Program.vaultUsdc + Machine.total OnSolana.withdrawn s.log +
        Table.sumWhere (fun t => (redeemed s).any (·.tickets.contains t.id)) (·.winAmount) s.db.tickets =
      Machine.total Program.Entry.credit s.log := by
  obtain ⟨books, paying⟩ := paying_of_reachable inj h
  have balanced := books.balanced
  rw [OnSolana.total_debit, books.claims_sum inj paying] at balanced
  omega

end

/-! ## From the purchase to the prize -/

/-- Nothing is sold, and the admin's key is with the backend. -/
def unsold : State where
  solana := ⟨⟨none, fun _ => none, []⟩, [], {}⟩
  backend :=
    { settlement := { relay := { db := {}, drawing := 1 } }
      program := { admin := "admin", maxClaimAmount := 0, vaultUsdc := 0 }
      adminKey := "admin" }

theorem initial_unsold : Initial id unsold where
  solana := ⟨⟨rfl, rfl, rfl⟩, rfl, ⟨rfl, List.nodup_nil, rfl, rfl, rfl⟩, rfl⟩
  backend := by
    have empty : unsold.system.db = {} := rfl
    refine ⟨⟨?_, rfl⟩, ?_, ?_, ?_, ?_, rfl, rfl, rfl, rfl, rfl, rfl, rfl, rfl⟩
    · constructor <;> simp [show unsold.system.settlement.relay = { db := {}, drawing := 1 } from rfl]
    · exact List.nodup_nil
    · exact List.forall_mem_nil _
    · exact List.forall_mem_nil _
    · exact List.forall_mem_nil _
  noLog := rfl

/-- The ticket is relayed, graded and harvested. -/
def wonTicket : List System.Action :=
  System.settle (Bridge.relayPaid.map .relay ++ [.relay (.call 0 (.collect [7]) false), Settlement.succeed] ++
    System.grade System.won) ++ System.harvested

/-- The buyer's request, served by handler `i`. -/
def served (i : Nat) (acts : List Payout.RouteAct) : List System.Action :=
  .payout (.request "user") :: acts.map fun act => .payout (.route i act)

/-- A handler that makes a claim and binds the ticket, and one that goes on to the voucher. -/
def binds (id : Uuid) : List Payout.RouteAct :=
  [.gate false, .findExisting, .readRevealed, .create id, .bind, .sum, .ceiling true]

def handsOut (id : Uuid) (height : Nat) : List Payout.RouteAct :=
  binds id ++ [.build (some height), .stamp false, .handOut]

/-- The ticket that was paid for wins 100, and its buyer redeems the voucher. -/
def prize : List Action :=
  (OnSolana.bought ++ OnSolana.doorbell.map OnSolana.Action.ingest).map .solana ++
    (wonTicket ++ served 0 (handsOut "c" 150)).map .backend ++
    [.solana (.transact "fund" [.deposit 1000] 8),
      .redeem ⟨"c", "user", "admin", 100, 150, ["1-"]⟩ "claim" 9 2 none]

theorem claims_earned_prize : ∃ s : State, OnSolana.claims s.log = [("user", 100)] ∧
    ∀ v ∈ redeemed s, Worth s v := by
  obtain ⟨s, hs, one⟩ := Machine.exists_reachable_of_run
    (M := machine OnSolana.purchaseLogs OnSolana.parsePurchase (fun _ => .other) id "admin") initial_unsold prize
    (fun s => OnSolana.claims s.log == [("user", 100)]) (by decide +kernel)
  exact ⟨s, beq_iff_eq.1 one, (claims_earned Function.injective_id hs).2.2⟩

/-- The confirmer finds no claim on chain, and resolves the one that is pending. -/
def confirmed (height : Nat) : List System.Action :=
  [.readPending, .callSweep, .sweepReturns ⟨[], true⟩, .readUsed, .readHeight height,
    .resolveNext false].map fun act => .payout (.tick act)

/-- The first handler stops before its voucher, and its claim is released; the second voucher is not
used and expires; the third is redeemed. -/
def thirdTime : List Action :=
  (OnSolana.bought ++ OnSolana.doorbell.map OnSolana.Action.ingest).map .solana ++
    (wonTicket ++ served 0 (binds "c") ++ System.Action.settlement (.clock 200000) :: confirmed 0 ++
      served 1 (handsOut "d" 150) ++ System.Action.payout (.blocks 1000) :: confirmed 1000 ++
      served 2 (handsOut "e" 1150)).map .backend ++
    [.solana (.transact "fund" [.deposit 1000] 8),
      .redeem ⟨"e", "user", "admin", 100, 1150, ["1-"]⟩ "claim" 9 2 none]

/-- Two vouchers have been handed out for one ticket, and it is paid once. -/
theorem claims_within_winnings_prize : ∃ s : State,
    s.backend.vouchers.map (·.tickets) = [["1-"], ["1-"]] ∧ claimed s "user" = 100 ∧
      (∀ w, claimed s w ≤ Table.sumWhere (fun t => s.db.buyer? t == some w) (·.winAmount) s.db.tickets) ∧
      (redeemed s).Pairwise fun v v' => v.tickets.Disjoint v'.tickets := by
  obtain ⟨s, hs, hp⟩ := Machine.exists_reachableBy_of_runBy
    (M := machine OnSolana.purchaseLogs OnSolana.parsePurchase (fun _ => .other) id "admin") paySafe
    initial_unsold thirdTime
    (fun s => s.backend.vouchers.map (·.tickets) == [["1-"], ["1-"]] && claimed s "user" == 100)
    (by decide +kernel)
  rw [Bool.and_eq_true, beq_iff_eq, beq_iff_eq] at hp
  exact ⟨s, hp.1, hp.2, claims_within_winnings Function.injective_id hs⟩

/-- Of 1100 that have come in, 100 are paid for the ticket. -/
theorem vault_accounted_prize : ∃ s : State, s.solana.chain.amount Program.vaultUsdc = 1000 ∧
    s.solana.chain.amount Program.vaultUsdc + Machine.total OnSolana.withdrawn s.log +
        Table.sumWhere (fun t => (redeemed s).any (·.tickets.contains t.id)) (·.winAmount) s.db.tickets =
      Machine.total Program.Entry.credit s.log := by
  obtain ⟨s, hs, left⟩ := Machine.exists_reachableBy_of_runBy
    (M := machine OnSolana.purchaseLogs OnSolana.parsePurchase (fun _ => .other) id "admin") paySafe
    initial_unsold prize (fun s => s.solana.chain.amount Program.vaultUsdc == 1000) (by decide +kernel)
  exact ⟨s, beq_iff_eq.1 left, vault_accounted Function.injective_id hs⟩

end Whole

end LordsPot
