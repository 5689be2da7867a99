import LordsPot.Payout.DoublePayment

/-!
# What has been paid out

In runs of safe steps a claim is confirmed by the landing of its own voucher and by no other, and a
ticket is `PAID_OUT_ON_SOLANA` exactly when the claim it is bound to is confirmed. So what the
database says has been paid out is what the chain has paid.
-/

namespace LordsPot.Payout

open Transition

/-- The status of a ticket follows from the claim it is bound to. -/
def StatusTrue (db : Db) (t : Ticket) : Prop :=
  match t.payoutClaimId with
  | none => t.winStatus ≠ .PAID_OUT_ON_SOLANA
  | some k => t.winStatus =
      if status? db k = some .CONFIRMED then .PAID_OUT_ON_SOLANA else .CLAIMED_ON_BASE

structure PaidOut (s : State) : Prop where
  /-- A confirmed claim has the signature of its own voucher's landing. -/
  own : ∀ k c, s.db.claim? k = some c → c.status = .CONFIRMED →
    ∃ l ∈ s.landed, l.voucher.claimId = k ∧ c.txSignature = some l.signature
  tickets : ∀ t ∈ s.db.tickets, StatusTrue s.db t

/-- Before the first claim, with nothing paid out. -/
structure Unpaid (s : State) : Prop extends Initial s where
  unpaid : ∀ t ∈ s.db.tickets, t.winStatus ≠ .PAID_OUT_ON_SOLANA

def unpaidMachine : Machine State Action := ⟨Unpaid, step⟩

theorem PaidOut.initial {s : State} (h : Unpaid s) : PaidOut s where
  own k c hc := by
    rw [Db.claim?, h.noClaims] at hc
    cases hc
  tickets t ht := by
    rw [StatusTrue, h.unbound t ht]
    exact h.unpaid t ht

section StatusTrue

variable {db db' : Db} {t : Ticket}

theorem StatusTrue.congr (h : StatusTrue db t)
    (same : ∀ k, t.payoutClaimId = some k → status? db' k = status? db k) : StatusTrue db' t := by
  unfold StatusTrue at h ⊢
  cases bound : t.payoutClaimId with
  | none => rwa [bound] at h
  | some k =>
    simp only [bound] at h ⊢
    rw [same k bound]
    exact h

/-- A ticket bound to a claim that is not confirmed is still to be paid. -/
theorem StatusTrue.unpaid (h : StatusTrue db t) {k : Uuid} (bound : t.payoutClaimId = some k)
    (unconfirmed : status? db k ≠ some .CONFIRMED) : t.winStatus = .CLAIMED_ON_BASE := by
  rw [StatusTrue, bound] at h
  exact h.trans (if_neg unconfirmed)

/-- A ticket given back by a claim that is not confirmed. -/
theorem StatusTrue.unbound {k : Uuid} (h : StatusTrue db t) (bound : t.payoutClaimId = some k)
    (unconfirmed : status? db k ≠ some .CONFIRMED) :
    StatusTrue db' { t with payoutClaimId := none } := by
  have claimed := h.unpaid bound unconfirmed
  simp [StatusTrue, claimed]

end StatusTrue

/-! ## The claims -/

section Claims

variable {s s' : State}

/-- A claim without a block height is not confirmed. -/
theorem PaidOut.unconfirmed (b : Book s) (h : PaidOut s) {k : Uuid} {c : PayoutClaim}
    (hc : s.db.claim? k = some c) (unstamped : c.lastValidBlockHeight = none) :
    c.status ≠ .CONFIRMED := by
  intro confirmed
  obtain ⟨l, hl, rfl, -⟩ := h.own k c hc confirmed
  obtain ⟨i, hi, -, stamped, -⟩ := b.voucherRow _ (b.landedHanded l hl)
  obtain ⟨c', hc', rfl⟩ := issue?_eq_some.1 hi
  rw [hc] at hc'
  cases hc'
  exact absurd (unstamped.symm.trans stamped) (Option.some_ne_none _).symm

/-- Nor is the claim a handler has not given away. -/
theorem PaidOut.unowned (b : Book s) (h : PaidOut s) {i : Nat} {r : Request} {k : Uuid}
    (hr : s.requests[i]? = some r) (hk : r.claimId? = some k) :
    status? s.db k ≠ some .CONFIRMED := by
  intro confirmed
  obtain ⟨c, hc, hst⟩ := status?_eq_some.1 confirmed
  obtain ⟨l, hl, rfl, -⟩ := h.own k c hc hst
  refine b.givenAway _ (b.landedHanded l hl) i ?_
  rw [owner?, hr]
  exact hk

/-- What is resolved as landed is hit by its own landing. -/
theorem PaidOut.hit_own (b : Book s) (att : Attribution s) (dead : ReleasedDead s) (h : PaidOut s)
    {c : PayoutClaim} {cs : List PayoutClaim} {calledAt height : Nat} {landed : LandedClaims}
    {used : List Signature} (ht : s.tick = some (.resolving (c :: cs) calledAt landed used height))
    {hit : LandedClaim} (hh : findHit landed used c = some hit) :
    ∃ l ∈ s.landed, l.voucher.claimId = c.id ∧ l.claim = hit := by
  obtain ⟨⟨snap, evidence, spent⟩, -⟩ := att.tick _ ht
  obtain ⟨l, hl, he, own⟩ := hit_landing b att snap evidence hh
  refine ⟨l, hl, own ?_, he⟩
  -- the landing's own claim is neither released nor confirmed
  obtain ⟨i, hi, -, stamped, -⟩ := b.voucherRow _ (b.landedHanded l hl)
  obtain ⟨row, hrow, rfl⟩ := issue?_eq_some.1 hi
  have stamped : row.lastValidBlockHeight ≠ none := by
    rw [show row.lastValidBlockHeight = _ from stamped]
    exact Option.some_ne_none _
  rw [status?, hrow]
  by_contra resolved
  have notPending : row.status ≠ .PENDING := fun he => resolved (congrArg some he)
  by_cases confirmed : row.status = .CONFIRMED
  · obtain ⟨l', hl', same, signature⟩ := h.own _ row hrow confirmed
    cases landing_of_claim b hl' hl same
    have spoken := spent.rows _ row _ hrow signature
    exact (findHit_eq_some hh).2.2.1 (by rw [← he]; exact spoken)
  · exact (dead _ row hrow stamped ⟨notPending, confirmed⟩).notLanded l hl rfl

end Claims

/-! ## The tickets -/

section Tickets

variable {s : State}

/-- The tickets of a claim that is not confirmed can be given back. -/
theorem PaidOut.unbind (h : PaidOut s) {k : Uuid} {db : Db} (unconfirmed : status? s.db k ≠ some .CONFIRMED)
    (tickets : db.tickets = (unbindTickets s.db k).tickets)
    (others : ∀ j, j ≠ k → status? db j = status? s.db j) : ∀ t ∈ db.tickets, StatusTrue db t := by
  intro t' ht'
  rw [tickets] at ht'
  obtain ⟨t, ht, rfl⟩ := Table.mem_updateMany.1 ht'
  split
  · rename_i bound
    exact (h.tickets t ht).unbound (boundTo_eq_true.1 bound) unconfirmed
  · rename_i free
    refine (h.tickets t ht).congr fun j hj => others j ?_
    rintro rfl
    exact free (boundTo_eq_true.2 hj)

theorem PaidOut.route_tickets (b : Book s) (own : Bound s) (h : PaidOut s) {i : Nat} {r r' : Request}
    {act : RouteAct} {db : Db} {handed : Option Voucher} (hr : s.requests[i]? = some r)
    (hs : routeStep s.now s.program s.adminKey s.db r act = some (db, r', handed)) :
    ∀ t ∈ db.tickets, StatusTrue db t := by
  cases routeMove hs with
  | @create w epochs id fresh =>
    intro t ht
    refine (h.tickets t ht).congr fun k hk => ?_
    obtain ⟨j, hj, -⟩ := own.owners t ht k hk
    rw [status?, claim?_createClaim _ _ _ _ fresh, if_neg, status?]
    rintro rfl
    rw [issue?, fresh] at hj
    cases hj
  | @bind w k epochs =>
    intro t' ht'
    obtain ⟨t, ht, rfl⟩ := Table.mem_updateMany.1 ht'
    split
    · rename_i free
      simp only [claimable, Bool.and_eq_true, beq_iff_eq] at free
      exact free.1.1.trans (if_neg (h.unowned b hr rfl)).symm
    · exact (h.tickets t ht).congr fun _ _ => rfl
  | stamp =>
    intro t ht
    refine (h.tickets t ht).congr fun k _ => ?_
    rw [status?, claim?_stampClaim, Option.map_map, status?]
    refine congrArg (Option.map · _) (funext fun c => ?_)
    simp only [Function.comp_apply]
    split <;> rfl
  | release => exact h.unbind (h.unowned b hr rfl) rfl fun _ _ => rfl
  | delete =>
    refine h.unbind (h.unowned b hr rfl) rfl fun j hj => ?_
    rw [status?, claim?_deleteClaim, if_neg hj, status?]
  | _ => exact h.tickets

/-- Only a claim that is not confirmed is resolved. -/
theorem PaidOut.resolving (b : Book s) (att : Attribution s) (h : PaidOut s) {c : PayoutClaim}
    {cs : List PayoutClaim} {calledAt height : Nat} {landed : LandedClaims} {used : List Signature}
    (ht : s.tick = some (.resolving (c :: cs) calledAt landed used height))
    (ok : paySafe s (.tick (.resolveNext false)) = true)
    (acts : verdict landed used height s.now c ≠ .wait) : status? s.db c.id ≠ some .CONFIRMED := by
  obtain ⟨⟨snap, evidence, -⟩, -⟩ := att.tick _ ht
  have pending : c.lastValidBlockHeight ≠ none → status? s.db c.id ≠ some .CONFIRMED := by
    intro stamped
    obtain ⟨row, hr, hp, -⟩ := snap.row c List.mem_cons_self stamped
    rw [status?, hr, Option.map_some, hp]
    decide
  generalize hv : verdict landed used height s.now c = v at acts
  cases v with
  | landed hit => exact pending (hit_stamped b snap evidence (verdict_landed hv))
  | expired =>
    obtain ⟨-, -, l, hl, -⟩ := verdict_expired hv
    exact pending (by rw [hl]; exact Option.some_ne_none _)
  | neverSigned =>
    have safe := (paySafe_iff.1 ok).2
    simp only [expirySafe, ht, hv, decide_eq_true_eq] at safe
    intro confirmed
    obtain ⟨row, hr, hst⟩ := status?_eq_some.1 confirmed
    exact h.unconfirmed b hr (safe (issue row) (by rw [issue?, hr]; rfl)) hst
  | wait => exact absurd rfl acts

/-- A confirmation that goes through marks the claim's tickets with it. -/
theorem confirmClaim_cases (db : Db) (j : Uuid) (sig : Signature) (now : Nat) :
    confirmClaim db j sig now = db ∨
    status? (confirmClaim db j sig now) j = some .CONFIRMED ∧
      (confirmClaim db j sig now).tickets =
        Table.updateMany (fun t => boundTo j t && t.winStatus == .CLAIMED_ON_BASE)
          (fun t => { t with winStatus := .PAID_OUT_ON_SOLANA }) db.tickets := by
  by_cases guard : ((db.claim? j).isSome &&
      db.payoutClaims.all fun c => c.id == j || c.txSignature != some sig) = true
  · refine .inr ⟨?_, by rw [confirmClaim, if_pos guard]⟩
    obtain ⟨c, hc⟩ := Option.isSome_iff_exists.1 (Bool.and_eq_true_iff.1 guard).1
    have row : (confirmClaim db j sig now).claim? j = (db.claim? j).map fun c =>
        if c.id == j then { c with status := .CONFIRMED, confirmedAt := some now,
                                   txSignature := some sig, error := none } else c := by
      rw [confirmClaim, if_pos guard]
      exact Table.findUnique_updateMany PayoutClaim.id
        (f := fun c => { c with status := .CONFIRMED, confirmedAt := some now,
                                txSignature := some sig, error := none }) (fun _ => rfl) j
    rw [status?, row, hc, Option.map_some, Option.map_some,
      if_pos (beq_iff_eq.2 (Table.key_of_findUnique hc))]
  · exact .inl (by rw [confirmClaim, if_neg guard])

theorem PaidOut.resolve_tickets (h : PaidOut s) {j : Uuid} {now : Nat} {v : Verdict}
    (unconfirmed : v ≠ .wait → status? s.db j ≠ some .CONFIRMED) :
    ∀ t ∈ (resolve s.db j now v).tickets, StatusTrue (resolve s.db j now v) t := by
  have others : ∀ k, k ≠ j → status? (resolve s.db j now v) k = status? s.db k := by
    intro k hk
    rcases rowRule_resolve s.db j now v k with same | ⟨rfl, -⟩
    · rw [status?, same, status?]
    · exact absurd rfl hk
  have release : ∀ {st reason}, v ≠ .wait → resolve s.db j now v = releaseClaim s.db j st reason →
      ∀ t ∈ (resolve s.db j now v).tickets, StatusTrue (resolve s.db j now v) t := by
    intro st reason acts released
    by_cases found : (s.db.claim? j).isSome
    · refine h.unbind (unconfirmed acts) ?_ others
      rw [released, releaseClaim, if_pos found]
    · rw [released, releaseClaim, if_neg found]
      exact h.tickets
  cases v with
  | wait => exact h.tickets
  | neverSigned | expired => exact release (by simp) rfl
  | landed hit =>
    by_cases failed : hit.failed = true
    · exact release (by simp) (by rw [resolve, if_pos failed])
    rw [resolve, if_neg failed] at others ⊢
    rcases confirmClaim_cases s.db j hit.signature now with same | ⟨confirmed, tickets⟩
    · rw [same]
      exact h.tickets
    intro t' ht'
    rw [tickets] at ht'
    obtain ⟨t, ht, rfl⟩ := Table.mem_updateMany.1 ht'
    by_cases bound : t.payoutClaimId = some j
    · have claimed := (h.tickets t ht).unpaid bound (unconfirmed (by simp))
      have pays : (boundTo j t && t.winStatus == .CLAIMED_ON_BASE) = true := by
        rw [boundTo_eq_true.2 bound, claimed]
        rfl
      rw [if_pos pays, StatusTrue]
      simp only [bound, confirmed, if_true]
    · have free : ¬ (boundTo j t && t.winStatus == .CLAIMED_ON_BASE) = true := fun pays =>
        bound (boundTo_eq_true.1 (Bool.and_eq_true_iff.1 pays).1)
      rw [if_neg free]
      refine (h.tickets t ht).congr fun k hk => others k ?_
      rintro rfl
      exact bound hk

end Tickets

/-! ## Every run of safe steps -/

section Step

variable {s s' : State}

/-- Steps that resolve no claim and leave the ticket rows' statuses alone. -/
theorem PaidOut.frame (h : PaidOut s) (landed : ∀ l ∈ s.landed, l ∈ s'.landed)
    (claims : ∀ k c', s'.db.claim? k = some c' → c'.status = .CONFIRMED →
      ∃ c, s.db.claim? k = some c ∧ c.status = .CONFIRMED ∧ c'.txSignature = c.txSignature)
    (tickets : ∀ t ∈ s'.db.tickets, StatusTrue s'.db t) : PaidOut s' where
  own k c' hc' confirmed := by
    obtain ⟨c, hc, hst, hsig⟩ := claims k c' hc' confirmed
    obtain ⟨l, hl, hk, signature⟩ := h.own k c hc hst
    exact ⟨l, landed l hl, hk, hsig.trans signature⟩
  tickets := tickets

/-- A resolution confirms a claim by its own landing, or confirms none. -/
theorem PaidOut.resolve (b : Book s) (att : Attribution s) (dead : ReleasedDead s) (h : PaidOut s)
    {c : PayoutClaim} {cs : List PayoutClaim} {calledAt height : Nat} {landed : LandedClaims}
    {used : List Signature} (ht : s.tick = some (.resolving (c :: cs) calledAt landed used height))
    (ok : paySafe s (.tick (.resolveNext false)) = true) {tick : Option Tick} :
    PaidOut { s with db := resolve s.db c.id s.now (verdict landed used height s.now c), tick := tick } where
  own k c' hc' confirmed := by
    rcases rowRule_resolve s.db c.id s.now (verdict landed used height s.now c) k with
      same | ⟨rfl, row, row', -, hr', -, res⟩
    · exact h.own k c' (same.symm.trans hc') confirmed
    · rw [hr'] at hc'
      cases hc'
      rcases res with ⟨hit, hv, -, -, hsig⟩ | ⟨-, -, -, hst, -⟩ | ⟨-, hst, -⟩
      · obtain ⟨l, hl, hk, rfl⟩ := h.hit_own b att dead ht (verdict_landed hv)
        exact ⟨l, hl, hk, hsig⟩
      · cases hst.symm.trans confirmed
      · cases hst.symm.trans confirmed
  tickets := h.resolve_tickets fun acts => h.resolving b att ht ok acts

theorem PaidOut.step {a : Action} (b : Book s) (att : Attribution s) (dead : ReleasedDead s)
    (bound : Bound s) (h : PaidOut s) (ok : paySafe s a = true) (hs : Payout.step s a = some s') :
    PaidOut s' := by
  have still : s'.db.payoutClaims = s.db.payoutClaims → (∀ l ∈ s.landed, l ∈ s'.landed) →
      (∀ t ∈ s'.db.tickets, StatusTrue s.db t) → PaidOut s' := by
    intro same landed tickets
    have lookup : ∀ k, s'.db.claim? k = s.db.claim? k := fun k => by rw [Db.claim?, Db.claim?, same]
    refine h.frame landed (fun k c hc confirmed => ⟨c, lookup k ▸ hc, confirmed, rfl⟩) fun t ht => ?_
    exact (tickets t ht).congr fun k _ => by rw [status?, lookup, status?]
  cases a with
  | route i act =>
    obtain ⟨r, db, r', handed, hr, hstep, rfl⟩ := step_route hs
    refine h.frame (fun _ hl => hl) (fun k c' hc' confirmed => ?_) (h.route_tickets b bound hr hstep)
    rcases (routeStep_spec hstep).resolution k c' hc' with ⟨c, hc, hst, hsig⟩ | ⟨-, hst, -⟩
    · exact ⟨c, hc, hst.symm.trans confirmed, hsig⟩
    · cases hst.symm.trans confirmed
  | tick act =>
    obtain ⟨db, tick, rfl, rfl | ⟨c, cs, calledAt, landed, used, height, ht, rfl, rfl⟩⟩ :=
      tickStep_frame hs
    · exact still rfl (fun _ hl => hl) h.tickets
    · exact h.resolve b att dead ht ok
  | land v sig slot bt =>
    obtain ⟨-, -, -, -, -, p, rfl⟩ := step_land hs
    exact still rfl (fun _ hl => List.mem_cons_of_mem _ hl) h.tickets
  | harvest batchId txHash =>
    cases hs
    refine still rfl (fun _ hl => hl) fun t' ht' => ?_
    obtain ⟨t, ht, rfl⟩ := Table.mem_updateMany.1 ht'
    split
    · rename_i won
      have rule := h.tickets t ht
      unfold StatusTrue at rule ⊢
      cases bound : t.payoutClaimId with
      | none => exact WinStatus.noConfusion
      | some k =>
        -- a bound ticket is no longer won
        have won := (Bool.and_eq_true_iff.1 won).2
        simp only [bound] at rule
        rw [Harvest.harvestable, rule] at won
        split at won <;> cases won
    · exact h.tickets t ht
  | epoch r =>
    cases hs
    refine still (upsertSettledEpoch_payoutClaims ..) (fun _ hl => hl) fun t ht => h.tickets t ?_
    rwa [upsertSettledEpoch_tickets] at ht
  | request w => cases hs; exact still rfl (fun _ hl => hl) h.tickets
  | clock ms => cases hs; exact still rfl (fun _ hl => hl) h.tickets
  | blocks n => cases hs; exact still rfl (fun _ hl => hl) h.tickets
  | program p => cases hs; exact still rfl (fun _ hl => hl) h.tickets

end Step

/-! ## The sums -/

/-- The landed vouchers of a wallet whose claims are confirmed. -/
def confirmed (s : State) (w : Wallet) : List Landing :=
  s.landed.filter fun l => l.voucher.wallet == w && status? s.db l.voucher.claimId == some .CONFIRMED

section Sums

variable {s : State}

/-- What landed vouchers transferred, by the tickets they were for. -/
theorem sum_landings (b : Book s) (dead : ReleasedDead s) (h : Bound s) {p : Landing → Bool} :
    ((s.landed.filter p).map (·.voucher.amount)).sum = Table.sumWhere (fun t =>
      decide (∃ k ∈ (s.landed.filter p).map (·.voucher.claimId), t.payoutClaimId = some k))
        (·.winAmount) s.db.tickets := by
  have claims : ((s.landed.filter p).map (·.voucher.claimId)).Nodup := by
    refine List.Nodup.map_on (fun l hl l' hl' => ?_) ?_
    · exact landing_of_claim b (List.mem_filter.1 hl).1 (List.mem_filter.1 hl').1
    · exact (List.Nodup.of_map _ b.landedOnce).sublist List.filter_sublist
  rw [← Table.sum_by_key Ticket.payoutClaimId (·.winAmount) _ claims, List.map_map]
  refine congrArg List.sum (List.map_congr_left fun l hl => ?_)
  exact (congrArg Prod.fst (landing_bound b dead h (List.mem_filter.1 hl).1)).symm

/-- A ticket of a landed voucher's claim is the voucher's wallet's. -/
theorem buyer_of_landing (b : Book s) (h : Bound s) {l : Landing} (hl : l ∈ s.landed) {t : Ticket}
    (ht : t ∈ s.db.tickets) (bound : t.payoutClaimId = some l.voucher.claimId) :
    s.db.buyer? t = some l.voucher.wallet := by
  obtain ⟨i, hi, buyer⟩ := h.owners t ht _ bound
  obtain ⟨j, hj, wallet, -⟩ := b.voucherRow _ (b.landedHanded l hl)
  rw [hi] at hj
  cases hj
  rw [buyer, wallet]

/-- The tickets that count as paid out to a wallet are those of its confirmed claims. -/
theorem PaidOut.paid_iff (b : Book s) (bound : Bound s) (h : PaidOut s) (w : Wallet) {t : Ticket}
    (ht : t ∈ s.db.tickets) : t.winStatus = .PAID_OUT_ON_SOLANA ∧ s.db.buyer? t = some w ↔
      ∃ k ∈ (confirmed s w).map (·.voucher.claimId), t.payoutClaimId = some k := by
  have rule := h.tickets t ht
  constructor
  · rintro ⟨paid, buyer⟩
    unfold StatusTrue at rule
    cases claim : t.payoutClaimId with
    | none =>
      rw [claim] at rule
      exact absurd paid rule
    | some k =>
      simp only [claim] at rule
      have hk : status? s.db k = some .CONFIRMED := by
        by_contra hne
        rw [if_neg hne, paid] at rule
        cases rule
      obtain ⟨c, hc, hst⟩ := status?_eq_some.1 hk
      obtain ⟨l, hl, rfl, -⟩ := h.own k c hc hst
      have wallet := (buyer_of_landing b bound hl ht claim).symm.trans buyer
      refine ⟨_, List.mem_map_of_mem (List.mem_filter.2 ⟨hl, ?_⟩), rfl⟩
      rw [Option.some.inj wallet, hk, beq_self_eq_true, beq_self_eq_true]
      rfl
  · rintro ⟨k, hk, claim⟩
    obtain ⟨l, hl, rfl⟩ := List.mem_map.1 hk
    obtain ⟨hl, own⟩ := List.mem_filter.1 hl
    simp only [Bool.and_eq_true, beq_iff_eq] at own
    refine ⟨?_, (buyer_of_landing b bound hl ht claim).trans (congrArg some own.1)⟩
    rw [StatusTrue, claim] at rule
    exact rule.trans (if_pos own.2)

end Sums

/-- The database is true to the chain about a wallet. -/
structure PaymentsTrue (s : State) (w : Wallet) : Prop where
  /-- What counts as paid out is what the vouchers of the confirmed claims transferred. -/
  paidOut : Table.sumWhere (fun t => t.winStatus == .PAID_OUT_ON_SOLANA && s.db.buyer? t == some w)
    (·.winAmount) s.db.tickets = ((confirmed s w).map (·.voucher.amount)).sum
  /-- What is claimable has not been transferred. -/
  claimable : ∀ epochs, Table.sumWhere (Payout.claimable s.db w epochs) (·.winAmount) s.db.tickets +
    transferred s w ≤ winnings s w

theorem PaidOut.paymentsTrue {s : State} (b : Book s) (dead : ReleasedDead s) (bound : Bound s)
    (h : PaidOut s) (w : Wallet) : PaymentsTrue s w where
  paidOut := by
    rw [confirmed, sum_landings b dead bound]
    refine congrArg (fun rows : List Ticket => (rows.map (·.winAmount)).sum)
      (List.filter_congr fun t ht => ?_)
    rw [Bool.eq_iff_iff, Bool.and_eq_true, beq_iff_eq, beq_iff_eq, decide_eq_true_eq]
    exact h.paid_iff b bound w ht
  claimable epochs := by
    rw [transferred, sum_landings b dead bound, Table.sumWhere_add]
    · refine Table.sumWhere_le fun t ht either => ?_
      rcases Bool.or_eq_true_iff.1 either with free | landed
      · rw [buyer?_of_claimable free, beq_self_eq_true]
      · obtain ⟨k, hk, claim⟩ := of_decide_eq_true landed
        obtain ⟨l, hl, rfl⟩ := List.mem_map.1 hk
        obtain ⟨hl, own⟩ := List.mem_filter.1 hl
        rw [buyer_of_landing b bound hl ht claim, beq_iff_eq.1 own, beq_self_eq_true]
    · intro t _ free landed
      obtain ⟨k, -, claim⟩ := of_decide_eq_true landed
      cases (claimable_unbound free).symm.trans claim

/-- What safe steps keep. -/
theorem paymentsTrue_of_paySafe {s : State}
    (h : unpaidMachine.ReachableBy (fun s a => paySafe s a = true) s) :
    PaidOut s ∧ ∀ w, PaymentsTrue s w := by
  have inv : (Book s ∧ Attribution s ∧ ReleasedDead s ∧ Bound s) ∧ PaidOut s := by
    refine h.invariant (I := fun s => (Book s ∧ Attribution s ∧ ReleasedDead s ∧ Bound s) ∧ PaidOut s) ?_ ?_
    · exact fun s hi => ⟨⟨.initial hi.toInitial, .initial hi.toInitial, .initial hi.toInitial,
        .initial hi.toInitial⟩, .initial hi⟩
    · rintro s a s' ⟨⟨b, att, dead, bound⟩, paid⟩ ok hs
      have twin := twinSafe_of_expirySafe (paySafe_iff.1 ok).2
      exact ⟨⟨b.step hs, att.step b twin hs, dead.step b att ok hs, bound.step b att hs⟩,
        paid.step b att dead bound ok hs⟩
  obtain ⟨⟨b, -, dead, bound⟩, paid⟩ := inv
  exact ⟨paid, fun w => paid.paymentsTrue b dead bound w⟩

end LordsPot.Payout
