import LordsPot.Payout.Held

/-!
# Double payment

Winnings are paid at most once as long as a handler stamps only claims that are still
pending and makes no twin of a live claim. The route checks neither: its last write names
the claim by id alone, so a handler delayed past the unsigned grace hands out a voucher
for tickets that were given back and bound again.
-/

namespace LordsPot.Payout

open Transition

/-- What landed vouchers transferred to a wallet. -/
def transferred (s : State) (w : Wallet) : Nat :=
  ((s.landed.filter (·.voucher.wallet == w)).map (·.voucher.amount)).sum

/-- What a wallet's tickets have won. -/
def winnings (s : State) (w : Wallet) : Nat :=
  Table.sumWhere (fun t => s.db.buyer? t == some w) (·.winAmount) s.db.tickets

/-- No wallet is paid more than its tickets won, and no ticket counts in two landed vouchers. -/
structure NoDoublePayment (s : State) : Prop where
  total : ∀ w, transferred s w ≤ winnings s w
  apart : ∀ l ∈ s.landed, ∀ l' ∈ s.landed, l ≠ l' → ∀ t ∈ l.voucher.tickets, t ∉ l'.voucher.tickets

/-- The handler is not about to stamp a claim that is no longer pending, or a twin. -/
def stampSafe (s : State) (a : Action) : Bool :=
  (stamping s a).all fun v => status? s.db v.claimId == some .PENDING && !twinLive s.db v

/-- Safe steps of the fine machine: a safe stamp, a safe expiry. -/
def paySafe (s : State) (a : Action) : Bool := stampSafe s a && expirySafe s a

theorem paySafe_iff {s : State} {a : Action} :
    paySafe s a = true ↔ stampSafe s a = true ∧ expirySafe s a = true := by
  rw [paySafe, Bool.and_eq_true]

/-! ## Released claims are dead -/

def ReleasedDead (s : State) : Prop :=
  ∀ k c, s.db.claim? k = some c → c.lastValidBlockHeight ≠ none → Released c.status → Dead k s

theorem ReleasedDead.initial {s : State} (h : Initial s) : ReleasedDead s := by
  intro k c hc
  rw [Db.claim?, h.noClaims] at hc
  cases hc

/-- Only a stamp gives a claim its block height. -/
theorem stamp_of_step {s s' : State} {a : Action} (hs : step s a = some s') {k : Uuid}
    {c' : PayoutClaim} (hc' : s'.db.claim? k = some c') (hl : c'.lastValidBlockHeight ≠ none)
    (before : ∀ c, s.db.claim? k = some c → c.lastValidBlockHeight = none) :
    ∃ i v c, a = .route i (.stamp false) ∧ s.requests[i]? = some (.built v) ∧ v.claimId = k ∧
      s.db.claim? k = some c ∧ c'.status = c.status := by
  have unchanged : s'.db.claim? k = s.db.claim? k → False := fun same =>
    hl (before c' (same ▸ hc'))
  cases a with
  | route i act =>
    obtain ⟨r, db, r', handed, hr, hstep, rfl⟩ := step_route hs
    have spec := routeStep_spec hstep
    have hi : issue? db k = some (issue c') := by rw [issue?, hc']; rfl
    rcases spec.issued k _ hi with old | ⟨-, w, he⟩ | ⟨v, j, rfl, rfl, hk, hj, he⟩
    · obtain ⟨c, hc, he⟩ := issue?_eq_some.1 old
      exact absurd ((congrArg Issue.lastValidBlockHeight he).symm.trans (before c hc)) hl
    · exact absurd (congrArg Issue.lastValidBlockHeight he) hl
    · obtain ⟨c, hc, -⟩ := issue?_eq_some.1 hj
      rcases spec.resolution k c' hc' with ⟨c₀, hc₀, hst, -⟩ | ⟨hn, -⟩
      · rw [hc] at hc₀
        cases hc₀
        exact ⟨i, v, c, rfl, hr, hk, hc, hst⟩
      · rw [hc] at hn
        cases hn
  | tick act =>
    obtain ⟨db, tick, rfl, rfl | ⟨c₀, cs, calledAt, landed, used, height, ht, rfl, rfl⟩⟩ :=
      tickStep_frame hs
    · exact (unchanged rfl).elim
    · rcases rowRule_resolve s.db c₀.id s.now (verdict landed used height s.now c₀) k with
        same | ⟨-, row, row', hr, hr', hi, -⟩
      · exact (unchanged same).elim
      · rw [hr'] at hc'
        cases hc'
        exact absurd ((congrArg Issue.lastValidBlockHeight hi).trans (before row hr)) hl
  | land v sig slot bt =>
    obtain ⟨-, -, -, -, -, p, rfl⟩ := step_land hs
    exact (unchanged rfl).elim
  | epoch r =>
    cases hs
    refine (unchanged ?_).elim
    rw [Db.claim?, upsertSettledEpoch_payoutClaims]
    rfl
  | request w => cases hs; exact (unchanged rfl).elim
  | clock ms => cases hs; exact (unchanged rfl).elim
  | blocks n => cases hs; exact (unchanged rfl).elim
  | program p => cases hs; exact (unchanged rfl).elim
  | harvest batchId txHash => cases hs; exact (unchanged rfl).elim

/-- A stamped claim is resolved by the confirmer as landed, or as dead. -/
theorem dead_of_released {s s' : State} (b : Book s) (att : Attribution s) {c : PayoutClaim}
    {cs : List PayoutClaim} {calledAt height : Nat} {landed : LandedClaims} {used : List Signature}
    (hs : step s (.tick (.resolveNext false)) = some s')
    (ht : s.tick = some (.resolving (c :: cs) calledAt landed used height))
    (ok : expirySafe s (.tick (.resolveNext false)) = true) {row row' : PayoutClaim}
    (hr : s.db.claim? c.id = some row) (hl : row.lastValidBlockHeight ≠ none)
    (res : Resolved (verdict landed used height s.now c) row row') (released : Released row'.status) :
    Dead c.id s' := by
  simp only [expirySafe, ht] at ok
  rcases res with ⟨-, -, -, hst, -⟩ | ⟨hit, hv, hf, -, -⟩ | ⟨hv | hv, -, -⟩
  · exact absurd hst released.2
  · obtain ⟨⟨-, evidence, -⟩, -⟩ := att.tick _ ht
    obtain ⟨l, -, rfl⟩ := evidence.real hit (findHit_eq_some (verdict_landed hv)).1
    cases hf
  · rw [hv] at ok
    exact absurd (of_decide_eq_true ok (issue row) (by rw [issue?, hr]; rfl)) hl
  · rw [hv] at ok
    exact dead_of_expired b att hs ht hv (of_decide_eq_true ok)

theorem ReleasedDead.step {s s' : State} {a : Action} (b : Book s) (att : Attribution s)
    (h : ReleasedDead s) (ok : paySafe s a = true) (hs : step s a = some s') : ReleasedDead s' := by
  obtain ⟨hstamp, hexpiry⟩ := paySafe_iff.1 ok
  intro k c' hc' hl released
  by_cases before : ∃ c, s.db.claim? k = some c ∧ c.lastValidBlockHeight ≠ none
  · obtain ⟨c, hc, hlc⟩ := before
    rcases stamped_step b hs hc hlc with
      same | ⟨c₀, cs, calledAt, landed, used, height, rfl, ht, rfl, c'', hc'', -, res⟩
    · rw [same] at hc'
      cases hc'
      exact (h k _ hc hlc released).step hs
    · rw [hc''] at hc'
      cases hc'
      exact dead_of_released b att hs ht hexpiry hc hlc res released
  · obtain ⟨i, v, c, rfl, hr, rfl, hc, hst⟩ := stamp_of_step hs hc' hl fun c hc => by
      by_contra hne
      exact before ⟨c, hc, hne⟩
    simp only [stampSafe, stamping, hr, Option.all_some, Bool.and_eq_true, beq_iff_eq] at hstamp
    rw [status?, hc] at hstamp
    exact absurd (hst.trans (Option.some.inj hstamp.1)) released.1

/-! ## The payment -/

/-- What a landed voucher was paid for is what its claim's tickets have won. -/
theorem landing_bound {s : State} (b : Book s) (dead : ReleasedDead s) (h : Bound s) {l : Landing}
    (hl : l ∈ s.landed) : boundRows s.db l.voucher.claimId = (l.voucher.amount, l.voucher.tickets) := by
  have hv := b.landedHanded l hl
  obtain ⟨i, hi, ha⟩ := b.voucherRow _ hv
  obtain ⟨c, hc, rfl⟩ := issue?_eq_some.1 hi
  refine h.held _ _ _ c (.inr ⟨_, hv, rfl, rfl, rfl⟩) hc fun released => ?_
  have stamped : c.lastValidBlockHeight ≠ none := by
    rw [show c.lastValidBlockHeight = _ from ha.2.1]
    exact Option.some_ne_none _
  exact (dead _ c hc stamped released).notLanded l hl rfl

/-- Landings of one claim are one landing. -/
theorem landing_of_claim {s : State} (b : Book s) {l l' : Landing} (hl : l ∈ s.landed)
    (hl' : l' ∈ s.landed) (hk : l.voucher.claimId = l'.voucher.claimId) : l = l' := by
  have same : l.voucher = l'.voucher :=
    List.inj_on_of_nodup_map b.voucherIds (b.landedHanded l hl) (b.landedHanded l' hl') hk
  exact List.inj_on_of_nodup_map b.landedOnce hl hl' same

theorem noDoublePayment_of_bound {s : State} (b : Book s) (dead : ReleasedDead s) (h : Bound s) :
    NoDoublePayment s := by
  refine ⟨fun w => ?_, fun l hl l' hl' hne t ht ht' => hne ?_⟩
  · let mine := s.landed.filter (·.voucher.wallet == w)
    have mem : ∀ l ∈ mine, l ∈ s.landed ∧ l.voucher.wallet = w := fun l hl => by
      simpa [mine] using hl
    have claims : (mine.map (·.voucher.claimId)).Nodup := by
      refine List.Nodup.map_on (fun l hl l' hl' => ?_) ?_
      · exact landing_of_claim b (mem l hl).1 (mem l' hl').1
      · exact (List.Nodup.of_map _ b.landedOnce).sublist List.filter_sublist
    calc transferred s w
        = (mine.map fun l => boundSum s.db l.voucher.claimId).sum := by
          refine congrArg List.sum (List.map_congr_left fun l hl => ?_)
          exact (congrArg Prod.fst (landing_bound b dead h (mem l hl).1)).symm
      _ = ((mine.map (·.voucher.claimId)).map (boundSum s.db)).sum := by rw [List.map_map]; rfl
      _ ≤ winnings s w := by
          refine Table.sum_by_key_le Ticket.payoutClaimId Ticket.winAmount _ _ claims fun t ht k hk hb => ?_
          obtain ⟨l, hl, rfl⟩ := List.mem_map.1 hk
          obtain ⟨i, hi, hbuyer⟩ := h.owners t ht _ hb
          obtain ⟨j, hj, ha⟩ := b.voucherRow _ (b.landedHanded l (mem l hl).1)
          rw [hi] at hj
          cases hj
          rw [hbuyer, ha.1, (mem l hl).2]
          exact beq_self_eq_true _
  · have bound : ∀ l ∈ s.landed, t ∈ l.voucher.tickets →
        ∃ row ∈ s.db.tickets, row.id = t ∧ row.payoutClaimId = some l.voucher.claimId := by
      intro l hl ht
      have ids : boundIds s.db l.voucher.claimId = l.voucher.tickets :=
        congrArg Prod.snd (landing_bound b dead h hl)
      rw [← ids] at ht
      obtain ⟨row, hrow, rfl⟩ := List.mem_map.1 ht
      obtain ⟨hrow, hb⟩ := List.mem_filter.1 hrow
      exact ⟨row, hrow, rfl, boundTo_eq_true.1 hb⟩
    obtain ⟨row, hrow, hid, hb⟩ := bound l hl ht
    obtain ⟨row', hrow', hid', hb'⟩ := bound l' hl' ht'
    obtain rfl := List.inj_on_of_nodup_map h.ticketIds hrow hrow' (hid.trans hid'.symm)
    rw [hb] at hb'
    exact landing_of_claim b hl hl' (Option.some.inj hb')

/-- The fine machine pays once in every run of safe steps. -/
theorem noDoublePayment_of_paySafe {s : State}
    (h : machine.ReachableBy (fun s a => paySafe s a = true) s) : NoDoublePayment s := by
  have inv : Book s ∧ Attribution s ∧ ReleasedDead s ∧ Bound s := by
    refine h.invariant (I := fun s => Book s ∧ Attribution s ∧ ReleasedDead s ∧ Bound s) ?_ ?_
    · exact fun s hi => ⟨.initial hi, .initial hi, .initial hi, .initial hi⟩
    · rintro s a s' ⟨b, att, dead, bound⟩ ok hs
      have twin := twinSafe_of_expirySafe (paySafe_iff.1 ok).2
      exact ⟨b.step hs, att.step b twin hs, dead.step b att ok hs, bound.step b att hs⟩
  exact noDoublePayment_of_bound inv.1 inv.2.2.1 inv.2.2.2

/-! ## Atomic ticks are safe -/

/-- A tick that nothing interrupts: the chain stands still and the rows are as read. -/
def FreshTick (s : State) : Tick → Prop
  | .pendingRead pending => ∀ c ∈ pending, issue? s.db c.id = some (issue c)
  | .sweeping pending _ calledAt _ | .swept pending calledAt _ | .usedRead pending calledAt _ _ =>
      calledAt = s.height ∧ ∀ c ∈ pending, issue? s.db c.id = some (issue c)
  | .resolving pending calledAt _ _ height =>
      (calledAt = s.height ∧ ∀ c ∈ pending, issue? s.db c.id = some (issue c)) ∧ height ≤ s.height

def Fresh (s : State) : Prop := ∀ t, s.tick = some t → FreshTick s t

theorem Fresh.tickStep {s s' : State} {act : TickAct} (b : Book s) (h : Fresh s)
    (hs : tickStep s s.tick act = some s') : Fresh s' := by
  cases tickMove hs with
  | idle => exact h
  | read here pending =>
    intro t ht
    cases ht
    intro c₁ hc₁
    have hmem := (mem_findPending.1 (pending ▸ hc₁)).1
    rw [issue?, Db.claim?, Table.findUnique_of_mem b.ids hmem]
    rfl
  | call here =>
    intro t he
    cases he
    exact ⟨rfl, h _ here⟩
  | answer here | used here =>
    intro t he
    cases he
    exact h _ here
  | noAnswer | crash => exact fun t he => by cases he
  | height here reached =>
    intro t he
    cases he
    exact ⟨h _ here, reached⟩
  | @resolve c cs calledAt height r used fails here =>
    intro t he
    obtain ⟨⟨hcalled, rows⟩, hheight⟩ := h _ here
    cases cs with
    | nil => cases he
    | cons c₁ cs =>
      cases he
      refine ⟨⟨hcalled, fun c₂ hc₂ => ?_⟩, hheight⟩
      have row := rows c₂ (List.mem_cons_of_mem _ hc₂)
      cases fails with
      | true => exact row
      | false => exact (issue?_resolve ..).trans row

/-- An uninterrupted tick expires only what was behind the chain at its sweep. -/
theorem Fresh.paySafe {s : State} (h : Fresh s) (act : TickAct) : paySafe s (.tick act) = true := by
  refine paySafe_iff.2 ⟨rfl, ?_⟩
  unfold expirySafe
  split
  · rename_i he
    split
    · rename_i c cs calledAt landed used height ht
      obtain ⟨⟨rfl, rows⟩, hheight⟩ := h _ ht
      have row := rows c List.mem_cons_self
      split
      · rename_i hv
        obtain ⟨-, -, l, hl, hpast⟩ := verdict_expired hv
        rw [decide_eq_true_eq, hl]
        rintro l' ⟨⟩
        omega
      · rename_i hv
        rw [decide_eq_true_eq, row]
        rintro i ⟨⟩
        unfold verdict at hv
        split at hv
        · cases hv
        · split at hv
          · rename_i hn
            exact hn
          · split at hv <;> cases hv
      · rfl
    · rfl
  · rfl

/-- **A whole tick is safe**, and leaves the tick fresh or finished. -/
theorem wholeTick_paySafe {acts : List TickAct} {s s' : State}
    (h : machine.ReachableBy (fun s a => Payout.paySafe s a = true) s) (fresh : Fresh s)
    (hr : machine.run s (acts.map .tick) = some s') :
    machine.ReachableBy (fun s a => Payout.paySafe s a = true) s' := by
  induction acts generalizing s with
  | nil => cases hr; exact h
  | cons act acts ih =>
    obtain ⟨t, ht, hr⟩ := Machine.run_cons.1 hr
    exact ih (.next h (fresh.paySafe act) ht) (fresh.tickStep (Book.of_reachable h) ht) hr

theorem twinSafe_of_stampSafe {s : State} {a : Action} (h : stampSafe s a = true) :
    twinSafe s a = true := by
  unfold stampSafe at h
  unfold twinSafe
  cases hv : stamping s a with
  | none => rfl
  | some v =>
    rw [hv, Option.all_some, Bool.and_eq_true] at h
    rw [Option.all_some, h.2, Bool.or_true]

/-- With no tick under way nothing expires. -/
theorem expirySafe_of_idle {s : State} {a : Action} (idle : s.tick = none)
    (h : twinSafe s a = true) : expirySafe s a = true := by
  unfold expirySafe
  split
  · rw [idle]
  · exact h

/-- The condition on a run of the machine with atomic ticks. -/
def blockSafe (s : State) : Block → Bool
  | .single a => stampSafe s a
  | .wholeTick _ => true

/-- **Winnings are paid once** in every run in which each handler stamps only a claim that
is still pending and has no live twin. -/
theorem no_double_payment {s : State}
    (h : tickMachine.ReachableBy (fun s b => blockSafe s b = true) s) : NoDoublePayment s := by
  refine noDoublePayment_of_paySafe (Machine.ReachableBy.of_blocks (J := fun s => s.tick = none)
    (fun s (hi : Initial s) => hi.noTick) (fun s b s' hr idle ok run closed => ?_) h).1
  have fresh : Fresh s := fun t ht => by
    rw [idle] at ht
    cases ht
  refine ⟨?_, Option.isNone_iff_eq_none.1 closed⟩
  cases b with
  | wholeTick acts => exact wholeTick_paySafe hr fresh run
  | single a =>
    obtain ⟨t, ht, hnil⟩ := Machine.run_cons.1 run
    cases hnil
    have safe := expirySafe_of_idle idle (twinSafe_of_stampSafe ok)
    exact .next hr (paySafe_iff.2 ⟨ok, safe⟩) ht

/-- Handler `i` takes these steps with nothing in between. -/
def handler (i : Nat) (acts : List RouteAct) : List Block := acts.map fun act => .single (.route i act)

/-- The first handler stops before it builds its voucher, and the unsigned grace passes. -/
def stall : List Block :=
  .single (.request "w") ::
    handler 0 [.gate false, .findExisting, .readRevealed, .create "A", .bind, .sum, .ceiling true] ++
    [.single (.clock 200000), .wholeTick [.readPending, .callSweep, .sweepReturns ⟨[], true⟩,
      .readUsed, .readHeight 1000, .resolveNext false]]

/-- The second handler binds the released ticket again and hands out its voucher. -/
def second : List Block :=
  .single (.request "w") ::
    handler 1 [.gate false, .findExisting, .readRevealed, .create "B", .bind, .sum, .ceiling true,
      .build (some 1150), .stamp false, .handOut]

/-- The stalled handler goes on: its stamp does not see that its claim was released, both
vouchers land, and the ticket is paid twice. -/
theorem double_payment : ¬ ∀ s, tickMachine.Reachable s → NoDoublePayment s := by
  intro all
  obtain ⟨s, hs, hp⟩ := Machine.exists_reachable_of_run (M := tickMachine) initial_oneTicket
    (stall ++ second ++ handler 0 [.build (some 1151), .stamp false, .handOut] ++
      [.single (.land ⟨"B", "w", "admin", 100, 1150, ["t"]⟩ "sigB" 1 none),
       .single (.land ⟨"A", "w", "admin", 100, 1151, ["t"]⟩ "sigA" 2 none)])
    (fun s => transferred s "w" == 200 && winnings s "w" == 100) (by decide)
  simp only [Bool.and_eq_true, beq_iff_eq] at hp
  have := (all s hs).total "w"
  omega

/-- The same schedule without the last stamp: one voucher lands and 100 is paid. -/
theorem no_double_payment_stalled : ∃ s, transferred s "w" = 100 ∧ NoDoublePayment s := by
  obtain ⟨s, hs, hp⟩ := Machine.exists_reachableBy_of_runBy (M := tickMachine) blockSafe
    initial_oneTicket
    (stall ++ second ++ handler 0 [.build none] ++
      [.single (.land ⟨"B", "w", "admin", 100, 1150, ["t"]⟩ "sigB" 1 none)])
    (fun s => transferred s "w" == 100) (by decide)
  exact ⟨s, beq_iff_eq.1 hp, no_double_payment hs⟩

end LordsPot.Payout
