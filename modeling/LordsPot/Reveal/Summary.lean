import LordsPot.Payout.Alone
import LordsPot.Payout.Grounds
import LordsPot.Payout.PaidOut
import LordsPot.Reveal.Routes

/-!
# What the summary says

`GET /summary` adds up ticket rows. In runs of safe steps its sums are true to the chain, and a
`POST /voucher` that nothing interrupts signs what the summary has just shown to be claimable.
-/

namespace LordsPot.Reveal

open Transition

/-- `relayOrder: { buyer: wallet }`, on either side of the lookup. -/
theorem any_buyer {db : Db} {w : Wallet} (t : Ticket) :
    (db.relayOrder? t).any (·.buyer == w) = (db.buyer? t == some w) := by
  rw [Db.buyer?]
  cases db.relayOrder? t <;> rfl

/-- **The summary is true to the chain** in every run of safe steps: what it says has been paid out is
what the landed vouchers of the wallet's confirmed claims have transferred, each under the signature its
claim has; and what it says is claimable is still to come, on top of all that has been transferred. -/
theorem summary_true {s : Payout.State}
    (h : Payout.unpaidMachine.ReachableBy (fun s a => Payout.paySafe s a = true) s) {w : Wallet}
    {claimableUsdc freeTickets totalPaidOutUsdc : Nat} {pendingVoucher : Option (Nat × Nat)}
    (answered : getSummary s.db s.now (some w) =
      .summary claimableUsdc freeTickets totalPaidOutUsdc pendingVoucher) :
    totalPaidOutUsdc = ((Payout.confirmed s w).map (·.voucher.amount)).sum ∧
    claimableUsdc + Payout.transferred s w ≤ Payout.winnings s w ∧
    ∀ k c, s.db.claim? k = some c → c.status = .CONFIRMED →
      ∃ l ∈ s.landed, l.voucher.claimId = k ∧ c.txSignature = some l.signature := by
  obtain ⟨paid, payments⟩ := Payout.paymentsTrue_of_paySafe h
  cases answered
  simp only [any_buyer]
  exact ⟨(payments w).paidOut, (payments w).claimable _, paid.own⟩

theorem summary_true_paid : ∃ s, getSummary s.db s.now (some "w") = .summary 0 0 100 none ∧
    100 = ((Payout.confirmed s "w").map (·.voucher.amount)).sum ∧
    0 + Payout.transferred s "w" ≤ Payout.winnings s "w" := by
  have start : Payout.unpaidMachine.init Payout.oneTicket := ⟨Payout.initial_oneTicket, by decide⟩
  obtain ⟨s, run, answered⟩ : ∃ s, Payout.unpaidMachine.runBy Payout.paySafe Payout.oneTicket
      (Payout.voucherFor 0 "A" ++ [.land ⟨"A", "w", "admin", 100, 2000, ["t"]⟩ "sig" 1 none] ++
        Payout.reportTick [⟨"w", 100, "sig", 1, none, false⟩]) = some s ∧
      getSummary s.db s.now (some "w") = .summary 0 0 100 none := ⟨_, rfl, rfl⟩
  have reached := Machine.ReachableBy.runBy (.start start) run
  exact ⟨s, answered, (summary_true reached answered).1, (summary_true reached answered).2.1⟩

/-! ## The voucher of what was shown -/

/-- What a handler that was alone answers with a status. -/
inductive Answered (s : Payout.State) (w : Wallet) (vouchers : List Payout.Voucher) : Nat → Answer → Prop where
  | reused {c : PayoutClaim} (existing : Payout.findExisting s.db w = some c) :
      Answered s w vouchers 200 (.reused c.id c.amountUsdc)
  | issued {v : Payout.Voucher} (handed : vouchers = s.vouchers ++ [v]) : Answered s w vouchers 201 (.issued v)
  | error {status : Nat} {text : String} (listed : status ∈ [404, 409, 500, 503]) :
      Answered s w vouchers status (.error status text)

section Serve

variable {s : Payout.State} {w : Wallet} {db db' : Db} {vouchers : List Payout.Voucher}
  {r r' : Payout.Request} {act : Payout.RouteAct} {handed : Option Payout.Voucher}

theorem listed_of_refused {status : Nat} (why : Payout.Refused s w status) :
    status ∈ [404, 409, 500, 503] := by
  unfold Payout.Refused at why
  split at why
  · decide
  · decide
  · rcases why with rfl | rfl <;> decide

/-- A step at which the handler does not end answers nothing. -/
theorem response_running
    (hs : Payout.routeStep s.now s.program s.adminKey db r act = some (db', r', handed))
    (running : ∀ status, r' ≠ .answered status) : response db r act = none := by
  unfold Payout.routeStep at hs
  split at hs
  case h_1 paused =>
    cases hs
    cases paused with
    | true => exact absurd rfl (running 503)
    | false => rfl
  case h_2 =>
    split at hs <;> cases hs
    · exact absurd rfl (running 200)
    · rename_i none
      simp only [response, none, Option.map_none]
  case h_10 =>
    cases hs
    exact absurd rfl (running 201)
  case h_12 status =>
    cases hs
    exact absurd rfl (running status)
  case h_13 => cases r <;> rfl
  case h_14 => cases hs
  all_goals rfl

/-- The step at which it ends answers what its status says. -/
theorem response_answered {status : Nat} (alone : Payout.Alone s w db vouchers r)
    (hs : Payout.routeStep s.now s.program s.adminKey db r act = some (db', .answered status, handed)) :
    ∃ answer, response db r act = some answer ∧
      Answered s w (vouchers ++ handed.toList) status answer := by
  unfold Payout.routeStep at hs
  split at hs
  case h_1 paused =>
    cases paused <;> cases hs
    exact ⟨_, rfl, .error (by decide)⟩
  case h_2 =>
    cases alone
    split at hs <;> cases hs
    rename_i c existing
    exact ⟨.reused c.id c.amountUsdc, by rw [response, existing]; rfl, .reused existing⟩
  case h_10 =>
    cases alone
    cases hs
    exact ⟨_, rfl, .issued rfl⟩
  case h_12 =>
    cases hs
    refine ⟨_, rfl, .error ?_⟩
    cases alone with
    | emptied fresh why => exact listed_of_refused why
    | deleting fresh why => exact listed_of_refused why
  all_goals repeat' split at hs
  all_goals cases hs

/-- A handler that has ended can only crash. -/
theorem ended_stays {i : Nat} {t t' : Payout.State} {acts : List Payout.RouteAct} {status : Nat}
    (ended : (∃ st, t.requests[i]? = some (.answered st)) ∨ t.requests[i]? = some .crashed)
    (run : Payout.machine.run t (acts.map (.route i)) = some t')
    (there : t'.requests[i]? = some (.answered status)) : acts = [] := by
  induction acts generalizing t with
  | nil => rfl
  | cons act acts ih =>
    obtain ⟨next, moved, rest⟩ := Machine.run_cons.1 run
    obtain ⟨r, db, r', handed, hr, hs, rfl⟩ := Payout.step_route moved
    have crashed : r' = .crashed := by
      rcases ended with ⟨st, here⟩ | here
      all_goals
        rw [here] at hr
        cases hr
        cases act <;> cases hs
        rfl
    have after : ({ t with db := db, requests := t.requests.set i r',
                           vouchers := t.vouchers ++ handed.toList } : Payout.State).requests[i]? =
        some .crashed := by
      rw [← crashed]
      exact List.getElem?_set_self (List.getElem?_eq_some_iff.1 hr).1
    obtain rfl := ih (.inr after) rest
    cases rest
    cases after.symm.trans there

/-- **The answer** of a handler that was alone to its end. -/
theorem serve_run {t s' : Payout.State} (keys : Payout.ForeignKey s.db) {i : Nat} {acts : List Payout.RouteAct}
    (clock : t.now = s.now) (program : t.program = s.program) (key : t.adminKey = s.adminKey)
    (here : t.requests[i]? = some r) (running : ∀ status, r ≠ .answered status)
    (alone : Payout.Alone s w t.db t.vouchers r)
    (run : Payout.machine.run t (acts.map (.route i)) = some s') {status : Nat}
    (there : s'.requests[i]? = some (.answered status)) :
    ∃ answer, serve s.now s.program s.adminKey t.db r acts = some [answer] ∧
      Answered s w s'.vouchers status answer := by
  induction acts generalizing t r with
  | nil =>
    cases run
    rw [here] at there
    cases there
    exact absurd rfl (running status)
  | cons act acts ih =>
    obtain ⟨t', moved, rest⟩ := Machine.run_cons.1 run
    obtain ⟨r₀, db, r', handed, hr, hs, rfl⟩ := Payout.step_route moved
    rw [here] at hr
    cases hr
    rw [clock, program, key] at hs
    obtain ⟨t', is⟩ : ∃ t', t' = ({ t with db := db, requests := t.requests.set i r',
                                           vouchers := t.vouchers ++ handed.toList } : Payout.State) :=
      ⟨_, rfl⟩
    rw [← is] at rest
    have next : t'.requests[i]? = some r' := by
      rw [is]
      exact List.getElem?_set_self (List.getElem?_eq_some_iff.1 here).1
    by_cases ends : ∃ st, r' = .answered st
    · obtain ⟨st, rfl⟩ := ends
      obtain rfl := ended_stays (.inl ⟨st, next⟩) rest there
      cases rest
      cases next.symm.trans there
      obtain ⟨answer, said, told⟩ := response_answered alone hs
      exact ⟨answer, by rw [serve, hs, said]; rfl, is ▸ told⟩
    · have going : ∀ st, r' ≠ .answered st := fun st same => ends ⟨st, same⟩
      obtain ⟨answer, said, told⟩ := ih (is ▸ clock) (is ▸ program) (is ▸ key) next going
        (is ▸ alone.step keys hs) rest
      rw [is] at said
      exact ⟨answer, by rw [serve, hs, response_running hs going]; simpa using said, told⟩

end Serve

/-- What a `POST /voucher` that nothing interrupts comes to and answers, by what the summary has just
shown. -/
inductive Foretold (s s' : Payout.State) (w : Wallet) (claimableUsdc : Nat)
    (pendingVoucher : Option (Nat × Nat)) : Nat → Answer → Prop where
  /-- A voucher of the very amount. -/
  | issued (v : Payout.Voucher) (handed : s'.vouchers = s.vouchers ++ [v]) (wallet : v.wallet = w)
      (amount : v.amount = claimableUsdc) (positive : 0 < claimableUsdc)
      (within : claimableUsdc ≤ s.program.maxClaimAmount) :
      Foretold s s' w claimableUsdc pendingVoucher 201 (.issued v)
  /-- The wallet's live voucher is named and stays the only one. The summary has shown a pending row of
  the wallet: this one, or one that no handler has stamped. -/
  | reused (c shown : PayoutClaim) (mem : c ∈ s.db.payoutClaims) (wallet : c.wallet = w)
      (live : Payout.live c = true) (listed : shown ∈ s.db.payoutClaims) (own : shown.wallet = w)
      (pending : shown.status = .PENDING)
      (seen : pendingVoucher = some (shown.amountUsdc, shown.createdAt))
      (same : shown = c ∨ shown.lastValidBlockHeight = none)
      (unchanged : s'.db = s.db) (none : s'.vouchers = s.vouchers) :
      Foretold s s' w claimableUsdc pendingVoucher 200 (.reused c.id c.amountUsdc)
  /-- Nothing is handed out and the tables are as before; 404 and 409 have their grounds in the amount. -/
  | refused {status : Nat} (text : String) (listed : status ∈ [404, 409, 500, 503])
      (restored : Payout.Restored s s'.db) (none : s'.vouchers = s.vouchers)
      (empty : status = 404 → claimableUsdc = 0)
      (above : status = 409 → s.program.maxClaimAmount < claimableUsdc) :
      Foretold s s' w claimableUsdc pendingVoucher status (.error status text)

/-- The first row of a weaker kind is the first of a stronger one, or is not of that. -/
theorem find?_weaker {α : Type} {p q : α → Bool} (weaker : ∀ x, p x = true → q x = true) {xs : List α} {c : α}
    (found : xs.find? p = some c) : ∃ x, xs.find? q = some x ∧ (x = c ∨ p x = false) := by
  induction xs with
  | nil => cases found
  | cons x xs ih =>
    cases strong : p x with
    | true =>
      rw [List.find?_cons_of_pos strong] at found
      exact ⟨x, List.find?_cons_of_pos (weaker x strong), .inl (Option.some.inj found)⟩
    | false =>
      rw [List.find?_cons_of_neg (Bool.eq_false_iff.1 strong)] at found
      cases weak : q x with
      | true => exact ⟨x, List.find?_cons_of_pos weak, .inr strong⟩
      | false =>
        rw [List.find?_cons_of_neg (Bool.eq_false_iff.1 weak)]
        exact ih found

/-- The first pending row is the first live one, or is not stamped. -/
theorem shown_of_existing {db : Db} {w : Wallet} {c : PayoutClaim}
    (existing : Payout.findExisting db w = some c) :
    ∃ shown, (db.payoutClaims.find? fun c => c.wallet == w && c.status == .PENDING) = some shown ∧
      (shown = c ∨ shown.lastValidBlockHeight = none) := by
  obtain ⟨shown, found, same⟩ : ∃ shown,
      (db.payoutClaims.find? fun c => c.wallet == w && c.status == .PENDING) = some shown ∧
        (shown = c ∨ (shown.wallet == w && Payout.live shown) = false) := find?_weaker (fun row live => by
      simp only [Payout.live, Bool.and_eq_true] at live ⊢
      exact ⟨live.1, live.2.1⟩) existing
  refine ⟨shown, found, same.imp_right fun unstamped => ?_⟩
  have pending := List.find?_some found
  simp only [Bool.and_eq_true] at pending
  simpa [Payout.live, pending.1, pending.2] using unstamped

/-- A claim that a crashed handler has left without a stamp, and a live voucher. -/
def crashedAndLive : Db where
  payoutClaims := [{ id := "A", wallet := "w", createdAt := 5 },
    { id := "B", wallet := "w", createdAt := 6, amountUsdc := 100, lastValidBlockHeight := some 2000 }]

/-- The summary shows the one, and the other is named. -/
example : getSummary crashedAndLive 10 (some "w") = .summary 0 0 0 (some (0, 5)) ∧
    postVoucher Payout.oneTicket.program "admin" crashedAndLive 10 (some "w") [.gate false, .findExisting] =
      some [.reused "B" 100] := ⟨rfl, rfl⟩

end LordsPot.Reveal
