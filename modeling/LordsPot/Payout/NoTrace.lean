import LordsPot.Payout.Remains

/-!
# Failed requests leave no trace

An error answer follows the cleanup of the request's two tables. A handler that has crashed is cleaned
up after by a tick of the confirmer that opens later and is past the claim.
-/

namespace LordsPot.Payout

open Transition

/-- Nothing is left of a claim: no pending row, no ticket bound to it, and the tickets that it took
last are free and harvested still. -/
structure NoTrace (s : Trailed) (k : Uuid) : Prop where
  row : status? s.payout.db k ≠ some .PENDING
  unbound : ∀ t ∈ s.payout.db.tickets, t.payoutClaimId ≠ some k
  tickets : ∀ t ∈ s.payout.db.tickets, s.took.lookup t.id = some k →
    t.payoutClaimId = none ∧ t.winStatus = .CLAIMED_ON_BASE

/-- The handler that makes a step. -/
def TrailAction.handler? : TrailAction → Option Nat
  | .step (.route i _) | .throws i _ | .rejects i => some i
  | .step _ => none

/-- What is claimed of the requests that have failed. -/
structure FailuresLeaveNoTrace (s : Trailed) : Prop where
  answered : ∀ e ∈ s.made, ∀ status, s.payout.requests[e.1]? = some (.answered status) →
    400 ≤ status → NoTrace s e.2
  crashed : ∀ e ∈ s.made, ∀ tour ∈ s.tours, tour.requests[e.1]? = some .crashed →
    ¬ Landed s.payout e.2 → (∀ c, s.payout.db.claim? e.2 = some c → tour.past c = true) → NoTrace s e.2
  /-- A handler leaves the tickets of claims alone that it has not created. -/
  handlers : ∀ a s' i, a.handler? = some i → trailedStep s a = some s' →
    ∀ t ∈ s.payout.db.tickets, ∀ k, t.payoutClaimId = some k → (i, k) ∉ s.made →
      t ∈ s'.payout.db.tickets
  /-- The confirmer leaves the tickets of all claims alone but for the one that it resolves. -/
  confirmer : ∀ act s', trailedStep s (.step (.tick act)) = some s' →
    ∀ t ∈ s.payout.db.tickets, ∀ k, t.payoutClaimId = some k →
      (∀ c cs calledAt answer used height,
        s.payout.tick = some (.resolving (c :: cs) calledAt answer used height) → c.id ≠ k) →
      t ∈ s'.payout.db.tickets

/-! ## A claim whose handler has crashed -/

/-- The claim is pending, and its voucher has not landed. -/
structure Stuck (s : State) (k : Uuid) (c : PayoutClaim) : Prop where
  row : s.db.claim? k = some c
  pending : c.status = .PENDING
  out : ¬ Landed s k

section Stuck

variable {s s' : Trailed} {a : TrailAction}

/-- A crash is for good. -/
theorem Trail.crashed_stays (h : Trail s) (ok : traceSafe s a = true) (hs : trailedStep s a = some s')
    {n : Nat} (crashed : s.payout.requests[n]? = some .crashed) :
    s'.payout.requests[n]? = some .crashed := by
  rcases h.cases ok hs with ⟨i, r, r', db, handed, move⟩ | aside | ⟨c, v, resolves⟩
  · rw [move.after, afterRoute, List.getElem?_set]
    split
    · rename_i same
      subst same
      cases move.request.symm.trans crashed
      rw [if_pos (List.getElem?_eq_some_iff.1 crashed).1, move.treads.ended (.inr rfl)]
    · exact crashed
  · exact aside.request crashed
  · obtain ⟨now, tick, after⟩ := resolves.after
    rw [after]
    exact crashed

/-- A handler that has crashed creates no claim. -/
theorem Trail.made_before (h : Trail s) (ok : traceSafe s a = true) (hs : trailedStep s a = some s')
    {e : Nat × Uuid} (he : e ∈ s'.made) (crashed : s.payout.requests[e.1]? = some .crashed) :
    e ∈ s.made := by
  rcases h.cases ok hs with ⟨i, r, r', db, handed, move⟩ | aside | ⟨c, v, resolves⟩
  · rcases move.made with ⟨same, -⟩ | ⟨k, same, own, -⟩
    · exact same ▸ he
    · rw [same] at he
      rcases List.mem_cons.1 he with rfl | old
      · cases move.request.symm.trans crashed
        rw [move.treads.ended (.inr rfl)] at own
        cases own
      · exact old
  · exact aside.record.1 ▸ he
  · exact resolves.record.1 ▸ he

/-- The row of a claim that is stuck was the same before. -/
theorem Trail.stuck_before (h : Trail s) (ok : traceSafe s a = true) (hs : trailedStep s a = some s')
    {e : Nat × Uuid} (he : e ∈ s.made) (crashed : s.payout.requests[e.1]? = some .crashed)
    {c : PayoutClaim} (stuck : Stuck s'.payout e.2 c) : Stuck s.payout e.2 c := by
  have out : TrailStep s s' → ¬ Landed s.payout e.2 := fun step ⟨l, hl, own⟩ =>
    stuck.out ⟨l, step.landed l hl, own⟩
  rcases h.cases ok hs with ⟨i, r, r', db, handed, move⟩ | aside | ⟨c₀, v, resolves⟩
  · refine ⟨?_, stuck.pending, out move.trailStep⟩
    obtain ⟨act, read, handled⟩ := move.handled
    have row : db.claim? e.2 = some c := by
      have row := stuck.row
      rw [move.after] at row
      exact row
    have there : s.payout.db.claim? e.2 ≠ none := fun gone => by
      rw [move.absent he gone] at row
      cases row
    have other : r.claimId? ≠ some e.2 := fun own => by
      have same := List.inj_on_of_nodup_map h.madeOnce (h.made_of_request move.request own) he rfl
      rw [← same] at crashed
      cases move.request.symm.trans crashed
      cases own
    rw [← handled.frame e.2 there other, row]
  · exact ⟨aside.claim? e.2 ▸ stuck.row, stuck.pending, out aside.trailStep⟩
  · refine ⟨?_, stuck.pending, out resolves.trailStep⟩
    obtain ⟨now, tick, after⟩ := resolves.after
    have row := stuck.row
    rw [after] at row
    rcases rowRule_resolve s.payout.db c₀.id now v e.2 with same | ⟨-, row₀, row', -, hr', -, resolved⟩
    · exact same ▸ row
    · cases row.symm.trans hr'
      exact absurd stuck.pending resolved.not_pending

end Stuck

/-! ## The ticks of the confirmer -/

/-- The claim is among those that a tick has still to resolve, as it stands. -/
def Awaits (pending : List PayoutClaim) (c : PayoutClaim) : Prop :=
  ∃ p ∈ pending, p.id = c.id ∧ issue p = issue c

/-- A tick that is past the claim will resolve it. -/
def Tick.Meets (tour : Tour) (c : PayoutClaim) : Tick → Prop
  | .pendingRead pending | .sweeping pending _ _ _ | .swept pending _ _ | .usedRead pending _ _ _ =>
      Awaits pending c
  | .resolving pending _ landed _ height =>
      Awaits pending c ∨ { tour with complete := landed.complete, height := height }.past c = false

/-- What is known of the ticks: a claim whose handler had crashed before is not left stuck by one that
is past it. -/
structure Tours (s : Trailed) : Prop where
  crashed : ∀ tour ∈ s.opened.toList ++ s.tours, ∀ i : Nat, tour.requests[i]? = some .crashed →
    s.payout.requests[i]? = some .crashed
  finished : ∀ tour ∈ s.tours, ∀ e ∈ s.made, tour.requests[e.1]? = some .crashed →
    ∀ c, Stuck s.payout e.2 c → tour.past c = false
  under : ∀ tour, s.opened = some tour → tour.openedAt ≤ s.payout.now ∧ ∃ t, s.payout.tick = some t ∧
    ∀ e ∈ s.made, tour.requests[e.1]? = some .crashed → ∀ c, Stuck s.payout e.2 c → t.Meets tour c

section Tours

variable {s s' : Trailed}

/-- The oldest claim that a tick has to resolve stays pending only where the tick is not past it. -/
theorem past_eq_false_of_stuck {c p : PayoutClaim} {ps : List PayoutClaim} {calledAt height : Nat}
    {answer : LandedClaims} {used : List Signature} {tour : Tour} (opened : tour.openedAt ≤ s.payout.now)
    (reported : Reported s.payout)
    (ht : s.payout.tick = some (.resolving (p :: ps) calledAt answer used height))
    (ok : resolvesOwn s.payout (.tick (.resolveNext false)) = true)
    (before : Stuck s.payout p.id c) (same : issue p = issue c)
    (row : (resolve s.payout.db p.id s.payout.now
      (verdict answer used height s.payout.now p)).claim? p.id = some c) :
    { tour with complete := answer.complete, height := height }.past c = false := by
  by_contra past
  rw [Bool.not_eq_false] at past
  have none : findHit answer used p = none := by
    cases hh : findHit answer used p with
    | none => rfl
    | some hit => exact absurd (landed_of_hit reported ht ok hh) before.out
  have created : p.createdAt = c.createdAt := congrArg Issue.createdAt same
  have stamp : p.lastValidBlockHeight = c.lastValidBlockHeight := congrArg Issue.lastValidBlockHeight same
  have ended : verdict answer used height s.payout.now p = .neverSigned ∨
      verdict answer used height s.payout.now p = .expired := by
    unfold verdict
    rw [none, stamp]
    unfold Tour.past at past
    cases hl : c.lastValidBlockHeight with
    | none =>
      simp only [hl, decide_eq_true_eq] at past
      refine .inl (if_pos ?_)
      omega
    | some l =>
      simp only [hl] at past
      exact .inr (if_pos past)
  have key : c.id = p.id := Table.key_of_findUnique before.row
  have expired : ∀ reason, ∀ c' : PayoutClaim,
      (releaseClaim s.payout.db p.id .EXPIRED reason).claim? p.id = some c' → c'.status = .EXPIRED := by
    intro reason c' hc'
    rw [claim?_releaseClaim, before.row, Option.map_some, if_pos (beq_iff_eq.2 key)] at hc'
    cases hc'
    rfl
  have status : c.status = .EXPIRED := by
    rcases ended with v | v <;> rw [v] at row <;> exact expired _ c row
  rw [before.pending] at status
  cases status

/-- What a step has to say of the ticks: only claims are read that were stuck before as well, of
handlers that had crashed. -/
theorem Tours.next {a : TrailAction} (h : Tours s) (t : Trail s) (ok : traceSafe s a = true)
    (hs : trailedStep s a = some s')
    (each : ∀ tour ∈ s'.opened.toList ++ s'.tours, tour.requests = s.payout.requests ∨
      ∃ old ∈ s.opened.toList ++ s.tours, tour.requests = old.requests)
    (finished : ∀ tour ∈ s'.tours, tour ∈ s.tours ∨ ∀ e ∈ s.made, tour.requests[e.1]? = some .crashed →
      ∀ c, Stuck s.payout e.2 c → Stuck s'.payout e.2 c → tour.past c = false)
    (under : ∀ tour, s'.opened = some tour → tour.openedAt ≤ s'.payout.now ∧
      ∃ next, s'.payout.tick = some next ∧ ∀ e ∈ s.made, tour.requests[e.1]? = some .crashed →
        ∀ c, Stuck s.payout e.2 c → Stuck s'.payout e.2 c → next.Meets tour c) : Tours s' := by
  have before : ∀ tour ∈ s'.opened.toList ++ s'.tours, ∀ i : Nat, tour.requests[i]? = some .crashed →
      s.payout.requests[i]? = some .crashed := by
    intro tour mem i crashed
    rcases each tour mem with same | ⟨old, mem, same⟩
    · exact same ▸ crashed
    · exact h.crashed old mem i (same ▸ crashed)
  refine ⟨fun tour mem i crashed => t.crashed_stays ok hs (before tour mem i crashed),
    fun tour mem e he crashed c stuck => ?_, fun tour opened => ?_⟩
  · have had := before tour (List.mem_append_right _ mem) e.1 crashed
    have was := t.made_before ok hs he had
    have stuck₀ := t.stuck_before ok hs was had stuck
    rcases finished tour mem with old | new
    · exact h.finished tour old e was crashed c stuck₀
    · exact new e was crashed c stuck₀ stuck
  · obtain ⟨clock, next, tick, meets⟩ := under tour opened
    refine ⟨clock, next, tick, fun e he crashed c stuck => ?_⟩
    have had := before tour (List.mem_append_left _ (Option.mem_toList.2 opened)) e.1 crashed
    have was := t.made_before ok hs he had
    exact meets e was crashed c (t.stuck_before ok hs was had stuck) stuck

/-- A step that leaves the tick where it is. -/
theorem Tours.still {a : TrailAction} (h : Tours s) (t : Trail s) (ok : traceSafe s a = true)
    (hs : trailedStep s a = some s') (opened : s'.opened = s.opened) (tours : s'.tours = s.tours)
    (tick : s'.payout.tick = s.payout.tick) (now : s.payout.now ≤ s'.payout.now) : Tours s' := by
  refine h.next t ok hs (fun tour mem => .inr ⟨tour, ?_, rfl⟩) (fun tour mem => .inl (tours ▸ mem))
    fun tour under => ?_
  · rwa [opened, tours] at mem
  · obtain ⟨clock, next, at_, meets⟩ := h.under tour (opened ▸ under)
    exact ⟨clock.trans now, next, tick.trans at_, fun e he crashed c stuck _ => meets e he crashed c stuck⟩

/-- A tick that ends early is none that has gone through. -/
theorem Tours.drop {a : TrailAction} (h : Tours s) (t : Trail s) (ok : traceSafe s a = true)
    (hs : trailedStep s a = some s') (opened : s'.opened = none) (tours : s'.tours = s.tours) :
    Tours s' := by
  refine h.next t ok hs (fun tour mem => .inr ⟨tour, ?_, rfl⟩) (fun tour mem => .inl (tours ▸ mem))
    fun tour under => ?_
  · rw [opened, tours] at mem
    exact List.mem_append_right _ mem
  · rw [opened] at under
    cases under

/-- A step of the tick between its opening and the first resolution. -/
theorem Tours.moves {a : TrailAction} {tick tick' : Tick} (h : Tours s) (t : Trail s)
    (ok : traceSafe s a = true) (hs : trailedStep s a = some s') (opened : s'.opened = s.opened)
    (tours : s'.tours = s.tours) (ht : s.payout.tick = some tick) (ht' : s'.payout.tick = some tick')
    (now : s'.payout.now = s.payout.now) (meets : ∀ tour c, tick.Meets tour c → tick'.Meets tour c) :
    Tours s' := by
  refine h.next t ok hs (fun tour mem => .inr ⟨tour, ?_, rfl⟩) (fun tour mem => .inl (tours ▸ mem))
    fun tour under => ?_
  · rwa [opened, tours] at mem
  · obtain ⟨clock, next, at_, met⟩ := h.under tour (opened ▸ under)
    cases ht.symm.trans at_
    exact ⟨clock.trans now.ge, tick', ht', fun e he crashed c stuck _ => meets tour c (met e he crashed c stuck)⟩

theorem mem_findPending_of_stuck {k : Uuid} {c : PayoutClaim} (stuck : Stuck s.payout k c) :
    c ∈ findPending s.payout.db :=
  mem_findPending.2 ⟨Table.mem_of_findUnique stuck.row, stuck.pending⟩

/-- A tick opens with every claim that is stuck. -/
theorem Tours.opens {payout : State} (h : Tours s) (t : Trail s)
    (hs : trailedStep s (.step (.tick .readPending)) = some s')
    (stepped : tickStep s.payout none .readPending = some payout) (made : s'.payout = payout)
    (opened : s'.opened = (toured s (.tick .readPending)).1)
    (tours : s'.tours = (toured s (.tick .readPending)).2) : Tours s' := by
  rw [toured] at opened tours
  rw [tickStep] at stepped
  cases hp : findPending s.payout.db with
  | nil =>
    rw [hp] at opened tours
    refine h.next t rfl hs (fun tour mem => ?_) (fun tour mem => ?_) fun tour under => ?_
    · rw [opened, tours] at mem
      rcases List.mem_cons.1 mem with rfl | old
      · exact .inl rfl
      · exact .inr ⟨tour, List.mem_append_right _ old, rfl⟩
    · rw [tours] at mem
      rcases List.mem_cons.1 mem with rfl | old
      · refine .inr fun e he crashed c stuck => ?_
        have := mem_findPending_of_stuck stuck
        rw [hp] at this
        cases this
      · exact .inl old
    · rw [opened] at under
      cases under
  | cons c cs =>
    rw [hp] at opened tours stepped
    cases stepped
    have tours : s'.tours = s.tours := tours
    refine h.next t rfl hs (fun tour mem => ?_) (fun tour mem => .inl (tours ▸ mem)) fun tour under => ?_
    · rw [opened, tours] at mem
      rcases List.mem_cons.1 mem with rfl | old
      · exact .inl rfl
      · exact .inr ⟨tour, List.mem_append_right _ old, rfl⟩
    · rw [opened] at under
      cases under
      rw [made]
      refine ⟨le_rfl, _, rfl, fun e he crashed c₀ stuck _ => ?_⟩
      exact ⟨c₀, hp ▸ mem_findPending_of_stuck stuck, rfl, rfl⟩

/-- A claim is resolved that the tick is past, or it is left to the claims after it. -/
theorem Tours.resolved {p : PayoutClaim} {ps : List PayoutClaim} {calledAt height : Nat}
    {answer : LandedClaims} {used : List Signature} (h : Tours s) (t : Trail s)
    (ok : traceSafe s (.step (.tick (.resolveNext false))) = true)
    (hs : trailedStep s (.step (.tick (.resolveNext false))) = some s')
    (ht : s.payout.tick = some (.resolving (p :: ps) calledAt answer used height))
    (after : s'.payout = { s.payout with
      db := resolve s.payout.db p.id s.payout.now (verdict answer used height s.payout.now p)
      tick := if ps.isEmpty then none else some (.resolving ps calledAt answer
        (useHit used (verdict answer used height s.payout.now p)) height) })
    (opened : s'.opened = (toured s (.tick (.resolveNext false))).1)
    (tours : s'.tours = (toured s (.tick (.resolveNext false))).2) : Tours s' := by
  -- what the step leaves of a claim that is stuck
  have left : ∀ tour, s.opened = some tour → ∀ e ∈ s.made, tour.requests[e.1]? = some .crashed →
      ∀ c, Stuck s.payout e.2 c → Stuck s'.payout e.2 c → Awaits ps c ∨
        { tour with complete := answer.complete, height := height }.past c = false := by
    intro tour under e he crashed c stuck stuck'
    obtain ⟨clock, next, at_, meets⟩ := h.under tour under
    cases ht.symm.trans at_
    rcases meets e he crashed c stuck with ⟨p₀, mem, key, same⟩ | past
    · rcases List.mem_cons.1 mem with rfl | later
      · have own : p₀.id = e.2 := key.trans (Table.key_of_findUnique stuck.row)
        have row := stuck'.row
        rw [after, ← own] at row
        rw [traceSafe, Bool.and_eq_true] at ok
        exact .inr (past_eq_false_of_stuck clock t.reported ht ok.2 (own ▸ stuck) same row)
      · exact .inl ⟨p₀, later, key, same⟩
    · exact .inr past
  cases ps with
  | nil =>
    simp only [toured, ht] at opened tours
    refine h.next t ok hs (fun tour mem => ?_) (fun tour mem => ?_) fun tour under => ?_
    · rw [opened, tours, Option.toList_none, List.nil_append] at mem
      rcases List.mem_append.1 mem with new | old
      · obtain ⟨was, hw, rfl⟩ := Option.map_eq_some_iff.1 (Option.mem_toList.1 new)
        exact .inr ⟨was, List.mem_append_left _ (Option.mem_toList.2 hw), rfl⟩
      · exact .inr ⟨tour, List.mem_append_right _ old, rfl⟩
    · rw [tours] at mem
      rcases List.mem_append.1 mem with new | old
      · obtain ⟨was, hw, rfl⟩ := Option.map_eq_some_iff.1 (Option.mem_toList.1 new)
        refine .inr fun e he crashed c stuck stuck' => ?_
        rcases left was hw e he crashed c stuck stuck' with ⟨_, mem, -⟩ | past
        · cases mem
        · exact past
      · exact .inl old
    · rw [opened] at under
      cases under
  | cons p' ps =>
    simp only [toured, ht] at opened tours
    refine h.next t ok hs (fun tour mem => .inr ⟨tour, ?_, rfl⟩) (fun tour mem => .inl (tours ▸ mem))
      fun tour under => ?_
    · rwa [opened, tours] at mem
    · rw [opened] at under
      refine ⟨?_, .resolving (p' :: ps) calledAt answer
        (useHit used (verdict answer used height s.payout.now p)) height, ?_, left tour under⟩
      · rw [after]
        exact (h.under tour under).1
      · rw [after]
        rfl

/-- **The tour rule**: a step of the tick. -/
theorem Tours.tick {act : TickAct} (h : Tours s) (t : Trail s)
    (ok : traceSafe s (.step (.tick act)) = true)
    (hs : trailedStep s (.step (.tick act)) = some s') : Tours s' := by
  obtain ⟨-, payout, stepped, rfl⟩ := trailedStep_step hs
  cases tickMove stepped with
  | idle here | read here =>
    rw [Payout.step, here] at stepped
    exact h.opens t hs stepped rfl rfl rfl
  | call here | answer here | used here => exact h.moves t ok hs rfl rfl here rfl rfl fun _ _ => id
  | height here => exact h.moves t ok hs rfl rfl here rfl rfl fun _ _ => .inl
  | noAnswer | crash => exact h.drop t ok hs rfl rfl
  | @resolve _ _ _ _ _ _ fails here =>
    cases fails with
    | true => exact h.drop t ok hs rfl rfl
    | false => exact h.resolved t ok hs here rfl rfl rfl

/-- A step of anybody else leaves the ticks alone. -/
theorem ticks_kept {a : TrailAction} (other : ∀ act, a ≠ .step (.tick act))
    (hs : trailedStep s a = some s') : s'.opened = s.opened ∧ s'.tours = s.tours ∧
      s'.payout.tick = s.payout.tick ∧ s.payout.now ≤ s'.payout.now := by
  cases a with
  | throws i took =>
    obtain ⟨r, db, r', -, -, rfl⟩ := trailedStep_throws hs
    exact ⟨rfl, rfl, rfl, le_rfl⟩
  | rejects i =>
    obtain ⟨r, -, -, rfl⟩ := trailedStep_rejects hs
    exact ⟨rfl, rfl, rfl, le_rfl⟩
  | step a =>
    obtain ⟨-, payout, stepped, rfl⟩ := trailedStep_step hs
    cases a with
    | tick act => exact absurd rfl (other act)
    | route i act =>
      obtain ⟨r, db, r', handed, -, -, rfl⟩ := step_route stepped
      exact ⟨rfl, rfl, rfl, le_rfl⟩
    | land v sig slot bt =>
      obtain ⟨-, -, -, -, -, p, rfl⟩ := step_land stepped
      exact ⟨rfl, rfl, rfl, le_rfl⟩
    | clock ms =>
      cases stepped
      exact ⟨rfl, rfl, rfl, Nat.le_add_right ..⟩
    | _ =>
      cases stepped
      exact ⟨rfl, rfl, rfl, le_rfl⟩

theorem Tours.step {a : TrailAction} (h : Tours s) (t : Trail s) (ok : traceSafe s a = true)
    (hs : trailedStep s a = some s') : Tours s' := by
  by_cases tick : ∃ act, a = .step (.tick act)
  · obtain ⟨act, rfl⟩ := tick
    exact h.tick t ok hs
  · obtain ⟨opened, tours, same, now⟩ := ticks_kept (fun act same => tick ⟨act, same⟩) hs
    exact h.still t ok hs opened tours same now

theorem Tours.initial (h : Start s) : Tours s := by
  obtain ⟨-, -, opened, tours⟩ := h.noRecord
  refine ⟨fun tour mem => ?_, fun tour mem => ?_, fun tour under => ?_⟩
  · rw [opened, tours] at mem
    cases mem
  · rw [tours] at mem
    cases mem
  · rw [opened] at under
    cases under

end Tours

/-! ## What is left of a request -/

section NoTrace

variable {s s' : Trailed}

/-- A claim that is not pending, and whose voucher has not landed, has left nothing. -/
theorem Bindings.noTrace (h : Bindings s) {e : Nat × Uuid} (he : e ∈ s.made)
    (row : status? s.payout.db e.2 ≠ some .PENDING) (out : ¬ Landed s.payout e.2) : NoTrace s e.2 := by
  have unbound : ∀ t ∈ s.payout.db.tickets, t.payoutClaimId ≠ some e.2 := fun t ht bound => by
    rcases h.standing e he t ht bound with pending | confirmed
    · exact row pending
    · exact out (h.confirmed e he confirmed)
  refine ⟨row, unbound, fun t ht taken => ⟨?_, h.claimed t ht e.2 taken out⟩⟩
  cases bound : t.payoutClaimId with
  | none => rfl
  | some k =>
    rcases h.took t ht k bound with recorded | ⟨empty, -⟩
    · cases taken.symm.trans recorded
      exact absurd bound (unbound t ht)
    · cases taken.symm.trans empty

/-- The steps of a handler leave the tickets of other claims alone. -/
theorem Trail.handler_frame {a : TrailAction} {i : Nat} (h : Trail s) (handler : a.handler? = some i)
    (hs : trailedStep s a = some s') {t : Ticket} (ht : t ∈ s.payout.db.tickets) {k : Uuid}
    (bound : t.payoutClaimId = some k) (apart : (i, k) ∉ s.made) : t ∈ s'.payout.db.tickets := by
  have rows : ∀ {r : Request} {tickets : List Ticket}, s.payout.requests[i]? = some r →
      List.Forall₂ (HandlerRow r) s.payout.db.tickets tickets → t ∈ tickets := by
    intro r tickets hr rows
    obtain ⟨t', ht', row⟩ := Table.exists_of_forall₂_left rows ht
    cases row with
    | kept => exact ht'
    | freed own was =>
      cases was.symm.trans bound
      exact absurd (h.made_of_request hr own) apart
  cases a with
  | throws j took =>
    cases handler
    obtain ⟨r, db, r', hr, threw, rfl⟩ := trailedStep_throws hs
    exact rows hr (rows_thrown threw)
  | rejects j =>
    cases handler
    obtain ⟨r, -, -, rfl⟩ := trailedStep_rejects hs
    exact ht
  | step a =>
    obtain ⟨-, payout, stepped, rfl⟩ := trailedStep_step hs
    cases a with
    | route j act =>
      cases handler
      obtain ⟨r, db, r', handed, hr, routed, rfl⟩ := step_route stepped
      by_cases bind : act = .bind
      · subst bind
        obtain ⟨w, j, epochs, rfl, rfl⟩ := routeStep_bind routed
        -- only free tickets are bound
        refine Table.mem_updateMany.2 ⟨t, ht, if_neg fun hit => ?_⟩
        simp only [claimable, Bool.and_eq_true, beq_iff_eq] at hit
        cases bound.symm.trans hit.1.2
      · exact rows hr (rows_routeStep routed bind)
    | _ => cases handler

/-- The confirmer leaves the tickets of claims alone that it does not resolve. -/
theorem confirmer_frame {act : TickAct} (hs : trailedStep s (.step (.tick act)) = some s') {t : Ticket}
    (ht : t ∈ s.payout.db.tickets) {k : Uuid} (bound : t.payoutClaimId = some k)
    (apart : ∀ c cs calledAt answer used height,
      s.payout.tick = some (.resolving (c :: cs) calledAt answer used height) → c.id ≠ k) :
    t ∈ s'.payout.db.tickets := by
  obtain ⟨-, payout, stepped, rfl⟩ := trailedStep_step hs
  obtain ⟨db, tick, rfl, rfl | ⟨c, cs, calledAt, answer, used, height, at_, -, rfl⟩⟩ := tickStep_frame stepped
  · exact ht
  · obtain ⟨t', ht', row⟩ := Table.exists_of_forall₂_left (rows_resolve s.payout.db c.id s.payout.now
      (verdict answer used height s.payout.now c)) ht
    have other := apart c cs calledAt answer used height at_
    cases row with
    | kept => exact ht'
    | freed own | paid _ own => exact absurd (Option.some.inj (own.symm.trans bound)) other

theorem Trail.failuresLeaveNoTrace (h : Trail s) (tours : Tours s) : FailuresLeaveNoTrace s := by
  refine ⟨fun e he status answered error => ?_, fun e he tour mem crashed out past => ?_,
    fun a s' i handler hs t ht k bound apart => h.handler_frame handler hs ht bound apart,
    fun act s' hs t ht k bound apart => confirmer_frame hs ht bound apart⟩
  · obtain ⟨r, hr, stage⟩ := h.stages e he
    cases answered.symm.trans hr
    cases stage with
    | own own => cases own
    | answered gone =>
      have gone := gone error
      refine h.bindings.noTrace he (by simp [status?, gone])
        fun ⟨l, hl, own⟩ => ?_
      exact (h.owned.given _ (h.handed l hl)).1 (own ▸ gone)
  · refine h.bindings.noTrace he (fun pending => ?_) out
    obtain ⟨c, row, status⟩ := status?_eq_some.1 pending
    have not_past := tours.finished tour mem e he crashed c ⟨row, status, out⟩
    rw [past c row] at not_past
    cases not_past

/-- **Failures leave no trace** in every run in which tickets are bound to pending claims only, no
statement outside the `try` blocks throws once there is a claim, and no landed transaction of another
claim fits a claim that is resolved. -/
theorem failures_leave_no_trace (s : Trailed)
    (h : trailedMachine.ReachableBy (fun s a => traceSafe s a = true) s) : FailuresLeaveNoTrace s := by
  have inv := h.invariant (I := fun s => Trail s ∧ Tours s) (fun _ start => ⟨.initial start, .initial start⟩)
    fun _ _ _ inv ok hs => ⟨inv.1.step ok hs, inv.2.step inv.1 ok hs⟩
  exact inv.1.failuresLeaveNoTrace inv.2

theorem start_oneTicket : trailedMachine.init { payout := oneTicket } := by
  refine ⟨List.nodup_nil, initial_oneTicket.ticketIds, fun t ht k bound => ?_, nofun, nofun, rfl, rfl,
    rfl, rfl, rfl, rfl⟩
  rw [initial_oneTicket.unbound t ht] at bound
  cases bound

/-- The steps of handler `i`. -/
def handles (i : Nat) (acts : List RouteAct) : List TrailAction := acts.map fun act => .step (.route i act)

/-- A tick whose sweep finds nothing, with one pending claim. -/
def emptyTick : List TrailAction :=
  [.readPending, .callSweep, .sweepReturns ⟨[], true⟩, .readUsed, .readHeight 1000, .resolveNext false].map
    fun act => .step (.tick act)

/-- The confirmer releases a claim before its handler binds the tickets, and looks at it no more. -/
theorem bound_for_good : ¬ ∀ s, trailedMachine.Reachable s → FailuresLeaveNoTrace s := by
  intro all
  obtain ⟨s, hs, hp⟩ := Machine.exists_reachable_of_run (M := trailedMachine) start_oneTicket
    (.step (.request "w") :: handles 0 [.gate false, .findExisting, .readRevealed, .create "A"] ++
      .step (.clock 120001) :: emptyTick ++ handles 0 [.bind, .crash] ++ [.step (.tick .readPending)])
    (fun s => s.made.contains (0, "A") && s.payout.landed.isEmpty &&
      s.payout.db.tickets.any (boundTo "A") &&
      s.tours.any fun tour => decide (tour.requests[0]? = some Request.crashed) &&
        s.payout.db.payoutClaims.all tour.past) (by decide +kernel)
  simp only [Bool.and_eq_true, List.contains_iff_mem, List.isEmpty_iff, List.any_eq_true,
    List.all_eq_true, decide_eq_true_eq] at hp
  obtain ⟨⟨⟨made, out⟩, t, ht, bound⟩, tour, mem, crashed, past⟩ := hp
  have clean := (all s hs).crashed (0, "A") made tour mem crashed
    (fun ⟨l, hl, _⟩ => by rw [out] at hl; cases hl) fun c row => past c (Table.mem_of_findUnique row)
  exact clean.unbound t ht (boundTo_eq_true.1 bound)

/-- One request is refused, and the next one crashes with the ticket bound. -/
theorem failures_leave_no_trace_twice : ∃ s : Trailed,
    s.made = [(1, "B"), (0, "A")] ∧ s.took = [("t", "B"), ("t", "A")] ∧
      s.payout.requests = [.answered 503, .crashed] ∧ s.tours.length = 1 ∧ FailuresLeaveNoTrace s := by
  obtain ⟨s, hs, hp⟩ := Machine.exists_reachableBy_of_runBy (M := trailedMachine) traceSafe start_oneTicket
    (.step (.request "w") :: handles 0 [.gate false, .findExisting, .readRevealed, .create "A", .bind, .sum,
        .ceiling false, .release, .delete] ++
      .step (.request "w") :: handles 1 [.gate false, .findExisting, .readRevealed, .create "B", .bind,
        .crash] ++ .step (.clock 120001) :: emptyTick)
    (fun s => s.made == [(1, "B"), (0, "A")] && s.took == [("t", "B"), ("t", "A")] &&
      s.payout.requests == [.answered 503, .crashed] && s.tours.length == 1) (by decide +kernel)
  simp only [Bool.and_eq_true, beq_iff_eq] at hp
  obtain ⟨⟨⟨made, took⟩, requests⟩, tours⟩ := hp
  exact ⟨s, made, took, requests, tours, failures_leave_no_trace s hs⟩

end NoTrace

end LordsPot.Payout
