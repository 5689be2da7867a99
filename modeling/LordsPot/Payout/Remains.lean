import LordsPot.Payout.Trail

/-!
# What is known of the requests

The tickets that a claim has taken are bound to it, free again or paid by its own voucher, and the
handler that has created the claim stands at it, has answered or has crashed (`Trail.step`).
-/

namespace LordsPot.Payout

open Transition

/-! ## The tickets -/

/-- The tickets of the claims on record: who took them last, and what the claims are then. -/
structure Bindings (s : Trailed) : Prop where
  ids : (s.payout.db.tickets.map (·.id)).Nodup
  row : ∀ t ∈ s.payout.db.tickets, ∀ k, t.payoutClaimId = some k → s.payout.db.claim? k ≠ none
  took : ∀ t ∈ s.payout.db.tickets, ∀ k, t.payoutClaimId = some k →
    s.took.lookup t.id = some k ∨ s.took.lookup t.id = none ∧ ∀ e ∈ s.made, e.2 ≠ k
  standing : ∀ e ∈ s.made, ∀ t ∈ s.payout.db.tickets, t.payoutClaimId = some e.2 →
    status? s.payout.db e.2 = some .PENDING ∨ status? s.payout.db e.2 = some .CONFIRMED
  confirmed : ∀ e ∈ s.made, status? s.payout.db e.2 = some .CONFIRMED → Landed s.payout e.2
  claimed : ∀ t ∈ s.payout.db.tickets, ∀ k, s.took.lookup t.id = some k → ¬ Landed s.payout k →
    t.winStatus = .CLAIMED_ON_BASE

/-- **The binding rule**: every step keeps what is known of the tickets that claims have taken. -/
theorem Bindings.step {s s' : Trailed} (h : Bindings s) (step : TrailStep s s') : Bindings s' := by
  have landed : ∀ {k}, Landed s.payout k → Landed s'.payout k := by
    rintro k ⟨l, mem, same⟩
    exact ⟨l, step.landed l mem, same⟩
  have before : ∀ t' ∈ s'.payout.db.tickets, ∃ t ∈ s.payout.db.tickets, RowMove s s' t t' :=
    fun t' ht' => Table.exists_of_forall₂_right step.rows ht'
  -- a binding is an old one, of a claim that is there still, or a new one
  have bound : ∀ t' ∈ s'.payout.db.tickets, ∀ k, t'.payoutClaimId = some k →
      (∃ t ∈ s.payout.db.tickets, t'.id = t.id ∧ t.payoutClaimId = some k ∧
        s'.took.lookup t.id = s.took.lookup t.id) ∨
      s'.took.lookup t'.id = some k ∧ status? s'.payout.db k = some .PENDING := by
    intro t' ht' k hk
    obtain ⟨t, ht, move⟩ := before t' ht'
    cases move with
    | elsewhere row same => exact .inl ⟨t, ht, row.id, row.claim ▸ hk, same⟩
    | bound claimed pending recorded =>
      cases hk
      exact .inr ⟨recorded, pending⟩
    | freed same => cases hk
    | paid own paid same => exact .inl ⟨t, ht, rfl, hk, same⟩
  have row : ∀ t' ∈ s'.payout.db.tickets, ∀ k, t'.payoutClaimId = some k →
      s'.payout.db.claim? k ≠ none := by
    intro t' ht' k hk none
    rcases bound t' ht' k hk with ⟨t, ht, -, old, -⟩ | ⟨-, pending⟩
    · exact step.gone k (h.row t ht k old) none t' ht' hk
    · rw [status?, none] at pending
      cases pending
  refine ⟨?_, row, fun t' ht' k hk => ?_, fun e he t' ht' hk => ?_, fun e he confirmed => ?_,
    fun t' ht' k taken out => ?_⟩
  · rw [Table.map_of_forall₂ (·.id) (fun _ _ move => move.id) step.rows]
    exact h.ids
  · rcases bound t' ht' k hk with ⟨t, ht, id, old, same⟩ | ⟨recorded, -⟩
    · rw [id, same]
      rcases h.took t ht k old with recorded | ⟨empty, apart⟩
      · exact .inl recorded
      · refine .inr ⟨empty, fun e he => ?_⟩
        rcases step.made e he with was | fresh
        · exact apart e was
        · rintro rfl
          exact h.row t ht _ old fresh
    · exact .inl recorded
  · rcases bound t' ht' e.2 hk with ⟨t, ht, -, old, -⟩ | ⟨-, pending⟩
    · have was : e ∈ s.made := (step.made e he).resolve_right (h.row t ht e.2 old)
      obtain ⟨c', hc'⟩ := Option.ne_none_iff_exists'.1 (row t' ht' e.2 hk)
      rw [status?, hc']
      cases step.claims e.2 c' hc' with
      | kept hc same =>
        have standing := h.standing e was t ht old
        rw [status?, hc] at standing
        rwa [Option.map_some, same]
      | confirmed status => exact .inr (congrArg some status)
      | released _ free => exact absurd hk (free t' ht')
      | new fresh => exact absurd fresh (h.row t ht e.2 old)
    · exact .inl pending
  · obtain ⟨c', hc', status⟩ := status?_eq_some.1 confirmed
    cases step.claims e.2 c' hc' with
    | kept hc same =>
      rcases step.made e he with was | fresh
      · refine landed (h.confirmed e was ?_)
        rw [status?, hc, Option.map_some, ← same, status]
      · rw [hc] at fresh
        cases fresh
    | confirmed _ out => exact landed out
    | released ended => exact absurd status ended.2
    | new _ pending => cases pending.symm.trans status
  · have out : ¬ Landed s.payout k := fun old => out (landed old)
    obtain ⟨t, ht, move⟩ := before t' ht'
    rw [move.id] at taken
    cases move with
    | elsewhere row same => exact (row.claimed (h.claimed t ht k (same ▸ taken) out)).1
    | bound claimed => exact claimed
    | freed same => exact h.claimed t ht k (same ▸ taken) out
    | paid own paid same =>
      rw [same] at taken
      rcases h.took t ht _ own with recorded | ⟨empty, -⟩
      · cases taken.symm.trans recorded
        exact absurd paid out
      · cases taken.symm.trans empty

/-! ## The invariant -/

section Reported

variable {s s' : State}

/-- A step that is not the confirmer's. -/
theorem Reported.kept (h : Reported s) (tick : s'.tick = s.tick)
    (landed : ∀ l ∈ s.landed, l ∈ s'.landed) : Reported s' := fun t ht answer ha e he =>
  let ⟨l, hl, same⟩ := h t (tick ▸ ht) answer ha e he
  ⟨l, landed l hl, same⟩

/-- A step of the tick that keeps what it knows, or knows nothing. -/
theorem Reported.moves {tick : Option Tick} {db : Db} (h : Reported s)
    (next : ∀ t answer, tick = some t → t.answer? = some answer →
      ∃ t₀, s.tick = some t₀ ∧ t₀.answer? = some answer) : Reported { s with db := db, tick := tick } :=
  fun t ht answer ha =>
    let ⟨t₀, ht₀, ha₀⟩ := next t answer ht ha
    h t₀ ht₀ answer ha₀

theorem Reported.tickStep {act : TickAct} (h : Reported s) (hs : tickStep s s.tick act = some s') :
    Reported s' := by
  cases tickMove hs with
  | idle => exact h
  | read | call => exact h.moves fun t answer ht ha => by cases ht; cases ha
  | answer here answer =>
    intro t ht report ha e he
    cases ht
    cases ha
    rw [truthful, Bool.and_eq_true] at answer
    obtain ⟨l, hl, same⟩ := List.any_eq_true.1 (List.all_eq_true.1 answer.1 e he)
    exact ⟨l, hl, beq_iff_eq.1 same⟩
  | noAnswer | crash => exact h.moves fun t answer ht => by cases ht
  | used here | height here => exact h.moves fun t answer ht ha => ⟨_, here, by cases ht; exact ha⟩
  | resolve here =>
    refine h.moves fun t answer ht ha => ⟨_, here, ?_⟩
    split at ht
    · cases ht
    · cases ht
      exact ha

/-- **The sweep rule**: what a tick goes by has landed. -/
theorem Reported.step {a : Action} (h : Reported s) (hs : step s a = some s') : Reported s' := by
  cases a with
  | tick act => exact h.tickStep hs
  | route i act =>
    obtain ⟨r, db, r', handed, -, -, rfl⟩ := step_route hs
    exact h.kept rfl fun _ hl => hl
  | land v sig slot bt =>
    obtain ⟨-, -, -, -, -, p, rfl⟩ := step_land hs
    exact h.kept rfl fun _ hl => List.mem_cons_of_mem _ hl
  | _ =>
    cases hs
    exact h.kept rfl fun _ hl => hl

end Reported

/-- What is known of the requests and of the tickets they have taken. -/
structure Trail (s : Trailed) : Prop where
  owned : Owned s.payout
  bindings : Bindings s
  madeOnce : (s.made.map (·.2)).Nodup
  stages : ∀ e ∈ s.made, ∃ r, s.payout.requests[e.1]? = some r ∧ Stage s.payout.db e.2 r
  own : ∀ n k, owner? s.payout n = some k → (n, k) ∈ s.made
  handed : ∀ l ∈ s.payout.landed, l.voucher ∈ s.payout.vouchers
  reported : Reported s.payout

section Trail

variable {s s' : Trailed}

theorem Trail.initial (h : Start s) : Trail s := by
  obtain ⟨made, took, -⟩ := h.noRecord
  have quiet : ∀ (n : Nat) r, s.payout.requests[n]? ≠ some r := fun n r hr => by
    rw [h.noRequests] at hr
    cases hr
  have idle : ∀ {α : Type} (f : Request → Option α) (n : Nat) (x : α),
      (s.payout.requests[n]?).bind f ≠ some x := by
    intro α f n x hn
    obtain ⟨r, hr, -⟩ := Option.bind_eq_some_iff.1 hn
    exact quiet n r hr
  have nothing : ∀ e, e ∉ s.made := fun e he => by
    rw [made] at he
    cases he
  have untaken : ∀ id, s.took.lookup id = none := fun id => by rw [took]; rfl
  refine ⟨⟨h.claimIds, fun n k hn => absurd hn (idle _ n k), fun m n k hm => absurd hm (idle _ m k),
      fun v hv => ⟨h.vouchers v hv, fun n => idle _ n _⟩, fun n k c hn => absurd hn (idle _ n k),
      fun n w k epochs c hn => absurd hn (quiet n _)⟩,
    ⟨h.ticketIds, h.bound, fun t _ k _ => .inr ⟨untaken _, fun e he => absurd he (nothing e)⟩,
      fun e he => absurd he (nothing e), fun e he => absurd he (nothing e), fun t _ k taken => ?_⟩,
    by rw [made]; exact List.nodup_nil, fun e he => absurd he (nothing e),
    fun n k hn => absurd hn (idle _ n k), h.landed, fun t ht => ?_⟩
  · rw [untaken] at taken
    cases taken
  · rw [h.noTick] at ht
    cases ht

/-- A handler with a claim has created it. -/
theorem Trail.made_of_request (h : Trail s) {i : Nat} {r : Request} {k : Uuid}
    (hr : s.payout.requests[i]? = some r) (own : r.claimId? = some k) : (i, k) ∈ s.made :=
  h.own i k (by rw [owner?_of_request hr, own])

/-- A handler's step. -/
theorem Trail.handler {i : Nat} {r r' : Request} {db : Db} {handed : Option Voucher} (h : Trail s)
    (move : HandlerMove s s' i r r' db handed) : Trail s' := by
  obtain ⟨act, read, handled⟩ := move.handled
  have bindings := h.bindings.step move.trailStep
  have requests : s'.payout.requests = s.payout.requests.set i r' := by rw [move.after]; rfl
  have db' : s'.payout.db = db := by rw [move.after]; rfl
  have here : s'.payout.requests[i]? = some r' := by
    rw [requests, List.getElem?_set_self (List.getElem?_eq_some_iff.1 move.request).1]
  have elsewhere : ∀ {n}, i ≠ n → s'.payout.requests[n]? = s.payout.requests[n]? := fun hne => by
    rw [requests, List.getElem?_set_ne hne]
  have kept : ∀ e ∈ s.made, e ∈ s'.made := fun e he => by
    rcases move.made with ⟨same, -⟩ | ⟨k, same, -⟩
    · exact same ▸ he
    · exact same ▸ List.mem_cons_of_mem _ he
  refine ⟨?_, bindings, ?_, fun e he => ?_, fun n k hn => ?_, ?_, ?_⟩
  · rw [move.after]
    exact h.owned.handled move.request handled
  · rcases move.made with ⟨same, -⟩ | ⟨k, same, -, -, fresh⟩
    · exact same ▸ h.madeOnce
    · rw [same, List.map_cons, List.nodup_cons]
      refine ⟨fun mem => ?_, h.madeOnce⟩
      obtain ⟨e, he, same⟩ := List.mem_map.1 mem
      exact fresh e he same
  · rw [db']
    have cases_ : e ∈ s.made ∨ e.1 = i ∧ r'.claimId? = some e.2 := by
      rcases move.made with ⟨same, -⟩ | ⟨k, same, own, -⟩
      · exact .inl (same ▸ he)
      · rw [same] at he
        rcases List.mem_cons.1 he with rfl | old
        · exact .inr ⟨rfl, own⟩
        · exact .inl old
    rcases cases_ with old | ⟨same, own⟩
    · obtain ⟨r₀, hr₀, stage⟩ := h.stages e old
      by_cases hne : i = e.1
      · subst hne
        cases move.request.symm.trans hr₀
        refine ⟨r', here, ?_⟩
        cases stage with
        | own own => exact move.treads.stage e.2 own
        | answered => rw [move.treads.ended (.inl ⟨_, rfl⟩)]; exact .crashed
        | crashed => rw [move.treads.ended (.inr rfl)]; exact .crashed
      · refine ⟨r₀, (elsewhere hne).trans hr₀, ?_⟩
        cases stage with
        | own own => exact .own own
        | crashed => exact .crashed
        | answered gone => exact .answered fun error => move.absent old (gone error)
    · exact ⟨r', same ▸ here, .own own⟩
  · by_cases hne : i = n
    · subst hne
      rw [owner?_of_request here] at hn
      rcases move.made with ⟨-, was⟩ | ⟨j, same, own, -⟩
      · exact kept _ (h.made_of_request move.request (was k hn))
      · cases own.symm.trans hn
        rw [same]
        exact List.mem_cons_self
    · rw [owner?, elsewhere hne] at hn
      exact kept _ (h.own n k hn)
  · rw [move.after]
    exact fun l hl => List.mem_append_left _ (h.handed l hl)
  · rw [move.after]
    exact h.reported.kept rfl fun _ hl => hl

/-- A step of anybody else that changes no claim. -/
theorem Trail.aside (h : Trail s) (aside : Aside s s') (reported : Reported s'.payout) : Trail s' := by
  refine ⟨h.owned.frame aside.claims aside.request_before aside.vouchers,
    h.bindings.step aside.trailStep, by rw [aside.record.1]; exact h.madeOnce, fun e he => ?_,
    fun n k hn => ?_, fun l hl => ?_, reported⟩
  · rw [aside.record.1] at he
    obtain ⟨r, hr, stage⟩ := h.stages e he
    refine ⟨r, aside.request hr, ?_⟩
    cases stage with
    | own own => exact .own own
    | answered gone => exact .answered fun error => (aside.claim? e.2).trans (gone error)
    | crashed => exact .crashed
  · rw [aside.record.1]
    exact h.own n k (bind_of_requests aside.request_before (fun _ h => h) hn)
  · rw [aside.vouchers]
    rcases aside.landed with same | ⟨l', given, more⟩
    · exact h.handed l (same ▸ hl)
    · rw [more] at hl
      rcases List.mem_cons.1 hl with rfl | old
      · exact given
      · exact h.handed l old

theorem Trail.resolves {c : PayoutClaim} {v : Verdict} (h : Trail s) (resolves : Resolves s s' c v)
    (reported : Reported s'.payout) : Trail s' := by
  obtain ⟨now, tick, after⟩ := resolves.after
  have bindings := h.bindings.step resolves.trailStep
  refine ⟨?_, bindings, by rw [resolves.record.1]; exact h.madeOnce, fun e he => ?_, fun n k hn => ?_, ?_,
    reported⟩
  · rw [after]
    exact h.owned.resolve c.id now v tick
  · rw [resolves.record.1] at he
    obtain ⟨r, hr, stage⟩ := h.stages e he
    rw [after]
    refine ⟨r, hr, ?_⟩
    cases stage with
    | own own => exact .own own
    | crashed => exact .crashed
    | answered gone =>
      refine .answered fun error => ?_
      rcases rowRule_resolve s.payout.db c.id now v e.2 with same | ⟨-, row, -, hr, -⟩
      · exact same.trans (gone error)
      · rw [gone error] at hr
        cases hr
  · rw [resolves.record.1]
    rw [after] at hn
    exact h.own n k hn
  · rw [after]
    exact h.handed

/-- A safe step is a handler's, a resolution, or changes no claim. -/
theorem Trail.cases {a : TrailAction} (h : Trail s) (ok : traceSafe s a = true)
    (hs : trailedStep s a = some s') :
    (∃ i r r' db handed, HandlerMove s s' i r r' db handed) ∨ Aside s s' ∨
      ∃ c v, Resolves s s' c v := by
  cases a with
  | throws i took => exact .inl ⟨i, move_throws hs⟩
  | rejects i => exact .inl ⟨i, move_rejects ok hs⟩
  | step a =>
    by_cases route : ∃ i act, a = .route i act
    · obtain ⟨i, act, rfl⟩ := route
      exact .inl ⟨i, move_route h.bindings.ids ok hs⟩
    · refine .inr ((aside_or_resolves h.reported ok (fun i act same => route ⟨i, act, same⟩) hs).imp_right ?_)
      rintro ⟨c, -, -, answer, used, height, -, -, resolves⟩
      exact ⟨c, _, resolves⟩

theorem reported_trailedStep {a : TrailAction} (h : Reported s.payout) (hs : trailedStep s a = some s') :
    Reported s'.payout := by
  cases a with
  | step a =>
    obtain ⟨-, payout, stepped, rfl⟩ := trailedStep_step hs
    exact h.step stepped
  | throws i took =>
    obtain ⟨r, db, r', -, -, rfl⟩ := trailedStep_throws hs
    exact h.kept rfl fun _ hl => hl
  | rejects i =>
    obtain ⟨r, -, -, rfl⟩ := trailedStep_rejects hs
    exact h.kept rfl fun _ hl => hl

/-- **The trail rule**: a safe step keeps what is known of the requests and their tickets. -/
theorem Trail.step {a : TrailAction} (h : Trail s) (ok : traceSafe s a = true)
    (hs : trailedStep s a = some s') : Trail s' := by
  have reported := reported_trailedStep h.reported hs
  rcases h.cases ok hs with ⟨i, r, r', db, handed, move⟩ | aside | ⟨c, v, resolves⟩
  · exact h.handler move
  · exact h.aside aside reported
  · exact h.resolves resolves reported

end Trail

end LordsPot.Payout
