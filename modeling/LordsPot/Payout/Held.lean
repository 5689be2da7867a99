import LordsPot.Payout.Binding

/-!
# What handlers and vouchers hold

A handler past its sum and a handed-out voucher carry an amount and the tickets it was
summed over. Until the claim is released, exactly these tickets are bound to it, whatever
the schedule, and every bound ticket is the claim's wallet's.
-/

namespace LordsPot.Payout

open Transition

/-- A handler past its sum, or a voucher, holds this claim, amount and tickets. -/
def Holds (s : State) (k : Uuid) (a : Nat) (ids : List Uuid) : Prop :=
  (∃ n : Nat, (s.requests[n]?).bind Request.holding? = some (k, a, ids)) ∨
    ∃ v ∈ s.vouchers, v.claimId = k ∧ v.amount = a ∧ v.tickets = ids

structure Bound (s : State) : Prop where
  ticketIds : (s.db.tickets.map (·.id)).Nodup
  owners : ∀ t ∈ s.db.tickets, ∀ k, t.payoutClaimId = some k →
    ∃ i, issue? s.db k = some i ∧ s.db.buyer? t = some i.wallet
  held : ∀ k a ids c, Holds s k a ids → s.db.claim? k = some c → ¬ Released c.status →
    boundRows s.db k = (a, ids)
  positive : ∀ k a ids, Holds s k a ids → 0 < a

theorem Bound.initial {s : State} (h : Initial s) : Bound s where
  ticketIds := h.ticketIds
  owners t ht k hk := by
    rw [h.unbound t ht] at hk
    cases hk
  held k a ids c _ hc := by
    rw [Db.claim?, h.noClaims] at hc
    cases hc
  positive k a ids hold := by
    rcases hold with ⟨n, hn⟩ | ⟨v, hv, -⟩
    · rw [h.noRequests] at hn
      cases hn
    · rw [h.noVouchers] at hv
      cases hv

/-- A ticket's buyer is read off its order. -/
theorem buyer?_congr {db db' : Db} (orders : db'.relayOrders = db.relayOrders) {t t' : Ticket}
    (h : t'.orderHash = t.orderHash) : db'.buyer? t' = db.buyer? t := by
  rw [Db.buyer?, Db.buyer?, Db.relayOrder?, Db.relayOrder?, Db.order?, Db.order?, orders, h]

/-- The owner of every binding survives a step that binds to claims of the buyer only. -/
theorem owners_step {db db' : Db} {allowed : Ticket → Uuid → Prop}
    (owners : ∀ t ∈ db.tickets, ∀ k, t.payoutClaimId = some k →
      ∃ i, issue? db k = some i ∧ db.buyer? t = some i.wallet)
    (orders : db'.relayOrders = db.relayOrders) (rebound : Rebound db db' allowed)
    (own : ∀ t k, allowed t k → ∃ i, issue? db k = some i ∧ db.buyer? t = some i.wallet)
    (kept : ∀ k i, issue? db k = some i → (∃ i', issue? db' k = some i' ∧ i'.wallet = i.wallet) ∨
      ∀ t ∈ db'.tickets, t.payoutClaimId ≠ some k) :
    ∀ t ∈ db'.tickets, ∀ k, t.payoutClaimId = some k →
      ∃ i, issue? db' k = some i ∧ db'.buyer? t = some i.wallet := by
  intro t' ht' k hk
  obtain ⟨t, ht, -, hash, -, bound⟩ := rebound t' ht'
  have : ∃ i, issue? db k = some i ∧ db.buyer? t = some i.wallet := by
    rcases bound k hk with old | new
    · exact owners t ht k old
    · exact own t k new
  obtain ⟨i, hi, hb⟩ := this
  rcases kept k i hi with ⟨i', hi', hw⟩ | none
  · exact ⟨i', hi', by rw [buyer?_congr orders hash, hb, hw]⟩
  · exact absurd hk (none t' ht')

/-- A handler's step keeps what is held. -/
theorem Bound.route {s : State} (b : Book s) (h : Bound s) {i : Nat} {r r' : Request}
    {act : RouteAct} {db : Db} {handed : Option Voucher} (hr : s.requests[i]? = some r)
    (spec : RouteSpec s.now s.db r act db r' handed) (tickets : TicketSpec s.db r db r') :
    Bound { s with db := db, requests := s.requests.set i r',
                   vouchers := s.vouchers ++ handed.toList } := by
  have hi : i < s.requests.length := (List.getElem?_eq_some_iff.1 hr).1
  have here : owner? s i = r.claimId? := by rw [owner?, hr]; rfl
  refine ⟨by rw [tickets.ids]; exact h.ticketIds, ?_, ?_, ?_⟩
  · refine owners_step h.owners tickets.orders tickets.rebound ?_ tickets.kept
    rintro t k ⟨w, epochs, rfl, hc⟩
    obtain ⟨j, hj, ha⟩ := b.requestRow i _ k hr rfl
    exact ⟨j, hj, by rw [buyer?_of_claimable hc, ha.1]⟩
  · intro k a ids c' hold hc' standing
    -- a holder that is not the handler that moved
    have others : Holds s k a ids → r.claimId? ≠ some k → boundRows db k = (a, ids) := by
      intro old hne
      have row : ∃ c, s.db.claim? k = some c := by
        rcases old with ⟨n, hn⟩ | ⟨v, hv, rfl, -, -⟩
        · obtain ⟨r₀, hr₀, hh⟩ := Option.bind_eq_some_iff.1 hn
          obtain ⟨j, hj, -⟩ := b.requestRow n r₀ k hr₀ (Request.claimId?_of_holding hh)
          obtain ⟨c, hc, -⟩ := issue?_eq_some.1 hj
          exact ⟨c, hc⟩
        · obtain ⟨j, hj, -⟩ := b.voucherRow v hv
          obtain ⟨c, hc, -⟩ := issue?_eq_some.1 hj
          exact ⟨c, hc⟩
      obtain ⟨c, hc⟩ := row
      rw [tickets.bound hne]
      rw [spec.frame k (by rw [hc]; exact Option.some_ne_none _) hne, hc] at hc'
      cases hc'
      exact h.held k a ids _ old hc standing
    have status : ∀ {a ids}, r.holding? = some (k, a, ids) → boundRows s.db k = (a, ids) := by
      intro a ids hh
      rcases spec.resolution k c' hc' with ⟨c, hc, hst, -⟩ | ⟨hn, -⟩
      · refine h.held k a ids c (.inl ⟨i, ?_⟩) hc (hst ▸ standing)
        rw [hr]
        exact hh
      · obtain ⟨j, hj, -⟩ := b.requestRow i r k hr (Request.claimId?_of_holding hh)
        rw [issue?, hn] at hj
        cases hj
    rcases hold with ⟨n, hn⟩ | ⟨v, hv, rfl, rfl, rfl⟩
    · rw [List.getElem?_set, if_pos hi] at hn
      split at hn
      · obtain ⟨same, own | ⟨-, sum, -⟩⟩ := tickets.holding k a ids hn
        · exact same.trans (status own)
        · exact same.trans sum
      · rename_i hne
        refine others (.inl ⟨n, hn⟩) fun hk => hne ?_
        obtain ⟨r₀, hr₀, hh⟩ := Option.bind_eq_some_iff.1 hn
        exact b.oneOwner i n k (here.trans hk) (by
          rw [owner?, hr₀]
          exact Request.claimId?_of_holding hh)
    · rcases List.mem_append.1 hv with hv | hv
      · exact others (.inr ⟨v, hv, rfl, rfl, rfl⟩) fun hk => b.givenAway v hv i (here.trans hk)
      · obtain ⟨rfl, -, rfl⟩ := spec.handed v (Option.mem_toList.1 hv)
        exact status rfl
  · have mine : ∀ {k a ids}, r.holding? = some (k, a, ids) → 0 < a := fun hh =>
      h.positive _ _ _ (.inl ⟨i, by rw [hr]; exact hh⟩)
    rintro k a ids (⟨n, hn⟩ | ⟨v, hv, rfl, rfl, rfl⟩)
    · rw [List.getElem?_set, if_pos hi] at hn
      split at hn
      · obtain ⟨-, own | ⟨-, -, positive⟩⟩ := tickets.holding k a ids hn
        · exact mine own
        · exact positive
      · exact h.positive _ _ _ (.inl ⟨n, hn⟩)
    · rcases List.mem_append.1 hv with hv | hv
      · exact h.positive _ _ _ (.inr ⟨v, hv, rfl, rfl, rfl⟩)
      · obtain ⟨rfl, -, rfl⟩ := spec.handed v (Option.mem_toList.1 hv)
        exact mine rfl

/-- Steps that bind no ticket, unbind none and resolve no claim. -/
theorem Bound.frame {s s' : State} (h : Bound s) (orders : s'.db.relayOrders = s.db.relayOrders)
    (ids : s'.db.tickets.map (·.id) = s.db.tickets.map (·.id))
    (rebound : Rebound s.db s'.db fun _ _ => False)
    (rows : ∀ k, boundRows s'.db k = boundRows s.db k)
    (claims : ∀ k, s'.db.claim? k = s.db.claim? k)
    (holds : ∀ k a ids, Holds s' k a ids → Holds s k a ids) : Bound s' where
  ticketIds := by rw [ids]; exact h.ticketIds
  owners := by
    refine owners_step h.owners orders rebound (fun _ _ f => f.elim) fun k i hi => ?_
    exact .inl ⟨i, by rw [issue?, claims]; exact hi, rfl⟩
  held k a ids c hold hc standing := by
    rw [claims] at hc
    exact (rows k).trans (h.held k a ids c (holds k a ids hold) hc standing)
  positive k a ids hold := h.positive k a ids (holds k a ids hold)

theorem rebound_unbind {db db' : Db} {k : Uuid} (h : db'.tickets = (unbindTickets db k).tickets) :
    Rebound db db' fun _ _ => False :=
  rebound_updateMany h (fun _ => ⟨rfl, rfl, rfl⟩) fun _ _ _ _ hj => by cases hj

/-- The tickets of a resolution. -/
theorem resolve_tickets (db : Db) (j : Uuid) (now : Nat) (v : Verdict) :
    (resolve db j now v).relayOrders = db.relayOrders ∧
    (resolve db j now v).tickets.map (·.id) = db.tickets.map (·.id) ∧
    Rebound db (resolve db j now v) fun _ _ => False := by
  rcases resolve_cases db j now v with same | ⟨status, reason, released⟩ | ⟨hit, -, confirmed⟩
  · rw [same]
    exact ⟨rfl, rfl, rebound_same rfl⟩
  · rw [released]
    unfold releaseClaim
    split
    · exact ⟨rfl, Table.map_updateMany _ fun _ _ _ => rfl, rebound_unbind rfl⟩
    · exact ⟨rfl, rfl, rebound_same rfl⟩
  · rw [confirmed]
    unfold confirmClaim
    split
    · exact ⟨rfl, Table.map_updateMany _ fun _ _ _ => rfl,
        rebound_updateMany rfl (fun _ => ⟨rfl, rfl, rfl⟩) fun _ _ _ _ hj => .inl hj⟩
    · exact ⟨rfl, rfl, rebound_same rfl⟩

/-- A resolution keeps what is held by claims it does not release. -/
theorem Bound.resolve {s : State} (b : Book s) (att : Attribution s) (h : Bound s) {c : PayoutClaim}
    {cs : List PayoutClaim} {calledAt height : Nat} {landed : LandedClaims} {used : List Signature}
    (ht : s.tick = some (.resolving (c :: cs) calledAt landed used height)) {tick : Option Tick} :
    Bound { s with
      db := resolve s.db c.id s.now (verdict landed used height s.now c)
      tick := tick } := by
  obtain ⟨⟨snap, evidence, -⟩, -⟩ := att.tick _ ht
  generalize hv : verdict landed used height s.now c = v
  obtain ⟨orders, ids, rebound⟩ := resolve_tickets s.db c.id s.now v
  refine ⟨by rw [ids]; exact h.ticketIds, ?_, ?_, h.positive⟩
  · refine owners_step h.owners orders rebound (fun _ _ f => f.elim) fun k i hi => ?_
    exact .inl ⟨i, (issue?_resolve ..).trans hi, rfl⟩
  · intro k a held c' hold hc' standing
    refine (boundRows_resolve_standing hc' standing).trans ?_
    rcases rowRule_resolve s.db c.id s.now v k with same | ⟨rfl, row, row', hr, hr', -, res⟩
    · exact h.held k a held c' hold (same.symm.trans hc') standing
    · rw [hr'] at hc'
      cases hc'
      rcases res with ⟨hit, rfl, -, -, -⟩ | ⟨-, -, -, hst, -⟩ | ⟨-, hst, -⟩
      · -- what was hit was stamped, hence still pending
        have stamped := hit_stamped b snap evidence (verdict_landed hv)
        obtain ⟨row₀, hr₀, hp, -⟩ := snap.row c List.mem_cons_self stamped
        rw [hr₀] at hr
        cases hr
        exact h.held _ a held _ hold hr₀ fun released => released.1 hp
      · exact absurd ⟨by rw [hst]; decide, by rw [hst]; decide⟩ standing
      · exact absurd ⟨by rw [hst]; decide, by rw [hst]; decide⟩ standing

theorem Bound.step {s s' : State} {a : Action} (b : Book s) (att : Attribution s) (h : Bound s)
    (hs : step s a = some s') : Bound s' := by
  have still : ∀ {s' : State}, s'.db = s.db → s'.requests = s.requests → s'.vouchers = s.vouchers →
      Bound s' := by
    intro s' hdb hreq hv
    refine h.frame (by rw [hdb]) (by rw [hdb]) (rebound_same (by rw [hdb])) (fun k => by rw [hdb])
      (fun k => by rw [hdb]) fun k a ids hold => ?_
    rwa [Holds, hreq, hv] at hold
  cases a with
  | request w =>
    cases hs
    refine h.frame rfl rfl (rebound_same rfl) (fun _ => rfl) (fun _ => rfl) ?_
    rintro k a ids (⟨n, hn⟩ | hold)
    · obtain ⟨r, hr, held⟩ := Option.bind_eq_some_iff.1 hn
      rcases Table.of_getElem?_concat hr with old | ⟨-, rfl⟩
      · exact .inl ⟨n, Option.bind_eq_some_iff.2 ⟨r, old, held⟩⟩
      · cases held
    · exact .inr hold
  | route i act =>
    obtain ⟨r, db, r', handed, hr, hstep, rfl⟩ := step_route hs
    exact h.route b hr (routeStep_spec hstep) (routeStep_tickets hstep)
  | tick act =>
    obtain ⟨db, tick, rfl, rfl | ⟨c, cs, calledAt, landed, used, height, ht, -, rfl⟩⟩ :=
      tickStep_frame hs
    · exact still rfl rfl rfl
    · exact h.resolve b att ht
  | land v sig slot bt =>
    obtain ⟨-, -, -, -, -, p, rfl⟩ := step_land hs
    exact still rfl rfl rfl
  | clock ms => cases hs; exact still rfl rfl rfl
  | blocks n => cases hs; exact still rfl rfl rfl
  | program p => cases hs; exact still rfl rfl rfl
  | harvest batchId txHash =>
    cases hs
    exact h.frame rfl (Table.map_updateMany _ fun _ _ _ => rfl)
      (rebound_updateMany rfl (fun _ => ⟨rfl, rfl, rfl⟩) fun _ _ _ _ hj => .inl hj)
      (fun _ => boundRows_harvest) (fun _ => rfl) fun _ _ _ hold => hold
  | epoch r =>
    cases hs
    have tickets := upsertSettledEpoch_tickets s.db r
    refine h.frame (by simp) (by rw [tickets]) (rebound_same tickets)
      (fun k => boundRows_congr tickets) (fun k => ?_) fun _ _ _ hold => hold
    rw [Db.claim?, upsertSettledEpoch_payoutClaims]
    rfl

end LordsPot.Payout
