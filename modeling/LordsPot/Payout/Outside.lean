import LordsPot.Payout.DoublePayment
import LordsPot.Payout.Tickets

/-!
# What a voucher is worth

From the payout path the rest of the system is seen as rows that change: tickets are graded and
harvested, and orders arrive with tickets of their own. Whatever it does, and whatever the schedule, a
voucher lists harvested tickets of its wallet and asks for what they have won; and where stamps and
expiries are safe, nothing is paid twice.
-/

namespace LordsPot.Payout

open Transition

/-- The prize is in the vault of the Base side, or paid. -/
def Harvested (t : Ticket) : Prop := t.winStatus = .CLAIMED_ON_BASE ∨ t.winStatus = .PAID_OUT_ON_SOLANA

/-- A harvested ticket stays harvested and keeps its prize. -/
structure Fixed (t t' : Ticket) : Prop where
  id : t'.id = t.id
  order : t'.orderHash = t.orderHash
  prize : Harvested t → Harvested t' ∧ t'.winAmount = t.winAmount

theorem Fixed.refl (t : Ticket) : Fixed t t := ⟨rfl, rfl, fun h => ⟨h, rfl⟩⟩

/-- The tickets are the wallet's, harvested, and have won the amount. -/
structure Backs (db : Db) (w : Wallet) (amount : Nat) (ids : List Uuid) : Prop where
  distinct : ids.Nodup
  rows : ∀ id ∈ ids, ∃ t ∈ db.tickets, t.id = id ∧ Harvested t ∧ db.buyer? t = some w
  amount : amount = Table.sumWhere (fun t => ids.contains t.id) (·.winAmount) db.tickets

/-- Rows that are kept, and new ones after them; and who bought a ticket stays known. -/
structure Later (R : Ticket → Ticket → Prop) (db db' : Db) : Prop where
  ids : (db'.tickets.map (·.id)).Nodup
  buyers : ∀ t w, db.buyer? t = some w → db'.buyer? t = some w
  rows : ∃ kept new, db'.tickets = kept ++ new ∧ List.Forall₂ R db.tickets kept ∧
    ∀ t ∈ new, t.payoutClaimId = none

section Backs

variable {db db' : Db} {w : Wallet} {amount : Nat} {ids : List Uuid}

theorem buyer?_of_order {t t' : Ticket} (same : t'.orderHash = t.orderHash) : db.buyer? t' = db.buyer? t :=
  buyer?_congr rfl same

/-- Rows that are kept have won what they had. -/
theorem Backs.amount_kept (h : Backs db w amount ids) (distinct : (db.tickets.map (·.id)).Nodup)
    {kept : List Ticket} (rows : List.Forall₂ Fixed db.tickets kept) :
    amount = Table.sumWhere (fun t => ids.contains t.id) (·.winAmount) kept := by
  have harvested : ∀ t ∈ db.tickets, ids.contains t.id = true → Harvested t := by
    intro t ht mem
    obtain ⟨u, hu, is, harvested, -⟩ := h.rows t.id (List.contains_iff_mem.1 mem)
    rwa [← List.inj_on_of_nodup_map distinct hu ht is]
  have amounts := Table.map_filter_of_forall₂ (·.winAmount) (p := fun t => ids.contains t.id)
    (fun t t' both => by rw [both.2.id]) (fun t t' both mem => (both.2.prize (both.1 mem)).2)
    ((List.forall₂_and_left (p := fun t => ids.contains t.id = true → Harvested t)
      db.tickets kept).2 ⟨harvested, rows⟩)
  rw [h.amount, Table.sumWhere, Table.sumWhere, amounts]

/-- What backs a voucher backs it later. -/
theorem Backs.later (h : Backs db w amount ids) (later : Later Fixed db db') : Backs db' w amount ids := by
  obtain ⟨kept, new, tickets, rows, -⟩ := later.rows
  have sound : ∀ id ∈ ids, ∃ t ∈ kept, t.id = id ∧ Harvested t ∧ db'.buyer? t = some w := by
    intro id mem
    obtain ⟨t, ht, is, harvested, buyer⟩ := h.rows id mem
    obtain ⟨t', ht', fixed⟩ := Table.exists_of_forall₂_left rows ht
    refine ⟨t', ht', fixed.id.trans is, (fixed.prize harvested).1, ?_⟩
    rw [buyer?_of_order fixed.order]
    exact later.buyers t w buyer
  have all := later.ids
  rw [tickets, List.map_append, List.nodup_append] at all
  obtain ⟨distinct, -, apart⟩ := all
  rw [Table.map_of_forall₂ (·.id) (fun _ _ fixed => fixed.id) rows] at distinct
  have fresh : new.filter (fun t => ids.contains t.id) = [] := by
    refine List.filter_eq_nil_iff.2 fun t ht listed => ?_
    obtain ⟨u, hu, is, -⟩ := sound t.id (List.contains_iff_mem.1 listed)
    exact apart _ (List.mem_map_of_mem hu) _ (List.mem_map_of_mem ht) is
  refine ⟨h.distinct, fun id mem => ?_, ?_⟩
  · obtain ⟨t, ht, rest⟩ := sound id mem
    exact ⟨t, tickets ▸ List.mem_append_left _ ht, rest⟩
  · rw [Table.sumWhere, tickets, List.filter_append, fresh, List.append_nil]
    exact h.amount_kept distinct rows

/-- What is bound to a claim backs it. -/
theorem Backs.bound {k : Uuid} (distinct : (db.tickets.map (·.id)).Nodup)
    (own : ∀ t ∈ db.tickets, t.payoutClaimId = some k → Harvested t ∧ db.buyer? t = some w) :
    Backs db w (boundSum db k) (boundIds db k) := by
  refine ⟨distinct.sublist (List.filter_sublist.map _), fun id mem => ?_, ?_⟩
  · obtain ⟨t, ht, rfl⟩ := List.mem_map.1 mem
    obtain ⟨ht, bound⟩ := List.mem_filter.1 ht
    exact ⟨t, ht, rfl, own t ht (boundTo_eq_true.1 bound)⟩
  · refine congrArg (fun rows : List Ticket => (rows.map (·.winAmount)).sum) (List.filter_congr fun t ht => ?_)
    rw [Bool.eq_iff_iff, List.contains_iff_mem, boundIds, List.mem_map]
    constructor
    · exact fun bound => ⟨t, List.mem_filter.2 ⟨ht, bound⟩, rfl⟩
    · rintro ⟨u, mem, is⟩
      obtain ⟨hu, bound⟩ := List.mem_filter.1 mem
      rwa [← List.inj_on_of_nodup_map distinct hu ht is]

end Backs

/-! ## Every schedule -/

theorem Later.mono {R R' : Ticket → Ticket → Prop} {db db' : Db} (h : Later R db db')
    (imp : ∀ t t', R t t' → R' t t') : Later R' db db' := by
  obtain ⟨kept, new, tickets, rows, unbound⟩ := h.rows
  exact ⟨h.ids, h.buyers, kept, new, tickets, rows.imp imp, unbound⟩

/-- Rows that are kept, and no others. -/
theorem Later.of_rows {R : Ticket → Ticket → Prop} {db db' : Db} (distinct : (db.tickets.map (·.id)).Nodup)
    (ids : db'.tickets.map (·.id) = db.tickets.map (·.id))
    (orders : ∀ hash, (db'.order? hash).map (·.buyer) = (db.order? hash).map (·.buyer))
    (rows : List.Forall₂ R db.tickets db'.tickets) : Later R db db' where
  ids := ids ▸ distinct
  buyers t _ buyer := (orders t.orderHash).trans buyer
  rows := ⟨db'.tickets, [], (List.append_nil _).symm, rows, List.forall_mem_nil _⟩

/-- What the rest of the system keeps of a row is its claim as well. -/
structure Stays (t t' : Ticket) : Prop extends Fixed t t' where
  claim : t'.payoutClaimId = t.payoutClaimId

theorem Stays.refl (t : Ticket) : Stays t t := ⟨.refl t, rfl⟩

/-- A step of the rest of the system: claims and landings stay, and so does what handlers and the
confirmer are at. -/
structure Outside (s s' : State) : Prop extends Later Stays s.db s'.db where
  now : s.now ≤ s'.now
  height : s.height ≤ s'.height
  claims : s'.db.payoutClaims = s.db.payoutClaims
  requests : s'.requests = s.requests
  vouchers : s'.vouchers = s.vouchers
  landed : s'.landed = s.landed
  tick : s'.tick = s.tick

/-- Whatever is held is backed. -/
structure Earned (s : State) : Prop where
  book : Book s
  ids : (s.db.tickets.map (·.id)).Nodup
  harvested : ∀ t ∈ s.db.tickets, t.payoutClaimId ≠ none → Harvested t
  owners : ∀ t ∈ s.db.tickets, ∀ k, t.payoutClaimId = some k →
    ∃ i, issue? s.db k = some i ∧ s.db.buyer? t = some i.wallet
  worth : ∀ k a ids i, Holds s k a ids → issue? s.db k = some i → Backs s.db i.wallet a ids

section Earned

variable {s s' : State}

theorem Outside.claim? (o : Outside s s') (k : Uuid) : s'.db.claim? k = s.db.claim? k := by
  rw [Db.claim?, Db.claim?, o.claims]

theorem Outside.issue? (o : Outside s s') (k : Uuid) : issue? s'.db k = issue? s.db k := by
  rw [Payout.issue?, Payout.issue?, o.claim?]

theorem Outside.holds (o : Outside s s') {k : Uuid} {a : Nat} {ids : List Uuid} (h : Holds s' k a ids) :
    Holds s k a ids := by
  rwa [Holds, o.requests, o.vouchers] at h

/-- A row that was there before, or is bound to nothing. -/
theorem Later.bound {R : Ticket → Ticket → Prop} {db db' : Db} (h : Later R db db') {t' : Ticket}
    (ht' : t' ∈ db'.tickets) (bound : t'.payoutClaimId ≠ none) : ∃ t ∈ db.tickets, R t t' := by
  obtain ⟨kept, new, tickets, rows, unbound⟩ := h.rows
  rw [tickets] at ht'
  rcases List.mem_append.1 ht' with old | arrived
  · exact Table.exists_of_forall₂_right rows old
  · exact absurd (unbound t' arrived) bound

/-- **The rest of the system** leaves what is held backed. -/
theorem Earned.outside (h : Earned s) (o : Outside s s') : Earned s' where
  book := h.book.frame (by rw [o.claims]) o.issue? o.now o.requests o.vouchers o.landed
  ids := o.ids
  harvested t' ht' bound := by
    obtain ⟨t, ht, stays⟩ := o.toLater.bound ht' bound
    exact (stays.prize (h.harvested t ht (stays.claim ▸ bound))).1
  owners t' ht' k bound := by
    obtain ⟨t, ht, stays⟩ := o.toLater.bound ht' (by rw [bound]; exact Option.some_ne_none k)
    obtain ⟨i, hi, buyer⟩ := h.owners t ht k (stays.claim ▸ bound)
    refine ⟨i, (o.issue? k).trans hi, ?_⟩
    rw [buyer?_of_order stays.order]
    exact o.buyers t _ buyer
  worth k a ids i hold hi := by
    rw [o.issue?] at hi
    exact (h.worth k a ids i (o.holds hold) hi).later (o.toLater.mono fun _ _ stays => stays.toFixed)

/-- A step that writes nothing to the tables. -/
theorem Earned.quiet (h : Earned s) (book : Book s') (db : s'.db = s.db)
    (holds : ∀ k a ids, Holds s' k a ids → Holds s k a ids) : Earned s' where
  book := book
  ids := db ▸ h.ids
  harvested := db ▸ h.harvested
  owners := db ▸ h.owners
  worth k a ids i hold hi := by
    rw [db] at hi ⊢
    exact h.worth k a ids i (holds k a ids hold) hi

/-- Who holds tickets has a claim. -/
theorem Holds.row (b : Book s) {k : Uuid} {a : Nat} {ids : List Uuid} (h : Holds s k a ids) :
    ∃ i, issue? s.db k = some i := by
  rcases h with ⟨n, hn⟩ | ⟨v, hv, rfl, -, -⟩
  · obtain ⟨r, hr, held⟩ := Option.bind_eq_some_iff.1 hn
    obtain ⟨i, hi, -⟩ := b.requestRow n r k hr (Request.claimId?_of_holding held)
    exact ⟨i, hi⟩
  · obtain ⟨i, hi, -⟩ := b.voucherRow v hv
    exact ⟨i, hi⟩

/-- The payout path changes no prize. -/
theorem fixed_of_write {rows : List Ticket} (write : TicketWrite s rows) :
    List.Forall₂ Fixed s.db.tickets rows := by
  cases write with
  | nothing => exact List.forall₂_same.2 fun t _ => .refl t
  | bind | unbind =>
    exact Table.forall₂_updateMany (fun t _ => .refl t) fun t _ _ => ⟨rfl, rfl, fun h => ⟨h, rfl⟩⟩
  | payOut =>
    exact Table.forall₂_updateMany (fun t _ => .refl t) fun t _ _ => ⟨rfl, rfl, fun _ => ⟨.inr rfl, rfl⟩⟩

theorem later_of_written {db' : Db} (ids : (s.db.tickets.map (·.id)).Nodup) (written : Written s db') :
    Later Fixed s.db db' := by
  have fixed := fixed_of_write written.tickets
  refine .of_rows ids (Table.map_of_forall₂ (·.id) (fun _ _ f => f.id) fixed) (fun hash => ?_) fixed
  rw [Db.order?, Db.order?, written.orders]

/-- It binds harvested tickets only. -/
theorem harvested_of_write {rows : List Ticket} (write : TicketWrite s rows)
    (h : ∀ t ∈ s.db.tickets, t.payoutClaimId ≠ none → Harvested t) :
    ∀ t ∈ rows, t.payoutClaimId ≠ none → Harvested t := by
  have update : ∀ {p : Ticket → Bool} {f : Ticket → Ticket},
      (∀ t ∈ s.db.tickets, p t = true → (f t).payoutClaimId ≠ none → Harvested (f t)) →
      ∀ t ∈ Table.updateMany p f s.db.tickets, t.payoutClaimId ≠ none → Harvested t := by
    intro p f change t' ht'
    obtain ⟨t, ht, rfl⟩ := Table.mem_updateMany.1 ht'
    split
    · rename_i hit
      exact change t ht hit
    · exact h t ht
  cases write with
  | nothing => exact h
  | bind =>
    refine update fun t _ claimable _ => .inl ?_
    simp only [Payout.claimable, Bool.and_eq_true, beq_iff_eq] at claimable
    exact claimable.1.1
  | unbind => exact update fun t _ _ bound => absurd rfl bound
  | payOut => exact update fun t _ _ _ => .inr rfl

/-- What is bound to a claim is worth its sum. -/
theorem Earned.summed (h : Earned s) {k : Uuid} {j : Issue} (hj : issue? s.db k = some j) :
    Backs s.db j.wallet (boundSum s.db k) (boundIds s.db k) := by
  refine .bound h.ids fun t ht bound => ?_
  obtain ⟨i, hi, buyer⟩ := h.owners t ht k bound
  rw [hj] at hi
  cases hi
  exact ⟨h.harvested t ht (by rw [bound]; exact Option.some_ne_none k), buyer⟩

/-- A claim keeps its wallet. -/
theorem RouteSpec.wallet {now : Nat} {db db' : Db} {r r' : Request} {act : RouteAct} {handed : Option Voucher}
    (spec : RouteSpec now db r act db' r' handed) {k : Uuid} {j j' : Issue} (hj : issue? db k = some j)
    (hj' : issue? db' k = some j') : j.wallet = j'.wallet := by
  rcases spec.issued k j' hj' with old | ⟨none, -⟩ | ⟨v, j₀, -, -, -, hj₀, rfl⟩
  · rw [hj] at old
    cases old
    rfl
  · rw [hj] at none
    cases none
  · rw [hj] at hj₀
    cases hj₀
    rfl

/-- A handler's step leaves what is held backed. -/
theorem Earned.route (h : Earned s) {i : Nat} {r r' : Request} {act : RouteAct} {db : Db}
    {handed : Option Voucher} (hr : s.requests[i]? = some r)
    (hs : routeStep s.now s.program s.adminKey s.db r act = some (db, r', handed)) :
    Earned { s with db := db, requests := s.requests.set i r',
                    vouchers := s.vouchers ++ handed.toList } := by
  have spec := routeStep_spec hs
  have tickets := routeStep_tickets hs
  have written := routeStep_written hr hs
  have later := later_of_written h.ids written
  have hi : i < s.requests.length := (List.getElem?_eq_some_iff.1 hr).1
  have here : ∀ k, r.claimId? = some k → ∃ j, issue? s.db k = some j := fun k own =>
    (h.book.requestRow i r k hr own).imp fun _ => And.left
  refine ⟨h.book.route hr spec, later.ids, harvested_of_write written.tickets h.harvested, ?_, ?_⟩
  · refine owners_step h.owners tickets.orders tickets.rebound ?_ tickets.kept
    rintro t k ⟨w, epochs, rfl, hc⟩
    obtain ⟨j, hj, agrees⟩ := h.book.requestRow i _ k hr rfl
    exact ⟨j, hj, by rw [buyer?_of_claimable hc, agrees.1]⟩
  · intro k a ids j' hold hj'
    have old : Holds s k a ids → Backs db j'.wallet a ids := by
      intro held
      obtain ⟨j, hj⟩ := held.row h.book
      exact spec.wallet hj hj' ▸ (h.worth k a ids j held hj).later later
    rcases hold with ⟨n, hn⟩ | ⟨v, hv, rfl, rfl, rfl⟩
    · rw [List.getElem?_set, if_pos hi] at hn
      split at hn
      · obtain ⟨-, own | ⟨⟨w, rfl⟩, sum, -⟩⟩ := tickets.holding k a ids hn
        · exact old (.inl ⟨i, by rw [hr]; exact own⟩)
        · obtain ⟨j, hj⟩ := here k rfl
          have summed := h.summed hj
          rw [← spec.wallet hj hj', ← show boundSum s.db k = a from congrArg Prod.fst sum,
            ← show boundIds s.db k = ids from congrArg Prod.snd sum]
          exact summed.later later
      · exact old (.inl ⟨n, hn⟩)
    · rcases List.mem_append.1 hv with hv | hv
      · exact old (.inr ⟨v, hv, rfl, rfl, rfl⟩)
      · obtain ⟨rfl, -, rfl⟩ := spec.handed v (Option.mem_toList.1 hv)
        exact old (.inl ⟨i, by rw [hr]; rfl⟩)

/-- A resolution leaves what is held backed. -/
theorem Earned.resolve (h : Earned s) (j : Uuid) (v : Verdict) (tick : Option Tick) :
    Earned { s with db := Payout.resolve s.db j s.now v, tick := tick } := by
  have written := resolve_written (s := s) j v
  have later := later_of_written h.ids written
  obtain ⟨orders, -, rebound⟩ := resolve_tickets s.db j s.now v
  refine ⟨h.book.frame (ids_resolve ..) (fun _ => issue?_resolve ..) le_rfl rfl rfl rfl, later.ids,
    harvested_of_write written.tickets h.harvested, ?_, fun k a ids i hold hi => ?_⟩
  · refine owners_step h.owners orders rebound (fun _ _ f => f.elim) fun k i hi => ?_
    exact .inl ⟨i, (issue?_resolve ..).trans hi, rfl⟩
  · exact (h.worth k a ids i hold ((issue?_resolve ..).symm.trans hi)).later later

/-- **What is held is backed** after every step. -/
theorem Earned.step (h : Earned s) {a : Action} (hs : Payout.step s a = some s') : Earned s' := by
  have book := h.book.step hs
  have still : ∀ {db : Db}, db.tickets = s.db.tickets → db.relayOrders = s.db.relayOrders → Later Stays s.db db := by
    intro db tickets orders
    refine .of_rows h.ids (by rw [tickets]) (fun hash => by rw [Db.order?, Db.order?, orders]) ?_
    rw [tickets]
    exact List.forall₂_same.2 fun t _ => .refl t
  cases a with
  | request w =>
    cases hs
    refine h.quiet book rfl fun k a ids hold => ?_
    rcases hold with ⟨n, hn⟩ | handed
    · obtain ⟨r, hr, held⟩ := Option.bind_eq_some_iff.1 hn
      rcases Table.of_getElem?_concat hr with old | ⟨-, rfl⟩
      · exact .inl ⟨n, Option.bind_eq_some_iff.2 ⟨r, old, held⟩⟩
      · cases held
    · exact .inr handed
  | route i act =>
    obtain ⟨r, db, r', handed, hr, routed, rfl⟩ := step_route hs
    exact h.route hr routed
  | tick act =>
    obtain ⟨db, tick, rfl, rfl | ⟨c, _, _, _, _, _, -, -, rfl⟩⟩ := tickStep_frame hs
    · exact h.quiet book rfl fun _ _ _ hold => hold
    · exact h.resolve ..
  | land v sig slot bt =>
    obtain ⟨-, -, -, -, -, p, rfl⟩ := step_land hs
    exact h.quiet book rfl fun _ _ _ hold => hold
  | clock ms =>
    cases hs
    exact h.outside ⟨still rfl rfl, Nat.le_add_right .., le_rfl, rfl, rfl, rfl, rfl, rfl⟩
  | blocks n =>
    cases hs
    exact h.outside ⟨still rfl rfl, le_rfl, Nat.le_add_right .., rfl, rfl, rfl, rfl, rfl⟩
  | program p =>
    cases hs
    exact h.outside ⟨still rfl rfl, le_rfl, le_rfl, rfl, rfl, rfl, rfl, rfl⟩
  | harvest batchId txHash =>
    cases hs
    refine h.outside ⟨?_, le_rfl, le_rfl, rfl, rfl, rfl, rfl, rfl⟩
    have stays : List.Forall₂ Stays s.db.tickets
        (Harvest.finalizeBatchSuccess s.db batchId txHash s.now).tickets :=
      Table.forall₂_updateMany (fun t _ => .refl t) fun t _ _ => ⟨⟨rfl, rfl, fun _ => ⟨.inl rfl, rfl⟩⟩, rfl⟩
    exact .of_rows h.ids (Table.map_of_forall₂ (·.id) (fun _ _ same => same.id) stays) (fun _ => rfl) stays
  | epoch r =>
    cases hs
    exact h.outside ⟨still (upsertSettledEpoch_tickets ..) (upsertSettledEpoch_relayOrders ..), le_rfl, le_rfl,
      upsertSettledEpoch_payoutClaims .., rfl, rfl, rfl, rfl⟩

/-- A voucher lists harvested tickets of its wallet and asks for what they have won. -/
theorem Earned.voucher (h : Earned s) {v : Voucher} (hv : v ∈ s.vouchers) :
    Backs s.db v.wallet v.amount v.tickets := by
  obtain ⟨i, hi, agrees⟩ := h.book.voucherRow v hv
  exact agrees.1 ▸ h.worth v.claimId v.amount v.tickets i (.inr ⟨v, hv, rfl, rfl, rfl⟩) hi

theorem Earned.initial (book : Book s) (ids : (s.db.tickets.map (·.id)).Nodup)
    (unbound : ∀ t ∈ s.db.tickets, t.payoutClaimId = none) (claims : s.db.payoutClaims = []) : Earned s where
  book := book
  ids := ids
  harvested t ht bound := absurd (unbound t ht) bound
  owners t ht k bound := by
    rw [unbound t ht] at bound
    cases bound
  worth k a ids i _ hi := by
    rw [issue?, Db.claim?, claims] at hi
    cases hi

end Earned

/-! ## Safe schedules -/

/-- What is held in runs of safe steps. -/
structure Paying (s : State) : Prop extends Earned s where
  attribution : Attribution s
  dead : ReleasedDead s
  bound : Bound s

section Paying

variable {s s' : State}

theorem Paying.step (h : Paying s) {a : Action} (ok : paySafe s a = true) (hs : Payout.step s a = some s') :
    Paying s' where
  toEarned := h.toEarned.step hs
  attribution := h.attribution.step h.book (twinSafe_of_expirySafe (paySafe_iff.1 ok).2) hs
  dead := h.dead.step h.book h.attribution ok hs
  bound := h.bound.step h.book h.attribution hs

/-- A claim is bound to the same rows. -/
theorem boundRows_later {db db' : Db} (later : Later Stays db db') {k : Uuid}
    (harvested : ∀ t ∈ db.tickets, t.payoutClaimId ≠ none → Harvested t) :
    boundRows db' k = boundRows db k := by
  obtain ⟨kept, new, tickets, rows, unbound⟩ := later.rows
  have none : new.filter (boundTo k) = [] := by
    refine List.filter_eq_nil_iff.2 fun t ht bound => ?_
    rw [boundTo_eq_true, unbound t ht] at bound
    cases bound
  have rows := (List.forall₂_and_left (p := fun t => t.payoutClaimId ≠ Option.none → Harvested t)
    db.tickets kept).2 ⟨harvested, rows⟩
  have agree : ∀ t t', (t.payoutClaimId ≠ Option.none → Harvested t) ∧ Stays t t' →
      boundTo k t' = boundTo k t := fun t t' both => by rw [boundTo, boundTo, both.2.claim]
  have amounts := Table.map_filter_of_forall₂ (·.winAmount) agree (fun t t' both hit => by
    rw [boundTo_eq_true] at hit
    exact (both.2.prize (both.1 (by rw [hit]; exact Option.some_ne_none k))).2) rows
  have ids := Table.map_filter_of_forall₂ (·.id) agree (fun t t' both _ => both.2.id) rows
  rw [boundRows, boundRows, boundSum, boundSum, Table.sumWhere, Table.sumWhere, boundIds, boundIds, tickets,
    List.filter_append, none, List.append_nil, amounts, ids]

theorem Paying.outside (h : Paying s) (o : Outside s s') : Paying s' where
  toEarned := h.toEarned.outside o
  attribution := h.attribution.meanwhile (meanwhile_frame o.tick o.height o.claims o.landed) h.book
    (apart_frame o.claims h.attribution.apart)
  dead := by
    intro k c hc stamped released
    rw [o.claim?] at hc
    obtain ⟨-, ⟨i, l, hi, hl, past⟩, notLanded⟩ := h.dead k c hc stamped released
    exact ⟨(h.toEarned.outside o).book, ⟨i, l, (o.issue? k).trans hi, hl, past.trans_le o.height⟩,
      o.landed ▸ notLanded⟩
  bound := by
    refine ⟨o.ids, (h.toEarned.outside o).owners, fun k a ids c hold hc standing => ?_, fun k a ids hold => ?_⟩
    · rw [o.claim?] at hc
      exact (boundRows_later o.toLater h.harvested).trans (h.bound.held k a ids c (o.holds hold) hc standing)
    · exact h.bound.positive k a ids (o.holds hold)

theorem Paying.noDoublePayment (h : Paying s) : NoDoublePayment s :=
  noDoublePayment_of_bound h.book h.dead h.bound

theorem Paying.initial (h : Initial s) : Paying s where
  toEarned := .initial (.initial h) h.ticketIds h.unbound h.noClaims
  attribution := .initial h
  dead := .initial h
  bound := .initial h

end Paying

end LordsPot.Payout
