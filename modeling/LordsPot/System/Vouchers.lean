import LordsPot.Payout.Ledger
import LordsPot.System.LifeCycle

/-!
# What a live voucher is worth

A claim that is pending and stamped asks for the sum of its harvested tickets, which a request has
checked against the ceiling. The backend runs here with the ceilings on record, and with handlers
whose writes throw after they took effect.
-/

namespace LordsPot.System

open Transition Payout

/-- The backend, and the ceiling each claim's request read last. -/
structure Watched where
  backend : State
  ceilings : List (Uuid × Nat) := []
  deriving Repr

namespace Watched

inductive Action where
  | step (action : System.Action)
  /-- A write of handler `i` throws; it took effect all the same if `took`. -/
  | throws (i : Nat) (took : Bool)
  deriving Repr

/-- The ceiling that a step reads, for its claim. -/
def reads (s : State) : System.Action → Option (Uuid × Nat)
  | .payout (.route i act) => s.requests[i]?.bind fun r => r.reads s.program act
  | _ => none

/-- The claim whose tickets a handler is about to give back. -/
def releases (s : State) : Action → Option Uuid
  | .step (.payout (.route i .release)) | .throws i true => match s.requests[i]? with
      | some (.releasing k _) => some k
      | _ => none
  | _ => none

/-- A handler gives back the tickets of claims that are not live only. -/
def releaseSafe (s : Watched) (a : Action) : Bool :=
  (releases s.backend a).all fun k => (s.backend.db.claim? k).all fun c => !live c

variable (stringToNumber : String → JsNumber) (keccak256 : String → Bytes32)

def step (s : Watched) : Action → Option Watched
  | .step action =>
      (System.step stringToNumber keccak256 s.backend action).map fun backend =>
        { backend := backend, ceilings := (reads s.backend action).toList ++ s.ceilings }
  | .throws i took => do
      let r ← s.backend.requests[i]?
      let (db, r') ← thrown s.backend.db took r
      pure { s with
        backend := { s.backend.setDb db with requests := s.backend.requests.set i r' } }

def Initial (s : Watched) : Prop := System.Initial keccak256 s.backend ∧ s.ceilings = []

def machine : Machine Watched Action := ⟨Initial keccak256, step stringToNumber keccak256⟩

end Watched

/-- What holds of a live claim: its amount, its tickets, and what confirming it would mark as paid. -/
structure VoucherTrue (s : Watched) (c : PayoutClaim) : Prop where
  priced : Priced s.backend.db s.ceilings c
  tickets : ∀ t ∈ s.backend.db.tickets, t.payoutClaimId = some c.id →
    t.winStatus = .CLAIMED_ON_BASE ∧ s.backend.db.buyer? t = some c.wallet
  /-- The tickets that confirming it marks as paid are those its voucher pays for. -/
  paid : ∀ v ∈ s.backend.vouchers, v.claimId = c.id → v.amount = c.amountUsdc ∧ ∀ sig now,
    confirmClaim s.backend.db c.id sig now = s.backend.db ∨
      (confirmClaim s.backend.db c.id sig now).tickets = Table.updateMany
        (fun t => v.tickets.contains t.id) (fun t => { t with winStatus := .PAID_OUT_ON_SOLANA })
        s.backend.db.tickets

def VouchersTrue (s : Watched) : Prop :=
  ∀ c ∈ s.backend.db.payoutClaims, live c = true → VoucherTrue s c

/-! ## The other components -/

/-- The same buyers behind the same orders, and rows that are kept where harvested. -/
structure Apart (db db' : Db) : Prop where
  claims : db'.payoutClaims = db.payoutClaims
  hashes : db'.relayOrders.map (·.hash) = db.relayOrders.map (·.hash)
  orders : ∀ hash, (db'.order? hash).map (·.buyer) = (db.order? hash).map (·.buyer)
  rows : List.Forall₂ Elsewhere db.tickets db'.tickets

section Components

variable {db db' : Db}

theorem Apart.same (claims : db'.payoutClaims = db.payoutClaims)
    (orders : db'.relayOrders = db.relayOrders) (tickets : db'.tickets = db.tickets) : Apart db db' := by
  refine ⟨claims, by rw [orders], fun hash => by rw [Db.order?, Db.order?, orders], ?_⟩
  rw [tickets]
  exact List.forall₂_same.2 fun t _ => .refl t

theorem Apart.refl (db : Db) : Apart db db := .same rfl rfl rfl

/-- A step that writes tickets only, and keeps the harvested ones. -/
theorem Apart.of_tickets (claims : db'.payoutClaims = db.payoutClaims)
    (orders : db'.relayOrders = db.relayOrders) (ids : (db.tickets.map (·.id)).Nodup)
    (same : db'.tickets.map (·.id) = db.tickets.map (·.id))
    (rows : ∀ t' ∈ db'.tickets, ∃ t ∈ db.tickets, Elsewhere t t') : Apart db db' := by
  refine ⟨claims, by rw [orders], fun hash => by rw [Db.order?, Db.order?, orders], ?_⟩
  refine Table.forall₂_of_keys same ids fun t' ht' => ?_
  obtain ⟨t, ht, row⟩ := rows t' ht'
  exact ⟨t, ht, row.id, row⟩

/-- A row that is pending is not harvested. -/
theorem elsewhere_of_pending {t t' : Ticket} (pending : t.winStatus = .DRAW_PENDING) (id : t'.id = t.id)
    (order : t'.orderHash = t.orderHash) (claim : t'.payoutClaimId = t.payoutClaimId) :
    Elsewhere t t' := by
  refine ⟨id, order, claim, fun claimed => ?_⟩
  rw [pending] at claimed
  cases claimed

theorem apart_relay {keccak256 : String → Bytes32} {r r' : Relay.State} {action : Relay.Action}
    (hashes : (r.db.relayOrders.map (·.hash)).Nodup) (ids : (r.db.tickets.map (·.id)).Nodup)
    (hs : Relay.step keccak256 r action = some r') : Apart r.db r'.db := by
  have same := (forwards_relay hs).ids
  have kept := Relay.step_hashes hs
  rcases Relay.step_db hs with quiet | requeued | ⟨_, _, _, _, s₁, -, -, effect, eq⟩
  · rw [quiet]
    exact .refl _
  · rw [requeued]
    refine ⟨rfl, requeued ▸ kept, fun hash => ?_, List.forall₂_same.2 fun t _ => .refl t⟩
    have lookup : (Relay.requeueDeferred r.db).order? hash = _ :=
      Table.findUnique_updateMany RelayOrder.hash (f := fun o => { o with status := .QUEUED })
        (fun _ => rfl) hash
    rw [lookup, Option.map_map]
    congr 1
    funext o
    rw [Function.comp_apply]
    split <;> rfl
  · rw [eq] at same kept ⊢
    refine ⟨effect.payoutClaims, kept, ?_, ?_⟩
    · have orders := Table.forall₂_of_keys (R := fun o o' => o'.hash = o.hash ∧ o'.buyer = o.buyer)
        effect.hashes hashes fun o' ho' => by
          obtain ⟨o, ho, rule⟩ := effect.orders o' ho'
          exact ⟨o, ho, rule.hash, rule.hash, rule.buyer⟩
      exact Table.findUnique_of_forall₂ RelayOrder.buyer (fun _ _ => id) orders
    · refine Table.forall₂_of_keys same ids fun t' ht' => ?_
      obtain ⟨t, ht, row⟩ := effect.rows t' ht'
      have own : t'.id = t.id := congrArg (·.id) row.columns
      have results := row.results
      simp only [Ticket.results, Prod.mk.injEq] at results
      obtain ⟨status, amount, -, -, claim⟩ := results
      exact ⟨t, ht, own, own, row.order, claim, fun claimed => ⟨status.trans claimed, amount⟩⟩

theorem apart_settlePage {grades : Settlement.Grades} (ids : (db.tickets.map (·.id)).Nodup) :
    Apart db (Settlement.settlePage db grades) := by
  refine .of_tickets rfl rfl ids settlePage_ids ?_
  refine Settlement.settlePage_rows .refl .trans (fun t pending => ?_) fun t g pending => ?_
  · exact elsewhere_of_pending pending rfl rfl rfl
  · exact elsewhere_of_pending pending rfl rfl rfl

theorem apart_upsert {round : SettledRound} : Apart db (upsertSettledEpoch db round) :=
  .same (upsertSettledEpoch_payoutClaims ..) (upsertSettledEpoch_relayOrders ..)
    (upsertSettledEpoch_tickets ..)

theorem apart_settlementWrite (ids : (db.tickets.map (·.id)).Nodup)
    (write : Settlement.TickWrite db db') : Apart db db' := by
  cases write with
  | nothing => exact .refl _
  | upsert round => exact apart_upsert
  | settle grades => exact apart_settlePage ids
  | mark megapotId now => exact .same rfl rfl rfl

theorem apart_settlement {stringToNumber : String → JsNumber} {keccak256 : String → Bytes32}
    {s s' : Settlement.State} {action : Settlement.Action}
    (hashes : (s.relay.db.relayOrders.map (·.hash)).Nodup)
    (ids : (s.relay.db.tickets.map (·.id)).Nodup)
    (hs : Settlement.step stringToNumber keccak256 s action = some s') :
    Apart s.relay.db s'.relay.db := by
  rcases Settlement.step_writes hs with ⟨action, relay, rfl, stepped, rfl⟩ | write
  · exact apart_relay hashes ids stepped
  · exact apart_settlementWrite ids write

/-- A harvest takes winners, which are not harvested yet. -/
theorem elsewhere_of_harvest {t t' : Ticket} {u u' : Harvest.Tick} (rule : Harvest.RowRule u u' t t') :
    Elsewhere t t' := by
  refine ⟨by rw [rule.rest], by rw [rule.rest], by rw [rule.rest], fun claimed => ⟨?_, by rw [rule.rest]⟩⟩
  rcases rule.status with same | ⟨-, won, -⟩
  · rw [same, claimed]
  · rw [Harvest.harvestable, claimed] at won
    cases won

theorem apart_harvest {s s' : Harvest.State} {action : Harvest.Action} (own : action.own = true)
    (ids : (s.db.tickets.map (·.id)).Nodup) (hs : Harvest.step s action = some s') :
    Apart s.db s'.db := by
  cases Harvest.stepMove hs with
  | tick here effect =>
    refine .of_tickets (by cases effect <;> rfl) (by cases effect <;> rfl) ids effect.ids ?_
    intro t' ht'
    obtain ⟨t, ht, rule⟩ := Table.exists_of_forall₂_right effect.rows ht'
    exact ⟨t, ht, elsewhere_of_harvest rule⟩
  | start | mine | unquarantine => exact .refl _
  | clock | grade | settled => cases own

end Components

/-! ## The invariant -/

section Invariant

variable {stringToNumber : String → JsNumber} {keccak256 : String → Bytes32} {s : State}
  {ceilings : List (Uuid × Nat)}

/-- What a run keeps: distinct orders and tickets, and the ledger. -/
structure Kept (s : Watched) : Prop where
  hashes : (s.backend.db.relayOrders.map (·.hash)).Nodup
  ids : (s.backend.db.tickets.map (·.id)).Nodup
  ledger : Ledger s.backend.payout s.ceilings

/-- Another component's step, and any step of the payout path that writes nothing. -/
theorem Apart.ledger {s' : State} (apart : Apart s.db s'.db) (h : Ledger s.payout ceilings)
    (requests : ∀ (n : Nat) r, s'.requests[n]? = some r → s.requests[n]? = some r ∨ r.claimId? = none)
    (vouchers : s'.vouchers = s.vouchers) : Ledger s'.payout ceilings :=
  h.frame apart.claims requests vouchers apart.orders apart.rows

/-- A step of the payout path that writes nothing. -/
theorem ledger_quiet {p p' : Payout.State} (h : Ledger p ceilings) (db : p'.db = p.db)
    (requests : ∀ (n : Nat) r, p'.requests[n]? = some r → p.requests[n]? = some r ∨ r.claimId? = none)
    (vouchers : p'.vouchers = p.vouchers) : Ledger p' ceilings := by
  refine h.frame (by rw [db]) requests vouchers (fun _ => by rw [db]) ?_
  rw [db]
  exact List.forall₂_same.2 fun t _ => .refl t

theorem request_append {requests : List Request} {w : Wallet} {n : Nat} {r : Request}
    (hn : (requests ++ [Request.received w])[n]? = some r) :
    requests[n]? = some r ∨ r.claimId? = none := by
  rcases Table.of_getElem?_concat hn with old | ⟨-, rfl⟩
  · exact .inl old
  · exact .inr rfl

theorem ledger_payout {action : Payout.Action} {p : Payout.State} (own : action.own = true)
    (h : Ledger s.payout ceilings)
    (safe : Watched.releaseSafe ⟨s, ceilings⟩ (.step (.payout action)) = true)
    (hs : Payout.step s.payout action = some p) :
    Ledger p ((Watched.reads s (.payout action)).toList ++ ceilings) := by
  cases action with
  | request w =>
    cases hs
    exact ledger_quiet h rfl (fun _ _ => request_append) rfl
  | route i act =>
    obtain ⟨r, db, r', handed, hr, routed, rfl⟩ := Payout.step_route hs
    have reads : Watched.reads s (.payout (.route i act)) = r.reads s.program act := by
      rw [Watched.reads, show s.requests[i]? = some r from hr, Option.bind_some]
    rw [reads]
    refine h.handled hr (handled_routeStep routed) fun k status c same act' hc => ?_
    subst same
    subst act'
    rw [Watched.releaseSafe, Watched.releases, show s.requests[i]? = some _ from hr] at safe
    simpa [show s.db.claim? k = some c from hc] using safe
  | tick act =>
    obtain ⟨db, tick, rfl, same | ⟨c, _, _, _, _, _, -, -, resolved⟩⟩ := Payout.tickStep_frame hs
    · exact ledger_quiet h same (fun _ _ => .inl) rfl
    · rw [resolved]
      exact h.resolve ..
  | land v sig slot bt =>
    obtain ⟨-, -, -, -, -, p, rfl⟩ := Payout.step_land hs
    exact ledger_quiet h rfl (fun _ _ => .inl) rfl
  | blocks n => cases hs; exact ledger_quiet h rfl (fun _ _ => .inl) rfl
  | program p => cases hs; exact ledger_quiet h rfl (fun _ _ => .inl) rfl
  | clock | harvest | epoch => cases own

/-- A handler whose write throws keeps the ledger, unless it gives back a live claim's tickets. -/
theorem ledger_throws {i : Nat} {took : Bool} {r r' : Request} {db : Db}
    (h : Ledger s.payout ceilings) (safe : Watched.releaseSafe ⟨s, ceilings⟩ (.throws i took) = true)
    (hr : s.requests[i]? = some r) (failed : thrown s.db took r = some (db, r')) :
    Ledger { s.setDb db with requests := s.requests.set i r' }.payout ceilings := by
  obtain ⟨act, handled, released⟩ := handled_thrown failed
  have after := h.handled hr handled fun k status c same act' hc => by
    obtain ⟨rfl, j, same'⟩ := released act'
    rw [same] at same' hr
    rw [Watched.releaseSafe, Watched.releases, hr] at safe
    simpa [show s.db.claim? k = some c from hc] using safe
  exact ledger_quiet after rfl (fun _ _ => .inl) (List.append_nil _).symm

/-- **The voucher rule**: a safe step keeps the ledger. -/
theorem Kept.step {s s' : Watched} {a : Watched.Action} (h : Kept s)
    (safe : Watched.releaseSafe s a = true)
    (hs : Watched.step stringToNumber keccak256 s a = some s') : Kept s' := by
  cases a with
  | step action =>
    obtain ⟨backend, stepped, rfl⟩ := Option.map_eq_some_iff.1 hs
    have forwards := forwards_step stepped
    have ids : (backend.db.tickets.map (·.id)).Nodup := forwards.ids ▸ h.ids
    rcases step_cases stepped with ⟨action, settlement, rfl, settled, rfl⟩ |
      ⟨action, harvest, rfl, own, harvested, rfl⟩ | ⟨action, p, rfl, own, paid, rfl⟩ | ⟨id, rfl, rfl⟩
    · have apart := apart_settlement h.hashes h.ids settled
      exact ⟨apart.hashes ▸ h.hashes, ids, apart.ledger h.ledger (fun _ _ => .inl) rfl⟩
    · have apart := apart_harvest own h.ids harvested
      exact ⟨apart.hashes ▸ h.hashes, ids, apart.ledger h.ledger (fun _ _ => .inl) rfl⟩
    · have after := ledger_payout own h.ledger safe paid
      refine ⟨?_, ids, ledger_quiet after rfl (fun _ _ => .inl) rfl⟩
      rw [State.putPayout_db, (payout_written own paid).orders]
      exact h.hashes
    · exact ⟨h.hashes, h.ids, h.ledger⟩
  | throws i took =>
    obtain ⟨r, hr, hs⟩ := Option.bind_eq_some_iff.1 hs
    obtain ⟨⟨db, r'⟩, failed, hs⟩ := Option.bind_eq_some_iff.1 hs
    cases hs
    obtain ⟨_, handled, -⟩ := handled_thrown failed
    refine ⟨?_, ?_, ledger_throws h.ledger safe hr failed⟩
    · show (db.relayOrders.map (·.hash)).Nodup
      rw [handled.tickets.orders]
      exact h.hashes
    · show (db.tickets.map (·.id)).Nodup
      rw [handled.tickets.ids]
      exact h.ids

theorem Kept.initial {s : Watched} (h : Watched.Initial keccak256 s) : Kept s where
  hashes := h.1.settlement.relay.orderHashes
  ids := h.1.settlement.relay.ticketIds
  ledger := .initial h.1.noClaims h.1.unclaimed h.1.noRequests h.1.noVouchers

/-- A claim whose tickets are all harvested marks them, and no others. -/
theorem confirmClaim_tickets {db : Db} {k : Uuid} (ids : (db.tickets.map (·.id)).Nodup)
    (claimed : ∀ t ∈ db.tickets, t.payoutClaimId = some k → t.winStatus = .CLAIMED_ON_BASE)
    (sig : Signature) (now : Nat) :
    confirmClaim db k sig now = db ∨ (confirmClaim db k sig now).tickets = Table.updateMany
      (fun t => (boundIds db k).contains t.id) (fun t => { t with winStatus := .PAID_OUT_ON_SOLANA })
      db.tickets := by
  have hits : ∀ t ∈ db.tickets, (boundTo k t && t.winStatus == .CLAIMED_ON_BASE) =
      (boundIds db k).contains t.id := by
    intro t ht
    rw [Bool.eq_iff_iff, Bool.and_eq_true, beq_iff_eq, List.contains_iff_mem, boundIds, List.mem_map]
    constructor
    · rintro ⟨bound, -⟩
      exact ⟨t, List.mem_filter.2 ⟨ht, bound⟩, rfl⟩
    · rintro ⟨t', mem, same⟩
      obtain ⟨ht', bound⟩ := List.mem_filter.1 mem
      rw [List.inj_on_of_nodup_map ids ht' ht same] at bound
      exact ⟨bound, claimed t ht (boundTo_eq_true.1 bound)⟩
  unfold confirmClaim
  split
  · right
    exact List.map_congr_left fun t ht => by simp only [hits t ht]
  · exact .inl rfl

theorem Kept.vouchersTrue {s : Watched} (h : Kept s) : VouchersTrue s := by
  intro c hc hl
  have found : s.backend.db.claim? c.id = some c := Table.findUnique_of_mem h.ledger.owned.ids hc
  have priced := h.ledger.priced c.id c found hl
  have pending := (live_iff.1 hl).1
  have tickets : ∀ t ∈ s.backend.db.tickets, t.payoutClaimId = some c.id →
      t.winStatus = .CLAIMED_ON_BASE ∧ s.backend.db.buyer? t = some c.wallet := by
    intro t ht bound
    obtain ⟨c₀, hc₀, buyer, claimed⟩ := h.ledger.buyers t ht c.id bound
    cases found.symm.trans hc₀
    exact ⟨claimed pending, buyer⟩
  refine ⟨priced, tickets, fun v hv same => ?_⟩
  have rows := h.ledger.held v.claimId v.amount v.tickets c (.inr ⟨v, hv, rfl, rfl, rfl⟩)
    (same ▸ found) pending
  rw [same] at rows
  refine ⟨?_, fun sig now => ?_⟩
  · rw [priced.amount]
    exact (congrArg Prod.fst rows).symm
  · rw [← show boundIds s.backend.db c.id = v.tickets from congrArg Prod.snd rows]
    exact confirmClaim_tickets h.ids (fun t ht bound => (tickets t ht bound).1) sig now

end Invariant

/-- **A live voucher is worth its tickets** in every run in which handlers give back the tickets of
claims that are not live only. -/
theorem vouchers_true {stringToNumber : String → JsNumber} {keccak256 : String → Bytes32} {s : Watched}
    (h : (Watched.machine stringToNumber keccak256).ReachableBy
      (fun s a => Watched.releaseSafe s a = true) s) : VouchersTrue s := by
  have kept : Kept s := h.invariant (fun s (hi : Watched.Initial keccak256 s) => .initial hi)
    fun _ _ _ inv ok hs => inv.step ok hs
  exact kept.vouchersTrue

/-- Steps of the first handler. -/
def handler (acts : List RouteAct) : List Watched.Action := acts.map fun act => .step (.payout (.route 0 act))

/-- The buyer of the harvested ticket asks for a voucher, and the handler goes as far as the stamp. -/
def requested : List Watched.Action :=
  (graded ++ harvested ++ [Action.payout (.request "w")]).map .step ++
    handler [.gate false, .findExisting, .readRevealed, .create "c", .bind, .sum, .ceiling true,
      .build (some 150)]

theorem initial_watched : Watched.Initial id { backend := idle } := ⟨initial_idle, rfl⟩

/-- The stamp throws although it took effect, and the handler gives the tickets back. -/
theorem voucher_without_tickets : ¬ ∀ (stringToNumber : String → JsNumber)
    (keccak256 : String → Bytes32) (s : Watched),
    (Watched.machine stringToNumber keccak256).Reachable s → VouchersTrue s := by
  intro all
  obtain ⟨s, hs, hp⟩ := Machine.exists_reachable_of_run (M := Watched.machine (fun _ => .other) id)
    initial_watched (requested ++ .throws 0 true :: handler [.release])
    (fun s => s.backend.db.payoutClaims.any fun c => live c && c.amountUsdc == 100 &&
      boundSum s.backend.db c.id == 0)
    (by decide +kernel)
  simp only [List.any_eq_true, Bool.and_eq_true, beq_iff_eq] at hp
  obtain ⟨c, hc, ⟨alive, amount⟩, none⟩ := hp
  have sum := (all _ _ s hs c hc alive).priced.amount
  rw [amount, none] at sum
  cases sum

/-- The voucher is handed out. -/
theorem vouchers_true_handed : ∃ s : Watched,
    (s.backend.vouchers.any fun v => s.backend.db.payoutClaims.any fun c =>
      c.id == v.claimId && live c) = true ∧ VouchersTrue s := by
  obtain ⟨s, hs, hp⟩ := Machine.exists_reachableBy_of_runBy (M := Watched.machine (fun _ => .other) id)
    Watched.releaseSafe initial_watched (requested ++ handler [.stamp false, .handOut])
    (fun s => s.backend.vouchers.any fun v => s.backend.db.payoutClaims.any fun c =>
      c.id == v.claimId && live c)
    (by decide +kernel)
  exact ⟨s, hp, vouchers_true hs⟩

end LordsPot.System
