import LordsPot.Payout.Grounds
import LordsPot.Payout.Ledger

/-!
# What requests leave behind

The payout path, with a record of which request created which claim, which claim took which ticket
last, and which ticks of the confirmer have gone through. A write of the route may throw here: inside
its `try` blocks the handler goes on to an error path, and outside of them Express answers the error.

The run starts from any database that keeps its keys, with any vouchers that were handed out and any
that have landed.
-/

namespace LordsPot.Payout

open Transition

/-- A tick that has run to its end with all its writes made, or that has still to: the handlers and
the clock as it opened, and what it went by. -/
structure Tour where
  requests : List Request
  openedAt : Nat
  complete : Bool := true
  height : Nat
  deriving Repr

/-- The tick was past the claim: past the grace where it is not stamped, and else behind a complete
sweep and past its block height and the buffer. -/
def Tour.past (tour : Tour) (c : PayoutClaim) : Bool :=
  match c.lastValidBlockHeight with
  | none => decide (UNSIGNED_GRACE_MS < tour.openedAt - c.createdAt)
  | some l => tour.complete && decide (l + EXPIRY_BUFFER_BLOCKS < tour.height)

/-- The payout path with its record, all of it newest first. -/
structure Trailed where
  payout : State
  /-- Each request with the claim it created. -/
  made : List (Nat × Uuid) := []
  /-- Each ticket with the claim it was bound to. -/
  took : List (Uuid × Uuid) := []
  /-- The tick that is under way, unless something of it has failed. -/
  opened : Option Tour := none
  tours : List Tour := []
  deriving Repr

inductive TrailAction where
  | step (action : Action)
  /-- A write of handler `i` throws inside a `try` block; it took effect all the same if `took`. -/
  | throws (i : Nat) (took : Bool)
  /-- A statement of handler `i` throws outside of them, without effect. -/
  | rejects (i : Nat)
  deriving Repr

/-- The handler awaits a statement that is in no `try` block. -/
def Request.unguarded : Request → Bool
  | .received _ | .admitted _ | .noneLive _ | .revealed .. | .created .. | .bound .. => true
  | .releasing _ status | .deleting _ status => status != 409
  | _ => false

/-! ## The record -/

/-- `@default(uuid())` gives no id twice, also where the row is gone again. -/
def newId (s : Trailed) : Action → Bool
  | .route _ (.create id) => s.made.all (·.2 != id)
  | _ => true

def creates? : Action → Option (Nat × Uuid)
  | .route i (.create id) => some (i, id)
  | _ => none

/-- The tickets that a step binds, with their claim. -/
def takes (s : State) : Action → List (Uuid × Uuid)
  | .route i .bind => match s.requests[i]? with
    | some (.created w k epochs) =>
        (s.db.tickets.filter (claimable s.db w epochs)).map fun t => (t.id, k)
    | _ => []
  | _ => []

/-- The record of the ticks after a step of the confirmer. -/
def toured (s : Trailed) : Action → Option Tour × List Tour
  | .tick .readPending =>
      let tour : Tour :=
        { requests := s.payout.requests, openedAt := s.payout.now, height := s.payout.height }
      if (findPending s.payout.db).isEmpty then (none, tour :: s.tours) else (some tour, s.tours)
  | .tick (.resolveNext false) => match s.payout.tick with
    | some (.resolving [_] _ landed _ height) =>
        (none, (s.opened.map fun tour =>
          { tour with complete := landed.complete, height := height }).toList ++ s.tours)
    | _ => (s.opened, s.tours)
  | .tick (.resolveNext true) | .tick .sweepThrows | .tick .crash => (none, s.tours)
  | _ => (s.opened, s.tours)

/-- Handler `i` goes on as `r'`, with this database. -/
def goesOn (s : Trailed) (i : Nat) (db : Db) (r' : Request) : Trailed :=
  { s with payout := { s.payout with db := db, requests := s.payout.requests.set i r' } }

def trailedStep (s : Trailed) : TrailAction → Option Trailed
  | .step a =>
      if newId s a then
        (step s.payout a).map fun payout =>
          { payout := payout
            made := (creates? a).toList ++ s.made
            took := takes s.payout a ++ s.took
            opened := (toured s a).1
            tours := (toured s a).2 }
      else none
  | .throws i took => do
      let r ← s.payout.requests[i]?
      let (db, r') ← thrown s.payout.db took r
      some (goesOn s i db r')
  | .rejects i => do
      let r ← s.payout.requests[i]?
      if r.unguarded then some (goesOn s i s.payout.db (.answered 500)) else none

section Inversion

variable {s s' : Trailed}

/-- A step of the payout path, with its record. -/
theorem trailedStep_step {a : Action} (hs : trailedStep s (.step a) = some s') :
    newId s a = true ∧ ∃ payout, step s.payout a = some payout ∧ s' =
      { payout := payout
        made := (creates? a).toList ++ s.made
        took := takes s.payout a ++ s.took
        opened := (toured s a).1
        tours := (toured s a).2 } := by
  rw [trailedStep] at hs
  split at hs
  · rename_i fresh
    obtain ⟨payout, stepped, rfl⟩ := Option.map_eq_some_iff.1 hs
    exact ⟨fresh, payout, stepped, rfl⟩
  · cases hs

theorem trailedStep_throws {i : Nat} {took : Bool} (hs : trailedStep s (.throws i took) = some s') :
    ∃ r db r', s.payout.requests[i]? = some r ∧ thrown s.payout.db took r = some (db, r') ∧
      s' = goesOn s i db r' := by
  obtain ⟨r, hr, hs⟩ := Option.bind_eq_some_iff.1 hs
  obtain ⟨⟨db, r'⟩, threw, hs⟩ := Option.bind_eq_some_iff.1 hs
  cases hs
  exact ⟨r, db, r', hr, threw, rfl⟩

theorem trailedStep_rejects {i : Nat} (hs : trailedStep s (.rejects i) = some s') :
    ∃ r, s.payout.requests[i]? = some r ∧ r.unguarded = true ∧
      s' = goesOn s i s.payout.db (.answered 500) := by
  obtain ⟨r, hr, hs⟩ := Option.bind_eq_some_iff.1 hs
  split at hs
  · rename_i unguarded
    cases hs
    exact ⟨r, hr, unguarded, rfl⟩
  · cases hs

end Inversion

/-- The keys are kept, and only vouchers that were handed out have landed. -/
structure Start (s : Trailed) : Prop where
  claimIds : (s.payout.db.payoutClaims.map (·.id)).Nodup
  ticketIds : (s.payout.db.tickets.map (·.id)).Nodup
  bound : ∀ t ∈ s.payout.db.tickets, ∀ k, t.payoutClaimId = some k → s.payout.db.claim? k ≠ none
  vouchers : ∀ v ∈ s.payout.vouchers, s.payout.db.claim? v.claimId ≠ none
  landed : ∀ l ∈ s.payout.landed, l.voucher ∈ s.payout.vouchers
  noRequests : s.payout.requests = []
  noTick : s.payout.tick = none
  noRecord : s.made = [] ∧ s.took = [] ∧ s.opened = none ∧ s.tours = []

def trailedMachine : Machine Trailed TrailAction := ⟨Start, trailedStep⟩

/-! ## The condition -/

/-- Tickets are bound to a claim only as long as it is pending. -/
def bindsPending (s : State) : Action → Bool
  | .route i .bind => match s.requests[i]? with
    | some (.created w k epochs) =>
        status? s.db k == some .PENDING || s.db.tickets.all fun t => !claimable s.db w epochs t
    | _ => true
  | _ => true

/-- The oldest landing that can belong to the claim that is resolved is of its own voucher. -/
def resolvesOwn (s : State) : Action → Bool
  | .tick (.resolveNext false) => match s.tick with
    | some (.resolving (c :: _) _ answer used _) => s.landed.all fun l =>
        !fits used c l.claim || l.voucher.claimId == c.id ||
          answer.claims.any fun e => fits used c e && decide (e.slot < l.slot)
    | _ => true
  | _ => true

/-- And no statement throws outside the `try` blocks once there is a claim. -/
def traceSafe (s : Trailed) : TrailAction → Bool
  | .step a => bindsPending s.payout a && resolvesOwn s.payout a
  | .throws _ _ => true
  | .rejects i => s.payout.requests[i]?.all fun r => r.claimId?.isNone

/-! ## What a handler's step does -/

/-- Where the handler that created claim `k` can stand: at the claim still, or it has answered, without
leaving the row where the answer is an error, or it has crashed. -/
inductive Stage (db : Db) (k : Uuid) : Request → Prop where
  | own {r : Request} (own : r.claimId? = some k) : Stage db k r
  | answered {status : Nat} (gone : 400 ≤ status → db.claim? k = none) : Stage db k (.answered status)
  | crashed : Stage db k .crashed

/-- What a handler's step makes of the handler and of rows that were not there. -/
structure Treads (db : Db) (r : Request) (db' : Db) (r' : Request) : Prop where
  stage : ∀ k, r.claimId? = some k → Stage db' k r'
  ended : (∃ status, r = .answered status) ∨ r = .crashed → r' = .crashed
  new : ∀ k c', db.claim? k = none → db'.claim? k = some c' →
    r.claimId? = none ∧ r'.claimId? = some k ∧ c'.status = .PENDING
  gone : ∀ k, db.claim? k ≠ none → db'.claim? k = none → ∀ t ∈ db'.tickets, t.payoutClaimId ≠ some k

/-- What a handler's step makes of a ticket row, where it binds none: its claim's may be freed. -/
inductive HandlerRow (r : Request) (t : Ticket) : Ticket → Prop where
  | kept : HandlerRow r t t
  | freed {k : Uuid} (own : r.claimId? = some k) (bound : t.payoutClaimId = some k) :
      HandlerRow r t { t with payoutClaimId := none }

section Handler

variable {now : Nat} {program : Program} {adminKey : Wallet} {db db' : Db} {r r' : Request}
  {act : RouteAct} {handed : Option Voucher}

/-- A step that neither adds nor drops a row. -/
theorem Treads.quiet (stage : ∀ k, r.claimId? = some k → Stage db' k r')
    (ended : (∃ status, r = .answered status) ∨ r = .crashed → r' = .crashed)
    (rows : ∀ k, db'.claim? k = none ↔ db.claim? k = none) : Treads db r db' r' := by
  refine ⟨stage, ended, fun k c' none some => ?_, fun k there none => absurd ((rows k).1 none) there⟩
  rw [(rows k).2 none] at some
  cases some

theorem ended_routeStep (h : routeStep now program adminKey db r act = some (db', r', handed))
    (ended : (∃ status, r = .answered status) ∨ r = .crashed) : r' = .crashed := by
  rcases ended with ⟨status, rfl⟩ | rfl
  · cases act <;> cases h
    rfl
  · cases act <;> cases h
    rfl

theorem claim?_stampClaim_none {j : Uuid} {a l : Nat} (k : Uuid) :
    (stampClaim db j a l).claim? k = none ↔ db.claim? k = none := by
  rw [claim?_stampClaim, Option.map_eq_none_iff]

theorem unbound_unbindTickets {k : Uuid} : ∀ t ∈ (unbindTickets db k).tickets, t.payoutClaimId ≠ some k := by
  intro t' ht' own
  obtain ⟨t, -, rfl⟩ := Table.mem_updateMany.1 ht'
  split at own
  · cases own
  · rename_i miss
    exact miss (boundTo_eq_true.2 own)

/-- The row of a claim is deleted, with the bindings to it. -/
theorem treads_delete {k : Uuid} (own : r.claimId? = some k)
    (stage : (deleteClaim db k).claim? k = none → Stage (deleteClaim db k) k r')
    (ended : (∃ status, r = .answered status) ∨ r = .crashed → r' = .crashed) :
    Treads db r (deleteClaim db k) r' := by
  refine ⟨fun j hj => ?_, ended, fun j c' none some => ?_, fun j there none => ?_⟩
  · cases own.symm.trans hj
    exact stage (by rw [claim?_deleteClaim, if_pos rfl])
  · rw [claim?_deleteClaim, none, ite_self] at some
    cases some
  · rw [claim?_deleteClaim] at none
    split at none
    · rename_i same
      rw [same]
      exact unbound_unbindTickets
    · exact absurd none there

theorem treads_routeStep (h : routeStep now program adminKey db r act = some (db', r', handed)) :
    Treads db r db' r' := by
  have ended := ended_routeStep h
  cases routeMove h with
  | answer before =>
    refine .quiet (fun k hk => ?_) ended fun _ => .rfl
    rw [before] at hk
    cases hk
  | unpaused | noneLive | reveal => exact .quiet (fun _ hk => by cases hk) ended fun _ => .rfl
  | create fresh =>
    refine ⟨fun _ hk => (by cases hk), ended, fun k c' none some => ?_, fun k there none => ?_⟩
    · rw [claim?_createClaim _ _ _ _ fresh] at some
      split at some
      · rename_i same
        cases some
        exact ⟨rfl, congrArg _ same, rfl⟩
      · rw [none] at some
        cases some
    · rw [claim?_createClaim _ _ _ _ fresh] at none
      split at none
      · cases none
      · exact absurd none there
  | bind | empty | sum | refuse | ceiling | noBuild | build | noStamp | release =>
    exact .quiet (fun _ hk => .own hk) ended fun _ => .rfl
  | stamp => exact .quiet (fun _ hk => .own hk) ended claim?_stampClaim_none
  | handOut =>
    refine .quiet (fun _ _ => .answered fun error => ?_) ended fun _ => .rfl
    omega
  | delete => exact treads_delete rfl (fun gone => .answered fun _ => gone) ended
  | crash => exact .quiet (fun _ _ => .crashed) ended fun _ => .rfl

theorem treads_thrown {took : Bool} (h : thrown db took r = some (db', r')) : Treads db r db' r' := by
  have ended : (∃ status, r = .answered status) ∨ r = .crashed → r' = .crashed := by
    rintro (⟨status, rfl⟩ | rfl) <;> cases h
  unfold thrown at h
  split at h
  · rename_i v
    cases took <;> cases h
    · exact .quiet (fun _ hk => .own hk) ended fun _ => .rfl
    · exact .quiet (fun _ hk => .own hk) ended claim?_stampClaim_none
  · cases took <;> cases h <;> exact .quiet (fun _ hk => .own hk) ended fun _ => .rfl
  · cases took <;> cases h
    · exact .quiet (fun _ hk => .own hk) ended fun _ => .rfl
    · exact treads_delete rfl (fun gone => .answered fun _ => gone) ended
  · cases h

theorem rows_unbind {k : Uuid} (own : r.claimId? = some k) :
    List.Forall₂ (HandlerRow r) db.tickets (unbindTickets db k).tickets :=
  Table.forall₂_updateMany (fun _ _ => .kept) fun _ _ hit => .freed own (boundTo_eq_true.1 hit)

theorem rows_same : List.Forall₂ (HandlerRow r) db.tickets db.tickets :=
  List.forall₂_same.2 fun _ _ => .kept

theorem rows_routeStep (h : routeStep now program adminKey db r act = some (db', r', handed))
    (other : act ≠ .bind) : List.Forall₂ (HandlerRow r) db.tickets db'.tickets := by
  cases routeMove h with
  | bind => exact absurd rfl other
  | release | delete => exact rows_unbind rfl
  | _ => exact rows_same

theorem rows_thrown {took : Bool} (h : thrown db took r = some (db', r')) :
    List.Forall₂ (HandlerRow r) db.tickets db'.tickets := by
  unfold thrown at h
  split at h
  · cases took <;> cases h <;> exact rows_same
  · cases took <;> cases h
    · exact rows_same
    · exact rows_unbind rfl
  · cases took <;> cases h
    · exact rows_same
    · exact rows_unbind rfl
  · cases h

end Handler

/-! ## What a step does to the record -/

/-- A voucher of the claim has landed. -/
def Landed (s : State) (k : Uuid) : Prop := ∃ l ∈ s.landed, l.voucher.claimId = k

/-- What a step makes of a ticket row, and of the record of it. -/
inductive RowMove (s s' : Trailed) (t : Ticket) : Ticket → Prop where
  | elsewhere {t' : Ticket} (row : Elsewhere t t')
      (same : s'.took.lookup t.id = s.took.lookup t.id) : RowMove s s' t t'
  | bound {k : Uuid} (claimed : t.winStatus = .CLAIMED_ON_BASE)
      (pending : status? s'.payout.db k = some .PENDING) (recorded : s'.took.lookup t.id = some k) :
      RowMove s s' t { t with payoutClaimId := some k }
  | freed (same : s'.took.lookup t.id = s.took.lookup t.id) :
      RowMove s s' t { t with payoutClaimId := none }
  | paid {k : Uuid} (bound : t.payoutClaimId = some k) (landed : Landed s.payout k)
      (same : s'.took.lookup t.id = s.took.lookup t.id) :
      RowMove s s' t { t with winStatus := .PAID_OUT_ON_SOLANA }

/-- What a step makes of the row of claim `k`. -/
inductive ClaimMove (s s' : Trailed) (k : Uuid) (c' : PayoutClaim) : Prop where
  | kept {c : PayoutClaim} (row : s.payout.db.claim? k = some c) (same : c'.status = c.status)
  | confirmed (status : c'.status = .CONFIRMED) (landed : Landed s.payout k)
  | released (ended : c'.status ≠ .PENDING ∧ c'.status ≠ .CONFIRMED)
      (free : ∀ t ∈ s'.payout.db.tickets, t.payoutClaimId ≠ some k)
  | new (fresh : s.payout.db.claim? k = none) (pending : c'.status = .PENDING)

structure TrailStep (s s' : Trailed) : Prop where
  rows : List.Forall₂ (RowMove s s') s.payout.db.tickets s'.payout.db.tickets
  claims : ∀ k c', s'.payout.db.claim? k = some c' → ClaimMove s s' k c'
  gone : ∀ k, s.payout.db.claim? k ≠ none → s'.payout.db.claim? k = none →
    ∀ t ∈ s'.payout.db.tickets, t.payoutClaimId ≠ some k
  made : ∀ e ∈ s'.made, e ∈ s.made ∨ s.payout.db.claim? e.2 = none
  landed : ∀ l ∈ s.payout.landed, l ∈ s'.payout.landed

theorem RowMove.id {s s' : Trailed} {t t' : Ticket} (h : RowMove s s' t t') : t'.id = t.id := by
  cases h with
  | elsewhere row => exact row.id
  | _ => rfl

/-! ## The steps of a handler -/

/-- Handler `i` makes a step, from `r` to `r'`. -/
structure HandlerMove (s s' : Trailed) (i : Nat) (r r' : Request) (db : Db) (handed : Option Voucher) :
    Prop where
  request : s.payout.requests[i]? = some r
  after : s'.payout = afterRoute s.payout i db r' handed
  handled : ∃ act read, Handled s.payout.db r act read db r' handed
  treads : Treads s.payout.db r db r'
  rows : List.Forall₂ (RowMove s s') s.payout.db.tickets db.tickets
  made : (s'.made = s.made ∧ ∀ k, r'.claimId? = some k → r.claimId? = some k) ∨
    ∃ k, s'.made = (i, k) :: s.made ∧ r'.claimId? = some k ∧ s.payout.db.claim? k = none ∧
      ∀ e ∈ s.made, e.2 ≠ k
  ticks : s'.opened = s.opened ∧ s'.tours = s.tours

section HandlerMove

variable {s s' : Trailed} {i : Nat}

/-- A row that its handler keeps or frees, where nothing is bound. -/
theorem HandlerRow.move {r : Request} {t t' : Ticket} (h : HandlerRow r t t') (took : s'.took = s.took) :
    RowMove s s' t t' := by
  cases h with
  | kept => exact .elsewhere (.refl t) (by rw [took])
  | freed => exact .freed (by rw [took])

/-- A claim that stays with its handler is one that it had, unless it has just created it. -/
theorem own_of_routeStep {now : Nat} {program : Program} {adminKey : Wallet} {db db' : Db}
    {r r' : Request} {act : RouteAct} {handed : Option Voucher}
    (h : routeStep now program adminKey db r act = some (db', r', handed))
    (other : ∀ id, act ≠ .create id) {k : Uuid} (hk : r'.claimId? = some k) : r.claimId? = some k := by
  cases routeMove h with
  | create => exact absurd rfl (other _)
  | answer | unpaused | noneLive | reveal | handOut | delete | crash => cases hk
  | _ => exact hk

theorem routeStep_bind {now : Nat} {program : Program} {adminKey : Wallet} {db db' : Db}
    {r r' : Request} {handed : Option Voucher}
    (h : routeStep now program adminKey db r .bind = some (db', r', handed)) :
    ∃ w k epochs, r = .created w k epochs ∧ db' = bindTickets db w epochs k := by
  cases r <;> cases h
  exact ⟨_, _, _, rfl, rfl⟩

theorem routeStep_create {now : Nat} {program : Program} {adminKey : Wallet} {db db' : Db}
    {r r' : Request} {id : Uuid} {handed : Option Voucher}
    (h : routeStep now program adminKey db r (.create id) = some (db', r', handed)) :
    r'.claimId? = some id ∧ db.claim? id = none := by
  cases r <;> try cases h
  rw [routeStep] at h
  split at h <;> cases h
  rename_i fresh
  exact ⟨rfl, fresh⟩

/-- Which claim a bind records for a ticket. -/
theorem lookup_bound {rows : List Ticket} {p : Ticket → Bool} {k : Uuid} {rest : List (Uuid × Uuid)}
    (ids : (rows.map (·.id)).Nodup) {t : Ticket} (ht : t ∈ rows) :
    (((rows.filter p).map fun t => (t.id, k)) ++ rest).lookup t.id =
      if p t then some k else rest.lookup t.id := by
  have recorded : ∀ e ∈ (rows.filter p).map fun t => (t.id, k), t.id = e.1 → p t = true ∧ e.2 = k := by
    intro e he same
    obtain ⟨u, hu, rfl⟩ := List.mem_map.1 he
    obtain ⟨mem, hit⟩ := List.mem_filter.1 hu
    rw [List.inj_on_of_nodup_map ids ht mem same]
    exact ⟨hit, rfl⟩
  rw [List.lookup_append]
  cases found : ((rows.filter p).map fun t => (t.id, k)).lookup t.id with
  | none =>
    rw [Option.none_or, if_neg]
    intro hit
    have miss := List.lookup_eq_none_iff.1 found _ (List.mem_map_of_mem (List.mem_filter.2 ⟨ht, hit⟩))
    exact (bne_iff_ne.1 miss) rfl
  | some j =>
    obtain ⟨before, after, split, -⟩ := List.lookup_eq_some_iff.1 found
    have mem : (t.id, j) ∈ (rows.filter p).map fun t => (t.id, k) := split ▸ by simp
    obtain ⟨hit, same⟩ := recorded _ mem rfl
    rw [if_pos hit, ← same]
    rfl

/-- The rows of a bind, where the claim is pending. -/
theorem rows_bind {w : Wallet} {k : Uuid} {epochs : List Nat}
    (ids : (s.payout.db.tickets.map (·.id)).Nodup)
    (pending : ∀ t ∈ s.payout.db.tickets, claimable s.payout.db w epochs t = true →
      status? s'.payout.db k = some .PENDING)
    (took : s'.took = (s.payout.db.tickets.filter (claimable s.payout.db w epochs)).map
      (fun t => (t.id, k)) ++ s.took) :
    List.Forall₂ (RowMove s s') s.payout.db.tickets (bindTickets s.payout.db w epochs k).tickets := by
  rw [bindTickets, Table.updateMany, List.forall₂_map_right_iff, List.forall₂_same]
  intro t ht
  have found : s'.took.lookup t.id =
      if claimable s.payout.db w epochs t then some k else s.took.lookup t.id :=
    took ▸ lookup_bound ids ht
  split
  · rename_i hit
    rw [if_pos hit] at found
    have now := pending t ht hit
    simp only [claimable, Bool.and_eq_true, beq_iff_eq] at hit
    exact .bound hit.1.1 now found
  · rename_i miss
    rw [if_neg miss] at found
    exact .elsewhere (.refl t) found

theorem move_route {act : RouteAct} (ids : (s.payout.db.tickets.map (·.id)).Nodup)
    (ok : traceSafe s (.step (.route i act)) = true)
    (hs : trailedStep s (.step (.route i act)) = some s') :
    ∃ r r' db handed, HandlerMove s s' i r r' db handed := by
  obtain ⟨new, payout, stepped, rfl⟩ := trailedStep_step hs
  obtain ⟨r, db, r', handed, hr, routed, rfl⟩ := step_route stepped
  refine ⟨r, r', db, handed, hr, rfl, ⟨act, _, handled_routeStep routed⟩, treads_routeStep routed, ?_,
    ?_, rfl, rfl⟩
  · by_cases bind : act = .bind
    · subst bind
      obtain ⟨w, k, epochs, rfl, rfl⟩ := routeStep_bind routed
      refine rows_bind ids (fun t ht hit => ?_) (by simp only [takes, hr])
      simp only [traceSafe, bindsPending, hr, Bool.and_eq_true, Bool.or_eq_true, beq_iff_eq] at ok
      rcases ok.1 with pending | nothing
      · exact pending
      · have miss := List.all_eq_true.1 nothing t ht
        rw [hit] at miss
        cases miss
    · have kept : takes s.payout (.route i act) = [] := by
        unfold takes
        split
        · rename_i same
          cases same
          exact absurd rfl bind
        · rfl
      refine (rows_routeStep routed bind).imp fun t t' row => row.move ?_
      rw [kept]
      rfl
  · by_cases create : ∃ id, act = .create id
    · obtain ⟨id, rfl⟩ := create
      obtain ⟨own, fresh⟩ := routeStep_create routed
      exact .inr ⟨id, rfl, own, fresh, fun e he => bne_iff_ne.1 (List.all_eq_true.1 new e he)⟩
    · have other : ∀ id, act ≠ .create id := fun id same => create ⟨id, same⟩
      refine .inl ⟨?_, fun k => own_of_routeStep routed other⟩
      unfold creates?
      split
      · rename_i same
        cases same
        exact absurd rfl (other _)
      · rfl

theorem own_of_thrown {db db' : Db} {took : Bool} {r r' : Request}
    (h : thrown db took r = some (db', r')) {k : Uuid} (hk : r'.claimId? = some k) :
    r.claimId? = some k := by
  unfold thrown at h
  split at h
  · cases h
    exact hk
  · cases h
    exact hk
  · cases took <;> cases h
    · exact hk
    · cases hk
  · cases h

theorem move_throws {took : Bool} (hs : trailedStep s (.throws i took) = some s') :
    ∃ r r' db handed, HandlerMove s s' i r r' db handed := by
  obtain ⟨r, db, r', hr, threw, rfl⟩ := trailedStep_throws hs
  obtain ⟨act, handled, -⟩ := handled_thrown threw
  refine ⟨r, r', db, none, hr, ?_, ⟨act, none, handled⟩, treads_thrown threw,
    (rows_thrown threw).imp fun _ _ row => row.move rfl, .inl ⟨rfl, fun k => own_of_thrown threw⟩, rfl, rfl⟩
  rw [goesOn, afterRoute, Option.toList_none, List.append_nil]

/-- A handler without a claim can fail anywhere. -/
theorem move_rejects (ok : traceSafe s (.rejects i) = true) (hs : trailedStep s (.rejects i) = some s') :
    ∃ r r' db handed, HandlerMove s s' i r r' db handed := by
  obtain ⟨r, hr, unguarded, rfl⟩ := trailedStep_rejects hs
  have unclaimed : r.claimId? = none := by
    rw [traceSafe, hr] at ok
    exact Option.isNone_iff_eq_none.1 ok
  have crashes : routeStep s.payout.now s.payout.program s.payout.adminKey s.payout.db r .crash =
      some (s.payout.db, .crashed, none) := by
    cases r <;> rfl
  have handled := handled_routeStep crashes
  rw [show r.reads s.payout.program .crash = none by cases r <;> rfl] at handled
  refine ⟨r, .answered 500, s.payout.db, none, hr, ?_,
    ⟨_, none, handled.fails (fun _ hk => by cases hk) ⟨rfl, rfl⟩⟩, ?_,
    List.forall₂_same.2 fun t _ => .elsewhere (.refl t) rfl,
    .inl ⟨rfl, fun _ hk => by cases hk⟩, rfl, rfl⟩
  · rw [goesOn, afterRoute, Option.toList_none, List.append_nil]
  · refine .quiet (fun k hk => ?_) ?_ fun _ => .rfl
    · rw [unclaimed] at hk
      cases hk
    · rintro (⟨status, rfl⟩ | rfl) <;> cases unguarded

/-- No claim that was created comes back. -/
theorem HandlerMove.absent {r r' : Request} {db : Db} {handed : Option Voucher}
    (h : HandlerMove s s' i r r' db handed) {e : Nat × Uuid} (he : e ∈ s.made)
    (gone : s.payout.db.claim? e.2 = none) : db.claim? e.2 = none := by
  by_contra there
  obtain ⟨c', hc'⟩ := Option.ne_none_iff_exists'.1 there
  obtain ⟨unclaimed, own, -⟩ := h.treads.new e.2 c' gone hc'
  rcases h.made with ⟨-, was⟩ | ⟨k, -, own', -, fresh⟩
  · rw [was e.2 own] at unclaimed
    cases unclaimed
  · cases own.symm.trans own'
    exact fresh e he rfl

/-- A handler's step of a safe run. -/
theorem HandlerMove.trailStep {r r' : Request} {db : Db} {handed : Option Voucher}
    (h : HandlerMove s s' i r r' db handed) : TrailStep s s' := by
  obtain ⟨act, read, handled⟩ := h.handled
  have db' : s'.payout.db = db := by rw [h.after]; rfl
  refine ⟨db' ▸ h.rows, fun k c' hc' => ?_, fun k there none => ?_, fun e he => ?_, fun l hl => ?_⟩
  · rw [db'] at hc'
    rcases handled.rows k c' hc' with ⟨c, hc, -, same, -⟩ | ⟨fresh, -⟩
    · exact .kept hc same
    · exact .new fresh (h.treads.new k c' fresh hc').2.2
  · rw [db'] at none ⊢
    exact h.treads.gone k there none
  · rcases h.made with ⟨same, -⟩ | ⟨k, same, -, fresh, -⟩
    · exact .inl (same ▸ he)
    · rw [same] at he
      rcases List.mem_cons.1 he with rfl | old
      · exact .inr fresh
      · exact .inl old
  · rw [h.after]
    exact hl

end HandlerMove

/-! ## The steps of everybody else -/

/-- What a tick knows of the chain. -/
def Tick.answer? : Tick → Option LandedClaims
  | .swept _ _ landed | .usedRead _ _ landed _ | .resolving _ _ landed _ _ => some landed
  | _ => none

/-- What the sweep has reported has landed. -/
def Reported (s : State) : Prop :=
  ∀ t, s.tick = some t → ∀ answer, t.answer? = some answer → ∀ e ∈ answer.claims, ∃ l ∈ s.landed, l.claim = e

/-- A step that changes no claim. -/
structure Aside (s s' : Trailed) : Prop where
  claims : s'.payout.db.payoutClaims = s.payout.db.payoutClaims
  rows : List.Forall₂ Elsewhere s.payout.db.tickets s'.payout.db.tickets
  requests : s'.payout.requests = s.payout.requests ∨
    ∃ w, s'.payout.requests = s.payout.requests ++ [.received w]
  vouchers : s'.payout.vouchers = s.payout.vouchers
  landed : s'.payout.landed = s.payout.landed ∨
    ∃ l, l.voucher ∈ s.payout.vouchers ∧ s'.payout.landed = l :: s.payout.landed
  record : s'.made = s.made ∧ s'.took = s.took

/-- The confirmer resolves the first claim that is left. -/
structure Resolves (s s' : Trailed) (c : PayoutClaim) (v : Verdict) : Prop where
  after : ∃ now tick, s'.payout = { s.payout with db := resolve s.payout.db c.id now v, tick := tick }
  hit : ∀ hit, v = .landed hit → Landed s.payout c.id
  record : s'.made = s.made ∧ s'.took = s.took

section Aside

variable {s s' : Trailed}

theorem Aside.mem_landed (h : Aside s s') {l : Landing} (hl : l ∈ s.payout.landed) :
    l ∈ s'.payout.landed := by
  rcases h.landed with same | ⟨l', -, more⟩
  · exact same ▸ hl
  · rw [more]
    exact List.mem_cons_of_mem _ hl

theorem Aside.request (h : Aside s s') {n : Nat} {r : Request} (hr : s.payout.requests[n]? = some r) :
    s'.payout.requests[n]? = some r := by
  rcases h.requests with same | ⟨w, more⟩
  · rw [same, hr]
  · rw [more, List.getElem?_append_left (List.getElem?_eq_some_iff.1 hr).1, hr]

theorem Aside.request_before (h : Aside s s') (n : Nat) (r : Request)
    (hr : s'.payout.requests[n]? = some r) : s.payout.requests[n]? = some r ∨ r.claimId? = none := by
  rcases h.requests with same | ⟨w, more⟩
  · exact .inl (same ▸ hr)
  · rcases Table.of_getElem?_concat (more ▸ hr) with old | ⟨-, rfl⟩
    · exact .inl old
    · exact .inr rfl

theorem Aside.claim? (h : Aside s s') (k : Uuid) : s'.payout.db.claim? k = s.payout.db.claim? k := by
  rw [Db.claim?, Db.claim?, h.claims]

theorem Aside.trailStep (h : Aside s s') : TrailStep s s' := by
  refine ⟨h.rows.imp fun t t' row => .elsewhere row (by rw [h.record.2]),
    fun k c' hc' => .kept (h.claim? k ▸ hc') rfl, fun k there none => ?_,
    fun e he => .inl (h.record.1 ▸ he), fun l => h.mem_landed⟩
  rw [h.claim?] at none
  exact absurd none there

theorem tickets_releaseClaim {db : Db} {j : Uuid} {st : PayoutStatus} {reason : String}
    {c : PayoutClaim} (row : db.claim? j = some c) :
    (releaseClaim db j st reason).tickets = (unbindTickets db j).tickets := by
  rw [releaseClaim, if_pos (by rw [row]; rfl)]

/-- A resolution keeps a ticket row, frees it, or marks it paid for the claim it is bound to. -/
inductive ResolveRow (j : Uuid) (v : Verdict) (t : Ticket) : Ticket → Prop where
  | kept : ResolveRow j v t t
  | freed (bound : t.payoutClaimId = some j) : ResolveRow j v t { t with payoutClaimId := none }
  | paid {hit : LandedClaim} (landed : v = .landed hit) (bound : t.payoutClaimId = some j) :
      ResolveRow j v t { t with winStatus := .PAID_OUT_ON_SOLANA }

theorem rows_resolve (db : Db) (j : Uuid) (now : Nat) (v : Verdict) :
    List.Forall₂ (ResolveRow j v) db.tickets (resolve db j now v).tickets := by
  have quiet : List.Forall₂ (ResolveRow j v) db.tickets db.tickets := List.forall₂_same.2 fun _ _ => .kept
  rcases resolve_cases db j now v with same | ⟨status, reason, released⟩ | ⟨hit, landed, confirmed⟩
  · rw [same]
    exact quiet
  · rw [released]
    unfold releaseClaim
    split
    · exact Table.forall₂_updateMany (fun _ _ => .kept) fun _ _ hit => .freed (boundTo_eq_true.1 hit)
    · exact quiet
  · rw [confirmed]
    unfold confirmClaim
    split
    · refine Table.forall₂_updateMany (fun _ _ => .kept) fun t _ found => ?_
      exact .paid landed (boundTo_eq_true.1 (Bool.and_eq_true_iff.1 found).1)
    · exact quiet

/-- No ticket is left at a claim that has been released. -/
theorem free_resolve {db : Db} {j : Uuid} {now : Nat} {v : Verdict} {row : PayoutClaim}
    (hr : db.claim? j = some row) (released : (∃ hit, v = .landed hit ∧ hit.failed = true) ∨
      v = .neverSigned ∨ v = .expired) : ∀ t ∈ (resolve db j now v).tickets, t.payoutClaimId ≠ some j := by
  have free : ∀ st reason, ∀ t ∈ (releaseClaim db j st reason).tickets, t.payoutClaimId ≠ some j := by
    intro st reason
    rw [tickets_releaseClaim hr]
    exact unbound_unbindTickets
  rcases released with ⟨hit, rfl, failed⟩ | rfl | rfl
  · rw [resolve, if_pos failed]
    exact free _ _
  · exact free _ _
  · exact free _ _

theorem Resolves.trailStep {c : PayoutClaim} {v : Verdict} (h : Resolves s s' c v) : TrailStep s s' := by
  obtain ⟨now, tick, after⟩ := h.after
  have db : s'.payout.db = resolve s.payout.db c.id now v := by rw [after]
  refine ⟨?_, fun k c' hc' => ?_, fun k there none => ?_, fun e he => .inl (h.record.1 ▸ he), ?_⟩
  · rw [db]
    refine (rows_resolve s.payout.db c.id now v).imp fun t t' row => ?_
    cases row with
    | kept => exact .elsewhere (.refl t) (by rw [h.record.2])
    | freed => exact .freed (by rw [h.record.2])
    | paid landed bound => exact .paid bound (h.hit _ landed) (by rw [h.record.2])
  · rw [db] at hc'
    rcases rowRule_resolve s.payout.db c.id now v k with same | ⟨rfl, row, row', hr, hr', -, resolved⟩
    · exact .kept (same ▸ hc') rfl
    · cases hc'.symm.trans hr'
      have free : _ → ∀ t ∈ s'.payout.db.tickets, t.payoutClaimId ≠ some c.id := db ▸ free_resolve hr
      rcases resolved with ⟨hit, landed, -, status, -⟩ | ⟨hit, landed, failed, status, -⟩ |
        ⟨expired, status, -⟩
      · exact .confirmed status (h.hit hit landed)
      · exact .released (by rw [status]; decide) (free (.inl ⟨hit, landed, failed⟩))
      · exact .released (by rw [status]; decide) (free (.inr expired))
  · rw [db] at none
    exact absurd none (claim?_resolve_ne_none there)
  · rw [after]
    exact fun l hl => hl

/-- What is paid for a claim is its own landing, where no other is the oldest that fits it. -/
theorem landed_of_hit {c : PayoutClaim} {cs : List PayoutClaim} {calledAt height : Nat}
    {answer : LandedClaims} {used : List Signature} {hit : LandedClaim} (reported : Reported s.payout)
    (ht : s.payout.tick = some (.resolving (c :: cs) calledAt answer used height))
    (ok : resolvesOwn s.payout (.tick (.resolveNext false)) = true)
    (hh : findHit answer used c = some hit) : Landed s.payout c.id := by
  obtain ⟨mem, fit, oldest⟩ := findHit_fits hh
  obtain ⟨l, hl, rfl⟩ := reported _ ht answer rfl hit mem
  simp only [resolvesOwn, ht, List.all_eq_true] at ok
  have safe := ok l hl
  rw [fit, Bool.not_true, Bool.false_or, Bool.or_eq_true, beq_iff_eq] at safe
  rcases safe with own | older
  · exact ⟨l, hl, own⟩
  · obtain ⟨e, he, older⟩ := List.any_eq_true.1 older
    rw [Bool.and_eq_true, decide_eq_true_eq] at older
    have first : l.slot ≤ e.slot := oldest e he older.1
    omega

/-- A step that is not a handler's resolves a claim or changes none. -/
theorem aside_or_resolves {a : Action} (reported : Reported s.payout)
    (ok : traceSafe s (.step a) = true) (other : ∀ i act, a ≠ .route i act)
    (hs : trailedStep s (.step a) = some s') :
    Aside s s' ∨ ∃ c cs calledAt answer used height,
      s.payout.tick = some (.resolving (c :: cs) calledAt answer used height) ∧
      a = .tick (.resolveNext false) ∧
      Resolves s s' c (verdict answer used height s.payout.now c) := by
  obtain ⟨-, payout, stepped, rfl⟩ := trailedStep_step hs
  have same : List.Forall₂ Elsewhere s.payout.db.tickets s.payout.db.tickets :=
    List.forall₂_same.2 fun t _ => .refl t
  cases a with
  | route i act => exact absurd rfl (other i act)
  | tick act =>
    obtain ⟨db, tick, rfl, rfl | ⟨c, cs, calledAt, answer, used, height, ht, rfl, rfl⟩⟩ :=
      tickStep_frame stepped
    · exact .inl ⟨rfl, same, .inl rfl, rfl, .inl rfl, rfl, rfl⟩
    · refine .inr ⟨c, cs, calledAt, answer, used, height, ht, rfl, ⟨_, _, rfl⟩, fun hit landed => ?_,
        rfl, rfl⟩
      rw [traceSafe, Bool.and_eq_true] at ok
      exact landed_of_hit reported ht ok.2 (verdict_landed landed)
  | request w =>
    cases stepped
    exact .inl ⟨rfl, same, .inr ⟨w, rfl⟩, rfl, .inl rfl, rfl, rfl⟩
  | land v sig slot bt =>
    obtain ⟨handed, -, -, -, -, p, rfl⟩ := step_land stepped
    exact .inl ⟨rfl, same, .inl rfl, rfl, .inr ⟨_, handed, rfl⟩, rfl, rfl⟩
  | clock | blocks | program =>
    cases stepped
    exact .inl ⟨rfl, same, .inl rfl, rfl, .inl rfl, rfl, rfl⟩
  | harvest batchId txHash =>
    cases stepped
    refine .inl ⟨rfl, ?_, .inl rfl, rfl, .inl rfl, rfl, rfl⟩
    refine Table.forall₂_updateMany (fun t _ => .refl t) fun t _ won => ⟨rfl, rfl, rfl, fun claimed => ?_⟩
    rw [Harvest.harvestable, claimed, Bool.and_eq_true] at won
    cases won.2
  | epoch r =>
    cases stepped
    refine .inl ⟨upsertSettledEpoch_payoutClaims .., ?_, .inl rfl, rfl, .inl rfl, rfl, rfl⟩
    show List.Forall₂ Elsewhere _ (upsertSettledEpoch s.payout.db r).tickets
    rw [upsertSettledEpoch_tickets]
    exact same

end Aside

end LordsPot.Payout
