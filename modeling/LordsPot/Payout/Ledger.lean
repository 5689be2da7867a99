import LordsPot.Payout.Tickets

/-!
# The ledger of live vouchers

What a live claim is worth rests on less than the book. It holds as well where the last write of a
handler took effect although it threw, so that the handler releases a claim that is stamped.
-/

namespace LordsPot.Payout

open Transition

/-- A write of the route's two `try` blocks throws, with or without having taken effect. A row that
is gone is not found again, and the error path throws in its turn. -/
def thrown (db : Db) (took : Bool) : Request → Option (Db × Request)
  | .built v => some (if took then stampClaim db v.claimId v.amount v.lastValidBlockHeight else db,
      .releasing v.claimId 500)
  | .releasing k 409 => some (if took then unbindTickets db k else db, .releasing k 503)
  | .deleting k 409 => some (if took then (deleteClaim db k, .answered 500) else (db, .releasing k 503))
  | _ => none

/-- The claim of a handler that has not stamped it. -/
def Request.unsigned? : Request → Option Uuid
  | .created _ k _ | .bound _ k | .summed _ k _ _ | .withinCeiling _ k _ _ => some k
  | .built v => some v.claimId
  | _ => none

/-- The claim and the amount that a handler has checked against the ceiling. -/
def Request.checked? : Request → Option (Uuid × Nat)
  | .withinCeiling _ k a _ => some (k, a)
  | .built v => some (v.claimId, v.amount)
  | _ => none

/-- The ceiling that a handler reads, for its claim. -/
def Request.reads (program : Program) : Request → RouteAct → Option (Uuid × Nat)
  | .summed _ k _ _, .ceiling true => some (k, program.maxClaimAmount)
  | _, _ => none

theorem Request.claimId?_of_unsigned {r : Request} {k : Uuid} (h : r.unsigned? = some k) :
    r.claimId? = some k := by
  cases r <;> cases h <;> rfl

theorem Request.unsigned?_of_checked {r : Request} {k : Uuid} {a : Nat} (h : r.checked? = some (k, a)) :
    r.unsigned? = some k := by
  cases r <;> cases h <;> rfl

theorem Request.summed_of_reads {program : Program} {r : Request} {act : RouteAct} {k : Uuid}
    {m : Nat} (h : r.reads program act = some (k, m)) : r.unsigned? = some k ∧ r.checked? = none := by
  unfold Request.reads at h
  split at h
  · cases h
    exact ⟨rfl, rfl⟩
  · cases h

/-- A claim asks for what its tickets won, and for no more than the ceiling its request read. -/
structure Priced (db : Db) (ceilings : List (Uuid × Nat)) (c : PayoutClaim) : Prop where
  amount : c.amountUsdc = boundSum db c.id
  positive : 0 < c.amountUsdc
  ceiling : ∃ m, ceilings.lookup c.id = some m ∧ c.amountUsdc ≤ m

/-- Which handler owns which claim, and which claims are not stamped. -/
structure Owned (s : State) : Prop where
  ids : (s.db.payoutClaims.map (·.id)).Nodup
  row : ∀ n k, owner? s n = some k → s.db.claim? k ≠ none
  oneOwner : ∀ m n k, owner? s m = some k → owner? s n = some k → m = n
  given : ∀ v ∈ s.vouchers, s.db.claim? v.claimId ≠ none ∧ ∀ n, owner? s n ≠ some v.claimId
  unsigned : ∀ (n : Nat) k c, (s.requests[n]?).bind Request.unsigned? = some k →
    s.db.claim? k = some c → c.lastValidBlockHeight = none
  created : ∀ (n : Nat) w k epochs c, s.requests[n]? = some (.created w k epochs) →
    s.db.claim? k = some c → c.wallet = w

/-- `ceilings` has what each request read last, by its claim. -/
structure Ledger (s : State) (ceilings : List (Uuid × Nat)) : Prop where
  owned : Owned s
  held : ∀ k a ids c, Holds s k a ids → s.db.claim? k = some c → c.status = .PENDING →
    boundRows s.db k = (a, ids)
  positive : ∀ k a ids, Holds s k a ids → 0 < a
  checked : ∀ (n : Nat) k a, (s.requests[n]?).bind Request.checked? = some (k, a) →
    ∃ m, ceilings.lookup k = some m ∧ a ≤ m
  buyers : ∀ t ∈ s.db.tickets, ∀ k, t.payoutClaimId = some k → ∃ c, s.db.claim? k = some c ∧
    s.db.buyer? t = some c.wallet ∧ (c.status = .PENDING → t.winStatus = .CLAIMED_ON_BASE)
  priced : ∀ k c, s.db.claim? k = some c → live c = true → Priced s.db ceilings c

/-! ## A handler's step -/

/-- The parts of a handler's step that the ledger rests on. -/
structure Handled (db : Db) (r : Request) (act : RouteAct) (read : Option (Uuid × Nat)) (db' : Db)
    (r' : Request) (handed : Option Voucher) : Prop where
  ids : (db.payoutClaims.map (·.id)).Nodup → (db'.payoutClaims.map (·.id)).Nodup
  frame : ∀ k, db.claim? k ≠ none → r.claimId? ≠ some k → db'.claim? k = db.claim? k
  own : ∀ k, r'.claimId? = some k → r.claimId? = some k ∨ db.claim? k = none
  handed : ∀ v, handed = some v → r = .stamped v ∧ r' = .answered 201 ∧ db' = db
  tickets : TicketSpec db r db' r'
  rows : ∀ k c', db'.claim? k = some c' →
    (∃ c, db.claim? k = some c ∧ c'.wallet = c.wallet ∧ c'.status = c.status ∧
      (c'.lastValidBlockHeight = c.lastValidBlockHeight ∧ c'.amountUsdc = c.amountUsdc ∨
        ∃ v, r = .built v ∧ v.claimId = k ∧ c'.amountUsdc = v.amount)) ∨
    db.claim? k = none ∧ c'.lastValidBlockHeight = none
  row : (∀ k, r.claimId? = some k → db.claim? k ≠ none) → ∀ k, r'.claimId? = some k → db'.claim? k ≠ none
  unsigned : ∀ k, r'.unsigned? = some k →
    r.unsigned? = some k ∧ db'.claim? k = db.claim? k ∨ db.claim? k = none
  created : ∀ w k epochs c', r' = .created w k epochs → db'.claim? k = some c' → c'.wallet = w
  checked : ∀ k a, r'.checked? = some (k, a) →
    r.checked? = some (k, a) ∧ read = none ∨ ∃ m, read = some (k, m) ∧ a ≤ m
  reads : ∀ k m, read = some (k, m) → r.unsigned? = some k ∧ r.checked? = none
  bound : ∀ k, boundRows db' k = boundRows db k ∨ (∃ w epochs, r = .created w k epochs) ∨
    (∃ status, r = .releasing k status ∧ act = .release) ∨ db'.claim? k = none
  statuses : ∀ t' ∈ db'.tickets, ∃ t ∈ db.tickets, t'.winStatus = t.winStatus ∧
    t'.orderHash = t.orderHash ∧ ∀ k, t'.payoutClaimId = some k → t.payoutClaimId = some k ∨
      ∃ w epochs, r = .created w k epochs ∧ claimable db w epochs t = true

section Handled

variable {now : Nat} {db db' : Db} {r r' : Request} {act : RouteAct} {handed : Option Voucher}

/-- A change of the bindings leaves each row's status and order. -/
theorem statuses_updateMany {p : Ticket → Bool} {claim : Option Uuid} {allowed : Ticket → Uuid → Prop}
    (h : db'.tickets = Table.updateMany p (fun t => { t with payoutClaimId := claim }) db.tickets)
    (binds : ∀ t k, p t = true → claim = some k → allowed t k) :
    ∀ t' ∈ db'.tickets, ∃ t ∈ db.tickets, t'.winStatus = t.winStatus ∧ t'.orderHash = t.orderHash ∧
      ∀ k, t'.payoutClaimId = some k → t.payoutClaimId = some k ∨ allowed t k := by
  intro t' mem
  rw [h] at mem
  obtain ⟨t, ht, rfl⟩ := Table.mem_updateMany.1 mem
  refine ⟨t, ht, ?_⟩
  split
  · rename_i hit
    exact ⟨rfl, rfl, fun k to_k => .inr (binds t k hit to_k)⟩
  · exact ⟨rfl, rfl, fun k old => .inl old⟩

theorem statuses_same {allowed : Ticket → Uuid → Prop} (h : db'.tickets = db.tickets) :
    ∀ t' ∈ db'.tickets, ∃ t ∈ db.tickets, t'.winStatus = t.winStatus ∧ t'.orderHash = t.orderHash ∧
      ∀ k, t'.payoutClaimId = some k → t.payoutClaimId = some k ∨ allowed t k :=
  fun t mem => ⟨t, h ▸ mem, rfl, rfl, fun _ => .inl⟩

theorem statuses_routeStep {program : Program} {adminKey : Wallet}
    (h : routeStep now program adminKey db r act = some (db', r', handed)) :
    ∀ t' ∈ db'.tickets, ∃ t ∈ db.tickets, t'.winStatus = t.winStatus ∧ t'.orderHash = t.orderHash ∧
      ∀ k, t'.payoutClaimId = some k → t.payoutClaimId = some k ∨
        ∃ w epochs, r = .created w k epochs ∧ claimable db w epochs t = true := by
  cases routeMove h with
  | bind =>
    refine statuses_updateMany rfl fun t j hit same => ?_
    cases same
    exact ⟨_, _, rfl, hit⟩
  | release | delete => exact statuses_updateMany rfl fun _ _ _ same => by cases same
  | _ => exact statuses_same rfl

/-- What a step keeps of the claim its handler is at. -/
structure Keeps (db : Db) (r : Request) (act : RouteAct) (read : Option (Uuid × Nat)) (db' : Db)
    (r' : Request) : Prop where
  row : (∀ k, r.claimId? = some k → db.claim? k ≠ none) → ∀ k, r'.claimId? = some k → db'.claim? k ≠ none
  unsigned : ∀ k, r'.unsigned? = some k →
    r.unsigned? = some k ∧ db'.claim? k = db.claim? k ∨ db.claim? k = none
  created : ∀ w k epochs c', r' = .created w k epochs → db'.claim? k = some c' → c'.wallet = w
  checked : ∀ k a, r'.checked? = some (k, a) →
    r.checked? = some (k, a) ∧ read = none ∨ ∃ m, read = some (k, m) ∧ a ≤ m
  bound : ∀ k, boundRows db' k = boundRows db k ∨ (∃ w epochs, r = .created w k epochs) ∨
    (∃ status, r = .releasing k status ∧ act = .release) ∨ db'.claim? k = none

/-- A step that leaves the database alone. -/
theorem Keeps.quiet {read : Option (Uuid × Nat)} (own : ∀ k, r'.claimId? = some k → r.claimId? = some k)
    (unsigned : ∀ k, r'.unsigned? = some k → r.unsigned? = some k)
    (created : ∀ w k epochs, r' ≠ .created w k epochs)
    (checked : ∀ k a, r'.checked? = some (k, a) →
      r.checked? = some (k, a) ∧ read = none ∨ ∃ m, read = some (k, m) ∧ a ≤ m) :
    Keeps db r act read db r' where
  row old k h := old k (own k h)
  unsigned k h := .inl ⟨unsigned k h, rfl⟩
  created w k epochs _ h := absurd h (created w k epochs)
  checked := checked
  bound _ := .inl rfl

/-- A handler that ends, or only releases from here on. -/
theorem Keeps.leaves {read : Option (Uuid × Nat)} (own : ∀ k, r'.claimId? = some k → r.claimId? = some k)
    (done : r'.unsigned? = none) : Keeps db r act read db r' := by
  refine .quiet own (fun k h => ?_) (fun w k epochs h => ?_) (fun k a h => ?_)
  · rw [done] at h
    cases h
  · rw [h] at done
    cases done
  · rw [Request.unsigned?_of_checked h] at done
    cases done

theorem keeps_routeStep {program : Program} {adminKey : Wallet}
    (h : routeStep now program adminKey db r act = some (db', r', handed)) :
    Keeps db r act (r.reads program act) db' r' := by
  cases routeMove h with
  | answer | unpaused | noneLive | reveal | handOut | crash => exact .leaves (fun _ h => by cases h) rfl
  | empty | refuse | noBuild | noStamp => exact .leaves (fun _ h => h) rfl
  | create fresh =>
    rename_i w epochs id
    have made : (createClaim db id w now).claim? id =
        some { id := id, wallet := w, createdAt := now } := by
      rw [claim?_createClaim db id w now fresh, if_pos rfl]
    refine ⟨fun _ k hk => ?_, fun k hk => ?_, fun w' k epochs' c' same hc => ?_, fun k a hk => ?_,
      fun k => .inl rfl⟩
    · cases hk
      rw [made]
      exact Option.some_ne_none _
    · cases hk
      exact .inr fresh
    · cases same
      rw [made] at hc
      cases hc
      rfl
    · cases hk
  | bind =>
    rename_i w k epochs
    refine ⟨fun old j hj => old j hj, fun j hj => .inl ⟨hj, rfl⟩, fun _ _ _ _ same => (by cases same),
      fun _ _ hj => (by cases hj), fun j => ?_⟩
    by_cases same : k = j
    · exact .inr (.inl ⟨w, epochs, by rw [same]⟩)
    · exact .inl (boundRows_bindTickets same)
  | sum =>
    exact .quiet (fun _ h => h) (fun _ h => h) (fun _ _ _ h => by cases h) fun _ _ h => by cases h
  | ceiling within =>
    refine .quiet (fun _ h => h) (fun _ h => h) (fun _ _ _ h => by cases h) fun j a hj => ?_
    cases hj
    exact .inr ⟨_, rfl, within⟩
  | build =>
    exact .quiet (fun _ h => h) (fun _ h => h) (fun _ _ _ h => by cases h) fun _ _ h => .inl ⟨h, rfl⟩
  | stamp =>
    refine ⟨fun old k hk => ?_, fun _ hk => (by cases hk), fun _ _ _ _ same => (by cases same),
      fun _ _ hk => (by cases hk), fun _ => .inl rfl⟩
    rw [claim?_stampClaim]
    intro none
    exact old k hk (Option.map_eq_none_iff.1 none)
  | release =>
    rename_i k status
    refine ⟨fun old j hj => old j hj, fun _ hj => (by cases hj), fun _ _ _ _ same => (by cases same),
      fun _ _ hj => (by cases hj), fun j => ?_⟩
    by_cases same : k = j
    · exact .inr (.inr (.inl ⟨status, by rw [same], rfl⟩))
    · exact .inl (boundRows_unbindTickets same)
  | delete =>
    rename_i k status
    refine ⟨fun _ _ hj => (by cases hj), fun _ hj => (by cases hj), fun _ _ _ _ same => (by cases same),
      fun _ _ hj => (by cases hj), fun j => ?_⟩
    by_cases same : j = k
    · exact .inr (.inr (.inr (by rw [claim?_deleteClaim, if_pos same])))
    · exact .inl ((boundRows_congr rfl).trans (boundRows_unbindTickets fun h => same h.symm))

/-- A claim after a handler's step: the one before it but for a stamp, or a new one. -/
theorem RouteSpec.rows (spec : RouteSpec now db r act db' r' handed) {k : Uuid} {c' : PayoutClaim}
    (hc' : db'.claim? k = some c') :
    (∃ c, db.claim? k = some c ∧ c'.wallet = c.wallet ∧ c'.status = c.status ∧
      (c'.lastValidBlockHeight = c.lastValidBlockHeight ∧ c'.amountUsdc = c.amountUsdc ∨
        ∃ v, r = .built v ∧ v.claimId = k ∧ c'.amountUsdc = v.amount)) ∨
    db.claim? k = none ∧ c'.lastValidBlockHeight = none := by
  have status : ∀ c, db.claim? k = some c → c'.status = c.status := by
    intro c hc
    rcases spec.resolution k c' hc' with ⟨c₀, hc₀, same, -⟩ | ⟨none, -⟩
    · rw [hc] at hc₀
      cases hc₀
      exact same
    · rw [hc] at none
      cases none
  have issued : issue? db' k = some (issue c') := by rw [issue?, hc']; rfl
  rcases spec.issued k _ issued with old | ⟨fresh, w, same⟩ | ⟨v, j, built, -, own, old, same⟩
  · obtain ⟨c, hc, same⟩ := issue?_eq_some.1 old
    exact .inl ⟨c, hc, (congrArg Issue.wallet same).symm, status c hc,
      .inl ⟨(congrArg Issue.lastValidBlockHeight same).symm, (congrArg Issue.amount same).symm⟩⟩
  · exact .inr ⟨Option.map_eq_none_iff.1 fresh, congrArg Issue.lastValidBlockHeight same⟩
  · obtain ⟨c, hc, rfl⟩ := issue?_eq_some.1 old
    exact .inl ⟨c, hc, congrArg Issue.wallet same, status c hc,
      .inr ⟨v, built, own, congrArg Issue.amount same⟩⟩

/-- **The handler rule** of the ledger. -/
theorem handled_routeStep {program : Program} {adminKey : Wallet}
    (h : routeStep now program adminKey db r act = some (db', r', handed)) :
    Handled db r act (r.reads program act) db' r' handed := by
  have spec := routeStep_spec h
  have keeps := keeps_routeStep h
  exact ⟨spec.ids, spec.frame, spec.own, spec.handed, routeStep_tickets h, fun k c' => spec.rows,
    keeps.row, keeps.unsigned, keeps.created, keeps.checked, fun k m => Request.summed_of_reads,
    keeps.bound, statuses_routeStep h⟩

/-- A handler that has made its write and goes on to an error path. -/
theorem Handled.fails {r'' : Request} (h : Handled db r act none db' r' handed)
    (own : ∀ k, r''.claimId? = some k →
      r.claimId? = some k ∧ (db.claim? k ≠ none → db'.claim? k ≠ none))
    (error : r''.unsigned? = none ∧ r''.holding? = none) : Handled db r act none db' r'' none := by
  have tickets := h.tickets
  refine ⟨h.ids, h.frame, fun k hk => .inl (own k hk).1, fun v same => (by cases same),
    ⟨tickets.orders, tickets.ids, tickets.owned, tickets.rebound, tickets.kept, fun k a ids hk => ?_⟩,
    h.rows, fun old k hk => (own k hk).2 (old k (own k hk).1), fun k hk => ?_, fun w k epochs c same => ?_,
    fun k a hk => ?_, h.reads, h.bound, h.statuses⟩
  · rw [error.2] at hk
    cases hk
  · rw [error.1] at hk
    cases hk
  · rw [same] at error
    cases error.1
  · rw [Request.unsigned?_of_checked hk] at error
    cases error.1

/-- A handler whose write has thrown unbinds tickets only where it was about to. -/
theorem handled_thrown {took : Bool} (h : thrown db took r = some (db', r')) :
    ∃ act, Handled db r act none db' r' none ∧
      (act = .release → took = true ∧ ∃ k, r = .releasing k 409) := by
  let program : Program := { admin := "", maxClaimAmount := 0, vaultUsdc := 0 }
  have handled : ∀ {r r' : Request} {act : RouteAct} {db' : Db}, r.reads program act = none →
      routeStep 0 program "" db r act = some (db', r', none) → Handled db r act none db' r' none := by
    intro r r' act db' reads moved
    rw [← reads]
    exact handled_routeStep moved
  unfold thrown at h
  split at h
  · rename_i v
    cases took with
    | true =>
      cases h
      have stamp : Handled db (.built v) (.stamp false) none
          (stampClaim db v.claimId v.amount v.lastValidBlockHeight) (.stamped v) none := handled rfl rfl
      refine ⟨_, stamp.fails (fun k hk => ⟨hk, fun there => ?_⟩) ⟨rfl, rfl⟩, fun h => by cases h⟩
      rw [claim?_stampClaim]
      exact fun gone => there (Option.map_eq_none_iff.1 gone)
    | false =>
      cases h
      exact ⟨.stamp true, handled rfl rfl, fun h => by cases h⟩
  · rename_i k
    cases took with
    | true =>
      cases h
      have release : Handled db (.releasing k 409) .release none (unbindTickets db k)
          (.deleting k 409) none := handled rfl rfl
      exact ⟨_, release.fails (fun _ hk => ⟨hk, id⟩) ⟨rfl, rfl⟩, fun _ => ⟨rfl, k, rfl⟩⟩
    | false =>
      cases h
      have crash : Handled db (.releasing k 409) .crash none db .crashed none := handled rfl rfl
      exact ⟨_, crash.fails (fun _ hk => ⟨hk, id⟩) ⟨rfl, rfl⟩, fun h => by cases h⟩
  · rename_i k
    cases took with
    | true =>
      cases h
      have delete : Handled db (.deleting k 409) .delete none (deleteClaim db k) (.answered 409) none :=
        handled rfl rfl
      exact ⟨_, delete.fails (fun _ hk => by cases hk) ⟨rfl, rfl⟩, fun h => by cases h⟩
    | false =>
      cases h
      have crash : Handled db (.deleting k 409) .crash none db .crashed none := handled rfl rfl
      exact ⟨_, crash.fails (fun _ hk => ⟨hk, id⟩) ⟨rfl, rfl⟩, fun h => by cases h⟩
  · cases h

end Handled

section Ledger

variable {s : State} {ceilings : List (Uuid × Nat)}

/-- A ceiling read for another claim. -/
theorem lookup_reads {read : Option (Uuid × Nat)} {k : Uuid} (differs : ∀ m, read ≠ some (k, m)) :
    (read.toList ++ ceilings).lookup k = ceilings.lookup k := by
  cases read with
  | none => rfl
  | some entry =>
    have miss : (k == entry.1) = false := beq_false_of_ne fun same => differs entry.2 (by rw [same])
    rw [Option.toList_some, List.singleton_append, List.lookup_cons, miss]

/-- The state after a handler's step. -/
def afterRoute (s : State) (i : Nat) (db : Db) (r' : Request) (handed : Option Voucher) : State :=
  { s with db := db, requests := s.requests.set i r', vouchers := s.vouchers ++ handed.toList }

variable {i : Nat} {r r' : Request} {act : RouteAct} {read : Option (Uuid × Nat)} {db : Db}
  {handed : Option Voucher}

/-- What another handler reads of itself, and the one that moved. -/
theorem bind_afterRoute {α : Type} (hr : s.requests[i]? = some r) (f : Request → Option α) (n : Nat) :
    ((afterRoute s i db r' handed).requests[n]?).bind f =
      if i = n then f r' else (s.requests[n]?).bind f := by
  rw [afterRoute, List.getElem?_set, if_pos (List.getElem?_eq_some_iff.1 hr).1]
  split <;> rfl

theorem owner?_of_request {n : Nat} (hr : s.requests[n]? = some r) : owner? s n = r.claimId? := by
  rw [owner?, hr]
  rfl

section Owned

variable (h : Owned s) (hr : s.requests[i]? = some r)

include h hr

/-- The claim of another handler is another claim. -/
theorem Owned.others {n : Nat} {k : Uuid} (hne : i ≠ n) (hn : owner? s n = some k) :
    r.claimId? ≠ some k :=
  fun hk => hne (h.oneOwner i n k ((owner?_of_request hr).trans hk) hn)

theorem Owned.notGiven {v : Voucher} (hv : v ∈ s.vouchers) : r.claimId? ≠ some v.claimId :=
  fun hk => (h.given v hv).2 i ((owner?_of_request hr).trans hk)

theorem Owned.unstamped {k : Uuid} {c : PayoutClaim} (hk : r.unsigned? = some k)
    (hc : s.db.claim? k = some c) : c.lastValidBlockHeight = none :=
  h.unsigned i k c (by rw [hr]; exact hk) hc

theorem Owned.stays {n : Nat} {k : Uuid} (step : Handled s.db r act read db r' handed) (hne : i ≠ n)
    (hn : owner? s n = some k) : db.claim? k = s.db.claim? k :=
  step.frame k (h.row n k hn) (h.others hr hne hn)

theorem Owned.handled (step : Handled s.db r act read db r' handed) :
    Owned (afterRoute s i db r' handed) := by
  have here := owner?_of_request hr
  refine ⟨step.ids h.ids, fun n k hn => ?_, fun m n k hm hn => ?_, fun v hv => ?_,
    fun n k c' hn hc' => ?_, fun n w k epochs c' hn hc' => ?_⟩
  · rw [owner?, bind_afterRoute hr] at hn
    split at hn
    · exact step.row (fun k hk => h.row i k (here.trans hk)) k hn
    · rename_i hne
      show db.claim? k ≠ none
      rw [h.stays hr step hne hn]
      exact h.row n k hn
  · have apart : ∀ {n}, r'.claimId? = some k → i ≠ n → owner? s n ≠ some k := fun hk hne hn => by
      rcases step.own _ hk with old | fresh
      · exact h.others hr hne hn old
      · exact h.row _ _ hn fresh
    rw [owner?, bind_afterRoute hr] at hm hn
    split at hm <;> split at hn
    · omega
    · rename_i _ hne
      exact absurd hn (apart hm hne)
    · rename_i hne _
      exact absurd hm (apart hn hne)
    · exact h.oneOwner m n k hm hn
  · rcases List.mem_append.1 hv with hv | hv
    · obtain ⟨there, free⟩ := h.given v hv
      have notMine := h.notGiven hr hv
      refine ⟨?_, fun n => ?_⟩
      · show db.claim? v.claimId ≠ none
        rw [step.frame _ there notMine]
        exact there
      · rw [owner?, bind_afterRoute hr]
        split
        · intro hk
          rcases step.own _ hk with old | fresh
          · exact notMine old
          · exact there fresh
        · exact free n
    · obtain ⟨rfl, rfl, rfl⟩ := step.handed v (Option.mem_toList.1 hv)
      refine ⟨h.row i _ here, fun n hn => ?_⟩
      rw [owner?, bind_afterRoute hr] at hn
      split at hn
      · cases hn
      · rename_i hne
        exact hne (h.oneOwner i n _ here hn)
  · rw [bind_afterRoute hr] at hn
    split at hn
    · rcases step.unsigned k hn with ⟨old, same⟩ | fresh
      · exact h.unstamped hr old (same ▸ hc')
      · rcases step.rows k c' hc' with ⟨c, hc, -⟩ | ⟨-, none⟩
        · rw [fresh] at hc
          cases hc
        · exact none
    · rename_i hne
      obtain ⟨r₀, hr₀, hk⟩ := Option.bind_eq_some_iff.1 hn
      have owns := (owner?_of_request hr₀).trans (Request.claimId?_of_unsigned hk)
      exact h.unsigned n k c' hn (h.stays hr step hne owns ▸ hc')
  · rw [afterRoute, List.getElem?_set, if_pos (List.getElem?_eq_some_iff.1 hr).1] at hn
    split at hn
    · exact step.created w k epochs c' (Option.some.inj hn) hc'
    · rename_i hne
      have owns : owner? s n = some k := owner?_of_request hn
      exact h.created n w k epochs c' hn (h.stays hr step hne owns ▸ hc')

end Owned

/-- **The route rule**: a handler's step keeps the ledger, unless it releases a live claim. -/
theorem Ledger.handled (h : Ledger s ceilings) (hr : s.requests[i]? = some r)
    (step : Handled s.db r act read db r' handed)
    (safe : ∀ k status c, r = .releasing k status → act = .release → s.db.claim? k = some c →
      live c = false) :
    Ledger (afterRoute s i db r' handed) (read.toList ++ ceilings) := by
  have o := h.owned
  have here := owner?_of_request hr
  have held : ∀ k a ids c', r.claimId? ≠ some k → Holds s k a ids → s.db.claim? k ≠ none →
      db.claim? k = some c' → c'.status = .PENDING → boundRows db k = (a, ids) := by
    intro k a ids c' hne hold there hc' pending
    rw [step.frame k there hne] at hc'
    rw [step.tickets.bound hne]
    exact h.held k a ids c' hold hc' pending
  have own : ∀ k a ids c', r.holding? = some (k, a, ids) → db.claim? k = some c' →
      c'.status = .PENDING → boundRows s.db k = (a, ids) := by
    intro k a ids c' hh hc' pending
    rcases step.rows k c' hc' with ⟨c, hc, -, status, -⟩ | ⟨fresh, -⟩
    · exact h.held k a ids c (.inl ⟨i, by rw [hr]; exact hh⟩) hc (status ▸ pending)
    · exact absurd fresh (o.row i k (here.trans (Request.claimId?_of_holding hh)))
  have positive : ∀ k a ids, r.holding? = some (k, a, ids) → 0 < a := fun k a ids hh =>
    h.positive k a ids (.inl ⟨i, by rw [hr]; exact hh⟩)
  refine ⟨o.handled hr step, ?_, ?_, fun n k a hn => ?_, fun t' ht' k hk => ?_, fun k c' hc' hl => ?_⟩
  · rintro k a ids c' (⟨n, hn⟩ | ⟨v, hv, rfl, rfl, rfl⟩) hc' pending
    · rw [bind_afterRoute hr] at hn
      split at hn
      · obtain ⟨same, old | ⟨-, sum, -⟩⟩ := step.tickets.holding k a ids hn
        · exact same.trans (own k a ids c' old hc' pending)
        · exact same.trans sum
      · rename_i hne
        obtain ⟨r₀, hr₀, hh⟩ := Option.bind_eq_some_iff.1 hn
        have owns := (owner?_of_request hr₀).trans (Request.claimId?_of_holding hh)
        exact held k a ids c' (o.others hr hne owns) (.inl ⟨n, hn⟩) (o.row n k owns) hc' pending
    · rcases List.mem_append.1 hv with hv | hv
      · exact held _ _ _ c' (o.notGiven hr hv) (.inr ⟨v, hv, rfl, rfl, rfl⟩) (o.given v hv).1 hc' pending
      · obtain ⟨rfl, -, rfl⟩ := step.handed v (Option.mem_toList.1 hv)
        exact own _ _ _ c' rfl hc' pending
  · rintro k a ids (⟨n, hn⟩ | ⟨v, hv, rfl, rfl, rfl⟩)
    · rw [bind_afterRoute hr] at hn
      split at hn
      · obtain ⟨-, old | ⟨-, -, pos⟩⟩ := step.tickets.holding k a ids hn
        · exact positive k a ids old
        · exact pos
      · exact h.positive k a ids (.inl ⟨n, hn⟩)
    · rcases List.mem_append.1 hv with hv | hv
      · exact h.positive _ _ _ (.inr ⟨v, hv, rfl, rfl, rfl⟩)
      · obtain ⟨rfl, -, -⟩ := step.handed v (Option.mem_toList.1 hv)
        exact positive _ _ _ rfl
  · rw [bind_afterRoute hr] at hn
    split at hn
    · rcases step.checked k a hn with ⟨old, none⟩ | ⟨m, read, within⟩
      · rw [none]
        exact h.checked i k a (by rw [hr]; exact old)
      · rw [read]
        exact ⟨m, by simp, within⟩
    · rename_i hne
      obtain ⟨r₀, hr₀, hk⟩ := Option.bind_eq_some_iff.1 hn
      have owns := (owner?_of_request hr₀).trans
        (Request.claimId?_of_unsigned (Request.unsigned?_of_checked hk))
      rw [lookup_reads fun m read =>
        o.others hr hne owns (Request.claimId?_of_unsigned (step.reads k m read).1)]
      exact h.checked n k a hn
  · obtain ⟨t, ht, winStatus, order, from_⟩ := step.statuses t' ht'
    have before : ∃ c, s.db.claim? k = some c ∧ s.db.buyer? t = some c.wallet ∧
        (c.status = .PENDING → t.winStatus = .CLAIMED_ON_BASE) := by
      rcases from_ k hk with old | ⟨w, epochs, rfl, hit⟩
      · exact h.buyers t ht k old
      · obtain ⟨c, hc⟩ := Option.ne_none_iff_exists'.1 (o.row i k here)
        refine ⟨c, hc, ?_, fun _ => ?_⟩
        · rw [o.created i w k epochs c hr hc]
          exact buyer?_of_claimable hit
        · simp only [claimable, Bool.and_eq_true, beq_iff_eq] at hit
          exact hit.1.1
    obtain ⟨c, hc, buyer, claimed⟩ := before
    rcases step.tickets.kept k (issue c) (by rw [issue?, hc]; rfl) with ⟨j, hj, wallet⟩ | none
    · obtain ⟨c', hc', rfl⟩ := issue?_eq_some.1 hj
      refine ⟨c', hc', ?_, fun pending => ?_⟩
      · show db.buyer? t' = _
        rw [buyer?_congr step.tickets.orders order, buyer]
        exact congrArg some wallet.symm
      · rw [winStatus]
        rcases step.rows k c' hc' with ⟨c₀, hc₀, -, status, -⟩ | ⟨fresh, -⟩
        · rw [hc] at hc₀
          cases hc₀
          exact claimed (status ▸ pending)
        · rw [hc] at fresh
          cases fresh
    · exact absurd hk (none t' ht')
  · obtain ⟨pending, stamped⟩ := live_iff.1 hl
    have key' : c'.id = k := Table.key_of_findUnique hc'
    rcases step.rows k c' hc' with ⟨c, hc, -, status, ⟨height, amount⟩ | ⟨v, rfl, rfl, amount⟩⟩ | ⟨-, none⟩
    · -- live before: its tickets are unbound by a release only
      have was : live c = true := live_iff.2 ⟨status ▸ pending, height ▸ stamped⟩
      have priced := h.priced k c hc was
      have key : c.id = k := Table.key_of_findUnique hc
      have rows : boundRows db k = boundRows s.db k := by
        rcases step.bound k with same | ⟨w, epochs, rfl⟩ | ⟨code, released, act⟩ | gone
        · exact same
        · exact absurd (o.unstamped hr rfl hc) (height ▸ stamped)
        · have := safe k code c released act hc
          rw [was] at this
          cases this
        · exact absurd (gone.symm.trans hc') (by simp)
      refine ⟨?_, amount ▸ priced.positive, ?_⟩
      · rw [amount, priced.amount, key, key']
        exact (congrArg Prod.fst rows).symm
      · rw [key', amount, lookup_reads fun m read =>
          absurd (o.unstamped hr (step.reads k m read).1 hc) (height ▸ stamped), ← key]
        exact priced.ceiling
    · -- stamped now, with the sum the handler holds
      have rows : boundRows db v.claimId = boundRows s.db v.claimId := by
        rcases step.bound v.claimId with same | ⟨w, epochs, h⟩ | ⟨code, h, -⟩ | gone
        · exact same
        · cases h
        · cases h
        · exact absurd (gone.symm.trans hc') (by simp)
      have sum := rows.trans (own _ _ _ c' rfl hc' pending)
      refine ⟨?_, amount ▸ positive _ _ _ rfl, ?_⟩
      · rw [amount, key']
        exact (congrArg Prod.fst sum).symm
      · rw [key', amount, lookup_reads fun m read => by cases (step.reads _ m read).2]
        exact h.checked i _ _ (by rw [hr]; rfl)
    · exact absurd none stamped

/-! ## The confirmer -/

/-- Ticket rows are unbound at most, and what is paid is bound to a claim that is not pending. -/
def Settles (db db' : Db) : Prop :=
  ∀ t' ∈ db'.tickets, ∃ t ∈ db.tickets, t'.orderHash = t.orderHash ∧
    ∀ k, t'.payoutClaimId = some k → t.payoutClaimId = some k ∧
      (t'.winStatus = t.winStatus ∨ ∀ c', db'.claim? k = some c' → c'.status ≠ .PENDING)

theorem Settles.refl (db : Db) : Settles db db :=
  fun t mem => ⟨t, mem, rfl, fun _ hk => ⟨hk, .inl rfl⟩⟩

theorem settles_releaseClaim (db : Db) (j : Uuid) (st : PayoutStatus) (reason : String) :
    Settles db (releaseClaim db j st reason) := by
  unfold releaseClaim
  split
  · intro t' mem
    obtain ⟨t, ht, rfl⟩ := Table.mem_updateMany.1 mem
    refine ⟨t, ht, ?_⟩
    split
    · exact ⟨rfl, fun _ hk => by cases hk⟩
    · exact ⟨rfl, fun _ hk => ⟨hk, .inl rfl⟩⟩
  · exact .refl db

theorem settles_confirmClaim (db : Db) (j : Uuid) (sig : Signature) (now : Nat) :
    Settles db (confirmClaim db j sig now) := by
  have confirmed : confirmClaim db j sig now = db ∨
      ∀ c', (confirmClaim db j sig now).claim? j = some c' → c'.status ≠ .PENDING := by
    by_cases same : confirmClaim db j sig now = db
    · exact .inl same
    · refine .inr fun c' hc' => ?_
      have written : (confirmClaim db j sig now).claim? j = (db.claim? j).map fun c =>
          if c.id == j then { c with status := .CONFIRMED, confirmedAt := some now,
                                     txSignature := some sig, error := none } else c := by
        unfold confirmClaim at same ⊢
        split
        · exact Table.findUnique_updateMany PayoutClaim.id
            (f := fun c => { c with status := .CONFIRMED, confirmedAt := some now,
                                    txSignature := some sig, error := none }) (fun _ => rfl) j
        · rename_i kept
          rw [if_neg kept] at same
          exact absurd rfl same
      rw [written] at hc'
      obtain ⟨c, hc, rfl⟩ := Option.map_eq_some_iff.1 hc'
      rw [if_pos (beq_iff_eq.2 (Table.key_of_findUnique hc))]
      exact fun h => by cases h
  rcases confirmed with same | paid
  · rw [same]
    exact .refl db
  · unfold confirmClaim at paid ⊢
    split
    · rename_i done
      rw [if_pos done] at paid
      intro t' mem
      obtain ⟨t, ht, rfl⟩ := Table.mem_updateMany.1 mem
      refine ⟨t, ht, ?_⟩
      split
      · rename_i hit
        rw [Bool.and_eq_true] at hit
        refine ⟨rfl, fun k hk => ⟨hk, .inr ?_⟩⟩
        have own : k = j := Option.some.inj (hk.symm.trans (boundTo_eq_true.1 hit.1))
        rw [own]
        exact paid
      · exact ⟨rfl, fun _ hk => ⟨hk, .inl rfl⟩⟩
    · exact .refl db

theorem settles_resolve (db : Db) (j : Uuid) (now : Nat) (v : Verdict) :
    Settles db (resolve db j now v) := by
  rcases resolve_cases db j now v with same | ⟨status, reason, released⟩ | ⟨hit, -, confirmed⟩
  · rw [same]
    exact .refl db
  · rw [released]
    exact settles_releaseClaim _ _ _ _
  · rw [confirmed]
    exact settles_confirmClaim _ _ _ _

/-- A claim after a resolution: the same row, or the same but for how it was resolved. -/
theorem claim?_resolve {db : Db} {j : Uuid} {now : Nat} {v : Verdict} {k : Uuid} {c' : PayoutClaim}
    (hc' : (resolve db j now v).claim? k = some c') : ∃ c, db.claim? k = some c ∧ issue c' = issue c ∧
      (c'.status = .PENDING → c' = c) := by
  rcases rowRule_resolve db j now v k with same | ⟨rfl, row, row', hr, hr', issued, resolved⟩
  · exact ⟨c', same ▸ hc', rfl, fun _ => rfl⟩
  · rw [hr'] at hc'
    cases hc'
    exact ⟨row, hr, issued, fun pending => absurd pending resolved.not_pending⟩

theorem claim?_resolve_ne_none {db : Db} {j : Uuid} {now : Nat} {v : Verdict} {k : Uuid}
    (there : db.claim? k ≠ none) : (resolve db j now v).claim? k ≠ none := by
  rcases rowRule_resolve db j now v k with same | ⟨rfl, row, row', hr, hr', -⟩
  · rw [same]
    exact there
  · rw [hr']
    exact Option.some_ne_none _

theorem Owned.resolve (o : Owned s) (j : Uuid) (now : Nat) (v : Verdict) (tick : Option Tick) :
    Owned { s with db := resolve s.db j now v, tick := tick } := by
  refine ⟨(ids_resolve ..).symm ▸ o.ids, fun n k hn => claim?_resolve_ne_none (o.row n k hn), o.oneOwner,
    fun v hv => ⟨claim?_resolve_ne_none (o.given v hv).1, (o.given v hv).2⟩, fun n k c' hn hc' => ?_,
    fun n w k epochs c' hn hc' => ?_⟩
  · obtain ⟨c, hc, same, -⟩ := claim?_resolve hc'
    exact (congrArg Issue.lastValidBlockHeight same).trans (o.unsigned n k c hn hc)
  · obtain ⟨c, hc, same, -⟩ := claim?_resolve hc'
    exact (congrArg Issue.wallet same).trans (o.created n w k epochs c hn hc)

/-- Resolving a claim keeps the ledger. -/
theorem Ledger.resolve (h : Ledger s ceilings) (j : Uuid) (now : Nat) (v : Verdict) (tick : Option Tick) :
    Ledger { s with db := resolve s.db j now v, tick := tick } ceilings := by
  have bound : ∀ k c', (Payout.resolve s.db j now v).claim? k = some c' → c'.status = .PENDING →
      boundRows (Payout.resolve s.db j now v) k = boundRows s.db k := by
    intro k c' hc' pending
    refine boundRows_resolve_standing hc' fun released => ?_
    exact released.1 pending
  refine ⟨h.owned.resolve j now v tick, fun k a ids c' hold hc' pending => ?_, h.positive, h.checked,
    fun t' ht' k hk => ?_, fun k c' hc' hl => ?_⟩
  · obtain ⟨c, hc, -, same⟩ := claim?_resolve hc'
    have same := same pending
    subst same
    exact (bound k c' hc' pending).trans (h.held k a ids c' hold hc pending)
  · obtain ⟨t, ht, order, bindings⟩ := settles_resolve s.db j now v t' ht'
    obtain ⟨was, status⟩ := bindings k hk
    obtain ⟨c, hc, buyer, claimed⟩ := h.buyers t ht k was
    have there : s.db.claim? k ≠ none := by
      rw [hc]
      exact Option.some_ne_none c
    have still : (Payout.resolve s.db j now v).claim? k ≠ none := claim?_resolve_ne_none there
    obtain ⟨c', hc'⟩ := Option.ne_none_iff_exists'.1 still
    obtain ⟨c₀, hc₀, same, whole⟩ := claim?_resolve hc'
    rw [hc] at hc₀
    cases hc₀
    refine ⟨c', hc', ?_, fun pending => ?_⟩
    · show (Payout.resolve s.db j now v).buyer? t' = _
      rw [buyer?_congr (resolve_tickets s.db j now v).1 order, buyer]
      exact congrArg some (congrArg Issue.wallet same).symm
    · rcases status with kept | paid
      · rw [kept]
        exact claimed (whole pending ▸ pending)
      · exact absurd pending (paid c' hc')
  · obtain ⟨pending, -⟩ := live_iff.1 hl
    obtain ⟨c, hc, -, same⟩ := claim?_resolve hc'
    have same := same pending
    subst same
    have priced := h.priced k c' hc hl
    refine ⟨priced.amount.trans ?_, priced.positive, priced.ceiling⟩
    have own : c'.id = k := Table.key_of_findUnique hc'
    rw [own]
    exact (congrArg Prod.fst (bound k c' hc' pending)).symm

/-! ## Everybody else -/

/-- What a step that is not of the payout path keeps of a row: a harvested ticket stays as it is. -/
structure Elsewhere (t t' : Ticket) : Prop where
  id : t'.id = t.id
  order : t'.orderHash = t.orderHash
  claim : t'.payoutClaimId = t.payoutClaimId
  claimed : t.winStatus = .CLAIMED_ON_BASE →
    t'.winStatus = .CLAIMED_ON_BASE ∧ t'.winAmount = t.winAmount

theorem Elsewhere.refl (t : Ticket) : Elsewhere t t := ⟨rfl, rfl, rfl, fun h => ⟨h, rfl⟩⟩

theorem Elsewhere.trans {t t' t'' : Ticket} (h : Elsewhere t t') (h' : Elsewhere t' t'') :
    Elsewhere t t'' := by
  refine ⟨h'.id.trans h.id, h'.order.trans h.order, h'.claim.trans h.claim, fun claimed => ?_⟩
  obtain ⟨still, amount⟩ := h.claimed claimed
  obtain ⟨yet, same⟩ := h'.claimed still
  exact ⟨yet, same.trans amount⟩

/-- A claim all of whose tickets are harvested is bound to the same rows. -/
theorem boundRows_elsewhere {db db' : Db} {k : Uuid} (rows : List.Forall₂ Elsewhere db.tickets db'.tickets)
    (claimed : ∀ t ∈ db.tickets, t.payoutClaimId = some k → t.winStatus = .CLAIMED_ON_BASE) :
    boundRows db' k = boundRows db k := by
  have rows := (List.forall₂_and_left (p := fun t => t.payoutClaimId = some k →
    t.winStatus = .CLAIMED_ON_BASE) db.tickets db'.tickets).2 ⟨claimed, rows⟩
  have agree : ∀ t t', (t.payoutClaimId = some k → t.winStatus = .CLAIMED_ON_BASE) ∧ Elsewhere t t' →
      boundTo k t' = boundTo k t := fun t t' h => by rw [boundTo, boundTo, h.2.claim]
  have amounts := Table.map_filter_of_forall₂ (·.winAmount) agree (fun t t' h hit =>
    (h.2.claimed (h.1 (boundTo_eq_true.1 hit))).2) rows
  have ids := Table.map_filter_of_forall₂ (·.id) agree (fun t t' h _ => h.2.id) rows
  rw [boundRows, boundSum, Table.sumWhere, boundIds, amounts, ids]
  rfl

section Frame

variable {s' : State}

/-- What is read of handlers with a claim. -/
theorem bind_of_requests {α : Type} {f : Request → Option α}
    (requests : ∀ (n : Nat) r, s'.requests[n]? = some r → s.requests[n]? = some r ∨ r.claimId? = none)
    (claimed : ∀ r : Request, f r ≠ none → r.claimId? ≠ none) {n : Nat} {x : α}
    (hn : (s'.requests[n]?).bind f = some x) : (s.requests[n]?).bind f = some x := by
  obtain ⟨r, hr, hf⟩ := Option.bind_eq_some_iff.1 hn
  rcases requests n r hr with old | none
  · rw [old]
    exact hf
  · exact absurd none (claimed r (by rw [hf]; exact Option.some_ne_none x))

theorem Request.claimed_of_unsigned (r : Request) (h : r.unsigned? ≠ none) : r.claimId? ≠ none := by
  cases r <;> first | exact absurd rfl h | exact Option.some_ne_none _

theorem Owned.frame (o : Owned s) (claims : s'.db.payoutClaims = s.db.payoutClaims)
    (requests : ∀ (n : Nat) r, s'.requests[n]? = some r → s.requests[n]? = some r ∨ r.claimId? = none)
    (vouchers : s'.vouchers = s.vouchers) : Owned s' := by
  have lookup : ∀ k, s'.db.claim? k = s.db.claim? k := fun k => by rw [Db.claim?, Db.claim?, claims]
  have owner : ∀ {n k}, owner? s' n = some k → owner? s n = some k := fun hn =>
    bind_of_requests requests (fun _ h => h) hn
  refine ⟨claims ▸ o.ids, fun n k hn => lookup k ▸ o.row n k (owner hn),
    fun m n k hm hn => o.oneOwner m n k (owner hm) (owner hn), fun v hv => ?_, fun n k c hn hc => ?_,
    fun n w k epochs c hn hc => ?_⟩
  · obtain ⟨there, free⟩ := o.given v (vouchers ▸ hv)
    exact ⟨lookup _ ▸ there, fun n hn => free n (owner hn)⟩
  · exact o.unsigned n k c (bind_of_requests requests Request.claimed_of_unsigned hn) (lookup k ▸ hc)
  · rcases requests n _ hn with old | none
    · exact o.created n w k epochs c old (lookup k ▸ hc)
    · cases none

/-- A step of anybody else keeps the ledger. -/
theorem Ledger.frame (h : Ledger s ceilings) (claims : s'.db.payoutClaims = s.db.payoutClaims)
    (requests : ∀ (n : Nat) r, s'.requests[n]? = some r → s.requests[n]? = some r ∨ r.claimId? = none)
    (vouchers : s'.vouchers = s.vouchers)
    (orders : ∀ hash, (s'.db.order? hash).map (·.buyer) = (s.db.order? hash).map (·.buyer))
    (rows : List.Forall₂ Elsewhere s.db.tickets s'.db.tickets) : Ledger s' ceilings := by
  have lookup : ∀ k, s'.db.claim? k = s.db.claim? k := fun k => by rw [Db.claim?, Db.claim?, claims]
  have checked : ∀ r : Request, r.checked? ≠ none → r.claimId? ≠ none := fun r h => by
    cases r <;> first | exact absurd rfl h | exact Option.some_ne_none _
  have holding : ∀ r : Request, r.holding? ≠ none → r.claimId? ≠ none := fun r h => by
    cases r <;> first | exact absurd rfl h | exact Option.some_ne_none _
  have holds : ∀ {k a ids}, Holds s' k a ids → Holds s k a ids := by
    rintro k a ids (⟨n, hn⟩ | ⟨v, hv, same⟩)
    · exact .inl ⟨n, bind_of_requests requests holding hn⟩
    · exact .inr ⟨v, vouchers ▸ hv, same⟩
  have bound : ∀ k c, s.db.claim? k = some c → c.status = .PENDING →
      boundRows s'.db k = boundRows s.db k := by
    intro k c hc pending
    refine boundRows_elsewhere rows fun t ht hk => ?_
    obtain ⟨c₀, hc₀, -, claimed⟩ := h.buyers t ht k hk
    rw [hc] at hc₀
    cases hc₀
    exact claimed pending
  refine ⟨h.owned.frame claims requests vouchers, fun k a ids c hold hc pending => ?_,
    fun k a ids hold => h.positive k a ids (holds hold), fun n k a hn => ?_, fun t' ht' k hk => ?_,
    fun k c hc hl => ?_⟩
  · rw [lookup] at hc
    exact (bound k c hc pending).trans (h.held k a ids c (holds hold) hc pending)
  · exact h.checked n k a (bind_of_requests requests checked hn)
  · obtain ⟨t, ht, same⟩ := Table.exists_of_forall₂_right rows ht'
    obtain ⟨c, hc, buyer, claimed⟩ := h.buyers t ht k (same.claim ▸ hk)
    refine ⟨c, (lookup k).trans hc, ?_, fun pending => (same.claimed (claimed pending)).1⟩
    rw [Db.buyer?, Db.relayOrder?, same.order, orders]
    exact buyer
  · rw [lookup] at hc
    have priced := h.priced k c hc hl
    refine ⟨priced.amount.trans ?_, priced.positive, priced.ceiling⟩
    rw [show c.id = k from Table.key_of_findUnique hc]
    exact (congrArg Prod.fst (bound k c hc (live_iff.1 hl).1)).symm

end Frame

/-- Before the first claim. -/
theorem Ledger.initial (claims : s.db.payoutClaims = []) (unbound : ∀ t ∈ s.db.tickets, t.payoutClaimId = none)
    (requests : s.requests = []) (vouchers : s.vouchers = []) : Ledger s ceilings := by
  have none : ∀ k, s.db.claim? k = none := fun k => by rw [Db.claim?, claims]; rfl
  have quiet : ∀ (n : Nat) r, s.requests[n]? ≠ some r := fun n r hn => by
    rw [requests] at hn
    cases hn
  have idle : ∀ {α : Type} (f : Request → Option α) (n : Nat) (x : α), (s.requests[n]?).bind f ≠ some x := by
    intro α f n x hn
    obtain ⟨r, hr, -⟩ := Option.bind_eq_some_iff.1 hn
    exact quiet n r hr
  have holds : ∀ k a ids, ¬ Holds s k a ids := by
    rintro k a ids (⟨n, hn⟩ | ⟨v, hv, -⟩)
    · exact idle _ n _ hn
    · rw [vouchers] at hv
      cases hv
  refine ⟨⟨by rw [claims]; exact List.nodup_nil, fun n k hn => absurd hn (idle _ n k),
    fun m n k hm => absurd hm (idle _ m k), fun v hv => ?_, fun n k c hn => absurd hn (idle _ n k),
    fun n w k epochs c hn => absurd hn (quiet n _)⟩, fun k a ids c hold => absurd hold (holds k a ids),
    fun k a ids hold => absurd hold (holds k a ids), fun n k a hn => absurd hn (idle _ n _),
    fun t ht k hk => ?_, fun k c hc => ?_⟩
  · rw [vouchers] at hv
    cases hv
  · rw [unbound t ht] at hk
    cases hk
  · rw [none] at hc
    cases hc

end Ledger

end LordsPot.Payout
