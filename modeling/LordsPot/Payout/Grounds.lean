import LordsPot.Payout.Expiry

/-!
# One claim for each transaction

The signatures of confirmed claims are read back from their rows at every tick. Those of failed
claims are remembered within a tick only. The sweep may report anything here, also failed
transactions, as long as each entry has the positive amount that the program demands.
-/

namespace LordsPot.Payout

open Transition

/-- The payout path, and each claim a transaction has resolved, with that transaction. -/
structure Traced where
  payout : State
  grounds : List (Uuid × LandedClaim) := []
  deriving Repr

/-- `claim_winnings` rejects an amount of 0, so that its event never has one. -/
def reportable (r : LandedClaims) : Bool := r.claims.all fun e => decide (0 < e.amount)

/-- The claim whose status a step changes because of a landed transaction. -/
def ground? (s : State) : Action → Option (Uuid × LandedClaim)
  | .tick (.resolveNext false) => match s.tick with
    | some (.resolving (c :: _) _ landed used height) => match verdict landed used height s.now c with
      | .landed hit =>
          if status? (resolve s.db c.id s.now (.landed hit)) c.id = status? s.db c.id then none
          else some (c.id, hit)
      | _ => none
    | _ => none
  | _ => none

/-- The payout path, but for the sweep's answer, which is any list. -/
def tracedStep (s : Traced) (a : Action) : Option Traced :=
  match a, s.payout.tick with
  | .tick (.sweepReturns r), some (.sweeping pending _ calledAt _) =>
      if reportable r then some { s with payout.tick := some (.swept pending calledAt r) } else none
  | a, _ => (step s.payout a).map fun payout =>
      { payout := payout, grounds := (ground? s.payout a).toList ++ s.grounds }

def tracedMachine : Machine Traced Action :=
  ⟨fun s => Initial s.payout ∧ s.grounds = [], tracedStep⟩

/-- What is claimed of the resolved claims. -/
structure OneClaimEach (s : Traced) : Prop where
  once : ∀ g ∈ s.grounds, ∀ g' ∈ s.grounds, g.2.signature = g'.2.signature → g.1 = g'.1
  /-- A claim is resolved by a transaction of its wallet and its amount. -/
  own : ∀ g ∈ s.grounds, ∃ c, s.payout.db.claim? g.1 = some c ∧ c.wallet = g.2.wallet ∧
    c.amountUsdc = g.2.amount ∧ c.status = if g.2.failed then .FAILED else .CONFIRMED
  grounded : ∀ c ∈ s.payout.db.payoutClaims, c.status = .CONFIRMED ∨ c.status = .FAILED →
    ∃ hit, (c.id, hit) ∈ s.grounds

/-! ## The condition -/

/-- An entry that can belong to the claim and is not spoken for. -/
def fits (alreadyUsed : List Signature) (c : PayoutClaim) (e : LandedClaim) : Bool :=
  e.wallet == c.wallet && !alreadyUsed.contains e.signature && isAfterIssuance c e.blockTime &&
    e.amount == c.amountUsdc

/-- No transaction that has failed another claim is among the oldest that fit the claim to resolve. -/
def groundSafe (s : Traced) : Action → Bool
  | .tick (.resolveNext false) => match s.payout.tick with
    | some (.resolving (c :: _) _ landed used _) => landed.claims.all fun e => !fits used c e ||
        landed.claims.any (fun e' => fits used c e' && decide (e'.slot < e.slot)) ||
        s.grounds.all fun g => !g.2.failed || g.2.signature != e.signature
    | _ => true
  | _ => true

theorem findHit_fits {r : LandedClaims} {used : List Signature} {c : PayoutClaim} {hit : LandedClaim}
    (h : findHit r used c = some hit) :
    hit ∈ r.claims ∧ fits used c hit = true ∧ ∀ e ∈ r.claims, fits used c e = true → hit.slot ≤ e.slot := by
  have sorted : (byWallet r c.wallet).Pairwise fun a b => a.slot ≤ b.slot := by
    have : Std.Total fun a b : LandedClaim => a.slot ≤ b.slot := ⟨fun _ _ => Nat.le_total ..⟩
    have : IsTrans LandedClaim fun a b => a.slot ≤ b.slot := ⟨fun _ _ _ => Nat.le_trans⟩
    exact List.pairwise_insertionSort _ _
  have mem : ∀ e, e ∈ byWallet r c.wallet ↔ e ∈ r.claims ∧ e.wallet = c.wallet := by
    intro e
    rw [byWallet, List.mem_insertionSort, List.mem_filter, beq_iff_eq]
  have test := List.find?_some h
  obtain ⟨inList, wallet⟩ := (mem hit).1 (List.mem_of_find?_eq_some h)
  refine ⟨inList, by simpa [fits, wallet, and_assoc] using test, fun e he fit => ?_⟩
  obtain ⟨-, before, after, split, none⟩ := List.find?_eq_some_iff_append.1 h
  simp only [fits, Bool.and_eq_true, beq_iff_eq, and_assoc] at fit
  obtain ⟨own, rest⟩ := fit
  have there : e ∈ before ++ hit :: after := split ▸ (mem e).2 ⟨he, own⟩
  rw [split] at sorted
  rcases List.mem_append.1 there with early | late
  · have miss := none e early
    rw [rest.1, rest.2.1, beq_iff_eq.2 rest.2.2] at miss
    cases miss
  · rcases List.mem_cons.1 late with rfl | later
    · exact le_rfl
    · exact (List.pairwise_cons.1 (List.pairwise_append.1 sorted).2.1).1 e later

/-! ## The invariant -/

/-- The row of a claim that a transaction has resolved. -/
structure Grounded (db : Db) (g : Uuid × LandedClaim) (c : PayoutClaim) : Prop where
  row : db.claim? g.1 = some c
  stamped : c.lastValidBlockHeight ≠ none
  wallet : c.wallet = g.2.wallet
  amount : c.amountUsdc = g.2.amount
  status : c.status = if g.2.failed then .FAILED else .CONFIRMED
  signature : g.2.failed = false → c.txSignature = some g.2.signature

section Tick

variable (db : Db) (grounds : List (Uuid × LandedClaim))

/-- The claims a tick has still to resolve: as they were read, and not resolved by a transaction. -/
structure Carried (pending : List PayoutClaim) : Prop where
  snapshots : Snapshots db pending
  unresolved : ∀ g ∈ grounds, ∀ c ∈ pending, g.1 ≠ c.id

/-- The answers of a tick: positive amounts, and the signatures of every confirmed claim. -/
def TracedTick : Tick → Prop
  | .pendingRead pending | .sweeping pending _ _ _ => Carried db grounds pending
  | .swept pending _ r => Carried db grounds pending ∧ reportable r = true
  | .usedRead pending _ r used | .resolving pending _ r used _ =>
      (Carried db grounds pending ∧ reportable r = true) ∧
        ∀ g ∈ grounds, g.2.failed = false → g.2.signature ∈ used

end Tick

structure Traces (s : Traced) : Prop where
  book : Book s.payout
  once : ∀ g ∈ s.grounds, ∀ g' ∈ s.grounds, g.2.signature = g'.2.signature → g.1 = g'.1
  rows : ∀ g ∈ s.grounds, ∃ c, Grounded s.payout.db g c
  grounded : ∀ k c, s.payout.db.claim? k = some c → c.status = .CONFIRMED ∨ c.status = .FAILED →
    ∃ hit, (k, hit) ∈ s.grounds
  tick : ∀ t, s.payout.tick = some t → TracedTick s.payout.db s.grounds t

theorem Traces.oneClaimEach {s : Traced} (h : Traces s) : OneClaimEach s where
  once := h.once
  own g hg :=
    let ⟨c, row⟩ := h.rows g hg
    ⟨c, row.row, row.wallet, row.amount, row.status⟩
  grounded c hc resolved := h.grounded c.id c (Table.findUnique_of_mem h.book.ids hc) resolved

theorem Traces.initial {s : Traced} (h : Initial s.payout ∧ s.grounds = []) : Traces s := by
  obtain ⟨init, grounds⟩ := h
  refine ⟨.initial init, fun g hg => ?_, fun g hg => ?_, fun k c hc => ?_, fun t ht => ?_⟩
  · rw [grounds] at hg
    cases hg
  · rw [grounds] at hg
    cases hg
  · rw [Db.claim?, init.noClaims] at hc
    cases hc
  · rw [init.noTick] at ht
    cases ht

section Steps

variable {s : Traced} {payout : State}

/-- A step of everyone but the confirmer. -/
theorem Traces.meanwhile (h : Traces s) (m : Meanwhile s.payout payout) (book : Book payout)
    (statuses : ∀ k c', payout.db.claim? k = some c' → c'.status ≠ .PENDING →
      ∃ c, s.payout.db.claim? k = some c ∧ c.status = c'.status) :
    Traces { s with payout := payout } where
  book := book
  once := h.once
  rows g hg := by
    obtain ⟨c, row⟩ := h.rows g hg
    exact ⟨c, { row with row := m.stamped _ c row.row row.stamped }⟩
  grounded k c' hc' resolved := by
    have settled : c'.status ≠ .PENDING := by
      rcases resolved with h | h <;> rw [h] <;> decide
    obtain ⟨c, hc, same⟩ := statuses k c' hc' settled
    exact h.grounded k c hc (same ▸ resolved)
  tick t ht := by
    have before := h.tick t (m.tick ▸ ht)
    have carried : ∀ {pending}, Carried s.payout.db s.grounds pending →
        Carried payout.db s.grounds pending := fun c => ⟨c.snapshots.meanwhile m, c.unresolved⟩
    cases t with
    | pendingRead | sweeping => exact carried before
    | swept => exact ⟨carried before.1, before.2⟩
    | usedRead | resolving => exact ⟨⟨carried before.1.1, before.1.2⟩, before.2⟩

/-- A step that changes no claim. -/
theorem Traces.frame (h : Traces s) (m : Meanwhile s.payout payout) (book : Book payout)
    (claims : payout.db.payoutClaims = s.payout.db.payoutClaims) : Traces { s with payout := payout } := by
  refine h.meanwhile m book fun k c' hc' _ => ⟨c', ?_, rfl⟩
  rwa [Db.claim?, claims] at hc'

/-- A step of the tick that writes nothing. -/
theorem Traces.moves (h : Traces s) {tick : Option Tick}
    (next : ∀ t, tick = some t → TracedTick s.payout.db s.grounds t) :
    Traces { s with payout.tick := tick } :=
  ⟨h.book.frame rfl (fun _ => rfl) le_rfl rfl rfl rfl, h.once, h.rows, h.grounded, next⟩

end Steps

section Resolve

variable {s : Traced} {c : PayoutClaim} {cs : List PayoutClaim} {calledAt height : Nat}
  {r : LandedClaims} {used : List Signature}

/-- A hit is for a stamped claim, whose row is pending and as it was read. -/
theorem Carried.hit {hit : LandedClaim} (h : Carried s.payout.db s.grounds (c :: cs)) (positive : reportable r = true)
    (hh : findHit r used c = some hit) : c.lastValidBlockHeight ≠ none ∧
      ∃ row, s.payout.db.claim? c.id = some row ∧ row.status = .PENDING ∧ issue row = issue c := by
  obtain ⟨he, -, -, ha⟩ := findHit_eq_some hh
  have stamped : c.lastValidBlockHeight ≠ none := by
    intro unstamped
    have none := h.snapshots.unstamped c List.mem_cons_self unstamped
    have some := List.all_eq_true.1 positive hit he
    rw [decide_eq_true_eq, ha, none] at some
    omega
  exact ⟨stamped, h.snapshots.row c List.mem_cons_self stamped⟩

/-- A step records a claim when a transaction resolves it. -/
theorem ground?_eq_some {g : Uuid × LandedClaim}
    (ht : s.payout.tick = some (.resolving (c :: cs) calledAt r used height)) :
    ground? s.payout (.tick (.resolveNext false)) = some g ↔
      verdict r used height s.payout.now c = .landed g.2 ∧ g.1 = c.id ∧
        status? (resolve s.payout.db c.id s.payout.now (.landed g.2)) c.id ≠
          status? s.payout.db c.id := by
  simp only [ground?, ht]
  constructor
  · intro h
    split at h
    · rename_i hit landed
      split at h
      · cases h
      · rename_i changed
        cases h
        exact ⟨landed, rfl, changed⟩
    · cases h
  · rintro ⟨landed, own, changed⟩
    simp only [landed, if_neg changed]
    rw [← own]

/-- What is spoken for stays so. -/
theorem mem_useHit {sig : Signature} {v : Verdict} (h : sig ∈ used) : sig ∈ useHit used v := by
  cases v with
  | landed hit => exact List.mem_cons_of_mem _ h
  | neverSigned | expired | wait => exact h

/-- The claims left, after one of them is resolved or not. -/
theorem Carried.next {db : Db} {grounds : List (Uuid × LandedClaim)} {v : Verdict}
    (h : Carried s.payout.db s.grounds (c :: cs)) (rule : RowRule c.id v s.payout.db db)
    (new : ∀ g ∈ grounds, g ∈ s.grounds ∨ g.1 = c.id) : Carried db grounds cs where
  snapshots := h.snapshots.resolve rule
  unresolved g hg c₁ hc₁ same := by
    rcases new g hg with old | own
    · exact h.unresolved g old c₁ (List.mem_cons_of_mem _ hc₁) same
    · exact (List.nodup_cons.1 h.snapshots.distinct).1 (List.mem_map.2 ⟨c₁, hc₁, same.symm.trans own⟩)

/-- The row of a claim that a transaction resolves now. -/
theorem Carried.grounded {db : Db} {hit : LandedClaim} (h : Carried s.payout.db s.grounds (c :: cs))
    (positive : reportable r = true) (hh : findHit r used c = some hit)
    (rule : RowRule c.id (.landed hit) s.payout.db db)
    (changed : status? db c.id ≠ status? s.payout.db c.id) : ∃ row, Grounded db (c.id, hit) row := by
  obtain ⟨stamped, row, hr, -, same⟩ := h.hit positive hh
  obtain ⟨-, wallet, -, amount⟩ := findHit_eq_some hh
  rcases rule c.id with kept | ⟨-, row₀, row', hr₀, hr', issued, resolved⟩
  · exact absurd (by rw [status?, status?, kept]) changed
  · rw [hr] at hr₀
    cases hr₀
    have issued := issued.trans same
    have paid : row'.wallet = hit.wallet ∧ row'.amountUsdc = hit.amount :=
      ⟨(congrArg Issue.wallet issued).trans wallet.symm, (congrArg Issue.amount issued).trans amount.symm⟩
    have height : row'.lastValidBlockHeight ≠ none := by
      rw [show row'.lastValidBlockHeight = c.lastValidBlockHeight from
        congrArg Issue.lastValidBlockHeight issued]
      exact stamped
    have result : row'.status = (if hit.failed then .FAILED else .CONFIRMED) ∧
        (hit.failed = false → row'.txSignature = some hit.signature) := by
      rcases resolved with ⟨hit', he, ok, status, signature⟩ | ⟨hit', he, failed, status, -⟩ | ⟨he | he, -⟩
      · cases he
        rw [ok, status]
        exact ⟨rfl, fun _ => signature⟩
      · cases he
        rw [failed, status]
        exact ⟨rfl, fun h => by cases h⟩
      · cases he
      · cases he
    exact ⟨row', hr', height, paid.1, paid.2, result.1, result.2⟩

/-- The transaction that resolves a claim safely has resolved no other. -/
theorem Traces.fresh (h : Traces s)
    (ht : s.payout.tick = some (.resolving (c :: cs) calledAt r used height))
    (ok : groundSafe s (.tick (.resolveNext false)) = true) {hit : LandedClaim}
    (hh : findHit r used c = some hit) : ∀ g ∈ s.grounds, g.2.signature ≠ hit.signature := by
  obtain ⟨-, remembers⟩ := h.tick _ ht
  obtain ⟨mem, fit, oldest⟩ := findHit_fits hh
  obtain ⟨-, -, unused, -⟩ := findHit_eq_some hh
  intro g hg same
  cases failed : g.2.failed with
  | false => exact unused (same ▸ remembers g hg failed)
  | true =>
    simp only [groundSafe, ht] at ok
    have safe := List.all_eq_true.1 ok hit mem
    rw [fit] at safe
    rcases Bool.or_eq_true_iff.1 safe with older | none
    · obtain ⟨e, he, older⟩ := List.any_eq_true.1 older
      obtain ⟨fit', less⟩ := Bool.and_eq_true_iff.1 older
      have := oldest e he fit'
      have := of_decide_eq_true less
      omega
    · have := List.all_eq_true.1 none g hg
      rw [failed, same] at this
      simp at this

/-- **The resolution rule**: a safe resolution keeps what is known of the resolved claims. -/
theorem Traces.resolve (h : Traces s)
    (ht : s.payout.tick = some (.resolving (c :: cs) calledAt r used height))
    (ok : groundSafe s (.tick (.resolveNext false)) = true) :
    Traces {
      payout := { s.payout with
        db := Payout.resolve s.payout.db c.id s.payout.now (verdict r used height s.payout.now c)
        tick := if cs.isEmpty then none
          else some (.resolving cs calledAt r
            (useHit used (verdict r used height s.payout.now c)) height) }
      grounds := (ground? s.payout (.tick (.resolveNext false))).toList ++ s.grounds } := by
  obtain ⟨⟨carried, positive⟩, remembers⟩ := h.tick _ ht
  have rule := rowRule_resolve s.payout.db c.id s.payout.now (verdict r used height s.payout.now c)
  -- a new entry is the hit of this claim, whose row it changed
  have new : ∀ g ∈ (ground? s.payout (.tick (.resolveNext false))).toList ++ s.grounds,
      g ∈ s.grounds ∨ g.1 = c.id ∧ findHit r used c = some g.2 ∧
        verdict r used height s.payout.now c = .landed g.2 ∧
        status? (Payout.resolve s.payout.db c.id s.payout.now
          (verdict r used height s.payout.now c)) c.id ≠ status? s.payout.db c.id := by
    intro g hg
    rcases List.mem_append.1 hg with made | old
    · obtain ⟨landed, own, changed⟩ := (ground?_eq_some ht).1 (Option.mem_toList.1 made)
      exact .inr ⟨own, verdict_landed landed, landed, landed ▸ changed⟩
    · exact .inl old
  have fresh : ∀ {g g' : Uuid × LandedClaim}, findHit r used c = some g.2 → g' ∈ s.grounds →
      g.2.signature = g'.2.signature → False := fun hh hg' same => h.fresh ht ok hh _ hg' same.symm
  refine ⟨h.book.frame (ids_resolve ..) (fun _ => issue?_resolve ..) le_rfl rfl rfl rfl,
    fun g hg g' hg' same => ?_, fun g hg => ?_, fun k c' hc' resolved => ?_, fun t htick => ?_⟩
  · rcases new g hg with old | ⟨own, hh, -⟩
    · rcases new g' hg' with old' | ⟨-, hh', -⟩
      · exact h.once g old g' old' same
      · exact (fresh hh' old same.symm).elim
    · rcases new g' hg' with old' | ⟨own', -⟩
      · exact (fresh hh old' same).elim
      · exact own.trans own'.symm
  · rcases new g hg with old | ⟨own, hh, landed, changed⟩
    · obtain ⟨row, grounded⟩ := h.rows g old
      rcases rule g.1 with kept | ⟨same, -⟩
      · exact ⟨row, { grounded with row := kept.trans grounded.row }⟩
      · exact absurd same (carried.unresolved g old c List.mem_cons_self)
    · rw [← Prod.eta g, own]
      exact carried.grounded positive hh (landed ▸ rule) changed
  · rcases rule k with kept | ⟨rfl, row, row', hr, hr', -, res⟩
    · obtain ⟨hit, mem⟩ := h.grounded k c' (kept ▸ hc') resolved
      exact ⟨hit, List.mem_append_right _ mem⟩
    · have landed : ∃ hit, verdict r used height s.payout.now c = .landed hit := by
        rw [hr'] at hc'
        cases hc'
        rcases res with ⟨hit, landed, -⟩ | ⟨hit, landed, -⟩ | ⟨-, status, -⟩
        · exact ⟨hit, landed⟩
        · exact ⟨hit, landed⟩
        · rw [status] at resolved
          rcases resolved with h | h <;> cases h
      obtain ⟨hit, landed⟩ := landed
      refine ⟨hit, List.mem_append_left _ (Option.mem_toList.2 ((ground?_eq_some ht).2 ⟨landed, rfl, ?_⟩))⟩
      obtain ⟨-, row₀, hr₀, pending, -⟩ := carried.hit positive (verdict_landed landed)
      rw [← landed, status?, hc', status?, hr₀, Option.map_some, Option.map_some, pending]
      intro same
      rw [Option.some.inj same] at resolved
      rcases resolved with h | h <;> cases h
  · dsimp only at htick
    split at htick
    · cases htick
    · cases htick
      refine ⟨⟨carried.next rule fun g hg => (new g hg).imp_right (·.1), positive⟩, fun g hg succeeded => ?_⟩
      rcases new g hg with old | ⟨-, -, landed, -⟩
      · exact mem_useHit (remembers g old succeeded)
      · rw [landed]
        exact List.mem_cons_self

end Resolve

/-- A step of the tick. -/
theorem Traces.tickStep {s : Traced} {act : TickAct} {payout : State} (h : Traces s)
    (ok : groundSafe s (.tick act) = true) (answered : ∀ r, act ≠ .sweepReturns r)
    (hs : Payout.tickStep s.payout s.payout.tick act = some payout) :
    Traces { payout := payout, grounds := (ground? s.payout (.tick act)).toList ++ s.grounds } := by
  cases tickMove hs with
  | idle => exact h
  | read here pending =>
    refine h.moves fun t ht => ?_
    cases ht
    rw [TracedTick, ← pending]
    refine ⟨(snapshots_findPending h.book).1, fun g hg c hc same => ?_⟩
    obtain ⟨row, grounded⟩ := h.rows g hg
    obtain ⟨mem, pending⟩ := mem_findPending.1 hc
    have found : s.payout.db.claim? c.id = some c := Table.findUnique_of_mem h.book.ids mem
    have status := grounded.status
    rw [Option.some.inj (grounded.row.symm.trans (same ▸ found)), pending] at status
    split at status <;> cases status
  | call here | height here =>
    have before := h.tick _ here
    refine h.moves fun t he => ?_
    cases he
    exact before
  | answer => exact absurd rfl (answered _)
  | noAnswer | crash => exact h.moves fun t he => by cases he
  | used here =>
    refine h.moves fun t he => ?_
    cases he
    refine ⟨h.tick _ here, fun g hg succeeded => ?_⟩
    obtain ⟨row, grounded⟩ := h.rows g hg
    exact List.mem_filterMap.2 ⟨row, Table.mem_of_findUnique grounded.row, grounded.signature succeeded⟩
  | @resolve c cs calledAt height r used fails here =>
    cases fails with
    | false => exact h.resolve here ok
    | true =>
      obtain ⟨⟨carried, positive⟩, remembers⟩ := h.tick _ here
      refine h.moves fun t he => ?_
      split at he
      · cases he
      · cases he
        have kept : RowRule c.id .wait s.payout.db s.payout.db := fun _ => .inl rfl
        exact ⟨⟨carried.next kept fun _ => .inl, positive⟩,
          fun g hg succeeded => mem_useHit (remembers g hg succeeded)⟩

/-- The sweep answers, or the payout path makes a step. -/
theorem tracedStep_cases {s s' : Traced} {a : Action} (hs : tracedStep s a = some s') :
    (∃ r pending notBefore calledAt before, a = .tick (.sweepReturns r) ∧
      s.payout.tick = some (.sweeping pending notBefore calledAt before) ∧ reportable r = true ∧
      s' = { s with payout.tick := some (.swept pending calledAt r) }) ∨
    (∀ r, a ≠ .tick (.sweepReturns r)) ∧ ∃ payout, step s.payout a = some payout ∧
      s' = { payout := payout, grounds := (ground? s.payout a).toList ++ s.grounds } := by
  unfold tracedStep at hs
  split at hs
  · rename_i r pending notBefore calledAt before ht
    split at hs
    · rename_i positive
      cases hs
      exact .inl ⟨r, pending, notBefore, calledAt, before, rfl, ht, positive, rfl⟩
    · cases hs
  · rename_i unanswered
    obtain ⟨payout, stepped, rfl⟩ := Option.map_eq_some_iff.1 hs
    refine .inr ⟨fun r same => ?_, payout, stepped, rfl⟩
    subst same
    cases tickMove stepped with
    | answer here => exact unanswered r _ _ _ _ rfl here

/-- **The trace rule**: a safe step keeps what is known of the resolved claims. -/
theorem Traces.step {s s' : Traced} {a : Action} (h : Traces s) (ok : groundSafe s a = true)
    (hs : tracedStep s a = some s') : Traces s' := by
  rcases tracedStep_cases hs with ⟨r, pending, _, calledAt, _, rfl, ht, positive, rfl⟩ |
    ⟨unanswered, payout, stepped, rfl⟩
  · have before := h.tick _ ht
    refine h.moves fun t he => ?_
    cases he
    exact ⟨before, positive⟩
  · have book := h.book.step stepped
    cases a with
    | tick act => exact h.tickStep ok (fun r same => unanswered r (by rw [same])) stepped
    | request w =>
      cases stepped
      exact h.frame (meanwhile_frame rfl le_rfl rfl rfl) book rfl
    | route i act =>
      obtain ⟨r, db, r', handed, hr, routed, rfl⟩ := step_route stepped
      have spec := routeStep_spec routed
      refine h.meanwhile (meanwhile_route h.book hr spec) book fun k c' hc' settled => ?_
      rcases spec.resolution k c' hc' with ⟨c, hc, same, -⟩ | ⟨-, pending, -⟩
      · exact ⟨c, hc, same.symm⟩
      · exact absurd pending settled
    | land v sig slot bt =>
      obtain ⟨-, fresh, height, -, -, p, rfl⟩ := step_land stepped
      refine h.frame ⟨rfl, le_rfl, fun _ _ hc _ => hc, fun _ c _ hc hsig => ⟨c, hc, hsig⟩, ?_⟩ book rfl
      exact .inr ⟨_, rfl, fun l hl => (fresh l hl).2, height⟩
    | clock ms =>
      cases stepped
      exact h.frame (meanwhile_frame rfl le_rfl rfl rfl) book rfl
    | blocks n =>
      cases stepped
      exact h.frame (meanwhile_frame rfl (Nat.le_add_right ..) rfl rfl) book rfl
    | program p =>
      cases stepped
      exact h.frame (meanwhile_frame rfl le_rfl rfl rfl) book rfl
    | harvest batchId txHash =>
      cases stepped
      exact h.frame (meanwhile_frame rfl le_rfl rfl rfl) book rfl
    | epoch r =>
      cases stepped
      have claims := upsertSettledEpoch_payoutClaims s.payout.db r
      exact h.frame (meanwhile_frame rfl le_rfl claims rfl) book claims

/-- **Each transaction settles one claim** in every run in which no transaction that has failed a
claim is among the oldest that fit another when that one is resolved. -/
theorem one_claim_each {s : Traced}
    (h : tracedMachine.ReachableBy (fun s a => groundSafe s a = true) s) : OneClaimEach s :=
  (h.invariant (I := Traces) (fun _ => .initial) fun _ _ _ inv ok hs => inv.step ok hs).oneClaimEach

/-- Handler `i` issues a voucher for claim `k`. -/
def voucherFor (i : Nat) (k : Uuid) : List Action :=
  .request "w" :: ([.gate false, .findExisting, .readRevealed, .create k, .bind, .sum, .ceiling true,
    .build (some 2000), .stamp false, .handOut].map fun act => .route i act)

/-- A tick with one pending claim whose sweep reports `claims`. -/
def reportTick (claims : List LandedClaim) : List Action :=
  [.readPending, .callSweep, .sweepReturns ⟨claims, true⟩, .readUsed, .readHeight 1000,
    .resolveNext false].map .tick

/-- A transaction of the wallet's 100. -/
def entry (signature : Signature) (slot : Nat) (failed : Bool) : LandedClaim :=
  { wallet := "w", amount := 100, signature := signature, slot := slot, blockTime := some 1000,
    failed := failed }

theorem initial_traced : tracedMachine.init { payout := oneTicket } := ⟨initial_oneTicket, rfl⟩

/-- A failed transaction is reported in two ticks, and fails the next voucher as well. -/
theorem failed_twice : ¬ ∀ s, tracedMachine.Reachable s → OneClaimEach s := by
  intro all
  obtain ⟨s, hs, hp⟩ := Machine.exists_reachable_of_run (M := tracedMachine) initial_traced
    (voucherFor 0 "c" ++ reportTick [entry "sig" 1 true] ++ voucherFor 1 "d" ++
      reportTick [entry "sig" 1 true])
    (fun s => s.grounds.any fun g => s.grounds.any fun g' =>
      g.2.signature == g'.2.signature && g.1 != g'.1) (by decide +kernel)
  simp only [List.any_eq_true, Bool.and_eq_true, beq_iff_eq, bne_iff_ne] at hp
  obtain ⟨g, hg, g', hg', same, apart⟩ := hp
  exact apart ((all s hs).once g hg g' hg' same)

/-- The voucher of a failed transaction is issued again after the clock skew, and is confirmed. -/
theorem one_claim_each_retried : ∃ s : Traced,
    (s.grounds.map fun g => (g.1, g.2.signature, g.2.failed)) = [("d", "ok", false), ("c", "sig", true)] ∧
      OneClaimEach s := by
  obtain ⟨s, hs, hp⟩ := Machine.exists_reachableBy_of_runBy (M := tracedMachine) groundSafe
    initial_traced
    (voucherFor 0 "c" ++ reportTick [entry "sig" 1 true] ++ .clock 70000 :: voucherFor 1 "d" ++
      reportTick [entry "sig" 1 true, { entry "ok" 2 false with blockTime := none }])
    (fun s => (s.grounds.map fun g => (g.1, g.2.signature, g.2.failed)) ==
      [("d", "ok", false), ("c", "sig", true)]) (by decide +kernel)
  exact ⟨s, beq_iff_eq.1 hp, one_claim_each hs⟩

end LordsPot.Payout
