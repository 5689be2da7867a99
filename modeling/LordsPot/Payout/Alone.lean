import LordsPot.Payout.Binding

/-!
# A handler that nothing interrupts

`POST /voucher` taken as one transition: from the database in which it begins to its answer, with the
voucher it hands out or with the tables as they were.
-/

namespace LordsPot.Payout

open Transition

/-- The foreign key of a ticket's claim. -/
def ForeignKey (db : Db) : Prop :=
  ∀ t ∈ db.tickets, ∀ k, t.payoutClaimId = some k → db.claim? k ≠ none

section Alone

variable (s : State) (w : Wallet)

/-- The wallet's claimable tickets. -/
def claimableNow (t : Ticket) : Bool := claimable s.db w (getRevealedEpochIds s.db s.now) t

/-- The database once the claim is there and its tickets are bound. -/
def taken (k : Uuid) : Db :=
  bindTickets (createClaim s.db k w s.now) w (getRevealedEpochIds s.db s.now) k

/-- The voucher that is made of the wallet's claimable tickets. -/
def voucherOf (k : Uuid) (lastValidBlockHeight : Nat) : Voucher where
  claimId := k
  wallet := w
  admin := s.adminKey
  amount := Table.sumWhere (claimableNow s w) (·.winAmount) s.db.tickets
  lastValidBlockHeight := lastValidBlockHeight
  tickets := (s.db.tickets.filter (claimableNow s w)).map (·.id)

/-- Why a request is refused after its tickets were bound. -/
def Refused : Nat → Prop
  | 404 => Table.sumWhere (claimableNow s w) (·.winAmount) s.db.tickets = 0
  | 409 => s.program.maxClaimAmount < Table.sumWhere (claimableNow s w) (·.winAmount) s.db.tickets
  | status => status = 503 ∨ status = 500

/-- The tables as they were. -/
structure Restored (db : Db) : Prop where
  tickets : db.tickets = s.db.tickets
  payoutClaims : db.payoutClaims = s.db.payoutClaims

/-- A handler that began at `s` and has been alone: the database it has made, the vouchers handed out,
and where it stands. -/
inductive Alone : Db → List Voucher → Request → Prop where
  | received : Alone s.db s.vouchers (.received w)
  | paused : Alone s.db s.vouchers (.answered 503)
  | admitted : Alone s.db s.vouchers (.admitted w)
  | live (existing : (findExisting s.db w).isSome) : Alone s.db s.vouchers (.answered 200)
  | noneLive : Alone s.db s.vouchers (.noneLive w)
  | revealed : Alone s.db s.vouchers (.revealed w (getRevealedEpochIds s.db s.now))
  | created {k : Uuid} (fresh : s.db.claim? k = none) :
      Alone (createClaim s.db k w s.now) s.vouchers (.created w k (getRevealedEpochIds s.db s.now))
  | bound {k : Uuid} (fresh : s.db.claim? k = none) : Alone (taken s w k) s.vouchers (.bound w k)
  | summed {k : Uuid} {l : Nat} (fresh : s.db.claim? k = none) (positive : 0 < (voucherOf s w k l).amount) :
      Alone (taken s w k) s.vouchers
        (.summed w k (voucherOf s w k l).amount (voucherOf s w k l).tickets)
  | withinCeiling {k : Uuid} {l : Nat} (fresh : s.db.claim? k = none)
      (positive : 0 < (voucherOf s w k l).amount)
      (within : (voucherOf s w k l).amount ≤ s.program.maxClaimAmount) :
      Alone (taken s w k) s.vouchers
        (.withinCeiling w k (voucherOf s w k l).amount (voucherOf s w k l).tickets)
  | built {k : Uuid} {l : Nat} (fresh : s.db.claim? k = none) (positive : 0 < (voucherOf s w k l).amount)
      (within : (voucherOf s w k l).amount ≤ s.program.maxClaimAmount) :
      Alone (taken s w k) s.vouchers (.built (voucherOf s w k l))
  | stamped {db : Db} {k : Uuid} {l : Nat} (positive : 0 < (voucherOf s w k l).amount)
      (within : (voucherOf s w k l).amount ≤ s.program.maxClaimAmount) :
      Alone db s.vouchers (.stamped (voucherOf s w k l))
  | issued {db : Db} {k : Uuid} {l : Nat} (positive : 0 < (voucherOf s w k l).amount)
      (within : (voucherOf s w k l).amount ≤ s.program.maxClaimAmount) :
      Alone db (s.vouchers ++ [voucherOf s w k l]) (.answered 201)
  | releasing {k : Uuid} {status : Nat} (fresh : s.db.claim? k = none) (why : Refused s w status) :
      Alone (taken s w k) s.vouchers (.releasing k status)
  | emptied {k : Uuid} {status : Nat} (fresh : s.db.claim? k = none) (why : Refused s w status) :
      Alone (unbindTickets (taken s w k) k) s.vouchers (.deleting k status)
  | deleting {k : Uuid} {status : Nat} (fresh : s.db.claim? k = none) (why : Refused s w status) :
      Alone (taken s w k) s.vouchers (.deleting k status)
  | refused {db : Db} {status : Nat} (why : Refused s w status) (restored : Restored s db) :
      Alone db s.vouchers (.answered status)
  | crashed {db : Db} {vouchers : List Voucher} : Alone db vouchers .crashed

end Alone

section Steps

variable {s : State} {w : Wallet}

/-- A claim that is not there has no tickets. -/
theorem ForeignKey.unbound (keys : ForeignKey s.db) {k : Uuid} (fresh : s.db.claim? k = none) {t : Ticket}
    (ht : t ∈ s.db.tickets) : t.payoutClaimId ≠ some k := fun bound => keys t ht k bound fresh

/-- The rows bound to a new claim are the claimable ones. -/
theorem boundTo_taken (keys : ForeignKey s.db) {k : Uuid} (fresh : s.db.claim? k = none) {t : Ticket}
    (ht : t ∈ s.db.tickets) : boundTo k
      (if claimableNow s w t then { t with payoutClaimId := some k } else t) = claimableNow s w t := by
  split
  · rename_i free
    rw [free]
    exact boundTo_eq_true.2 rfl
  · rename_i kept
    rw [Bool.eq_false_iff.2 kept, Bool.eq_false_iff]
    exact fun bound => keys.unbound fresh ht (boundTo_eq_true.1 bound)

theorem boundSum_taken (keys : ForeignKey s.db) {k : Uuid} (fresh : s.db.claim? k = none) (l : Nat) :
    boundSum (taken s w k) k = (voucherOf s w k l).amount :=
  Table.sumWhere_updateMany (fun _ ht => boundTo_taken keys fresh ht) fun _ => rfl

theorem boundIds_taken (keys : ForeignKey s.db) {k : Uuid} (fresh : s.db.claim? k = none) (l : Nat) :
    boundIds (taken s w k) k = (voucherOf s w k l).tickets := by
  have rows : (taken s w k).tickets.filter (boundTo k) = Table.updateMany (claimableNow s w)
      (fun t => { t with payoutClaimId := some k }) (s.db.tickets.filter (claimableNow s w)) :=
    Table.filter_updateMany fun _ ht => boundTo_taken keys fresh ht
  exact (congrArg (List.map (·.id)) rows).trans (Table.map_updateMany _ fun _ _ _ => rfl)

/-- Giving the tickets back restores them. -/
theorem unbind_taken (keys : ForeignKey s.db) {k : Uuid} (fresh : s.db.claim? k = none) :
    (unbindTickets (taken s w k) k).tickets = s.db.tickets := by
  have rows : (unbindTickets (taken s w k) k).tickets =
      (s.db.tickets.map fun t => if claimableNow s w t then { t with payoutClaimId := some k } else t).map
        fun t => if boundTo k t then { t with payoutClaimId := none } else t := rfl
  rw [rows, List.map_map]
  refine (List.map_congr_left fun t ht => ?_).trans (List.map_id _)
  rw [Function.comp_apply, boundTo_taken keys fresh ht]
  split
  · rename_i free
    simp only [id, ← claimable_unbound free]
  · rfl

theorem unbind_twice (db : Db) (k : Uuid) :
    (unbindTickets (unbindTickets db k) k).tickets = (unbindTickets db k).tickets := by
  refine (List.map_congr_left fun t ht => ?_).trans (List.map_id _)
  obtain ⟨t, -, rfl⟩ := Table.mem_updateMany.1 ht
  refine if_neg fun bound => ?_
  split at bound
  · cases boundTo_eq_true.1 bound
  · contradiction

/-- Deleting the claim leaves the claims as they were. -/
theorem claims_taken {k : Uuid} (fresh : s.db.claim? k = none) :
    Table.deleteKey PayoutClaim.id k (taken s w k).payoutClaims = s.db.payoutClaims := by
  have absent : k ∉ s.db.payoutClaims.map (·.id) := Table.findUnique_eq_none.1 fresh
  have rows : (taken s w k).payoutClaims =
      s.db.payoutClaims ++ [{ id := k, wallet := w, createdAt := s.now }] := rfl
  rw [rows, Table.deleteKey, List.filter_append, List.filter_eq_self.2 fun c hc => ?_]
  · simp
  · refine decide_eq_true fun same => absent ?_
    exact List.mem_map.2 ⟨c, hc, same⟩

/-- **One step** of a handler that is alone. -/
theorem Alone.step (keys : ForeignKey s.db) {db db' : Db} {vouchers : List Voucher} {r r' : Request}
    {act : RouteAct} {handed : Option Voucher} (h : Alone s w db vouchers r)
    (hs : routeStep s.now s.program s.adminKey db r act = some (db', r', handed)) :
    Alone s w db' (vouchers ++ handed.toList) r' := by
  have still : vouchers ++ (none : Option Voucher).toList = vouchers := List.append_nil _
  unfold routeStep at hs
  split at hs
  case h_1 paused =>
    cases h
    cases hs
    rw [still]
    cases paused with
    | true => exact .paused
    | false => exact .admitted
  case h_2 =>
    cases h
    split at hs <;> cases hs <;> rw [still]
    · rename_i existing
      exact .live (by rw [existing]; rfl)
    · exact .noneLive
  case h_3 => cases h; cases hs; rw [still]; exact .revealed
  case h_4 =>
    cases h
    split at hs
    · rename_i fresh
      cases hs
      rw [still]
      exact .created fresh
    · cases hs
  case h_5 =>
    cases h with
    | created fresh => cases hs; rw [still]; exact .bound fresh
  case h_6 k =>
    cases h with
    | bound fresh =>
      split at hs
      · rename_i zero
        cases hs
        rw [still]
        exact .deleting fresh ((boundSum_taken keys fresh 0).symm.trans zero)
      · rename_i nonzero
        cases hs
        rw [still, boundSum_taken keys fresh 0, boundIds_taken keys fresh 0]
        rw [boundSum_taken keys fresh 0] at nonzero
        exact .summed fresh (Nat.pos_of_ne_zero nonzero)
  case h_7 =>
    cases h with
    | summed fresh positive =>
      split at hs
      · split at hs
        · rename_i above
          cases hs
          rw [still]
          exact .releasing fresh above
        · rename_i within
          cases hs
          rw [still]
          exact .withinCeiling fresh positive (Nat.le_of_not_lt within)
      · cases hs
        rw [still]
        exact .releasing fresh (.inl rfl)
  case h_8 =>
    cases h with
    | withinCeiling fresh positive within =>
      split at hs <;> cases hs <;> rw [still]
      · exact .releasing fresh (.inr rfl)
      · exact .built fresh positive within
  case h_9 =>
    cases h with
    | built fresh positive within =>
      split at hs <;> cases hs <;> rw [still]
      · exact .releasing fresh (.inr rfl)
      · exact .stamped positive within
  case h_10 =>
    cases h with
    | stamped positive within => cases hs; exact .issued positive within
  case h_11 =>
    cases h with
    | releasing fresh why => cases hs; rw [still]; exact .emptied fresh why
  case h_12 k _ =>
    cases h with
    | emptied fresh why =>
      cases hs
      rw [still]
      exact .refused why ⟨(unbind_twice _ k).trans (unbind_taken keys fresh), claims_taken fresh⟩
    | deleting fresh why =>
      cases hs
      rw [still]
      exact .refused why ⟨unbind_taken keys fresh, claims_taken fresh⟩
  case h_13 =>
    cases hs
    exact .crashed
  case h_14 => cases hs

end Steps

/-- **A run** of steps of one handler. -/
theorem Alone.run {s t s' : State} (keys : ForeignKey s.db) {i : Nat} {w : Wallet} {acts : List RouteAct}
    (clock : t.now = s.now) (program : t.program = s.program) (key : t.adminKey = s.adminKey)
    (alone : ∀ r, t.requests[i]? = some r → Alone s w t.db t.vouchers r)
    (run : machine.run t (acts.map (.route i)) = some s') {r : Request} (there : s'.requests[i]? = some r) :
    Alone s w s'.db s'.vouchers r := by
  induction acts generalizing t with
  | nil =>
    cases run
    exact alone r there
  | cons act acts ih =>
    obtain ⟨t', moved, rest⟩ := Machine.run_cons.1 run
    obtain ⟨r, db, r', handed, hr, hs, rfl⟩ := step_route moved
    rw [clock, program, key] at hs
    refine ih ?_ ?_ ?_ (fun r₀ hr₀ => ?_) rest
    · exact clock
    · exact program
    · exact key
    rw [List.getElem?_set_self (List.getElem?_eq_some_iff.1 hr).1] at hr₀
    cases hr₀
    exact (alone r hr).step keys hs

end LordsPot.Payout
