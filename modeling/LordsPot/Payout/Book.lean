import LordsPot.Payout.System

/-!
# The claim book

What holds between claim rows, handlers in flight, vouchers and landings in every
reachable state, whatever the schedule: each row belongs to at most one handler or
voucher, says of the voucher exactly what the voucher says, and is written by nobody
else except for its status and signature. `Issue` is the part of a row its own handler
writes; the confirmer never changes it.
-/

namespace LordsPot.Payout

open Transition

/-- The part of a claim row that only the route writes. -/
structure Issue where
  wallet : Wallet
  amount : Nat
  lastValidBlockHeight : Option Nat
  createdAt : Nat
  deriving DecidableEq

def issue (c : PayoutClaim) : Issue :=
  ⟨c.wallet, c.amountUsdc, c.lastValidBlockHeight, c.createdAt⟩

def issue? (db : Db) (k : Uuid) : Option Issue := (db.claim? k).map issue

def status? (db : Db) (k : Uuid) : Option PayoutStatus := (db.claim? k).map (·.status)

/-- The claim a handler created and has not given away. -/
def Request.claimId? : Request → Option Uuid
  | .created _ k _ | .bound _ k | .summed _ k _ _ | .withinCeiling _ k _ _
  | .releasing k _ | .deleting k _ => some k
  | .built v | .stamped v => some v.claimId
  | .received _ | .admitted _ | .noneLive _ | .revealed .. | .answered _ | .crashed => none

/-- What the row of a handler's claim holds at each await. -/
def Request.Agrees (i : Issue) : Request → Prop
  | .created w _ _ | .bound w _ | .summed w _ _ _ | .withinCeiling w _ _ _ =>
      i.wallet = w ∧ i.lastValidBlockHeight = none
  | .built v => i.wallet = v.wallet ∧ i.lastValidBlockHeight = none
  | .stamped v =>
      i.wallet = v.wallet ∧ i.lastValidBlockHeight = some v.lastValidBlockHeight ∧
        i.amount = v.amount
  | .releasing .. | .deleting .. => i.lastValidBlockHeight = none
  | .received _ | .admitted _ | .noneLive _ | .revealed .. | .answered _ | .crashed => True

/-- What the row of a voucher's claim holds. -/
def Voucher.Agrees (v : Voucher) (i : Issue) : Prop :=
  i.wallet = v.wallet ∧ i.lastValidBlockHeight = some v.lastValidBlockHeight ∧ i.amount = v.amount

/-- The handler that owns each claim, by position. -/
def owner? (s : State) (n : Nat) : Option Uuid := (s.requests[n]?).bind Request.claimId?

structure Book (s : State) : Prop where
  ids : (s.db.payoutClaims.map (·.id)).Nodup
  issued : ∀ k i, issue? s.db k = some i →
    i.createdAt ≤ s.now ∧ (i.lastValidBlockHeight = none → i.amount = 0)
  requestRow : ∀ (n : Nat) (r : Request) k, s.requests[n]? = some r → r.claimId? = some k →
    ∃ i, issue? s.db k = some i ∧ r.Agrees i
  oneOwner : ∀ m n k, owner? s m = some k → owner? s n = some k → m = n
  voucherRow : ∀ v ∈ s.vouchers, ∃ i, issue? s.db v.claimId = some i ∧ v.Agrees i
  givenAway : ∀ v ∈ s.vouchers, ∀ n, owner? s n ≠ some v.claimId
  voucherIds : (s.vouchers.map (·.claimId)).Nodup
  landedHanded : ∀ l ∈ s.landed, l.voucher ∈ s.vouchers
  landedOnce : (s.landed.map (·.voucher)).Nodup
  signatures : (s.landed.map (·.signature)).Nodup
  landedAfter : ∀ l ∈ s.landed, ∀ i, issue? s.db l.voucher.claimId = some i →
    ∀ bt, l.blockTime = some bt → i.createdAt ≤ bt * 1000 + CLOCK_SKEW_MS
  landedPositive : ∀ l ∈ s.landed, 0 < l.voucher.amount

/-! ## What a handler's step does -/

/-- What a handler's step does, one case for each way in which an await ends. -/
inductive RouteMove (now : Nat) (program : Program) (adminKey : Wallet) (db : Db) :
    Request → RouteAct → Db → Request → Option Voucher → Prop where
  | answer {r : Request} {act : RouteAct} {status : Nat} (before : r.claimId? = none) :
      RouteMove now program adminKey db r act db (.answered status) none
  | unpaused {w : Wallet} :
      RouteMove now program adminKey db (.received w) (.gate false) db (.admitted w) none
  | noneLive {w : Wallet} :
      RouteMove now program adminKey db (.admitted w) .findExisting db (.noneLive w) none
  | reveal {w : Wallet} : RouteMove now program adminKey db (.noneLive w) .readRevealed db
      (.revealed w (getRevealedEpochIds db now)) none
  | create {w : Wallet} {epochs : List Nat} {id : Uuid} (fresh : db.claim? id = none) :
      RouteMove now program adminKey db (.revealed w epochs) (.create id) (createClaim db id w now)
        (.created w id epochs) none
  | bind {w : Wallet} {k : Uuid} {epochs : List Nat} :
      RouteMove now program adminKey db (.created w k epochs) .bind (bindTickets db w epochs k)
        (.bound w k) none
  | empty {w : Wallet} {k : Uuid} :
      RouteMove now program adminKey db (.bound w k) .sum db (.deleting k 404) none
  | sum {w : Wallet} {k : Uuid} (positive : 0 < boundSum db k) :
      RouteMove now program adminKey db (.bound w k) .sum db
        (.summed w k (boundSum db k) (boundIds db k)) none
  | refuse {w : Wallet} {k : Uuid} {amount status : Nat} {ids : List Uuid} {reachable : Bool} :
      RouteMove now program adminKey db (.summed w k amount ids) (.ceiling reachable) db
        (.releasing k status) none
  | ceiling {w : Wallet} {k : Uuid} {amount : Nat} {ids : List Uuid}
      (within : amount ≤ program.maxClaimAmount) :
      RouteMove now program adminKey db (.summed w k amount ids) (.ceiling true) db
        (.withinCeiling w k amount ids) none
  | noBuild {w : Wallet} {k : Uuid} {amount : Nat} {ids : List Uuid} :
      RouteMove now program adminKey db (.withinCeiling w k amount ids) (.build none) db
        (.releasing k 500) none
  | build {w : Wallet} {k : Uuid} {amount l : Nat} {ids : List Uuid} :
      RouteMove now program adminKey db (.withinCeiling w k amount ids) (.build (some l)) db
        (.built ⟨k, w, adminKey, amount, l, ids⟩) none
  | noStamp {v : Voucher} :
      RouteMove now program adminKey db (.built v) (.stamp true) db (.releasing v.claimId 500) none
  | stamp {v : Voucher} : RouteMove now program adminKey db (.built v) (.stamp false)
      (stampClaim db v.claimId v.amount v.lastValidBlockHeight) (.stamped v) none
  | handOut {v : Voucher} :
      RouteMove now program adminKey db (.stamped v) .handOut db (.answered 201) (some v)
  | release {k : Uuid} {status : Nat} : RouteMove now program adminKey db (.releasing k status)
      .release (unbindTickets db k) (.deleting k status) none
  | delete {k : Uuid} {status : Nat} : RouteMove now program adminKey db (.deleting k status)
      .delete (deleteClaim db k) (.answered status) none
  | crash {r : Request} : RouteMove now program adminKey db r .crash db .crashed none

theorem routeMove {now : Nat} {program : Program} {adminKey : Wallet} {db db' : Db}
    {r r' : Request} {act : RouteAct} {handed : Option Voucher}
    (h : routeStep now program adminKey db r act = some (db', r', handed)) :
    RouteMove now program adminKey db r act db' r' handed := by
  unfold routeStep at h
  split at h
  case h_1 w paused =>
    cases h
    cases paused with
    | true => exact .answer rfl
    | false => exact .unpaused
  case h_2 =>
    split at h <;> cases h
    · exact .answer rfl
    · exact .noneLive
  case h_3 => cases h; exact .reveal
  case h_4 =>
    split at h
    · rename_i fresh
      cases h
      exact .create fresh
    · cases h
  case h_5 => cases h; exact .bind
  case h_6 =>
    split at h
    · cases h
      exact .empty
    · rename_i nonzero
      cases h
      exact .sum (Nat.pos_of_ne_zero nonzero)
  case h_7 =>
    split at h
    · split at h
      · cases h
        exact .refuse
      · rename_i reachable within
        cases h
        rw [reachable]
        exact .ceiling (Nat.le_of_not_lt within)
    · cases h
      exact .refuse
  case h_8 =>
    split at h <;> cases h
    · exact .noBuild
    · exact .build
  case h_9 v throws =>
    cases throws with
    | true => cases h; exact .noStamp
    | false => cases h; exact .stamp
  case h_10 => cases h; exact .handOut
  case h_11 => cases h; exact .release
  case h_12 => cases h; exact .delete
  case h_13 => cases h; exact .crash
  case h_14 => cases h

/-- The parts of one handler step that the book rests on. -/
structure RouteSpec (now : Nat) (db : Db) (r : Request) (act : RouteAct) (db' : Db) (r' : Request)
    (handed : Option Voucher) : Prop where
  frame : ∀ k, db.claim? k ≠ none → r.claimId? ≠ some k → db'.claim? k = db.claim? k
  own : ∀ k, r'.claimId? = some k → r.claimId? = some k ∨ db.claim? k = none
  row : (∀ k, r.claimId? = some k → ∃ i, issue? db k = some i ∧ r.Agrees i) →
    ∀ k, r'.claimId? = some k → ∃ i, issue? db' k = some i ∧ r'.Agrees i
  handed : ∀ v, handed = some v → r = .stamped v ∧ r' = .answered 201 ∧ db' = db
  ids : (db.payoutClaims.map (·.id)).Nodup → (db'.payoutClaims.map (·.id)).Nodup
  issued : ∀ k i, issue? db' k = some i → issue? db k = some i ∨
    issue? db k = none ∧ (∃ w, i = ⟨w, 0, none, now⟩) ∨
    ∃ v j, r = .built v ∧ act = .stamp false ∧ v.claimId = k ∧ issue? db k = some j ∧
      i = { j with amount := v.amount, lastValidBlockHeight := some v.lastValidBlockHeight }
  stamped : (∀ k, r.claimId? = some k → ∃ i, issue? db k = some i ∧ r.Agrees i) →
    ∀ k c, db.claim? k = some c → c.lastValidBlockHeight ≠ none → db'.claim? k = some c
  resolution : ∀ k c', db'.claim? k = some c' →
    (∃ c, db.claim? k = some c ∧ c'.status = c.status ∧ c'.txSignature = c.txSignature) ∨
    db.claim? k = none ∧ c'.status = .PENDING ∧ c'.txSignature = none

section RouteSpec

variable {now : Nat} {db : Db} {r r' : Request} {act : RouteAct} {handed : Option Voucher}

/-- A step that leaves the database alone and stays with its claim, or drops it. -/
theorem RouteSpec.quiet (own : ∀ k, r'.claimId? = some k → r.claimId? = some k)
    (row : ∀ i, r.Agrees i → r'.Agrees i) : RouteSpec now db r act db r' none where
  frame _ _ _ := rfl
  own k h := .inl (own k h)
  row old k h :=
    let ⟨i, hi, ha⟩ := old k (own k h)
    ⟨i, hi, row i ha⟩
  handed _ h := by cases h
  ids h := h
  issued _ _ h := .inl h
  stamped _ _ _ h _ := h
  resolution _ c h := .inl ⟨c, h, rfl, rfl⟩

theorem routeSpec_create {w : Wallet} {id : Uuid} {epochs : List Nat} (fresh : db.claim? id = none) :
    RouteSpec now db (.revealed w epochs) (.create id) (createClaim db id w now)
      (.created w id epochs) none where
  frame k hk _ := by
    rw [claim?_createClaim db k w now fresh, if_neg]
    rintro rfl
    exact hk fresh
  own k h := by
    cases h
    exact .inr fresh
  row _ k h := by
    cases h
    refine ⟨⟨w, 0, none, now⟩, ?_, rfl, rfl⟩
    rw [issue?, claim?_createClaim db id w now fresh, if_pos rfl]
    rfl
  handed _ h := by cases h
  ids h := Table.nodup_insert h (Table.findUnique_eq_none.1 fresh)
  issued k i h := by
    rw [issue?, claim?_createClaim db k w now fresh] at h
    split at h
    · rename_i he
      cases h
      exact .inr (.inl ⟨by rw [issue?, ← he, fresh]; rfl, w, rfl⟩)
    · exact .inl h
  stamped _ k c hc _ := by
    rw [claim?_createClaim db k w now fresh, if_neg]
    · exact hc
    · rintro rfl
      rw [fresh] at hc
      cases hc
  resolution k c' h := by
    rw [claim?_createClaim db k w now fresh] at h
    split at h
    · rename_i he
      cases h
      exact .inr ⟨he ▸ fresh, rfl, rfl⟩
    · exact .inl ⟨c', h, rfl, rfl⟩

theorem routeSpec_stamp (v : Voucher) :
    RouteSpec now db (.built v) (.stamp false)
      (stampClaim db v.claimId v.amount v.lastValidBlockHeight) (.stamped v) none where
  frame k _ hk := by
    rw [claim?_stampClaim]
    cases h : db.claim? k with
    | none => rfl
    | some c =>
      have hc : c.id ≠ v.claimId := by
        rw [show c.id = k from Table.key_of_findUnique h]
        rintro rfl
        exact hk rfl
      simp [hc]
  own k h := .inl h
  row old k h := by
    obtain ⟨i, hi, ha⟩ := old k h
    cases h
    obtain ⟨c, hc, rfl⟩ := Option.map_eq_some_iff.1 hi
    have hid : c.id = v.claimId := Table.key_of_findUnique hc
    refine ⟨⟨c.wallet, v.amount, some v.lastValidBlockHeight, c.createdAt⟩, ?_, ha.1, rfl, rfl⟩
    rw [issue?, claim?_stampClaim, hc]
    simp [hid, issue]
  handed _ h := by cases h
  ids h := by
    have same : (stampClaim db v.claimId v.amount v.lastValidBlockHeight).payoutClaims.map (·.id) =
        db.payoutClaims.map (·.id) := Table.map_updateMany _ fun _ _ _ => rfl
    rwa [same]
  issued k i h := by
    rw [issue?, claim?_stampClaim] at h
    obtain ⟨c', hc', rfl⟩ := Option.map_eq_some_iff.1 h
    obtain ⟨c, hc, rfl⟩ := Option.map_eq_some_iff.1 hc'
    split
    · rename_i he
      have hid : c.id = k := Table.key_of_findUnique hc
      exact .inr (.inr ⟨v, issue c, rfl, rfl, (beq_iff_eq.1 he).symm.trans hid,
        by rw [issue?, hc]; rfl, rfl⟩)
    · exact .inl (by rw [issue?, hc]; rfl)
  stamped old k c hc hl := by
    have hne : c.id ≠ v.claimId := by
      intro he
      obtain ⟨i, hi, -, ha⟩ := old v.claimId rfl
      rw [issue?, ← he, show c.id = k from Table.key_of_findUnique hc, hc] at hi
      cases hi
      exact hl ha
    rw [claim?_stampClaim, hc]
    simp [hne]
  resolution k c' h := by
    rw [claim?_stampClaim] at h
    obtain ⟨c, hc, rfl⟩ := Option.map_eq_some_iff.1 h
    exact .inl ⟨c, hc, by split <;> rfl, by split <;> rfl⟩

theorem routeSpec_handOut (v : Voucher) :
    RouteSpec now db (.stamped v) .handOut db (.answered 201) (some v) where
  frame _ _ _ := rfl
  own _ h := by cases h
  row _ _ h := by cases h
  handed _ h := by
    cases h
    exact ⟨rfl, rfl, rfl⟩
  ids h := h
  issued _ _ h := .inl h
  stamped _ _ _ h _ := h
  resolution _ c h := .inl ⟨c, h, rfl, rfl⟩

theorem routeSpec_delete (k : Uuid) (status : Nat) :
    RouteSpec now db (.deleting k status) .delete (deleteClaim db k) (.answered status) none where
  frame j _ hj := by
    rw [claim?_deleteClaim, if_neg]
    rintro rfl
    exact hj rfl
  own _ h := by cases h
  row _ _ h := by cases h
  handed _ h := by cases h
  ids h := Table.nodup_deleteKey h k
  issued j i h := by
    rw [issue?, claim?_deleteClaim] at h
    split at h
    · cases h
    · exact .inl h
  stamped old j c hc hl := by
    have hne : j ≠ k := by
      rintro rfl
      obtain ⟨i, hi, ha⟩ := old j rfl
      rw [issue?, hc] at hi
      cases hi
      exact hl ha
    rw [claim?_deleteClaim, if_neg hne]
    exact hc
  resolution j c' h := by
    rw [claim?_deleteClaim] at h
    split at h
    · cases h
    · exact .inl ⟨c', h, rfl, rfl⟩

/-- A step that only changes tickets reads like a quiet one in the book. -/
theorem RouteSpec.tickets {db' : Db} (h : RouteSpec now db r act db r' handed)
    (same : db'.payoutClaims = db.payoutClaims) (none : handed = none) :
    RouteSpec now db r act db' r' handed := by
  have lookup : ∀ k, db'.claim? k = db.claim? k := fun k => by rw [Db.claim?, Db.claim?, same]
  refine ⟨fun k _ _ => lookup k, h.own, fun old k hk => ?_, fun v hv => ?_, fun hn => ?_,
    fun k i hi => ?_, fun _ k c hc _ => (lookup k).trans hc, fun k c hc => ?_⟩
  · obtain ⟨i, hi, ha⟩ := h.row old k hk
    exact ⟨i, by rw [issue?, lookup]; exact hi, ha⟩
  · rw [none] at hv
    cases hv
  · rw [same]
    exact hn
  · rw [issue?, lookup] at hi
    exact .inl hi
  · rw [lookup] at hc
    exact .inl ⟨c, hc, rfl, rfl⟩

/-- **The handler rule**: every step of a handler meets the specification. -/
theorem routeStep_spec {program : Program} {adminKey : Wallet} {act : RouteAct} {db' : Db}
    (h : routeStep now program adminKey db r act = some (db', r', handed)) :
    RouteSpec now db r act db' r' handed := by
  cases routeMove h with
  | answer | unpaused | noneLive | reveal | crash =>
    exact .quiet (fun _ h => by cases h) fun _ _ => trivial
  | create fresh => exact routeSpec_create fresh
  | bind =>
    rename_i w k epochs
    have phase : RouteSpec now db (.created w k epochs) .bind db (.bound w k) none :=
      .quiet (fun _ h => h) fun _ h => h
    exact phase.tickets rfl rfl
  | sum | ceiling | build => exact .quiet (fun _ h => h) fun _ h => h
  | empty | refuse | noBuild | noStamp => exact .quiet (fun _ h => h) fun _ h => h.2
  | stamp => exact routeSpec_stamp _
  | handOut => exact routeSpec_handOut _
  | release =>
    rename_i k status
    have phase : RouteSpec now db (.releasing k status) .release db (.deleting k status) none :=
      .quiet (fun _ h => h) fun _ h => h
    exact phase.tickets rfl rfl
  | delete => exact routeSpec_delete _ _

end RouteSpec

/-! ## The confirmer leaves the book alone -/

theorem issue?_confirmClaim (db : Db) (j k : Uuid) (sig : Signature) (now : Nat) :
    issue? (confirmClaim db j sig now) k = issue? db k := by
  rcases claim?_confirmClaim db k j sig now with h | ⟨-, h⟩
  · rw [issue?, h, issue?]
  · rw [issue?, h, issue?, Option.map_map]
    congr 1
    funext c
    simp only [Function.comp_apply]
    split <;> rfl

theorem issue?_releaseClaim (db : Db) (j k : Uuid) (st : PayoutStatus) (reason : String) :
    issue? (releaseClaim db j st reason) k = issue? db k := by
  rw [issue?, claim?_releaseClaim, issue?, Option.map_map]
  congr 1
  funext c
  simp only [Function.comp_apply]
  split <;> rfl

@[simp] theorem issue?_resolve (db : Db) (j k : Uuid) (now : Nat) (v : Verdict) :
    issue? (resolve db j now v) k = issue? db k := by
  rcases resolve_cases db j now v with same | ⟨status, reason, released⟩ | ⟨hit, -, confirmed⟩
  · rw [same]
  · rw [released, issue?_releaseClaim]
  · rw [confirmed, issue?_confirmClaim]

theorem ids_resolve (db : Db) (j : Uuid) (now : Nat) (v : Verdict) :
    (resolve db j now v).payoutClaims.map (·.id) = db.payoutClaims.map (·.id) := by
  rcases resolve_cases db j now v with same | ⟨status, reason, released⟩ | ⟨hit, -, confirmed⟩
  · rw [same]
  · rw [released]
    unfold releaseClaim
    split
    · exact Table.map_updateMany _ fun _ _ _ => rfl
    · rfl
  · rw [confirmed]
    unfold confirmClaim
    split
    · exact Table.map_updateMany _ fun _ _ _ => rfl
    · rfl

/-- What a step of the tick does, one case for each way in which an await ends. -/
inductive TickMove (s : State) : TickAct → State → Prop where
  | idle (here : s.tick = none) (nothing : findPending s.db = []) : TickMove s .readPending s
  | read {c : PayoutClaim} {cs : List PayoutClaim} (here : s.tick = none)
      (pending : findPending s.db = c :: cs) :
      TickMove s .readPending { s with tick := some (.pendingRead (c :: cs)) }
  | call {c : PayoutClaim} {cs : List PayoutClaim} (here : s.tick = some (.pendingRead (c :: cs))) :
      TickMove s .callSweep
        { s with tick := some (.sweeping (c :: cs) (notBeforeUnixTime c) s.height s.landed) }
  | answer {pending : List PayoutClaim} {notBefore calledAt : Nat} {before : List Landing}
      {r : LandedClaims} (here : s.tick = some (.sweeping pending notBefore calledAt before))
      (answer : truthful notBefore before s.landed r = true) :
      TickMove s (.sweepReturns r) { s with tick := some (.swept pending calledAt r) }
  | noAnswer {pending : List PayoutClaim} {notBefore calledAt : Nat} {before : List Landing}
      (here : s.tick = some (.sweeping pending notBefore calledAt before)) :
      TickMove s .sweepThrows { s with tick := none }
  | used {pending : List PayoutClaim} {calledAt : Nat} {r : LandedClaims}
      (here : s.tick = some (.swept pending calledAt r)) :
      TickMove s .readUsed { s with tick := some (.usedRead pending calledAt r (usedSignatures s.db)) }
  | height {pending : List PayoutClaim} {calledAt h : Nat} {r : LandedClaims} {used : List Signature}
      (here : s.tick = some (.usedRead pending calledAt r used)) (reached : h ≤ s.height) :
      TickMove s (.readHeight h) { s with tick := some (.resolving pending calledAt r used h) }
  | resolve {c : PayoutClaim} {cs : List PayoutClaim} {calledAt height : Nat} {r : LandedClaims}
      {used : List Signature} {fails : Bool}
      (here : s.tick = some (.resolving (c :: cs) calledAt r used height)) :
      TickMove s (.resolveNext fails) { s with
        db := if fails then s.db
          else Payout.resolve s.db c.id s.now (verdict r used height s.now c)
        tick := if cs.isEmpty then none
          else some (.resolving cs calledAt r (useHit used (verdict r used height s.now c)) height) }
  | crash : TickMove s .crash { s with tick := none }

theorem tickMove {s s' : State} {act : TickAct} (h : tickStep s s.tick act = some s') :
    TickMove s act s' := by
  unfold tickStep at h
  split at h
  case h_1 here =>
    split at h
    · rename_i nothing
      cases h
      exact .idle here nothing
    · rename_i pending
      cases h
      exact .read here pending
  case h_2 here => cases h; exact .call here
  case h_3 here =>
    split at h
    · rename_i answer
      cases h
      exact .answer here answer
    · cases h
  case h_4 here => cases h; exact .noAnswer here
  case h_5 here => cases h; exact .used here
  case h_6 here =>
    split at h
    · rename_i reached
      cases h
      exact .height here reached
    · cases h
  case h_7 here => cases h; exact .resolve here
  case h_8 => cases h; exact .crash
  case h_9 => cases h

/-- Everything but the database and the tick is out of the confirmer's reach. -/
theorem tickStep_frame {s s' : State} {act : TickAct} (h : tickStep s s.tick act = some s') :
    ∃ db tick, s' = { s with db := db, tick := tick } ∧
      (db = s.db ∨ ∃ c cs calledAt landed used height,
        s.tick = some (.resolving (c :: cs) calledAt landed used height) ∧
        act = .resolveNext false ∧
        db = resolve s.db c.id s.now (verdict landed used height s.now c)) := by
  cases tickMove h with
  | @resolve c cs calledAt height landed used fails here =>
    cases fails with
    | true => exact ⟨_, _, rfl, .inl rfl⟩
    | false => exact ⟨_, _, rfl, .inr ⟨c, cs, calledAt, landed, used, height, here, rfl, rfl⟩⟩
  | _ => exact ⟨_, _, rfl, .inl rfl⟩

/-! ## The book is kept -/

theorem Book.initial {s : State} (h : Initial s) : Book s := by
  have none : ∀ k, issue? s.db k = none := fun k => by
    rw [issue?, Db.claim?, h.noClaims]
    rfl
  constructor <;> simp [h.noClaims, h.noRequests, h.noVouchers, h.noLandings, none, owner?]

/-- The book only reads the claims, the handlers, the vouchers and the landings. -/
theorem Book.frame {s s' : State} (b : Book s) (ids : s'.db.payoutClaims.map (·.id) =
      s.db.payoutClaims.map (·.id)) (same : ∀ k, issue? s'.db k = issue? s.db k)
    (now : s.now ≤ s'.now) (requests : s'.requests = s.requests)
    (vouchers : s'.vouchers = s.vouchers) (landed : s'.landed = s.landed) : Book s' where
  ids := by rw [ids]; exact b.ids
  issued k i h := by
    rw [same] at h
    exact ⟨(b.issued k i h).1.trans now, (b.issued k i h).2⟩
  requestRow n r k hr hk := by
    rw [requests] at hr
    rw [same]
    exact b.requestRow n r k hr hk
  oneOwner m n k := by
    simp only [owner?, requests]
    exact b.oneOwner m n k
  voucherRow v hv := by
    rw [vouchers] at hv
    rw [same]
    exact b.voucherRow v hv
  givenAway v hv n := by
    rw [vouchers] at hv
    simp only [owner?, requests]
    exact b.givenAway v hv n
  voucherIds := by rw [vouchers]; exact b.voucherIds
  landedHanded l hl := by
    rw [landed] at hl
    rw [vouchers]
    exact b.landedHanded l hl
  landedOnce := by rw [landed]; exact b.landedOnce
  signatures := by rw [landed]; exact b.signatures
  landedAfter l hl i hi := by
    rw [landed] at hl
    rw [same] at hi
    exact b.landedAfter l hl i hi
  landedPositive l hl := by
    rw [landed] at hl
    exact b.landedPositive l hl

/-- A handler's step keeps the book. -/
theorem Book.route {s : State} (b : Book s) {i : Nat} {r r' : Request} {act : RouteAct} {db : Db}
    {handed : Option Voucher} (hr : s.requests[i]? = some r)
    (spec : RouteSpec s.now s.db r act db r' handed) :
    Book { s with db := db, requests := s.requests.set i r',
                  vouchers := s.vouchers ++ handed.toList } := by
  have hi : i < s.requests.length := (List.getElem?_eq_some_iff.1 hr).1
  have here : owner? s i = r.claimId? := by rw [owner?, hr]; rfl
  have owner : ∀ n, ((s.requests.set i r')[n]?).bind Request.claimId? =
      if i = n then r'.claimId? else owner? s n := by
    intro n
    rw [List.getElem?_set, if_pos hi]
    split <;> rfl
  have exists_row : ∀ n k, owner? s n = some k → s.db.claim? k ≠ none := by
    intro n k hn
    obtain ⟨r₀, hr₀, hk⟩ := Option.bind_eq_some_iff.1 hn
    obtain ⟨j, hj, -⟩ := b.requestRow n r₀ k hr₀ hk
    rintro h0
    rw [issue?, h0] at hj
    cases hj
  have own : ∀ k, r'.claimId? = some k → ∀ n, i ≠ n → owner? s n ≠ some k := by
    intro k hk n hne hn
    rcases spec.own k hk with old | fresh
    · exact hne (b.oneOwner i n k (here.trans old) hn)
    · exact exists_row n k hn fresh
  have kept : ∀ k j, issue? s.db k = some j → r.claimId? ≠ some k → issue? db k = some j := by
    intro k j hj hne
    obtain ⟨c, hc, rfl⟩ := Option.map_eq_some_iff.1 hj
    rw [issue?, spec.frame k (by simp [hc]) hne, hc]
    rfl
  have given : ∀ v ∈ s.vouchers, r.claimId? ≠ some v.claimId := fun v hv h =>
    b.givenAway v hv i (here.trans h)
  refine ⟨spec.ids b.ids, ?_, ?_, ?_, ?_, ?_, ?_, ?_, b.landedOnce, b.signatures, ?_, b.landedPositive⟩
  · intro k j hj
    rcases spec.issued k j hj with old | ⟨-, w, rfl⟩ | ⟨v, j₀, -, -, -, hj₀, rfl⟩
    · exact b.issued k j old
    · exact ⟨le_rfl, fun _ => rfl⟩
    · exact ⟨(b.issued k j₀ hj₀).1, nofun⟩
  · intro n r₀ k hn hk
    rw [List.getElem?_set, if_pos hi] at hn
    split at hn
    · cases hn
      exact spec.row (fun k hk => b.requestRow i r k hr hk) k hk
    · rename_i hne
      obtain ⟨j, hj, ha⟩ := b.requestRow n r₀ k hn hk
      refine ⟨j, kept k j hj fun h => hne (b.oneOwner i n k (here.trans h) ?_), ha⟩
      rw [owner?, hn]
      exact hk
  · intro m n k hm hn
    simp only [owner?, owner] at hm hn
    split at hm <;> split at hn
    · omega
    · rename_i h1 h2
      exact absurd hn (own k hm n h2)
    · rename_i h1 h2
      exact absurd hm (own k hn m h1)
    · exact b.oneOwner m n k hm hn
  · intro v hv
    rcases List.mem_append.1 hv with hv | hv
    · obtain ⟨j, hj, ha⟩ := b.voucherRow v hv
      exact ⟨j, kept _ j hj (given v hv), ha⟩
    · obtain ⟨rfl, -, rfl⟩ := spec.handed v (Option.mem_toList.1 hv)
      exact b.requestRow i _ _ hr rfl
  · intro v hv n hn
    simp only [owner?, owner] at hn
    rcases List.mem_append.1 hv with hv | hv
    · split at hn
      · rcases spec.own _ hn with old | fresh
        · exact given v hv old
        · obtain ⟨j, hj, -⟩ := b.voucherRow v hv
          rw [issue?, fresh] at hj
          cases hj
      · exact b.givenAway v hv n hn
    · obtain ⟨rfl, rfl, rfl⟩ := spec.handed v (Option.mem_toList.1 hv)
      split at hn
      · cases hn
      · rename_i hne
        exact hne (b.oneOwner i n v.claimId here hn)
  · cases handed with
    | none => simpa using b.voucherIds
    | some v =>
      obtain ⟨rfl, -, -⟩ := spec.handed v rfl
      refine Table.nodup_insert b.voucherIds ?_
      intro h
      obtain ⟨u, hu, he⟩ := List.mem_map.1 h
      exact given u hu (congrArg some he.symm)
  · exact fun l hl => List.mem_append_left _ (b.landedHanded l hl)
  · intro l hl j hj
    obtain ⟨j₀, hj₀, -⟩ := b.voucherRow _ (b.landedHanded l hl)
    have := kept _ j₀ hj₀ (given _ (b.landedHanded l hl))
    rw [this] at hj
    cases hj
    exact b.landedAfter l hl _ hj₀

/-- What a landing needed. -/
theorem step_land {s s' : State} {v : Voucher} {sig : Signature} {slot : Nat} {bt : Option Nat}
    (h : step s (.land v sig slot bt) = some s') :
    v ∈ s.vouchers ∧ (∀ l ∈ s.landed, l.voucher ≠ v ∧ l.signature ≠ sig) ∧
      s.height ≤ v.lastValidBlockHeight ∧ blockTimeOk s.now bt = true ∧ 0 < v.amount ∧
      ∃ p, s' = { s with program := p, landed := ⟨v, sig, slot, bt⟩ :: s.landed } := by
  simp only [step] at h
  split at h
  · rename_i guard
    simp only [Bool.and_eq_true, List.contains_iff_mem, List.all_eq_true, bne_iff_ne,
      decide_eq_true_eq] at guard
    obtain ⟨⟨⟨handed, fresh⟩, height⟩, time⟩ := guard
    split at h
    · cases h
    · rename_i p u a hc
      cases h
      exact ⟨handed, fresh, height, time, (claimWinnings_ok hc).2.2.1, p, rfl⟩
  · cases h

/-- The handler step behind a `route` action. -/
theorem step_route {s s' : State} {i : Nat} {act : RouteAct} (h : step s (.route i act) = some s') :
    ∃ r db r' handed, s.requests[i]? = some r ∧
      routeStep s.now s.program s.adminKey s.db r act = some (db, r', handed) ∧
      s' = { s with db := db, requests := s.requests.set i r',
                    vouchers := s.vouchers ++ handed.toList } := by
  obtain ⟨r, hr, h⟩ := Option.bind_eq_some_iff.1 h
  obtain ⟨⟨db, r', handed⟩, hs, h⟩ := Option.bind_eq_some_iff.1 h
  cases h
  exact ⟨r, db, r', handed, hr, hs, rfl⟩

theorem Book.land {s s' : State} (b : Book s) {v : Voucher} {sig : Signature} {slot : Nat}
    {bt : Option Nat} (h : step s (.land v sig slot bt) = some s') : Book s' := by
  obtain ⟨handed, fresh, -, time, positive, p, rfl⟩ := step_land h
  have landed : ∀ {P : Landing → Prop}, (∀ l ∈ s.landed, P l) → P ⟨v, sig, slot, bt⟩ →
      ∀ l ∈ (⟨v, sig, slot, bt⟩ : Landing) :: s.landed, P l :=
    fun old new => List.forall_mem_cons.2 ⟨new, old⟩
  refine ⟨b.ids, b.issued, b.requestRow, b.oneOwner, b.voucherRow, b.givenAway, b.voucherIds,
    landed b.landedHanded handed, ?_, ?_, landed b.landedAfter ?_, landed b.landedPositive positive⟩
  · refine List.nodup_cons.2 ⟨fun h => ?_, b.landedOnce⟩
    obtain ⟨l, hl, he⟩ := List.mem_map.1 h
    exact (fresh l hl).1 he
  · refine List.nodup_cons.2 ⟨fun h => ?_, b.signatures⟩
    obtain ⟨l, hl, he⟩ := List.mem_map.1 h
    exact (fresh l hl).2 he
  · intro i hi t ht
    cases ht
    simp only [blockTimeOk, decide_eq_true_eq] at time
    exact (b.issued _ i hi).1.trans time

/-- **The book is kept** by every step, whatever the schedule. -/
theorem Book.step {s s' : State} {a : Action} (b : Book s) (h : step s a = some s') : Book s' := by
  cases a with
  | request w =>
    cases h
    have append : ∀ (n : Nat) (r : Request), (s.requests ++ [Request.received w])[n]? = some r →
        s.requests[n]? = some r ∨ r = Request.received w := by
      exact fun n r hn => (Table.of_getElem?_concat hn).imp_right (·.2)
    have owner : ∀ n k, ((s.requests ++ [Request.received w])[n]?).bind Request.claimId? = some k →
        owner? s n = some k := by
      intro n k hn
      obtain ⟨r, hr, hk⟩ := Option.bind_eq_some_iff.1 hn
      rcases append n r hr with old | rfl
      · rw [owner?, old]
        exact hk
      · cases hk
    refine { b with requestRow := fun n r k hn hk => ?_, oneOwner := fun m n k hm hn => ?_,
                    givenAway := fun v hv n hn => ?_ }
    · rcases append n r hn with old | rfl
      · exact b.requestRow n r k old hk
      · cases hk
    · exact b.oneOwner m n k (owner m k hm) (owner n k hn)
    · exact b.givenAway v hv n (owner n _ hn)
  | route i act =>
    obtain ⟨r, db, r', handed, hr, hs, rfl⟩ := step_route h
    exact b.route hr (routeStep_spec hs)
  | tick act =>
    obtain ⟨db, tick, rfl, rfl | ⟨c, cs, calledAt, landed, used, height, -, -, rfl⟩⟩ := tickStep_frame h
    · exact b.frame rfl (fun _ => rfl) le_rfl rfl rfl rfl
    · exact b.frame (ids_resolve ..) (fun _ => issue?_resolve ..) le_rfl rfl rfl rfl
  | land v sig slot bt => exact b.land h
  | clock ms =>
    cases h
    exact b.frame rfl (fun _ => rfl) (Nat.le_add_right ..) rfl rfl rfl
  | blocks n => cases h; exact b.frame rfl (fun _ => rfl) le_rfl rfl rfl rfl
  | program p => cases h; exact b.frame rfl (fun _ => rfl) le_rfl rfl rfl rfl
  | harvest batchId txHash => cases h; exact b.frame rfl (fun _ => rfl) le_rfl rfl rfl rfl
  | epoch r =>
    cases h
    have same : ∀ k, issue? (upsertSettledEpoch s.db r) k = issue? s.db k := fun k => by
      simp [issue?, Db.claim?]
    exact b.frame (by simp) same le_rfl rfl rfl rfl

theorem Book.of_reachable {ok : State → Action → Prop} {s : State} (h : machine.ReachableBy ok s) :
    Book s :=
  h.invariant (fun _ => Book.initial) fun _ _ _ b _ hs => b.step hs

end LordsPot.Payout
