import LordsPot.Megapot.Epoch
import LordsPot.Payout.Program

/-!
# `POST /voucher`

The claim-voucher route as the steps between its awaits. A handler is a `Request` that
stands at one await and holds the locals it carries past it; `routeStep` takes it to the
next one, with the answer or failure of the awaited call in the action. No step is a
transaction with another: any other handler, confirmer step or chain step can come
between two of them.
-/

namespace LordsPot.Payout

/-- The admin-signed `claim_winnings` transaction of `buildClaimVoucher`, with the claim
row it was issued for and the ids of the tickets its amount was summed over. -/
structure Voucher where
  claimId : Uuid
  wallet : Wallet
  admin : Wallet
  amount : Nat
  lastValidBlockHeight : Nat
  tickets : List Uuid
  deriving Repr, DecidableEq

/-! ## The writes and reads of the route -/

/-- A voucher that is live for the route: pending, and stamped with its block height. -/
def live (c : PayoutClaim) : Bool := c.status == .PENDING && c.lastValidBlockHeight.isSome

/-- The `existing` lookup. -/
def findExisting (db : Db) (wallet : Wallet) : Option PayoutClaim :=
  db.payoutClaims.find? fun c => c.wallet == wallet && live c

/-- `payoutClaim.create({ data: { wallet } })`. -/
def createClaim (db : Db) (id : Uuid) (wallet : Wallet) (now : Nat) : Db :=
  { db with payoutClaims := db.payoutClaims ++ [{ id := id, wallet := wallet, createdAt := now }] }

/-- The tickets the guarded bind takes: harvested, unbound, the wallet's, of a revealed epoch. -/
def claimable (db : Db) (wallet : Wallet) (revealedEpochIds : List Nat) (t : Ticket) : Bool :=
  t.winStatus == .CLAIMED_ON_BASE && t.payoutClaimId == none &&
    match db.relayOrder? t with
    | none => false
    | some o => o.buyer == wallet && match o.fulfillEpoch with
      | none => false
      | some e => revealedEpochIds.contains e

def bindTickets (db : Db) (wallet : Wallet) (revealedEpochIds : List Nat) (claimId : Uuid) : Db :=
  { db with
    tickets := Table.updateMany (claimable db wallet revealedEpochIds)
      (fun t => { t with payoutClaimId := some claimId }) db.tickets }

def boundTo (claimId : Uuid) (t : Ticket) : Bool := decide (t.payoutClaimId = some claimId)

/-- `ticket.aggregate({ _sum: { winAmount } })` over the claim's tickets. -/
def boundSum (db : Db) (claimId : Uuid) : Nat :=
  Table.sumWhere (boundTo claimId) (·.winAmount) db.tickets

/-- The ids of the rows that sum is over. -/
def boundIds (db : Db) (claimId : Uuid) : List Uuid :=
  (db.tickets.filter (boundTo claimId)).map (·.id)

/-- The last write of the route. It names the row by id only. -/
def stampClaim (db : Db) (claimId : Uuid) (amount lastValidBlockHeight : Nat) : Db :=
  { db with
    payoutClaims := Table.updateMany (·.id == claimId)
      (fun c => { c with amountUsdc := amount, lastValidBlockHeight := some lastValidBlockHeight })
      db.payoutClaims }

/-- The unbinding write of the route's error paths. -/
def unbindTickets (db : Db) (claimId : Uuid) : Db :=
  { db with
    tickets := Table.updateMany (boundTo claimId) (fun t => { t with payoutClaimId := none })
      db.tickets }

/-- `payoutClaim.delete`; the foreign key of its tickets is set to null. -/
def deleteClaim (db : Db) (claimId : Uuid) : Db :=
  { unbindTickets db claimId with
    payoutClaims := Table.deleteKey PayoutClaim.id claimId db.payoutClaims }

/-! ## The handler -/

/-- Where a handler stands, and what it carries. -/
inductive Request where
  | received (wallet : Wallet)
  | admitted (wallet : Wallet)
  | noneLive (wallet : Wallet)
  | revealed (wallet : Wallet) (epochs : List Nat)
  | created (wallet : Wallet) (claimId : Uuid) (epochs : List Nat)
  | bound (wallet : Wallet) (claimId : Uuid)
  | summed (wallet : Wallet) (claimId : Uuid) (amount : Nat) (tickets : List Uuid)
  | withinCeiling (wallet : Wallet) (claimId : Uuid) (amount : Nat) (tickets : List Uuid)
  | built (v : Voucher)
  | stamped (v : Voucher)
  | releasing (claimId : Uuid) (status : Nat)
  | deleting (claimId : Uuid) (status : Nat)
  | answered (status : Nat)
  | crashed
  deriving Repr, DecidableEq

/-- The awaited call a handler returns from, with the environment's part of it. -/
inductive RouteAct where
  /-- `isProtocolPaused()`, which answers from a cache. -/
  | gate (paused : Bool)
  | findExisting
  | readRevealed
  /-- `@default(uuid())`: a fresh id. -/
  | create (id : Uuid)
  | bind
  | sum
  /-- `getOnChainState()`, which may throw. -/
  | ceiling (reachable : Bool)
  /-- `buildClaimVoucher`, which may throw, with the height `getLatestBlockhash` reports. -/
  | build (lastValidBlockHeight : Option Nat)
  /-- The last write, which may throw. -/
  | stamp (throws : Bool)
  | handOut
  | release
  | delete
  | crash
  deriving Repr, DecidableEq

/-- One step of a handler: the database after it, the handler after it and the voucher
it handed out, if it did. -/
def routeStep (now : Nat) (program : Program) (adminKey : Wallet) (db : Db) :
    Request → RouteAct → Option (Db × Request × Option Voucher)
  | .received w, .gate paused => some (db, if paused then .answered 503 else .admitted w, none)
  | .admitted w, .findExisting =>
      match findExisting db w with
      | some _ => some (db, .answered 200, none)
      | none => some (db, .noneLive w, none)
  | .noneLive w, .readRevealed => some (db, .revealed w (getRevealedEpochIds db now), none)
  | .revealed w epochs, .create id =>
      if db.claim? id = none then some (createClaim db id w now, .created w id epochs, none)
      else none
  | .created w k epochs, .bind => some (bindTickets db w epochs k, .bound w k, none)
  | .bound w k, .sum =>
      if boundSum db k = 0 then some (db, .deleting k 404, none)
      else some (db, .summed w k (boundSum db k) (boundIds db k), none)
  | .summed w k amount ids, .ceiling reachable =>
      if reachable then
        if program.maxClaimAmount < amount then some (db, .releasing k 409, none)
        else some (db, .withinCeiling w k amount ids, none)
      else some (db, .releasing k 503, none)
  | .withinCeiling w k amount ids, .build lastValid =>
      match lastValid with
      | none => some (db, .releasing k 500, none)
      | some l => some (db, .built ⟨k, w, adminKey, amount, l, ids⟩, none)
  | .built v, .stamp throws =>
      if throws then some (db, .releasing v.claimId 500, none)
      else some (stampClaim db v.claimId v.amount v.lastValidBlockHeight, .stamped v, none)
  | .stamped v, .handOut => some (db, .answered 201, some v)
  | .releasing k status, .release => some (unbindTickets db k, .deleting k status, none)
  | .deleting k status, .delete => some (deleteClaim db k, .answered status, none)
  | _, .crash => some (db, .crashed, none)
  | _, _ => none

end LordsPot.Payout
