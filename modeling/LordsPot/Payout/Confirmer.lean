import Mathlib.Data.List.Sort
import LordsPot.Payout.Voucher

/-!
# The payout confirmer

`runPayoutConfirmerTick`: the pending claims are read once, then the chain is swept, the
used signatures and the block height are read, and each claim of the first read is
resolved from those answers. `verdict` is the body of the loop without its writes.
-/

namespace LordsPot.Payout

/-- Extra block heights past `lastValidBlockHeight` before a voucher is declared dead. -/
def EXPIRY_BUFFER_BLOCKS : Nat := 150
def UNSIGNED_GRACE_MS : Nat := 2 * 60000
def CLOCK_SKEW_MS : Nat := 60000

/-- One entry of `findLandedClaims`. -/
structure LandedClaim where
  wallet : Wallet
  amount : Nat
  signature : Signature
  slot : Nat
  blockTime : Option Nat
  failed : Bool
  deriving Repr, DecidableEq

/-- What `findLandedClaims` returns. -/
structure LandedClaims where
  claims : List LandedClaim
  complete : Bool
  deriving Repr, DecidableEq

/-! ## The writes -/

/-- A transaction that fails when the row is gone or the signature is taken, and then
writes nothing. -/
def confirmClaim (db : Db) (claimId : Uuid) (txSignature : Signature) (now : Nat) : Db :=
  if (db.claim? claimId).isSome &&
      db.payoutClaims.all fun c => c.id == claimId || c.txSignature != some txSignature then
    { db with
      tickets := Table.updateMany (fun t => boundTo claimId t && t.winStatus == .CLAIMED_ON_BASE)
        (fun t => { t with winStatus := .PAID_OUT_ON_SOLANA }) db.tickets
      payoutClaims := Table.updateMany (·.id == claimId)
        (fun c => { c with status := .CONFIRMED, confirmedAt := some now,
                           txSignature := some txSignature, error := none }) db.payoutClaims }
  else db

/-- A transaction that fails when the row is gone, and then writes nothing. -/
def releaseClaim (db : Db) (claimId : Uuid) (status : PayoutStatus) (reason : String) : Db :=
  if (db.claim? claimId).isSome then
    { unbindTickets db claimId with
      payoutClaims := Table.updateMany (·.id == claimId)
        (fun c => { c with status := status, error := some (slice2000 reason) }) db.payoutClaims }
  else db

/-! ## The tick -/

/-- Every pending claim, oldest first. -/
def findPending (db : Db) : List PayoutClaim :=
  (db.payoutClaims.filter (·.status == .PENDING)).insertionSort fun a b => a.createdAt ≤ b.createdAt

/-- The bound of the sweep, from the oldest pending claim. -/
def notBeforeUnixTime (oldest : PayoutClaim) : Nat := (oldest.createdAt - CLOCK_SKEW_MS) / 1000

/-- A wallet's landed claims, oldest slot first. -/
def byWallet (landed : LandedClaims) (wallet : Wallet) : List LandedClaim :=
  (landed.claims.filter (·.wallet == wallet)).insertionSort fun a b => a.slot ≤ b.slot

/-- `blockTime == null || blockTime * 1000 >= createdAt - CLOCK_SKEW_MS`. -/
def isAfterIssuance (claim : PayoutClaim) (blockTime : Option Nat) : Bool :=
  match blockTime with
  | none => true
  | some bt => decide (claim.createdAt ≤ bt * 1000 + CLOCK_SKEW_MS)

/-- The oldest landed transaction that can belong to the claim and is not spoken for. -/
def findHit (landed : LandedClaims) (alreadyUsed : List Signature) (claim : PayoutClaim) :
    Option LandedClaim :=
  (byWallet landed claim.wallet).find? fun c =>
    !alreadyUsed.contains c.signature &&
      (isAfterIssuance claim c.blockTime && c.amount == claim.amountUsdc)

/-- What the loop body decides for one claim. -/
inductive Verdict where
  | landed (hit : LandedClaim)
  | neverSigned
  | expired
  | wait
  deriving Repr, DecidableEq

def verdict (landed : LandedClaims) (alreadyUsed : List Signature) (currentHeight now : Nat)
    (claim : PayoutClaim) : Verdict :=
  match findHit landed alreadyUsed claim with
  | some hit => .landed hit
  | none =>
    match claim.lastValidBlockHeight with
    | none => if UNSIGNED_GRACE_MS < now - claim.createdAt then .neverSigned else .wait
    | some l =>
      if landed.complete && decide (l + EXPIRY_BUFFER_BLOCKS < currentHeight) then .expired
      else .wait

/-- The write a verdict leads to. -/
def resolve (db : Db) (claimId : Uuid) (now : Nat) : Verdict → Db
  | .landed hit =>
      if hit.failed then
        releaseClaim db claimId .FAILED s!"Claim tx errored on-chain: {hit.signature}"
      else confirmClaim db claimId hit.signature now
  | .neverSigned =>
      releaseClaim db claimId .EXPIRED
        "Voucher issuance crashed before signing — nothing was handed out"
  | .expired =>
      releaseClaim db claimId .EXPIRED
        "Voucher expired unused (blockhash passed lastValidBlockHeight)"
  | .wait => db

/-- The write is a release of the claim, its confirmation by the hit, or none. -/
theorem resolve_cases (db : Db) (claimId : Uuid) (now : Nat) (v : Verdict) :
    resolve db claimId now v = db ∨
    (∃ status reason, resolve db claimId now v = releaseClaim db claimId status reason) ∨
    ∃ hit, v = .landed hit ∧ resolve db claimId now v = confirmClaim db claimId hit.signature now := by
  cases v with
  | landed hit =>
    simp only [resolve]
    split
    · exact .inr (.inl ⟨_, _, rfl⟩)
    · exact .inr (.inr ⟨hit, rfl, rfl⟩)
  | neverSigned | expired => exact .inr (.inl ⟨_, _, rfl⟩)
  | wait => exact .inl rfl

/-- `alreadyUsed.add(hit.signature)`, before the write. -/
def useHit (alreadyUsed : List Signature) : Verdict → List Signature
  | .landed hit => hit.signature :: alreadyUsed
  | _ => alreadyUsed

/-- The signatures of claims resolved on an earlier tick. -/
def usedSignatures (db : Db) : List Signature := db.payoutClaims.filterMap (·.txSignature)

/-! ## What a lookup reads after each write -/

section Lookup

variable (db : Db) (k : Uuid)

@[simp] theorem claim?_createClaim {id : Uuid} (w : Wallet) (now : Nat)
    (fresh : db.claim? id = none) :
    (createClaim db id w now).claim? k =
      if id = k then some { id := id, wallet := w, createdAt := now } else db.claim? k := by
  refine Table.findUnique_insert PayoutClaim.id ?_ k
  exact Table.findUnique_eq_none.1 fresh

@[simp] theorem claim?_bindTickets (w : Wallet) (epochs : List Nat) (j : Uuid) :
    (bindTickets db w epochs j).claim? k = db.claim? k := rfl

@[simp] theorem claim?_unbindTickets (j : Uuid) : (unbindTickets db j).claim? k = db.claim? k := rfl

theorem claim?_stampClaim (j : Uuid) (a l : Nat) :
    (stampClaim db j a l).claim? k = (db.claim? k).map fun c =>
      if c.id == j then { c with amountUsdc := a, lastValidBlockHeight := some l } else c :=
  Table.findUnique_updateMany PayoutClaim.id
    (f := fun c => { c with amountUsdc := a, lastValidBlockHeight := some l }) (fun _ => rfl) k

@[simp] theorem claim?_deleteClaim (j : Uuid) :
    (deleteClaim db j).claim? k = if k = j then none else db.claim? k :=
  Table.findUnique_deleteKey PayoutClaim.id j k

theorem claim?_confirmClaim (j : Uuid) (sig : Signature) (now : Nat) :
    (confirmClaim db j sig now).claim? k = db.claim? k ∨
      (db.payoutClaims.all fun c => c.id == j || c.txSignature != some sig) = true ∧
      (confirmClaim db j sig now).claim? k = (db.claim? k).map fun c =>
        if c.id == j then { c with status := .CONFIRMED, confirmedAt := some now,
                                   txSignature := some sig, error := none } else c := by
  unfold confirmClaim
  split
  · rename_i h
    simp only [Bool.and_eq_true] at h
    exact .inr ⟨h.2, Table.findUnique_updateMany PayoutClaim.id
      (f := fun c => { c with status := .CONFIRMED, confirmedAt := some now,
                              txSignature := some sig, error := none }) (fun _ => rfl) k⟩
  · exact .inl rfl

theorem claim?_releaseClaim (j : Uuid) (st : PayoutStatus) (reason : String) :
    (releaseClaim db j st reason).claim? k = (db.claim? k).map fun c =>
      if c.id == j then { c with status := st, error := some (slice2000 reason) } else c := by
  unfold releaseClaim
  split
  · exact Table.findUnique_updateMany PayoutClaim.id
      (f := fun c => { c with status := st, error := some (slice2000 reason) }) (fun _ => rfl) k
  · rename_i h
    cases hk : db.claim? k with
    | none => rfl
    | some c =>
      have hid : c.id ≠ j := by
        rintro rfl
        have : c.id = k := Table.key_of_findUnique hk
        subst this
        simp [hk] at h
      simp [hid]

end Lookup

end LordsPot.Payout
