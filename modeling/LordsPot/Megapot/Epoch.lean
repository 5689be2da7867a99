import LordsPot.Schema

/-!
# Settled epochs

The writes and reads of `MegapotEpoch` that other components meet: the upsert of a
settled round, which never touches the settlement and harvest watermarks, and the reveal
gate over the padded `endedAt`.
-/

namespace LordsPot

/-- What `upsertSettledEpoch` reads of one settled round. `createdAt` is the database's clock,
for a row that is new. -/
structure SettledRound where
  megapotId : Nat
  totalTicketCount : Nat := 0
  totalWinnersCount : Nat := 0
  totalPaidAmount : Int := 0
  jackpot : Int := 0
  topPrizeAmount : Int := 0
  topPrizeWinnersCount : Nat := 0
  winningNormals : List Nat := []
  winningBonusBall : Nat := 0
  prizeTiers : Json := .null
  normalMax : Option Nat := none
  bonusMax : Option Nat := none
  endedAt : Option Nat := none
  drawnAt : Option Nat := none
  createdAt : Nat := 0
  deriving Repr

/-- `upsertPayload`. -/
def upsertPayload (r : SettledRound) (e : MegapotEpoch) : MegapotEpoch :=
  { e with
    lordsPotTicketCount := 20, totalTicketCount := r.totalTicketCount
    lordsPotWinnersCount := 20, totalWinnersCount := r.totalWinnersCount
    totalPaidAmount := some r.totalPaidAmount, lordsPotPaidAmount := some 20000000
    jackpot := r.jackpot, prizeTiers := r.prizeTiers
    topPrizeAmount := r.topPrizeAmount, topPrizeWinnersCount := r.topPrizeWinnersCount
    winningNormals := r.winningNormals, winningBonusBall := r.winningBonusBall
    normalMax := r.normalMax, bonusMax := r.bonusMax
    drawnAt := r.drawnAt, endedAt := r.endedAt }

/-- `megapotEpoch.upsert`: a new row has null watermarks, an existing row keeps its own. -/
def upsertSettledEpoch (db : Db) (r : SettledRound) : Db :=
  if db.megapotEpochs.any (·.megapotId == r.megapotId) then
    { db with
      megapotEpochs :=
        Table.updateMany (·.megapotId == r.megapotId) (upsertPayload r) db.megapotEpochs }
  else
    { db with
      megapotEpochs := db.megapotEpochs ++
        [upsertPayload r { megapotId := r.megapotId, createdAt := r.createdAt }] }

/-- An epoch is revealed once its padded end has passed; a row without one always is. -/
def revealedEpochWhere (now : Nat) (e : MegapotEpoch) : Bool :=
  match e.endedAt with
  | none => true
  | some t => decide (t ≤ now)

def getRevealedEpochIds (db : Db) (now : Nat) : List Nat :=
  (db.megapotEpochs.filter (revealedEpochWhere now)).map (·.megapotId)

/-- The same gate for one epoch; an epoch without a row is not revealed. -/
def isEpochRevealed (db : Db) (now megapotId : Nat) : Bool :=
  match Table.findUnique MegapotEpoch.megapotId megapotId db.megapotEpochs with
  | none => false
  | some epoch => revealedEpochWhere now epoch

@[simp] theorem upsertPayload_megapotId (r : SettledRound) (e : MegapotEpoch) :
    (upsertPayload r e).megapotId = e.megapotId := rfl

@[simp] theorem upsertSettledEpoch_tickets (db : Db) (r : SettledRound) :
    (upsertSettledEpoch db r).tickets = db.tickets := by
  unfold upsertSettledEpoch; split <;> rfl

@[simp] theorem upsertSettledEpoch_relayOrders (db : Db) (r : SettledRound) :
    (upsertSettledEpoch db r).relayOrders = db.relayOrders := by
  unfold upsertSettledEpoch; split <;> rfl

@[simp] theorem upsertSettledEpoch_payoutClaims (db : Db) (r : SettledRound) :
    (upsertSettledEpoch db r).payoutClaims = db.payoutClaims := by
  unfold upsertSettledEpoch; split <;> rfl

end LordsPot
