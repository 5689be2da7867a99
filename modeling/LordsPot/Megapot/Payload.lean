import LordsPot.Megapot.Epoch

/-!
# Settled rounds as Megapot sends them

What `upsertSettledEpoch` makes of an answer of the API. The prize table and the top prize are
raw JSON, since the service trusts their types without a check; the other columns have the types
the database insists on. A conversion that throws is `none`.
-/

namespace LordsPot.Megapot

/-! ## Conversions of the language -/

/-- `!!value`. -/
def truthy : Json → Bool
  | .null => false
  | .bool b => b
  | .num n => n != .int 0
  | .str s => s != ""
  | .arr _ => true
  | .obj _ => true

/-- White space and line ends, which conversions of a string drop at both ends. -/
def isStrWhiteSpace (c : Char) : Bool :=
  ['\t', '\n', '\x0b', '\x0c', '\r', ' ', '\u00a0', '\u1680', '\u2028', '\u2029', '\u202f',
    '\u205f', '\u3000', '\ufeff'].contains c || ('\u2000' ≤ c && c ≤ '\u200a')

/-- The digit a character stands for, in bases up to 16. -/
def digit? (radix : Nat) (c : Char) : Option Nat :=
  let value :=
    if '0' ≤ c ∧ c ≤ '9' then c.toNat - '0'.toNat
    else if 'a' ≤ c ∧ c ≤ 'f' then c.toNat - 'a'.toNat + 10
    else if 'A' ≤ c ∧ c ≤ 'F' then c.toNat - 'A'.toNat + 10
    else radix
  if value < radix then some value else none

/-- One digit or more. -/
def digits? (radix : Nat) (chars : List Char) : Option Int :=
  if chars.isEmpty then none
  else (chars.foldlM (fun n c => (digit? radix c).map (radix * n + ·)) 0).map Int.ofNat

/-- `BigInt` of a string: a sign is read before decimal digits only. -/
def stringToBigInt (s : String) : Option Int :=
  match ((s.toList.dropWhile isStrWhiteSpace).reverse.dropWhile isStrWhiteSpace).reverse with
  | [] => some 0
  | '0' :: 'x' :: digits | '0' :: 'X' :: digits => digits? 16 digits
  | '0' :: 'o' :: digits | '0' :: 'O' :: digits => digits? 8 digits
  | '0' :: 'b' :: digits | '0' :: 'B' :: digits => digits? 2 digits
  | '-' :: digits => (digits? 10 digits).map (- ·)
  | '+' :: digits => digits? 10 digits
  | digits => digits? 10 digits

/-- `BigInt` of the text of an array: of its only element, or of no text. Numbers of 22 digits or
more have a text with an exponent. -/
def elementToBigInt : Json → Option Int
  | .null => some 0
  | .bool _ => none
  | .num n => match n with
    | .int n => if n.natAbs < 10 ^ 21 then some n else none
    | .other => none
  | .str s => stringToBigInt s
  | .arr items => match items with
    | [] => some 0
    | [item] => elementToBigInt item
    | _ => none
  | .obj _ => none

/-- `BigInt(value)`. -/
def bigInt : Json → Option Int
  | .null => none
  | .bool b => some (if b then 1 else 0)
  | .num n => match n with
    | .int n => some n
    | .other => none
  | .str s => stringToBigInt s
  | .arr items => elementToBigInt (.arr items)
  | .obj _ => none

/-! ## Prize tiers -/

def REFERRAL_WIN_SHARE_BPS : Int := 1000

/-- The share is cut off towards zero, then subtracted. -/
def applyReferralShare (gross : Int) : Int :=
  gross - (gross * REFERRAL_WIN_SHARE_BPS).tdiv 10000

/-- An entry of `formattedPrizeTiers`; a `tierId` that is undefined is not stored. -/
structure FormattedPrizeTier where
  tierId : Option Json
  amount : String
  ticketCount : Json
  deriving Repr

def FormattedPrizeTier.toJson (tier : FormattedPrizeTier) : Json :=
  .obj ((tier.tierId.map fun tierId => ("tierId", tierId)).toList ++
    [("amount", .str tier.amount), ("ticketCount", tier.ticketCount)])

/-- `x === n` for a value that may be undefined. -/
def isNumber (value : Option Json) (n : Int) : Bool :=
  match value with
  | some (.num m) => m == .int n
  | _ => false

structure PrizeTiers where
  totalPaidAmount : Int := 0
  jackpot : Int := 0
  formattedPrizeTiers : List FormattedPrizeTier := []
  deriving Repr

/-- `tier.payout.amount`; none when it is undefined or the path throws. -/
def payoutAmount (fields : List (String × Json)) : Option Json :=
  match fields.lookup "payout" with
  | some (.obj payout) => payout.lookup "amount"
  | _ => none

/-- One turn of the loop over the tiers. Only an object has a payout to read. -/
def processPrizeTier (acc : PrizeTiers) (tier : Json) : Option PrizeTiers :=
  match tier with
  | .obj fields =>
    let tierId := fields.lookup "tier_id"
    if isNumber tierId 0 then some acc
    else do
      let rawAmount ← (payoutAmount fields).bind bigInt
      let reducedAmount := applyReferralShare rawAmount
      let ticketCount ← fields.lookup "ticket_count"
      let count ← bigInt ticketCount
      pure {
        totalPaidAmount := acc.totalPaidAmount + rawAmount * count
        jackpot := if isNumber tierId 11 then reducedAmount else acc.jackpot
        formattedPrizeTiers := acc.formattedPrizeTiers ++
          [{ tierId := tierId, amount := toString reducedAmount, ticketCount := ticketCount }] }
  | _ => none

/-- `for (const tier of tiers)` runs over arrays; the characters of a string have no payout. -/
def processPrizeTiers (tiers : Json) : Option PrizeTiers :=
  if !truthy tiers then some {}
  else match tiers with
    | .arr tiers => tiers.foldlM processPrizeTier {}
    | _ => none

/-! ## The answer -/

structure WinningNumbers where
  normals : List Nat
  bonusball : Nat
  deriving Repr, DecidableEq

/-- What is read of a listed round, with null for what is missing. -/
structure MegapotRoundResponse where
  id : Nat
  status : String
  ticketCount : Nat := 0
  winnersCount : Nat := 0
  topPrizeAmount : Json := .null
  topPrizeWinnersCount : Nat := 0
  winningNumbers : Option WinningNumbers := none
  prizeTiers : Json := .null
  normalsMax : Option Nat := none
  bonusballMax : Option Nat := none
  endedAt : Option Nat := none
  settledAt : Option Nat := none
  deriving Repr

def EPOCH_END_UI_BUFFER_MS : Nat := 5 * 60 * 1000

/-- `toBigInt`. -/
def toBigInt (amount : Json) : Option Int :=
  match amount with
  | .obj fields => (fields.lookup "amount").bind bigInt
  | _ => none

/-- The drawing data of a round, or none while some of it is missing. -/
def MegapotRoundResponse.drawing? (data : MegapotRoundResponse) : Option WinningNumbers :=
  if truthy data.topPrizeAmount && truthy data.prizeTiers then data.winningNumbers else none

/-- What `upsertSettledEpoch` writes for a round: none when it throws, and nothing when the round is
not settled or lacks its drawing data. -/
def settledRound (data : MegapotRoundResponse) : Option (Option SettledRound) :=
  if data.status ≠ "settled" then some none
  else match data.drawing? with
    | none => some none
    | some winningNumbers => do
      let tiers ← processPrizeTiers data.prizeTiers
      let rawTopPrize ← toBigInt data.topPrizeAmount
      pure (some {
        megapotId := data.id
        totalTicketCount := data.ticketCount
        totalWinnersCount := data.winnersCount
        totalPaidAmount := tiers.totalPaidAmount
        jackpot := tiers.jackpot
        topPrizeAmount := applyReferralShare rawTopPrize
        topPrizeWinnersCount := data.topPrizeWinnersCount
        winningNormals := winningNumbers.normals
        winningBonusBall := winningNumbers.bonusball
        prizeTiers := .arr (tiers.formattedPrizeTiers.map FormattedPrizeTier.toJson)
        normalMax := data.normalsMax
        bonusMax := data.bonusballMax
        endedAt := data.endedAt.map (· + EPOCH_END_UI_BUFFER_MS)
        drawnAt := data.settledAt })

end LordsPot.Megapot
