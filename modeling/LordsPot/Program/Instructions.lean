import Mathlib.Logic.Function.Basic
import LordsPot.Library.Machine
import LordsPot.Schema

/-!
# The Solana program

The instructions of `solana_smart_contracts` over its state account and the USDC token
accounts, with the checks in the order the program makes them: first the constraints of the
accounts struct, then the body. Rent, bumps and the reserved bytes are left out. An instruction
that fails changes nothing. The token program moves exactly the requested amount.
-/

namespace LordsPot.Program

open Transition

abbrev Pubkey := Wallet

/-- `Pubkey::default()`. -/
def defaultKey : Pubkey := "11111111111111111111111111111111"

/-- The program-derived address that owns the vault; it has no private key. -/
def vaultAuthority : Pubkey := "vault_authority"

/-- The mint of the default build. -/
def USDC_MINT_ADDRESS : Pubkey := "4zMMC9srt5Ri5X14GAgXhaHii3GnPAEERYPJgZJDncDU"
def HARD_MAX_TICKETS_PER_PURCHASE : Nat := 100
def STATE_VERSION : Nat := 2
def LEGACY_STATE_SIZE : Nat := 60
/-- `8 + LordsPotState::INIT_SPACE`. -/
def STATE_SIZE : Nat := 8 + 238

inductive LordsPotError where
  | ProtocolPaused | ProtocolNotPaused | Unauthorized | NoTicketsProvided | InvalidTicketLength
  | NormalBallOutOfBounds | BonusBallOutOfBounds | BallsNotSortedOrDuplicated | MathOverflow
  | TooManyTickets | SameAsPreviousEpoch | InvalidNextEpoch | InvalidAmount
  | InsufficientVaultFunds | InvalidDestination | ExceedsMaxTicketsPerPurchase
  | ClaimExceedsMaxAmount | InvalidMaxTicketsPerPurchase | InvalidMaxClaimAmount
  | UnexpectedStateSize | InvalidStateAccount | SameAsPreviousAdmin | InvalidTreasuryAuthority
  deriving Repr, DecidableEq

inductive ProgramError where
  | lordsPot (e : LordsPotError)
  /-- A `Signer` account that did not sign. -/
  | AccountNotSigner
  /-- `init` of an account that exists. -/
  | AccountAlreadyInUse
  | AccountNotInitialized
  | AccountDidNotDeserialize
  | ConstraintAddress
  | ConstraintAssociated
  /-- Two mutable token accounts of an instruction are one. -/
  | ConstraintDuplicateMutableAccount
  /-- The token program has no such accounts of this mint, or too little in the source. -/
  | TransferFailed
  deriving Repr, DecidableEq

structure LordsPotState where
  normalMax : Nat
  bonusMax : Nat
  ticketPrice : Nat
  ongoingEpoch : Nat
  isLordsPotPaused : Bool
  admin : Pubkey
  version : Nat
  relayFeeBase : Nat
  relayFeePerTicket : Nat
  feeRecipient : Pubkey
  maxTicketsPerPurchase : Nat
  maxClaimAmount : Nat
  treasuryAuthority : Pubkey
  deriving Repr, DecidableEq

/-- The state account: the length of its data, and the fields in them. -/
structure StateAccount where
  dataLen : Nat
  data : LordsPotState
  deriving Repr, DecidableEq

/-- A token account: the associated one of an owner and a mint, or any other. -/
inductive TokenAddress where
  | associated (owner mint : Pubkey)
  | other (address : Pubkey)
  deriving Repr, DecidableEq

structure TokenAccount where
  mint : Pubkey
  amount : Nat
  deriving Repr, DecidableEq

def vaultUsdc : TokenAddress := .associated vaultAuthority USDC_MINT_ADDRESS

structure Ticket where
  normalBall : List Nat
  bonusBall : Nat
  deriving Repr, DecidableEq

structure TicketPurchaseEvent where
  buyer : Pubkey
  amountPaid : Nat
  ticketsBought : Nat
  ticketsData : List Ticket
  epoch : Nat
  deriving Repr, DecidableEq

structure Chain where
  lordsPotState : Option StateAccount := none
  tokens : TokenAddress → Option TokenAccount
  /-- The purchases emitted so far, each with the state it was checked against. -/
  purchases : List (TicketPurchaseEvent × LordsPotState) := []

/-! ## The instructions -/

inductive Instruction where
  /-- `initialize`. -/
  | initializeState (signer : Pubkey) (usdcMint : Pubkey)
      (normalMax bonusMax ticketPrice startingEpoch relayFeeBase relayFeePerTicket : Nat)
      (feeRecipient : Pubkey) (maxTicketsPerPurchase maxClaimAmount : Nat)
      (treasuryAuthority : Pubkey)
  | migrateState (admin : Pubkey) (relayFeeBase relayFeePerTicket : Nat) (feeRecipient : Pubkey)
      (maxTicketsPerPurchase maxClaimAmount : Nat) (treasuryAuthority : Pubkey)
  | setAdmin (admin newAdmin : Pubkey)
  | setTreasuryAuthority (authority newTreasury : Pubkey)
  | setRelayConfig (admin : Pubkey) (relayFeeBase relayFeePerTicket : Nat) (feeRecipient : Pubkey)
      (maxTicketsPerPurchase maxClaimAmount : Nat)
  | buyTicket (signer : Pubkey)
      (buyerUsdcAccount vaultUsdcAccount feeRecipientUsdcAccount : TokenAddress) (usdcMint : Pubkey)
      (tickets : List Ticket)
  | pauseProtocol (admin : Pubkey)
  | resumeProtocol (admin : Pubkey) (nextEpoch : Nat)
  | updateEpoch (admin : Pubkey) (normalMax bonusMax : Nat)
  | claimWinnings (user admin : Pubkey) (userUsdcAccount vaultUsdcAccount : TokenAddress)
      (usdcMint : Pubkey) (amount : Nat)
  | withdrawVaultFunds (treasury : Pubkey) (vaultUsdcAccount destinationUsdcAccount : TokenAddress)
      (usdcMint : Pubkey) (amount : Nat)
  deriving Repr, DecidableEq

/-- `require!` and account constraints. -/
def require (condition : Bool) (error : ProgramError) : Except ProgramError Unit :=
  if condition then .ok () else .error error

/-- `Account<'info, LordsPotState>`. -/
def loadState (s : Chain) : Except ProgramError LordsPotState :=
  match s.lordsPotState with
  | none => .error .AccountNotInitialized
  | some account =>
    if account.dataLen < STATE_SIZE then .error .AccountDidNotDeserialize else .ok account.data

/-- `InterfaceAccount<'info, TokenAccount>`, of every token account an instruction takes. -/
def loadTokens (s : Chain) (accounts : List TokenAddress) : Except ProgramError Unit :=
  require (accounts.all fun address => (s.tokens address).isSome) .AccountNotInitialized

/-- Anchor's own constraint on the token accounts that are `mut`. -/
def requireDistinct (accounts : List TokenAddress) : Except ProgramError Unit :=
  require (decide accounts.Nodup) .ConstraintDuplicateMutableAccount

/-- The state account after an instruction that took it as `mut`. -/
def Chain.store (s : Chain) (data : LordsPotState) : Chain :=
  { s with lordsPotState := s.lordsPotState.map fun account => { account with data := data } }

/-- The amount in a token account; none has nothing. -/
def balance (tokens : TokenAddress → Option TokenAccount) (address : TokenAddress) : Nat :=
  (tokens address).elim 0 (·.amount)

def Chain.amount (s : Chain) (address : TokenAddress) : Nat := balance s.tokens address

/-- `token_interface::transfer_checked`. -/
def transferChecked (tokens : TokenAddress → Option TokenAccount) (source destination : TokenAddress)
    (mint : Pubkey) (amount : Nat) : Except ProgramError (TokenAddress → Option TokenAccount) :=
  match tokens source, tokens destination with
  | some a, some b =>
    if a.mint ≠ mint ∨ b.mint ≠ mint ∨ a.amount < amount then .error .TransferFailed
    else if source = destination then .ok tokens
    else .ok (Function.update (Function.update tokens source
      (some { a with amount := a.amount - amount })) destination
      (some { b with amount := b.amount + amount }))
  | _, _ => .error .TransferFailed

/-- `checked_mul` and `checked_add` of u64. -/
def checked (n : Nat) : Except ProgramError Nat :=
  if n < 2 ^ 64 then .ok n else .error (.lordsPot .MathOverflow)

def validateTreasury (treasuryAuthority : Pubkey) : Except ProgramError Unit :=
  require (treasuryAuthority != defaultKey) (.lordsPot .InvalidTreasuryAuthority)

def validateRelayConfig (maxTicketsPerPurchase maxClaimAmount : Nat) : Except ProgramError Unit := do
  require (1 ≤ maxTicketsPerPurchase && maxTicketsPerPurchase ≤ HARD_MAX_TICKETS_PER_PURCHASE)
    (.lordsPot .InvalidMaxTicketsPerPurchase)
  require (0 < maxClaimAmount) (.lordsPot .InvalidMaxClaimAmount)

/-- `windows(2).all(|w| w[0] < w[1])`. -/
def strictlySorted (balls : List Nat) : Bool :=
  (balls.zip balls.tail).all fun w => decide (w.1 < w.2)

/-- The checks of one ticket of a purchase. -/
def checkTicket (state : LordsPotState) (ticket : Ticket) : Except ProgramError Unit := do
  require (ticket.normalBall.length == 5) (.lordsPot .InvalidTicketLength)
  require (0 < ticket.bonusBall && ticket.bonusBall ≤ state.bonusMax)
    (.lordsPot .BonusBallOutOfBounds)
  require (ticket.normalBall.all fun ball => 0 < ball && ball ≤ state.normalMax)
    (.lordsPot .NormalBallOutOfBounds)
  require (strictlySorted ticket.normalBall) (.lordsPot .BallsNotSortedOrDuplicated)

/-- What an instruction leaves, or the first check it fails. -/
def execute (s : Chain) (signers : List Pubkey) : Instruction → Except ProgramError Chain
  | .initializeState signer usdcMint normalMax bonusMax ticketPrice startingEpoch relayFeeBase
      relayFeePerTicket feeRecipient maxTicketsPerPurchase maxClaimAmount treasuryAuthority => do
    require (signers.contains signer) .AccountNotSigner
    require s.lordsPotState.isNone .AccountAlreadyInUse
    require (s.tokens vaultUsdc).isNone .AccountAlreadyInUse
    require (usdcMint == USDC_MINT_ADDRESS) .ConstraintAddress
    validateRelayConfig maxTicketsPerPurchase maxClaimAmount
    validateTreasury treasuryAuthority
    .ok { s with
      lordsPotState := some {
        dataLen := STATE_SIZE
        data := {
          normalMax := normalMax
          bonusMax := bonusMax
          ticketPrice := ticketPrice
          ongoingEpoch := startingEpoch
          isLordsPotPaused := false
          admin := signer
          version := STATE_VERSION
          relayFeeBase := relayFeeBase
          relayFeePerTicket := relayFeePerTicket
          feeRecipient := feeRecipient
          maxTicketsPerPurchase := maxTicketsPerPurchase
          maxClaimAmount := maxClaimAmount
          treasuryAuthority := treasuryAuthority } }
      tokens := Function.update s.tokens vaultUsdc
        (some { mint := USDC_MINT_ADDRESS, amount := 0 }) }
  | .migrateState admin relayFeeBase relayFeePerTicket feeRecipient maxTicketsPerPurchase
      maxClaimAmount treasuryAuthority => do
    require (signers.contains admin) .AccountNotSigner
    match s.lordsPotState with
    -- the address is owned by the system program then
    | none => .error (.lordsPot .InvalidStateAccount)
    | some account =>
      validateRelayConfig maxTicketsPerPurchase maxClaimAmount
      validateTreasury treasuryAuthority
      if STATE_SIZE ≤ account.dataLen then .ok s
      else do
        require (account.dataLen == LEGACY_STATE_SIZE) (.lordsPot .UnexpectedStateSize)
        require (admin == account.data.admin) (.lordsPot .Unauthorized)
        .ok { s with
          lordsPotState := some {
            dataLen := STATE_SIZE
            data := { account.data with
              version := STATE_VERSION
              relayFeeBase := relayFeeBase
              relayFeePerTicket := relayFeePerTicket
              feeRecipient := feeRecipient
              maxTicketsPerPurchase := maxTicketsPerPurchase
              maxClaimAmount := maxClaimAmount
              treasuryAuthority := treasuryAuthority } } }
  | .setAdmin admin newAdmin => do
    require (signers.contains admin) .AccountNotSigner
    require (signers.contains newAdmin) .AccountNotSigner
    let state ← loadState s
    require (admin == state.admin) (.lordsPot .Unauthorized)
    require (newAdmin != state.admin) (.lordsPot .SameAsPreviousAdmin)
    .ok (s.store { state with admin := newAdmin })
  | .setTreasuryAuthority authority newTreasury => do
    require (signers.contains authority) .AccountNotSigner
    require (signers.contains newTreasury) .AccountNotSigner
    let state ← loadState s
    validateTreasury newTreasury
    if state.treasuryAuthority = defaultKey then
      require (authority == state.admin) (.lordsPot .Unauthorized)
    else do
      require (authority == state.treasuryAuthority) (.lordsPot .Unauthorized)
      require (newTreasury != state.treasuryAuthority) (.lordsPot .SameAsPreviousAdmin)
    .ok (s.store { state with treasuryAuthority := newTreasury })
  | .setRelayConfig admin relayFeeBase relayFeePerTicket feeRecipient maxTicketsPerPurchase
      maxClaimAmount => do
    require (signers.contains admin) .AccountNotSigner
    let state ← loadState s
    require (admin == state.admin) (.lordsPot .Unauthorized)
    validateRelayConfig maxTicketsPerPurchase maxClaimAmount
    .ok (s.store { state with
      relayFeeBase := relayFeeBase
      relayFeePerTicket := relayFeePerTicket
      feeRecipient := feeRecipient
      maxTicketsPerPurchase := maxTicketsPerPurchase
      maxClaimAmount := maxClaimAmount })
  | .buyTicket signer buyerUsdcAccount vaultUsdcAccount feeRecipientUsdcAccount usdcMint tickets => do
    require (signers.contains signer) .AccountNotSigner
    let state ← loadState s
    loadTokens s [buyerUsdcAccount, vaultUsdcAccount, feeRecipientUsdcAccount]
    require (!state.isLordsPotPaused) (.lordsPot .ProtocolPaused)
    require (buyerUsdcAccount == .associated signer usdcMint) .ConstraintAssociated
    require (vaultUsdcAccount == .associated vaultAuthority usdcMint) .ConstraintAssociated
    require (feeRecipientUsdcAccount == .associated state.feeRecipient usdcMint) .ConstraintAssociated
    require (usdcMint == USDC_MINT_ADDRESS) .ConstraintAddress
    requireDistinct [buyerUsdcAccount, vaultUsdcAccount, feeRecipientUsdcAccount]
    let ticketCount := tickets.length % 2 ^ 32
    require (ticketCount ≤ HARD_MAX_TICKETS_PER_PURCHASE) (.lordsPot .TooManyTickets)
    require (ticketCount != 0) (.lordsPot .NoTicketsProvided)
    require (ticketCount ≤ state.maxTicketsPerPurchase) (.lordsPot .ExceedsMaxTicketsPerPurchase)
    tickets.forM (checkTicket state)
    let totalAmount ← checked (ticketCount * state.ticketPrice)
    let ticketFee ← checked (state.relayFeePerTicket * ticketCount)
    let relayFee ← checked (ticketFee + state.relayFeeBase)
    let tokens ← transferChecked s.tokens buyerUsdcAccount vaultUsdcAccount usdcMint totalAmount
    let tokens ← if 0 < relayFee then
        transferChecked tokens buyerUsdcAccount feeRecipientUsdcAccount usdcMint relayFee
      else .ok tokens
    let event : TicketPurchaseEvent :=
      { buyer := signer, amountPaid := totalAmount, ticketsBought := ticketCount,
        ticketsData := tickets, epoch := state.ongoingEpoch }
    .ok { s with tokens := tokens, purchases := s.purchases ++ [(event, state)] }
  | .pauseProtocol admin => do
    require (signers.contains admin) .AccountNotSigner
    let state ← loadState s
    require (admin == state.admin) (.lordsPot .Unauthorized)
    require (!state.isLordsPotPaused) (.lordsPot .ProtocolPaused)
    .ok (s.store { state with isLordsPotPaused := true })
  | .resumeProtocol admin nextEpoch => do
    require (signers.contains admin) .AccountNotSigner
    let state ← loadState s
    require (admin == state.admin) (.lordsPot .Unauthorized)
    require state.isLordsPotPaused (.lordsPot .ProtocolNotPaused)
    require (state.ongoingEpoch < nextEpoch) (.lordsPot .InvalidNextEpoch)
    .ok (s.store { state with isLordsPotPaused := false, ongoingEpoch := nextEpoch })
  | .updateEpoch admin normalMax bonusMax => do
    require (signers.contains admin) .AccountNotSigner
    let state ← loadState s
    require (admin == state.admin) (.lordsPot .Unauthorized)
    require state.isLordsPotPaused (.lordsPot .ProtocolNotPaused)
    require (normalMax != state.normalMax || bonusMax != state.bonusMax)
      (.lordsPot .SameAsPreviousEpoch)
    .ok (s.store { state with normalMax := normalMax, bonusMax := bonusMax })
  | .claimWinnings user admin userUsdcAccount vaultUsdcAccount usdcMint amount => do
    require (signers.contains user) .AccountNotSigner
    require (signers.contains admin) .AccountNotSigner
    let state ← loadState s
    loadTokens s [vaultUsdcAccount]
    require (userUsdcAccount == .associated user usdcMint) .ConstraintAssociated
    require (admin == state.admin) (.lordsPot .Unauthorized)
    require (!state.isLordsPotPaused) (.lordsPot .ProtocolPaused)
    require (vaultUsdcAccount == .associated vaultAuthority usdcMint) .ConstraintAssociated
    require (usdcMint == USDC_MINT_ADDRESS) .ConstraintAddress
    require (0 < amount) (.lordsPot .InvalidAmount)
    require (amount ≤ state.maxClaimAmount) (.lordsPot .ClaimExceedsMaxAmount)
    require (amount ≤ s.amount vaultUsdcAccount) (.lordsPot .InsufficientVaultFunds)
    -- `init_if_needed`
    let opened := if (s.tokens userUsdcAccount).isSome then s.tokens
      else Function.update s.tokens userUsdcAccount (some { mint := usdcMint, amount := 0 })
    let tokens ← transferChecked opened vaultUsdcAccount userUsdcAccount usdcMint amount
    .ok { s with tokens := tokens }
  | .withdrawVaultFunds treasury vaultUsdcAccount destinationUsdcAccount usdcMint amount => do
    require (signers.contains treasury) .AccountNotSigner
    let state ← loadState s
    loadTokens s [vaultUsdcAccount, destinationUsdcAccount]
    require (treasury == state.treasuryAuthority) (.lordsPot .Unauthorized)
    require (vaultUsdcAccount == .associated vaultAuthority usdcMint) .ConstraintAssociated
    require ((s.tokens destinationUsdcAccount).any (·.mint == usdcMint)) (.lordsPot .InvalidDestination)
    require (usdcMint == USDC_MINT_ADDRESS) .ConstraintAddress
    requireDistinct [vaultUsdcAccount, destinationUsdcAccount]
    require (0 < amount) (.lordsPot .InvalidAmount)
    require (amount ≤ s.amount vaultUsdcAccount) (.lordsPot .InsufficientVaultFunds)
    let tokens ← transferChecked s.tokens vaultUsdcAccount destinationUsdcAccount usdcMint amount
    .ok { s with tokens := tokens }

/-! ## Runs -/

inductive Action where
  /-- An instruction with the keys that signed its transaction. -/
  | invoke (signers : List Pubkey) (instruction : Instruction)
  /-- A token account other than the vault is opened, closed, or has its balance moved. -/
  | token (address : TokenAddress) (account : Option TokenAccount)
  /-- A transfer into the vault from outside the program. -/
  | deposit (amount : Nat)
  deriving Repr, DecidableEq

def step (s : Chain) : Action → Option Chain
  | .invoke signers instruction =>
      if signers.contains vaultAuthority then none
      else match execute s signers instruction with
        | .error _ => some s
        | .ok s' => some s'
  | .token address account =>
      if address = vaultUsdc then none
      else some { s with tokens := Function.update s.tokens address account }
  | .deposit amount =>
      some { s with
        tokens := Function.update s.tokens vaultUsdc
          ((s.tokens vaultUsdc).map fun a => { a with amount := a.amount + amount }) }

/-- Before `initialize`. -/
structure Initial (s : Chain) : Prop where
  noState : s.lordsPotState = none
  noVault : s.tokens vaultUsdc = none
  noPurchases : s.purchases = []

def machine : Machine Chain Action := ⟨Initial, step⟩

end LordsPot.Program
