import LordsPot.Frontend.Builder
import LordsPot.Library.Slices
import LordsPot.Library.Table
import LordsPot.Program.Settings

/-!
# Buying from the page

`handleBuy` of the Home page and `buyTickets`. A transaction is the list of its instructions. The
derivation of an associated account is injective, and it throws for an owner off the curve.

The page hands its `admin` to `buyTickets` as the fee recipient, and the program takes the account of
its own fee recipient only. The two agree as long as every setter keeps them equal.
-/

namespace LordsPot.Frontend

open Program Transition

/-! ## What the page reads -/

structure LordsPotOnChainState where
  normalMax : Nat
  bonusMax : Nat
  ticketPriceUsdc : Nat
  ongoingEpoch : Nat
  isPaused : Bool
  admin : Pubkey
  deriving Repr, DecidableEq

/-- Nothing is read where an account cannot be decoded, or a number is too large for the page. -/
def fetchOnChainState (coder : Coder) (s : Chain) : Option LordsPotOnChainState := do
  let account ← (loadState s).toOption
  let ticketPriceUsdc ← coder.toNumber account.ticketPrice
  let ongoingEpoch ← coder.toNumber account.ongoingEpoch
  some {
    normalMax := account.normalMax
    bonusMax := account.bonusMax
    ticketPriceUsdc := ticketPriceUsdc
    ongoingEpoch := ongoingEpoch
    isPaused := account.isLordsPotPaused
    admin := account.admin }

/-- What the page has at hand; what is none has not been loaded, or no wallet is connected. -/
structure Home where
  /-- The wallet can sign, so that there is a program to call. -/
  program : Bool
  publicKey : Option Pubkey
  onChain : Option LordsPotOnChainState
  /-- The pause flag that the backend reports. -/
  protocolPaused : Option Bool
  stagedTickets : List StagedTicket
  usdcBalance : Option Nat

namespace Home

def normalMax (home : Home) : Nat := home.onChain.elim 30 (·.normalMax)

def bonusMax (home : Home) : Nat := home.onChain.elim 10 (·.bonusMax)

def isPaused (home : Home) : Bool :=
  ((home.onChain.map (·.isPaused)).or home.protocolPaused).getD false

def allComplete (home : Home) : Bool :=
  0 < home.stagedTickets.length &&
    home.stagedTickets.all fun t => isTicketComplete t home.normalMax home.bonusMax

end Home

/-! ## What it builds -/

inductive BuyError where
  | error (message : String)
  | TokenOwnerOffCurveError
  /-- Anchor's coder refuses a bonus ball. -/
  | encoding
  deriving Repr, DecidableEq

section Build

variable (coder : Coder) (isOnCurve : Pubkey → Bool) (USDC_MINT : Pubkey)

/-- The vault authority is a PDA, so its owner may be off the curve. -/
def getVaultUsdcAta : TokenAddress := .associated vaultAuthority USDC_MINT

def getUserUsdcAta (owner : Pubkey) : Except BuyError TokenAddress :=
  if isOnCurve owner then .ok (.associated owner USDC_MINT) else .error .TokenOwnerOffCurveError

def formatTickets (tickets : List StagedTicket) : Except BuyError (List Program.Ticket) :=
  ((tickets.mapM (formatTicket coder)).map .ok).getD (.error .encoding)

def buyTickets (buyer : Pubkey) (tickets : List StagedTicket) (feeRecipient : Pubkey) :
    Except BuyError (List (List Instruction)) :=
  if tickets.any fun t => t.normals.length != TICKET_RULES.NORMALS_PER_TICKET || t.bonus.isNone then
    .error (.error
      "One or more staged tickets are missing numbers — finish selecting before buying.")
  else do
    let vaultUsdcAccount := getVaultUsdcAta USDC_MINT
    let buyerUsdcAccount ← getUserUsdcAta isOnCurve USDC_MINT buyer
    let TICKETS_PER_IX := TICKET_RULES.MAX_TICKETS_PER_IX
    let TICKETS_PER_TX := TICKETS_PER_IX
    let feeRecipientUsdcAccount ← getUserUsdcAta isOnCurve USDC_MINT feeRecipient
    (Slices.slices TICKETS_PER_TX tickets).mapM fun txTickets =>
      (Slices.slices TICKETS_PER_IX txTickets).mapM fun ixTickets => do
        let formattedChunk ← formatTickets coder ixTickets
        .ok (.buyTicket buyer buyerUsdcAccount vaultUsdcAccount feeRecipientUsdcAccount USDC_MINT
          formattedChunk)

/-- The transactions that the wallet is asked to sign, or the error that the page shows; none where
the page lets nothing through. -/
def handleBuy (home : Home) : Option (Except BuyError (List (List Instruction))) :=
  match home.publicKey, home.onChain with
  | some publicKey, some onChain =>
      if home.program && home.allComplete && home.stagedTickets.length ≤ MAX_STAGED_TICKETS &&
          !home.isPaused then
        some (buyTickets coder isOnCurve USDC_MINT publicKey home.stagedTickets onChain.admin)
      else none
  | _, _ => none

end Build

/-! ## What is in the transactions -/

section Sent

variable {coder : Coder} {isOnCurve : Pubkey → Bool} {mint buyer feeRecipient : Pubkey}

/-- The transaction for a slice of the basket. -/
def Sent (coder : Coder) (mint buyer feeRecipient : Pubkey) (ixTickets : List StagedTicket)
    (tx : List Instruction) : Prop :=
  ∃ formattedChunk, ixTickets.mapM (formatTicket coder) = some formattedChunk ∧
    tx = [.buyTicket buyer (.associated buyer mint) (.associated vaultAuthority mint)
      (.associated feeRecipient mint) mint formattedChunk]

theorem of_getUserUsdcAta {α : Type} {owner : Pubkey} {k : TokenAddress → Except BuyError α} {r : α}
    (h : (getUserUsdcAta isOnCurve mint owner >>= k) = .ok r) : k (.associated owner mint) = .ok r := by
  unfold getUserUsdcAta at h
  split at h
  · exact h
  · cases h

theorem of_formatTickets {α : Type} {tickets : List StagedTicket}
    {k : List Program.Ticket → Except BuyError α} {r : α}
    (h : (formatTickets coder tickets >>= k) = .ok r) :
    ∃ formatted, tickets.mapM (formatTicket coder) = some formatted ∧ k formatted = .ok r := by
  unfold formatTickets at h
  cases written : tickets.mapM (formatTicket coder) with
  | none =>
    rw [written] at h
    cases h
  | some formatted =>
    rw [written] at h
    exact ⟨formatted, rfl, h⟩

/-- One instruction in a transaction, and one transaction for a slice. -/
theorem sent_of_buyTickets {tickets : List StagedTicket} {txs : List (List Instruction)}
    (h : buyTickets coder isOnCurve mint buyer tickets feeRecipient = .ok txs) :
    List.Forall₂ (Sent coder mint buyer feeRecipient) (Slices.slices 65 tickets) txs := by
  unfold buyTickets at h
  split at h
  · cases h
  · have sent := Slices.forall₂_of_mapM (of_getUserUsdcAta (of_getUserUsdcAta h))
    refine (List.forall₂_iff_zip.2 ⟨sent.length_eq, fun {chunk tx} both => ?_⟩)
    have made := List.forall₂_iff_zip.1 sent |>.2 both
    obtain ⟨some, few⟩ := Slices.length_of_mem_slices (by decide) (List.of_mem_zip both).1
    have nonempty : chunk ≠ [] := List.length_pos_iff.1 some
    rw [show TICKET_RULES.MAX_TICKETS_PER_IX = 65 from rfl, Slices.slices_of_le nonempty few] at made
    have one := Slices.forall₂_of_mapM made
    cases one with
    | cons first rest =>
      cases rest
      obtain ⟨formatted, written, built⟩ := of_formatTickets first
      cases built
      exact ⟨formatted, written, rfl⟩

end Sent

/-! ## The account of the fee recipient -/

/-- The constraint of `BuyTicket` on the account. -/
def TakesFeeAccount (state : LordsPotState) : Instruction → Prop
  | .buyTicket _ _ _ feeRecipientUsdcAccount usdcMint _ =>
      feeRecipientUsdcAccount = .associated state.feeRecipient usdcMint
  | _ => False

/-- Whoever sets the admin or the fee recipient keeps the two equal. -/
def keepsTogether (s : Chain) : Action → Bool
  | .invoke _ (.initializeState signer _ _ _ _ _ _ _ feeRecipient _ _ _) =>
      s.lordsPotState.isSome || feeRecipient == signer
  | .invoke _ (.setAdmin admin newAdmin) =>
      s.lordsPotState.all fun account => admin != account.data.admin ||
        newAdmin == account.data.feeRecipient
  | .invoke _ (.setRelayConfig admin _ _ feeRecipient _ _) =>
      s.lordsPotState.all fun account => admin != account.data.admin || feeRecipient == admin
  | _ => true

section Account

variable {coder : Coder} {isOnCurve : Pubkey → Bool} {mint : Pubkey} {s : Chain}
  {state : LordsPotState} {txs : List (List Instruction)}

/-- What is let through, and with which fee recipient. -/
theorem of_handleBuy {home : Home} {built : Except BuyError (List (List Instruction))}
    (h : handleBuy coder isOnCurve mint home = some built) :
    ∃ publicKey onChain, home.publicKey = some publicKey ∧ home.onChain = some onChain ∧
      home.stagedTickets ≠ [] ∧
      buyTickets coder isOnCurve mint publicKey home.stagedTickets onChain.admin = built := by
  unfold handleBuy at h
  split at h
  · rename_i publicKey onChain connected loaded
    split at h
    · rename_i through
      simp only [Bool.and_eq_true, Home.allComplete, decide_eq_true_eq] at through
      refine ⟨publicKey, onChain, connected, loaded, ?_, Option.some.inj h⟩
      exact List.length_pos_iff.1 through.1.1.2.1
    · cases h
  · cases h

/-- The instructions take the account of whatever fee recipient they are built for. -/
theorem takesFeeAccount_iff {buyer feeRecipient : Pubkey} {tickets : List StagedTicket}
    (some : tickets ≠ [])
    (h : buyTickets coder isOnCurve mint buyer tickets feeRecipient = .ok txs) :
    (∀ ix ∈ txs.flatten, TakesFeeAccount state ix) ↔ feeRecipient = state.feeRecipient := by
  have sent := sent_of_buyTickets h
  constructor
  · intro all
    rw [Slices.slices_eq (by decide) some] at sent
    cases sent with
    | cons first rest =>
      obtain ⟨formatted, -, rfl⟩ := first
      have takes := all _ (List.mem_append_left _ (List.mem_singleton_self _))
      simp only [TakesFeeAccount, TokenAddress.associated.injEq] at takes
      exact takes.1
  · rintro rfl ix mem
    obtain ⟨tx, built, inside⟩ := List.mem_flatten.1 mem
    obtain ⟨_, -, formatted, -, rfl⟩ := Table.exists_of_forall₂_right sent built
    obtain rfl := List.mem_singleton.1 inside
    rfl

/-- The admin and the price are those on chain. -/
theorem eq_of_fetch {onChain : LordsPotOnChainState} (holds : s.Holds state)
    (h : fetchOnChainState coder s = some onChain) :
    onChain.admin = state.admin ∧ onChain.ticketPriceUsdc = state.ticketPrice := by
  obtain ⟨account, loaded, h⟩ := Option.bind_eq_some_iff.1 h
  obtain ⟨price, read, h⟩ := Option.bind_eq_some_iff.1 h
  obtain ⟨_, -, h⟩ := Option.bind_eq_some_iff.1 h
  cases h
  obtain ⟨stored, present, long, rfl⟩ := holds
  rw [loadState, present] at loaded
  simp only [if_neg (Nat.not_lt.2 long), Except.toOption] at loaded
  cases loaded
  exact ⟨rfl, coder.toNumber_eq _ _ read⟩

theorem together_of_reachable
    (h : machine.ReachableBy (fun s a => keepsTogether s a = true) s) :
    ∀ state, s.Holds state → state.admin = state.feeRecipient := by
  refine settings_of_reachable (P := fun state => state.admin = state.feeRecipient) ?_ ?_ h
  · intro s _ _ keeps fresh opened
    cases opened
    simp only [keepsTogether, fresh, Option.isSome_none, Bool.false_or, beq_iff_eq] at keeps
    exact keeps.symm
  · rintro s _ _ _ keeps ⟨account, present, -, rfl⟩ equal updated
    cases updated with
    | setAdmin =>
      simp only [keepsTogether, present, Option.all_some, bne_self_eq_false, Bool.false_or,
        beq_iff_eq] at keeps
      exact keeps
    | setRelayConfig =>
      simp only [keepsTogether, present, Option.all_some, bne_self_eq_false, Bool.false_or,
        beq_iff_eq] at keeps
      exact keeps.symm
    | same | setTreasuryAuthority | pauseProtocol | resumeProtocol | updateEpoch => exact equal

end Account

/-- **The page and the program agree on the account** in every state of a run in which whoever sets
the admin or the fee recipient keeps the two equal; and in whatever state, they agree exactly if the
two are equal there. -/
theorem takesFeeAccount_handleBuy (coder : Coder) (isOnCurve : Pubkey → Bool) (mint : Pubkey) :
    (∀ s, machine.ReachableBy (fun s a => keepsTogether s a = true) s → ∀ state, s.Holds state →
      ∀ (home : Home) (onChain : LordsPotOnChainState), fetchOnChainState coder s = some onChain →
      home.onChain = some onChain → ∀ txs, handleBuy coder isOnCurve mint home = some (.ok txs) →
      ∀ ix ∈ txs.flatten, TakesFeeAccount state ix) ∧
    ∀ (s : Chain) (state : LordsPotState), s.Holds state →
      ∀ (home : Home) (onChain : LordsPotOnChainState), fetchOnChainState coder s = some onChain →
      home.onChain = some onChain → ∀ txs, handleBuy coder isOnCurve mint home = some (.ok txs) →
      ((∀ ix ∈ txs.flatten, TakesFeeAccount state ix) ↔ state.admin = state.feeRecipient) := by
  have agrees : ∀ (s : Chain) (state : LordsPotState), s.Holds state →
      ∀ (home : Home) (onChain : LordsPotOnChainState), fetchOnChainState coder s = some onChain →
      home.onChain = some onChain → ∀ txs, handleBuy coder isOnCurve mint home = some (.ok txs) →
      ((∀ ix ∈ txs.flatten, TakesFeeAccount state ix) ↔ state.admin = state.feeRecipient) := by
    intro s state holds home onChain fetched loaded txs h
    obtain ⟨buyer, onChain', -, loaded', some, built⟩ := of_handleBuy h
    cases loaded.symm.trans loaded'
    rw [takesFeeAccount_iff some built, (eq_of_fetch holds fetched).1]
  refine ⟨fun s h state holds home onChain fetched loaded txs built => ?_, agrees⟩
  exact (agrees s state holds home onChain fetched loaded txs built).2
    (together_of_reachable h state holds)

/-- A program with a fee recipient, whose token account exists. -/
def openingFor (feeRecipient : Pubkey) : List Action :=
  [.invoke ["admin"] (.initializeState "admin" USDC_MINT_ADDRESS 30 10 1000000 1 0 0 feeRecipient
    65 500 "treasury"),
   .token (.associated feeRecipient USDC_MINT_ADDRESS) (some ⟨USDC_MINT_ADDRESS, 0⟩)]

/-- What the page knows of it. -/
def homeOf (publicKey : Pubkey) : Home where
  program := true
  publicKey := some publicKey
  onChain := some ⟨30, 10, 1000000, 1, false, "admin"⟩
  protocolPaused := none
  stagedTickets := [⟨[1, 2, 3, 4, 5], some 1, false⟩]
  usdcBalance := none

/-- What the page builds then. -/
def builtFor (buyer : Pubkey) : List (List Instruction) :=
  [[.buyTicket buyer (.associated buyer USDC_MINT_ADDRESS) vaultUsdc
    (.associated "admin" USDC_MINT_ADDRESS) USDC_MINT_ADDRESS [⟨[1, 2, 3, 4, 5], 1⟩]]]

theorem handleBuy_homeOf :
    handleBuy coder (fun _ => true) USDC_MINT_ADDRESS (homeOf "user") = some (.ok (builtFor "user")) := by
  decide +kernel

theorem fetch_thirtyTen {s : Chain} {feeRecipient : Pubkey}
    (holds : s.lordsPotState =
      some ⟨STATE_SIZE, { thirtyTen with feeRecipient := feeRecipient }⟩) :
    fetchOnChainState coder s = (homeOf "user").onChain := by
  rw [fetchOnChainState, loadState, holds]
  rfl

/-- With a fee recipient that is not the admin, the page builds what the program refuses. -/
theorem feeAccount_differs : ¬ ∀ (coder : Coder) (isOnCurve : Pubkey → Bool) (mint : Pubkey) (s : Chain),
    machine.Reachable s → ∀ state, s.Holds state → state.isLordsPotPaused = false →
    ∀ (home : Home) (onChain : LordsPotOnChainState) (buyer : Pubkey),
    fetchOnChainState coder s = some onChain → home.onChain = some onChain →
    home.publicKey = some buyer → (s.tokens (.associated state.feeRecipient mint)).isSome →
    TokenAddress.associated state.feeRecipient mint ≠ .associated buyer mint →
    ∀ txs, handleBuy coder isOnCurve mint home = some (.ok txs) →
    ∀ ix ∈ txs.flatten, TakesFeeAccount state ix := by
  intro all
  obtain ⟨s, hs, hp⟩ := Machine.exists_reachable_of_run (M := machine)
    (s := ⟨none, fun _ => none, []⟩) ⟨rfl, rfl, rfl⟩ (openingFor "fees")
    (fun s => s.lordsPotState == some ⟨STATE_SIZE, { thirtyTen with feeRecipient := "fees" }⟩ &&
      (s.tokens (.associated "fees" USDC_MINT_ADDRESS)).isSome) (by decide +kernel)
  rw [Bool.and_eq_true, beq_iff_eq] at hp
  obtain ⟨holds, account⟩ := hp
  have takes := all coder (fun _ => true) USDC_MINT_ADDRESS s hs _ ⟨_, holds, le_rfl, rfl⟩ rfl
    (homeOf "user") _ "user" (fetch_thirtyTen holds) rfl rfl account (by decide) _ handleBuy_homeOf _
    (List.mem_singleton_self _)
  simp only [TakesFeeAccount, TokenAddress.associated.injEq] at takes
  exact absurd takes.1 (by decide)

/-- With the admin as the fee recipient, it takes what is built. -/
theorem takesFeeAccount_handleBuy_admin :
    (∀ ix ∈ (builtFor "user").flatten, TakesFeeAccount thirtyTen ix) ∧
      ((∀ ix ∈ (builtFor "user").flatten, TakesFeeAccount thirtyTen ix) ↔
        thirtyTen.admin = thirtyTen.feeRecipient) := by
  obtain ⟨s, hs, hp⟩ := Machine.exists_reachableBy_of_runBy (M := machine) keepsTogether
    (s := ⟨none, fun _ => none, []⟩) ⟨rfl, rfl, rfl⟩ (openingFor "admin")
    (fun s => s.lordsPotState == some ⟨STATE_SIZE, thirtyTen⟩) (by decide +kernel)
  have holds := beq_iff_eq.1 hp
  have fetched : fetchOnChainState coder s = (homeOf "user").onChain :=
    @fetch_thirtyTen s "admin" holds
  constructor
  · exact (takesFeeAccount_handleBuy coder (fun _ => true) USDC_MINT_ADDRESS).1 s hs _
      ⟨_, holds, le_rfl, rfl⟩ (homeOf "user") _ fetched rfl _ handleBuy_homeOf
  · exact (takesFeeAccount_handleBuy coder (fun _ => true) USDC_MINT_ADDRESS).2 s _
      ⟨_, holds, le_rfl, rfl⟩ (homeOf "user") _ fetched rfl _ handleBuy_homeOf

end LordsPot.Frontend
