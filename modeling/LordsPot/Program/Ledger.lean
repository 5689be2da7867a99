import LordsPot.Library.Audit
import LordsPot.Program.Authority
import LordsPot.Program.Purchase

/-!
# What is in the vault

The events of the program account for every unit the vault has ever held: it is what was paid for
tickets and sent in from outside, less what was claimed and withdrawn. A relay fee never stays in the
vault and a withdrawal never comes back to it: no instruction takes one token account twice.
-/

namespace LordsPot.Program

open Transition

/-- What an action leaves on record: the events of the program, each purchase with the state it was
checked against, and what comes in from outside. -/
inductive Entry where
  | TicketPurchase (event : TicketPurchaseEvent) (state : LordsPotState)
  | WinningsClaimed (user : Pubkey) (amount : Nat)
  | VaultWithdrawal (admin : Pubkey) (destination : TokenAddress) (amount : Nat)
  | deposit (amount : Nat)
  deriving Repr, DecidableEq

/-- The events of an instruction that took the chain from `s` to `s'`. -/
def emitted (s s' : Chain) : Instruction → List Entry
  | .buyTicket .. => (s'.purchases.drop s.purchases.length).map fun p => .TicketPurchase p.1 p.2
  | .claimWinnings user _ _ _ _ amount => [.WinningsClaimed user amount]
  | .withdrawVaultFunds treasury _ destination _ amount => [.VaultWithdrawal treasury destination amount]
  | _ => []

def entries (s : Chain) : Action → List Entry
  | .invoke signers ix =>
      match execute s signers ix with
      | .ok s' => emitted s s' ix
      | .error _ => []
  | .token .. => []
  -- a transfer to an account that is not there does not go through
  | .deposit amount => if (s.tokens vaultUsdc).isSome then [.deposit amount] else []

/-- The program with everything on record. -/
def books : Machine (Audited Chain Entry) Action := machine.audited entries

/-- The relay fee of a purchase. -/
def relayFee (event : TicketPurchaseEvent) (state : LordsPotState) : Nat :=
  state.relayFeePerTicket * event.ticketsBought + state.relayFeeBase

/-- What an entry brings into the vault. -/
def Entry.credit : Entry → Nat
  | .TicketPurchase event _ => event.amountPaid
  | .deposit amount => amount
  | _ => 0

/-- What an entry takes out of the vault. -/
def Entry.debit : Entry → Nat
  | .WinningsClaimed _ amount => amount
  | .VaultWithdrawal _ _ amount => amount
  | _ => 0

/-! ## One instruction -/

section

variable {s s' : Chain} {signers : List Pubkey}

/-- A purchase that goes through, with its two transfers. -/
structure Charged (s s' : Chain) (signer : Pubkey) (state : LordsPotState)
    (event : TicketPurchaseEvent) : Prop where
  apart : vaultUsdc ≠ .associated signer USDC_MINT_ADDRESS ∧
    vaultUsdc ≠ .associated state.feeRecipient USDC_MINT_ADDRESS ∧
    TokenAddress.associated signer USDC_MINT_ADDRESS ≠ .associated state.feeRecipient USDC_MINT_ADDRESS
  vault : ∃ paid, transferChecked s.tokens (.associated signer USDC_MINT_ADDRESS) vaultUsdc
      USDC_MINT_ADDRESS event.amountPaid = .ok paid ∧
    (if 0 < relayFee event state then
      transferChecked paid (.associated signer USDC_MINT_ADDRESS)
        (.associated state.feeRecipient USDC_MINT_ADDRESS) USDC_MINT_ADDRESS (relayFee event state)
      else .ok paid) = .ok s'.tokens
  purchases : s'.purchases = s.purchases ++ [(event, state)]
  count : event.ticketsBought = event.ticketsData.length % 2 ^ 32

theorem charged_of_execute {signer usdcMint : Pubkey} {buyer vault feeRecipient : TokenAddress}
    {tickets : List Ticket}
    (h : execute s signers (.buyTicket signer buyer vault feeRecipient usdcMint tickets) = .ok s') :
    signer ∈ signers ∧ ∃ state event, event.ticketsData = tickets ∧ Charged s s' signer state event := by
  simp only [execute] at h
  obtain ⟨signed, h⟩ := of_require h
  obtain ⟨state, -, h⟩ := of_loadState h
  obtain ⟨-, h⟩ := of_loadTokens h
  obtain ⟨-, h⟩ := of_require h
  obtain ⟨fromBuyer, h⟩ := of_require h
  obtain ⟨toVault, h⟩ := of_require h
  obtain ⟨toFee, h⟩ := of_require h
  obtain ⟨mint, h⟩ := of_require h
  obtain ⟨distinct, h⟩ := of_requireDistinct h
  obtain ⟨-, h⟩ := of_require h
  obtain ⟨-, h⟩ := of_require h
  obtain ⟨-, h⟩ := of_require h
  obtain ⟨_, -, h⟩ := of_bind h
  obtain ⟨totalAmount, total, h⟩ := of_bind h
  obtain ⟨ticketFee, perTicket, h⟩ := of_bind h
  obtain ⟨fee, added, h⟩ := of_bind h
  obtain ⟨paid, first, h⟩ := of_bind h
  obtain ⟨tokens, second, rfl⟩ : ∃ tokens,
      (if 0 < fee then transferChecked paid buyer feeRecipient usdcMint fee else .ok paid) =
        .ok tokens ∧
      s' = { s with
        tokens := tokens
        purchases := s.purchases ++ [(⟨signer, totalAmount, tickets.length % 2 ^ 32, tickets,
          state.ongoingEpoch⟩, state)] } := by
    split at h
    · rename_i charged
      obtain ⟨tokens, second, h⟩ := of_bind h
      cases h
      exact ⟨tokens, (if_pos charged).trans second, rfl⟩
    · rename_i free
      cases h
      exact ⟨paid, if_neg free, rfl⟩
  obtain rfl := of_checked perTicket
  obtain rfl := of_checked added
  simp only [beq_iff_eq] at fromBuyer toVault toFee mint
  subst fromBuyer toVault toFee mint
  simp only [List.nodup_cons, List.mem_cons, List.not_mem_nil, or_false, not_or] at distinct
  obtain ⟨⟨buyerVault, buyerFee⟩, vaultFee, -⟩ := distinct
  exact ⟨List.contains_iff_mem.1 signed, state,
    ⟨signer, totalAmount, tickets.length % 2 ^ 32, tickets, state.ongoingEpoch⟩,
    rfl, ⟨Ne.symm buyerVault, vaultFee, buyerFee⟩, ⟨paid, first, second⟩, rfl, rfl⟩

/-- The vault gets the price, and none of the fee. -/
theorem Charged.amount {signer : Pubkey} {state : LordsPotState} {event : TicketPurchaseEvent}
    (charged : Charged s s' signer state event) :
    s'.amount vaultUsdc = s.amount vaultUsdc + event.amountPaid := by
  obtain ⟨vaultBuyer, vaultFee, buyerFee⟩ := charged.apart
  obtain ⟨paid, first, second⟩ := charged.vault
  exact (transfers_move vaultBuyer.symm buyerFee vaultFee first second).2.1

/-- **The step of the books**: an instruction that succeeds moves the vault by what it emits. -/
theorem amount_of_execute {ix : Instruction} (sized : Sized s) (unsigned : vaultAuthority ∉ signers)
    (h : execute s signers ix = .ok s') :
    s'.amount vaultUsdc + Machine.total Entry.debit (emitted s s' ix) =
      s.amount vaultUsdc + Machine.total Entry.credit (emitted s s' ix) := by
  cases execute_succeeds h with
  | initializeState _ noVault => simp [emitted, Chain.amount, balance, noVault]
  | migrated => simp [emitted]
  | migrateState present legacy => exact absurd legacy (sized.not_legacy present)
  | setAdmin | setTreasuryAuthority | setRelayConfig | pauseProtocol | resumeProtocol | updateEpoch =>
    simp [emitted]
  | buyTicket =>
    obtain ⟨-, state, event, -, charged⟩ := charged_of_execute h
    rw [emitted, charged.purchases, List.drop_left]
    simpa [Entry.debit, Entry.credit] using charged.amount
  | claimWinnings _ signed _ _ _ _ _ opens moved =>
    have out := (transferChecked_moves (associated_ne_vault unsigned signed) moved).1
    rw [opens, balance_opened] at out
    simpa [emitted, Entry.debit, Entry.credit, Chain.amount] using out
  | withdrawVaultFunds _ _ other moved =>
    simpa [emitted, Entry.debit, Entry.credit, Chain.amount] using (transferChecked_moves other moved).1

end

theorem amount_of_step {s s' : Chain} {a : Action} (sized : Sized s) (h : step s a = some s') :
    s'.amount vaultUsdc + Machine.total Entry.debit (entries s a) =
      s.amount vaultUsdc + Machine.total Entry.credit (entries s a) := by
  cases a with
  | invoke signers ix =>
    simp only [step] at h
    split at h
    · cases h
    · rename_i unsigned
      rw [List.contains_iff_mem] at unsigned
      split at h
      · rename_i error refused
        cases h
        simp [entries, refused]
      · rename_i s₁ executed
        cases h
        simpa only [entries, executed] using amount_of_execute sized unsigned executed
  | token address account =>
    simp only [step] at h
    split at h
    · cases h
    · rename_i other
      cases h
      simp [entries, Chain.amount, balance, Function.update_of_ne (Ne.symm other)]
  | deposit amount =>
    cases h
    cases vault : s.tokens vaultUsdc with
    | none => simp [entries, Chain.amount, balance, vault]
    | some account => simp [entries, Chain.amount, balance, vault, Entry.debit, Entry.credit]

/-! ## Every run -/

/-- **The books balance**: in every run the vault holds what came in, less what was paid out. -/
theorem vault_balanced {b : Audited Chain Entry} (h : books.Reachable b) :
    b.state.amount vaultUsdc + Machine.total Entry.debit b.log = Machine.total Entry.credit b.log := by
  refine Machine.balanced (fun s => s.amount vaultUsdc) (fun s initial => ?_)
    (fun s a s' reached stepped => amount_of_step (sized reached) stepped) h
  simp [Chain.amount, balance, Initial.noVault initial]

/-- The vault is opened, two purchases are paid, a user claims, and the treasury withdraws; a
withdrawal to the vault itself fails. -/
def trading : List Action :=
  [.invoke ["admin"] (.initializeState "admin" USDC_MINT_ADDRESS 30 10 100 1 7 3 "fees" 50 500
     "treasury"),
   .token (.associated "user" USDC_MINT_ADDRESS) (some ⟨USDC_MINT_ADDRESS, 1000⟩),
   .token (.associated "fees" USDC_MINT_ADDRESS) (some ⟨USDC_MINT_ADDRESS, 0⟩),
   .token (.associated "treasury" USDC_MINT_ADDRESS) (some ⟨USDC_MINT_ADDRESS, 0⟩),
   .deposit 50,
   .invoke ["user"] (.buyTicket "user" (.associated "user" USDC_MINT_ADDRESS) vaultUsdc
     (.associated "fees" USDC_MINT_ADDRESS) USDC_MINT_ADDRESS [⟨[1, 2, 3, 4, 5], 1⟩]),
   .invoke ["admin"] (.setRelayConfig "admin" 0 0 "fees" 50 500),
   .invoke ["user"] (.buyTicket "user" (.associated "user" USDC_MINT_ADDRESS) vaultUsdc
     (.associated "fees" USDC_MINT_ADDRESS) USDC_MINT_ADDRESS [⟨[1, 2, 3, 4, 5], 1⟩]),
   .invoke ["user", "admin"] (.claimWinnings "user" "admin" (.associated "user" USDC_MINT_ADDRESS)
     vaultUsdc USDC_MINT_ADDRESS 40),
   .invoke ["treasury"] (.withdrawVaultFunds "treasury" vaultUsdc
     (.associated "treasury" USDC_MINT_ADDRESS) USDC_MINT_ADDRESS 20),
   .invoke ["treasury"] (.withdrawVaultFunds "treasury" vaultUsdc vaultUsdc USDC_MINT_ADDRESS 5)]

/-- In that run 250 come in, 60 go out, and 190 are left. -/
theorem vault_balanced_trading : ∃ b : Audited Chain Entry,
    b.state.amount vaultUsdc = 190 ∧ Machine.total Entry.debit b.log = 60 ∧
      b.state.amount vaultUsdc + Machine.total Entry.debit b.log =
        Machine.total Entry.credit b.log := by
  obtain ⟨b, reached, checked⟩ := Machine.exists_reachable_of_run (M := books)
    (s := ⟨⟨none, fun _ => none, []⟩, []⟩) ⟨⟨rfl, rfl, rfl⟩, rfl⟩ trading
    (fun b => b.state.amount vaultUsdc == 190 && Machine.total Entry.debit b.log == 60)
    (by decide +kernel)
  rw [Bool.and_eq_true, beq_iff_eq, beq_iff_eq] at checked
  exact ⟨b, checked.1, checked.2, vault_balanced reached⟩

end LordsPot.Program
