import LordsPot.Program.Instructions

/-!
# Instructions that succeed

What each instruction has found and done when it succeeds, read off `execute` once. Everything
about runs of the program is derived from `Succeeds`.
-/

namespace LordsPot.Program

open Transition

/-! ## Peeling off the checks -/

theorem of_require {α : Type} {condition : Bool} {error : ProgramError} {k : Except ProgramError α}
    {r : α} (h : (require condition error >>= fun _ => k) = .ok r) : condition = true ∧ k = .ok r := by
  unfold require at h
  split at h
  · rename_i holds
    exact ⟨holds, h⟩
  · cases h

theorem of_bind {α β : Type} {x : Except ProgramError α} {k : α → Except ProgramError β} {r : β}
    (h : (x >>= k) = .ok r) : ∃ a, x = .ok a ∧ k a = .ok r := by
  cases x with
  | error e => cases h
  | ok a => exact ⟨a, rfl, h⟩

/-- The state account is of the current size and holds `state`. -/
def Chain.Holds (s : Chain) (state : LordsPotState) : Prop :=
  ∃ account, s.lordsPotState = some account ∧ STATE_SIZE ≤ account.dataLen ∧ account.data = state

theorem of_loadState {α : Type} {s : Chain} {k : LordsPotState → Except ProgramError α} {r : α}
    (h : (loadState s >>= k) = .ok r) : ∃ state, s.Holds state ∧ k state = .ok r := by
  obtain ⟨state, loaded, h⟩ := of_bind h
  refine ⟨state, ?_, h⟩
  unfold loadState at loaded
  split at loaded
  · cases loaded
  · rename_i account present
    split at loaded
    · cases loaded
    · rename_i long
      cases loaded
      exact ⟨account, present, by omega, rfl⟩

theorem of_checked {n m : Nat} (h : checked n = .ok m) : m = n := by
  unfold checked at h
  split at h
  · cases h
    rfl
  · cases h

theorem of_loadTokens {α : Type} {s : Chain} {accounts : List TokenAddress} {k : Except ProgramError α}
    {r : α} (h : (loadTokens s accounts >>= fun _ => k) = .ok r) :
    (∀ address ∈ accounts, (s.tokens address).isSome = true) ∧ k = .ok r := by
  obtain ⟨there, h⟩ := of_require h
  exact ⟨List.all_eq_true.1 there, h⟩

theorem of_requireDistinct {α : Type} {accounts : List TokenAddress} {k : Except ProgramError α} {r : α}
    (h : (requireDistinct accounts >>= fun _ => k) = .ok r) : accounts.Nodup ∧ k = .ok r := by
  obtain ⟨distinct, h⟩ := of_require h
  exact ⟨of_decide_eq_true distinct, h⟩

theorem of_validateTreasury {α : Type} {treasury : Pubkey} {k : Except ProgramError α} {r : α}
    (h : (validateTreasury treasury >>= fun _ => k) = .ok r) : treasury ≠ defaultKey ∧ k = .ok r := by
  obtain ⟨real, h⟩ := of_require h
  exact ⟨bne_iff_ne.1 real, h⟩

/-! ## What each instruction does -/

/-- A purchase with its payment and, when there is one, the relay fee. -/
structure Paid (s : Chain) (state : LordsPotState) (signer : Pubkey) (event : TicketPurchaseEvent)
    (tokens : TokenAddress → Option TokenAccount) : Prop where
  price : event.amountPaid = event.ticketsBought * state.ticketPrice
  checks : event.ticketsData.forM (checkTicket state) = .ok ()
  epoch : event.epoch = state.ongoingEpoch
  transfers : ∃ paid fee, transferChecked s.tokens (.associated signer USDC_MINT_ADDRESS) vaultUsdc
      USDC_MINT_ADDRESS event.amountPaid = .ok paid ∧
    (tokens = paid ∨ transferChecked paid (.associated signer USDC_MINT_ADDRESS)
      (.associated state.feeRecipient USDC_MINT_ADDRESS) USDC_MINT_ADDRESS fee = .ok tokens)

/-- What an instruction that succeeded has found and done. -/
inductive Succeeds (s : Chain) (signers : List Pubkey) : Instruction → Chain → Prop where
  | initializeState {signer usdcMint : Pubkey}
      {normalMax bonusMax ticketPrice startingEpoch relayFeeBase relayFeePerTicket : Nat}
      {feeRecipient : Pubkey} {maxTicketsPerPurchase maxClaimAmount : Nat}
      {treasuryAuthority : Pubkey} {data : LordsPotState}
      (fresh : s.lordsPotState = none) (noVault : s.tokens vaultUsdc = none) :
      Succeeds s signers
        (.initializeState signer usdcMint normalMax bonusMax ticketPrice startingEpoch relayFeeBase
          relayFeePerTicket feeRecipient maxTicketsPerPurchase maxClaimAmount treasuryAuthority)
        { s with
          lordsPotState := some { dataLen := STATE_SIZE, data := data }
          tokens := Function.update s.tokens vaultUsdc
            (some { mint := USDC_MINT_ADDRESS, amount := 0 }) }
  | migrated {admin : Pubkey} {relayFeeBase relayFeePerTicket : Nat} {feeRecipient : Pubkey}
      {maxTicketsPerPurchase maxClaimAmount : Nat} {treasuryAuthority : Pubkey} :
      Succeeds s signers
        (.migrateState admin relayFeeBase relayFeePerTicket feeRecipient maxTicketsPerPurchase
          maxClaimAmount treasuryAuthority) s
  | migrateState {admin : Pubkey} {relayFeeBase relayFeePerTicket : Nat} {feeRecipient : Pubkey}
      {maxTicketsPerPurchase maxClaimAmount : Nat} {treasuryAuthority : Pubkey}
      {account : StateAccount} {s' : Chain}
      (present : s.lordsPotState = some account) (legacy : account.dataLen = LEGACY_STATE_SIZE) :
      Succeeds s signers
        (.migrateState admin relayFeeBase relayFeePerTicket feeRecipient maxTicketsPerPurchase
          maxClaimAmount treasuryAuthority) s'
  | setAdmin {newAdmin : Pubkey} {state : LordsPotState} (holds : s.Holds state)
      (admin : state.admin ∈ signers) :
      Succeeds s signers (.setAdmin state.admin newAdmin) (s.store { state with admin := newAdmin })
  | setTreasuryAuthority {authority newTreasury : Pubkey} {state : LordsPotState}
      (holds : s.Holds state) (signed : authority ∈ signers)
      (entitled : state.treasuryAuthority = defaultKey ∨ authority = state.treasuryAuthority) :
      Succeeds s signers (.setTreasuryAuthority authority newTreasury)
        (s.store { state with treasuryAuthority := newTreasury })
  | setRelayConfig {relayFeeBase relayFeePerTicket : Nat} {feeRecipient : Pubkey}
      {maxTicketsPerPurchase maxClaimAmount : Nat} {state : LordsPotState} (holds : s.Holds state)
      (admin : state.admin ∈ signers) :
      Succeeds s signers
        (.setRelayConfig state.admin relayFeeBase relayFeePerTicket feeRecipient
          maxTicketsPerPurchase maxClaimAmount)
        (s.store { state with
          relayFeeBase := relayFeeBase
          relayFeePerTicket := relayFeePerTicket
          feeRecipient := feeRecipient
          maxTicketsPerPurchase := maxTicketsPerPurchase
          maxClaimAmount := maxClaimAmount })
  | buyTicket {signer : Pubkey}
      {buyerUsdcAccount vaultUsdcAccount feeRecipientUsdcAccount : TokenAddress}
      {usdcMint : Pubkey} {tickets : List Ticket} {state : LordsPotState}
      {event : TicketPurchaseEvent} {tokens : TokenAddress → Option TokenAccount}
      (holds : s.Holds state) (signed : signer ∈ signers)
      (unpaused : state.isLordsPotPaused = false) (paid : Paid s state signer event tokens) :
      Succeeds s signers
        (.buyTicket signer buyerUsdcAccount vaultUsdcAccount feeRecipientUsdcAccount usdcMint tickets)
        { s with tokens := tokens, purchases := s.purchases ++ [(event, state)] }
  | pauseProtocol {state : LordsPotState} (holds : s.Holds state) (admin : state.admin ∈ signers)
      (unpaused : state.isLordsPotPaused = false) :
      Succeeds s signers (.pauseProtocol state.admin)
        (s.store { state with isLordsPotPaused := true })
  | resumeProtocol {nextEpoch : Nat} {state : LordsPotState} (holds : s.Holds state)
      (admin : state.admin ∈ signers) (paused : state.isLordsPotPaused = true)
      (later : state.ongoingEpoch < nextEpoch) :
      Succeeds s signers (.resumeProtocol state.admin nextEpoch)
        (s.store { state with isLordsPotPaused := false, ongoingEpoch := nextEpoch })
  | updateEpoch {normalMax bonusMax : Nat} {state : LordsPotState} (holds : s.Holds state)
      (admin : state.admin ∈ signers) (paused : state.isLordsPotPaused = true) :
      Succeeds s signers (.updateEpoch state.admin normalMax bonusMax)
        (s.store { state with normalMax := normalMax, bonusMax := bonusMax })
  | claimWinnings {user : Pubkey} {amount : Nat} {state : LordsPotState}
      {opened tokens : TokenAddress → Option TokenAccount}
      (holds : s.Holds state) (signed : user ∈ signers) (admin : state.admin ∈ signers)
      (unpaused : state.isLordsPotPaused = false) (positive : 0 < amount)
      (ceiling : amount ≤ state.maxClaimAmount) (covered : amount ≤ s.amount vaultUsdc)
      (opens : opened = if (s.tokens (.associated user USDC_MINT_ADDRESS)).isSome then s.tokens
        else Function.update s.tokens (.associated user USDC_MINT_ADDRESS)
          (some { mint := USDC_MINT_ADDRESS, amount := 0 }))
      (moved : transferChecked opened vaultUsdc (.associated user USDC_MINT_ADDRESS)
        USDC_MINT_ADDRESS amount = .ok tokens) :
      Succeeds s signers
        (.claimWinnings user state.admin (.associated user USDC_MINT_ADDRESS) vaultUsdc
          USDC_MINT_ADDRESS amount)
        { s with tokens := tokens }
  | withdrawVaultFunds {destination : TokenAddress} {amount : Nat} {state : LordsPotState}
      {tokens : TokenAddress → Option TokenAccount}
      (holds : s.Holds state) (treasury : state.treasuryAuthority ∈ signers)
      (other : vaultUsdc ≠ destination)
      (moved : transferChecked s.tokens vaultUsdc destination USDC_MINT_ADDRESS amount = .ok tokens) :
      Succeeds s signers
        (.withdrawVaultFunds state.treasuryAuthority vaultUsdc destination USDC_MINT_ADDRESS amount)
        { s with tokens := tokens }

section Inversion

variable {s s' : Chain} {signers : List Pubkey}

theorem buyTicket_succeeds {signer usdcMint : Pubkey}
    {buyerUsdcAccount vaultUsdcAccount feeRecipientUsdcAccount : TokenAddress} {tickets : List Ticket}
    (h : execute s signers (.buyTicket signer buyerUsdcAccount vaultUsdcAccount
      feeRecipientUsdcAccount usdcMint tickets) = .ok s') :
    Succeeds s signers (.buyTicket signer buyerUsdcAccount vaultUsdcAccount feeRecipientUsdcAccount
      usdcMint tickets) s' := by
  simp only [execute] at h
  obtain ⟨signed, h⟩ := of_require h
  obtain ⟨state, holds, h⟩ := of_loadState h
  obtain ⟨-, h⟩ := of_loadTokens h
  obtain ⟨unpaused, h⟩ := of_require h
  obtain ⟨buyer, h⟩ := of_require h
  obtain ⟨vault, h⟩ := of_require h
  obtain ⟨fees, h⟩ := of_require h
  obtain ⟨mint, h⟩ := of_require h
  obtain ⟨-, h⟩ := of_requireDistinct h
  obtain ⟨-, h⟩ := of_require h
  obtain ⟨-, h⟩ := of_require h
  obtain ⟨-, h⟩ := of_require h
  obtain ⟨_, checks, h⟩ := of_bind h
  obtain ⟨totalAmount, total, h⟩ := of_bind h
  obtain ⟨_, -, h⟩ := of_bind h
  obtain ⟨relayFee, -, h⟩ := of_bind h
  obtain ⟨paid, transfer, h⟩ := of_bind h
  simp only [beq_iff_eq] at buyer vault fees mint
  have pays {tokens} (fee : tokens = paid ∨ transferChecked paid (.associated signer USDC_MINT_ADDRESS)
      (.associated state.feeRecipient USDC_MINT_ADDRESS) USDC_MINT_ADDRESS relayFee = .ok tokens) :
      Paid s state signer ⟨signer, totalAmount, tickets.length % 2 ^ 32, tickets, state.ongoingEpoch⟩
        tokens := by
    subst buyer vault mint
    exact ⟨of_checked total, checks, rfl, paid, relayFee, transfer, fee⟩
  split at h
  · obtain ⟨tokens, fee, h⟩ := of_bind h
    cases h
    subst mint
    exact .buyTicket holds (List.contains_iff_mem.1 signed) (by simpa using unpaused)
      (pays (.inr (buyer ▸ fees ▸ fee)))
  · cases h
    exact .buyTicket holds (List.contains_iff_mem.1 signed) (by simpa using unpaused)
      (pays (.inl rfl))

theorem claimWinnings_succeeds {user admin usdcMint : Pubkey}
    {userUsdcAccount vaultUsdcAccount : TokenAddress} {amount : Nat}
    (h : execute s signers (.claimWinnings user admin userUsdcAccount vaultUsdcAccount usdcMint
      amount) = .ok s') :
    Succeeds s signers (.claimWinnings user admin userUsdcAccount vaultUsdcAccount usdcMint amount)
      s' := by
  simp only [execute] at h
  obtain ⟨signed, h⟩ := of_require h
  obtain ⟨cosigned, h⟩ := of_require h
  obtain ⟨state, holds, h⟩ := of_loadState h
  obtain ⟨-, h⟩ := of_loadTokens h
  obtain ⟨account, h⟩ := of_require h
  obtain ⟨isAdmin, h⟩ := of_require h
  obtain ⟨unpaused, h⟩ := of_require h
  obtain ⟨vault, h⟩ := of_require h
  obtain ⟨mint, h⟩ := of_require h
  obtain ⟨positive, h⟩ := of_require h
  obtain ⟨ceiling, h⟩ := of_require h
  obtain ⟨covered, h⟩ := of_require h
  obtain ⟨tokens, moved, h⟩ := of_bind h
  cases h
  simp only [beq_iff_eq] at account isAdmin vault mint
  subst account isAdmin vault mint
  exact .claimWinnings holds (List.contains_iff_mem.1 signed) (List.contains_iff_mem.1 cosigned)
    (by simpa using unpaused) (of_decide_eq_true positive) (of_decide_eq_true ceiling)
    (of_decide_eq_true covered) rfl moved

theorem withdrawVaultFunds_succeeds {treasury usdcMint : Pubkey}
    {vaultUsdcAccount destination : TokenAddress} {amount : Nat}
    (h : execute s signers (.withdrawVaultFunds treasury vaultUsdcAccount destination usdcMint
      amount) = .ok s') :
    Succeeds s signers (.withdrawVaultFunds treasury vaultUsdcAccount destination usdcMint amount)
      s' := by
  simp only [execute] at h
  obtain ⟨signed, h⟩ := of_require h
  obtain ⟨state, holds, h⟩ := of_loadState h
  obtain ⟨-, h⟩ := of_loadTokens h
  obtain ⟨isTreasury, h⟩ := of_require h
  obtain ⟨vault, h⟩ := of_require h
  obtain ⟨-, h⟩ := of_require h
  obtain ⟨mint, h⟩ := of_require h
  obtain ⟨distinct, h⟩ := of_requireDistinct h
  obtain ⟨-, h⟩ := of_require h
  obtain ⟨-, h⟩ := of_require h
  obtain ⟨tokens, moved, h⟩ := of_bind h
  cases h
  simp only [beq_iff_eq] at isTreasury vault mint
  subst isTreasury vault mint
  have other := (List.nodup_cons.1 distinct).1 ∘ List.mem_singleton.2
  exact .withdrawVaultFunds holds (List.contains_iff_mem.1 signed) other moved

theorem setTreasuryAuthority_succeeds {authority newTreasury : Pubkey}
    (h : execute s signers (.setTreasuryAuthority authority newTreasury) = .ok s') :
    Succeeds s signers (.setTreasuryAuthority authority newTreasury) s' := by
  simp only [execute] at h
  obtain ⟨signed, h⟩ := of_require h
  obtain ⟨-, h⟩ := of_require h
  obtain ⟨state, holds, h⟩ := of_loadState h
  obtain ⟨-, h⟩ := of_validateTreasury h
  split at h
  · rename_i bootstrap
    obtain ⟨-, h⟩ := of_require h
    cases h
    exact .setTreasuryAuthority holds (List.contains_iff_mem.1 signed) (.inl bootstrap)
  · obtain ⟨isTreasury, h⟩ := of_require h
    obtain ⟨-, h⟩ := of_require h
    cases h
    exact .setTreasuryAuthority holds (List.contains_iff_mem.1 signed) (.inr (beq_iff_eq.1 isTreasury))

theorem migrateState_succeeds {admin : Pubkey} {relayFeeBase relayFeePerTicket : Nat}
    {feeRecipient : Pubkey} {maxTicketsPerPurchase maxClaimAmount : Nat} {treasury : Pubkey}
    (h : execute s signers (.migrateState admin relayFeeBase relayFeePerTicket feeRecipient
      maxTicketsPerPurchase maxClaimAmount treasury) = .ok s') :
    Succeeds s signers (.migrateState admin relayFeeBase relayFeePerTicket feeRecipient
      maxTicketsPerPurchase maxClaimAmount treasury) s' := by
  simp only [execute] at h
  obtain ⟨-, h⟩ := of_require h
  split at h
  · cases h
  · rename_i account present
    obtain ⟨_, -, h⟩ := of_bind h
    obtain ⟨-, h⟩ := of_validateTreasury h
    split at h
    · cases h
      exact .migrated
    · obtain ⟨legacy, h⟩ := of_require h
      exact .migrateState present (beq_iff_eq.1 legacy)

/-- An instruction of the admin alone: the checks they have in common. -/
theorem of_admin {admin : Pubkey} {k : LordsPotState → Except ProgramError Chain}
    (h : (do
      require (signers.contains admin) .AccountNotSigner
      let state ← loadState s
      require (admin == state.admin) (.lordsPot .Unauthorized)
      k state) = .ok s') :
    ∃ state, s.Holds state ∧ admin = state.admin ∧ state.admin ∈ signers ∧ k state = .ok s' := by
  obtain ⟨signed, h⟩ := of_require h
  obtain ⟨state, holds, h⟩ := of_loadState h
  obtain ⟨isAdmin, h⟩ := of_require h
  have same : admin = state.admin := beq_iff_eq.1 isAdmin
  exact ⟨state, holds, same, same ▸ List.contains_iff_mem.1 signed, h⟩

/-- **The inversion rule** for the program's instructions. -/
theorem execute_succeeds {ix : Instruction} (h : execute s signers ix = .ok s') :
    Succeeds s signers ix s' := by
  cases ix with
  | initializeState =>
    simp only [execute] at h
    obtain ⟨-, h⟩ := of_require h
    obtain ⟨fresh, h⟩ := of_require h
    obtain ⟨noVault, h⟩ := of_require h
    obtain ⟨-, h⟩ := of_require h
    obtain ⟨_, -, h⟩ := of_bind h
    obtain ⟨-, h⟩ := of_validateTreasury h
    cases h
    exact .initializeState (Option.isNone_iff_eq_none.1 fresh) (Option.isNone_iff_eq_none.1 noVault)
  | migrateState => exact migrateState_succeeds h
  | setAdmin =>
    simp only [execute] at h
    obtain ⟨signed, h⟩ := of_require h
    obtain ⟨-, h⟩ := of_require h
    obtain ⟨state, holds, h⟩ := of_loadState h
    obtain ⟨isAdmin, h⟩ := of_require h
    obtain ⟨-, h⟩ := of_require h
    cases h
    cases beq_iff_eq.1 isAdmin
    exact .setAdmin holds (List.contains_iff_mem.1 signed)
  | setTreasuryAuthority => exact setTreasuryAuthority_succeeds h
  | setRelayConfig =>
    obtain ⟨state, holds, rfl, signed, h⟩ := of_admin h
    obtain ⟨_, -, h⟩ := of_bind h
    cases h
    exact .setRelayConfig holds signed
  | buyTicket => exact buyTicket_succeeds h
  | pauseProtocol =>
    obtain ⟨state, holds, rfl, signed, h⟩ := of_admin h
    obtain ⟨unpaused, h⟩ := of_require h
    cases h
    exact .pauseProtocol holds signed (by simpa using unpaused)
  | resumeProtocol =>
    obtain ⟨state, holds, rfl, signed, h⟩ := of_admin h
    obtain ⟨paused, h⟩ := of_require h
    obtain ⟨later, h⟩ := of_require h
    cases h
    exact .resumeProtocol holds signed paused (of_decide_eq_true later)
  | updateEpoch =>
    obtain ⟨state, holds, rfl, signed, h⟩ := of_admin h
    obtain ⟨paused, h⟩ := of_require h
    obtain ⟨-, h⟩ := of_require h
    cases h
    exact .updateEpoch holds signed paused
  | claimWinnings => exact claimWinnings_succeeds h
  | withdrawVaultFunds => exact withdrawVaultFunds_succeeds h

/-- An action is an instruction that succeeds, or leaves the program's account and events alone
and the vault no poorer. -/
theorem step_cases {a : Action} (h : step s a = some s') :
    (∃ signers ix, a = .invoke signers ix ∧ vaultAuthority ∉ signers ∧ Succeeds s signers ix s') ∨
      s'.lordsPotState = s.lordsPotState ∧ s'.purchases = s.purchases ∧
        s.amount vaultUsdc ≤ s'.amount vaultUsdc := by
  cases a with
  | invoke signers ix =>
    simp only [step] at h
    split at h
    · cases h
    · rename_i unsigned
      split at h
      · cases h
        exact .inr ⟨rfl, rfl, le_refl _⟩
      · rename_i s₁ executed
        cases h
        exact .inl ⟨signers, ix, rfl, fun signed => unsigned (List.contains_iff_mem.2 signed),
          execute_succeeds executed⟩
  | token address account =>
    simp only [step] at h
    split at h
    · cases h
    · rename_i other
      cases h
      refine .inr ⟨rfl, rfl, ?_⟩
      simp [Chain.amount, balance, Function.update_of_ne (Ne.symm other)]
  | deposit amount =>
    cases h
    refine .inr ⟨rfl, rfl, ?_⟩
    cases vault : s.tokens vaultUsdc <;> simp [Chain.amount, balance, vault]

end Inversion

section Store

variable {s : Chain} {state data : LordsPotState}

theorem Chain.Holds.unique (h : s.Holds state) (h' : s.Holds data) : state = data := by
  obtain ⟨account, present, -, rfl⟩ := h
  obtain ⟨account', present', -, rfl⟩ := h'
  rw [present] at present'
  cases present'
  rfl

theorem Chain.Holds.ne_none (h : s.Holds state) : s.lordsPotState ≠ none := by
  obtain ⟨account, present, -⟩ := h
  simp [present]

theorem Chain.Holds.store (h : s.Holds state) : (s.store data).Holds data := by
  obtain ⟨account, present, long, -⟩ := h
  refine ⟨{ account with data := data }, ?_, long, rfl⟩
  simp [Chain.store, present]

theorem Chain.Holds.of_eq {s' : Chain} (h : s.Holds state) (same : s'.lordsPotState = s.lordsPotState) :
    s'.Holds state := by
  obtain ⟨account, present, long, eq⟩ := h
  exact ⟨account, same.trans present, long, eq⟩

@[simp] theorem Chain.store_tokens : (s.store data).tokens = s.tokens := rfl

@[simp] theorem Chain.store_purchases : (s.store data).purchases = s.purchases := rfl

@[simp] theorem Chain.store_amount {address : TokenAddress} :
    (s.store data).amount address = s.amount address := rfl

end Store

/-! ## The size of the account -/

/-- `initialize` opens the account at the current size, so `migrate_state` has nothing to do. -/
def Sized (s : Chain) : Prop := ∀ account, s.lordsPotState = some account → account.dataLen = STATE_SIZE

theorem Sized.not_legacy {s : Chain} (sized : Sized s) {account : StateAccount}
    (present : s.lordsPotState = some account) : account.dataLen ≠ LEGACY_STATE_SIZE := by
  rw [sized account present]
  decide

theorem Sized.store {s : Chain} {data : LordsPotState} (sized : Sized s) : Sized (s.store data) := by
  intro account present
  simp only [Chain.store, Option.map_eq_some_iff] at present
  obtain ⟨old, was, rfl⟩ := present
  exact sized old was

theorem Sized.of_eq {s s' : Chain} (sized : Sized s) (same : s'.lordsPotState = s.lordsPotState) :
    Sized s' := fun account present => sized account (same ▸ present)

theorem Sized.holds {s : Chain} (sized : Sized s) {account : StateAccount}
    (present : s.lordsPotState = some account) : s.Holds account.data :=
  ⟨account, present, (sized account present).ge, rfl⟩

theorem Sized.succeeds {s s' : Chain} {signers : List Pubkey} {ix : Instruction} (sized : Sized s)
    (h : Succeeds s signers ix s') : Sized s' := by
  cases h with
  | initializeState =>
    intro account present
    cases present
    rfl
  | migrated => exact sized
  | migrateState present legacy => exact absurd legacy (sized.not_legacy present)
  | setAdmin | setTreasuryAuthority | setRelayConfig | pauseProtocol | resumeProtocol
  | updateEpoch => exact sized.store
  | buyTicket | claimWinnings | withdrawVaultFunds => exact sized.of_eq rfl

theorem sized {s : Chain} (h : machine.Reachable s) : Sized s := by
  refine Machine.ReachableBy.invariant (fun s initial account present => ?_) ?_ h
  · rw [Initial.noState initial] at present
    cases present
  · intro s a s' sized _ hs
    obtain ⟨_, _, -, -, succeeds⟩ | ⟨same, -, -⟩ := step_cases hs
    · exact sized.succeeds succeeds
    · exact sized.of_eq same

end LordsPot.Program
