import LordsPot.Program.Authority

/-!
# A purchase

What `buy_ticket` has checked and moved when it succeeds, with all its amounts. It makes two
transfers, and an instruction that fails after the first leaves nothing of it.
-/

namespace LordsPot.Program

open Transition

/-- A `Vec` as Borsh reads it: the length is a u32, so `len() as u32` is the length. -/
structure BorshVec (α : Type) where
  items : List α
  length_lt : items.length < 2 ^ 32

/-! ## A ticket that passes its checks -/

/-- Five ascending normals within the bounds, and a bonus ball within its own. -/
structure Playable (state : LordsPotState) (ticket : Ticket) : Prop where
  five : ticket.normalBall.length = 5
  ascending : ticket.normalBall.Pairwise (· < ·)
  normals : ∀ ball ∈ ticket.normalBall, 1 ≤ ball ∧ ball ≤ state.normalMax
  bonus : 1 ≤ ticket.bonusBall ∧ ticket.bonusBall ≤ state.bonusMax

theorem pairwise_of_strictlySorted {balls : List Nat} (h : strictlySorted balls = true) :
    balls.Pairwise (· < ·) := by
  rw [← List.isChain_iff_pairwise]
  induction balls with
  | nil => exact .nil
  | cons ball balls ih =>
    cases balls with
    | nil => exact .singleton ball
    | cons next balls =>
      have both : (decide (ball < next) && strictlySorted (next :: balls)) = true := h
      rw [Bool.and_eq_true, decide_eq_true_eq] at both
      exact .cons_cons both.1 (ih both.2)

theorem playable_of_checkTicket {state : LordsPotState} {ticket : Ticket}
    (h : checkTicket state ticket = .ok ()) : Playable state ticket := by
  unfold checkTicket at h
  obtain ⟨five, h⟩ := of_require h
  obtain ⟨bonus, h⟩ := of_require h
  obtain ⟨normals, h⟩ := of_require h
  have sorted : strictlySorted ticket.normalBall = true := by
    unfold require at h
    split at h
    · assumption
    · cases h
  rw [Bool.and_eq_true, decide_eq_true_eq, decide_eq_true_eq] at bonus
  refine ⟨beq_iff_eq.1 five, pairwise_of_strictlySorted sorted, fun ball mem => ?_, bonus⟩
  have bounds := List.all_eq_true.1 normals ball mem
  rw [Bool.and_eq_true, decide_eq_true_eq, decide_eq_true_eq] at bounds
  exact bounds

theorem strictlySorted_of_pairwise {balls : List Nat} (h : balls.Pairwise (· < ·)) :
    strictlySorted balls = true := by
  induction balls with
  | nil => rfl
  | cons ball balls ih =>
    obtain ⟨first, rest⟩ := List.pairwise_cons.1 h
    cases balls with
    | nil => rfl
    | cons next balls =>
      show (decide (ball < next) && strictlySorted (next :: balls)) = true
      rw [ih rest, Bool.and_true, decide_eq_true_eq]
      exact first next List.mem_cons_self

/-- The checks of a ticket are exactly what makes it playable. -/
theorem checkTicket_iff {state : LordsPotState} {ticket : Ticket} :
    checkTicket state ticket = .ok () ↔ Playable state ticket := by
  refine ⟨playable_of_checkTicket, fun h => ?_⟩
  have normals : (ticket.normalBall.all fun ball => 0 < ball && ball ≤ state.normalMax) = true := by
    refine List.all_eq_true.2 fun ball mem => ?_
    rw [Bool.and_eq_true, decide_eq_true_eq, decide_eq_true_eq]
    exact h.normals ball mem
  have bonus : (0 < ticket.bonusBall && ticket.bonusBall ≤ state.bonusMax) = true := by
    rw [Bool.and_eq_true, decide_eq_true_eq, decide_eq_true_eq]
    exact h.bonus
  unfold checkTicket
  rw [beq_iff_eq.2 h.five, bonus, normals, strictlySorted_of_pairwise h.ascending]
  rfl

theorem playable_of_forM {state : LordsPotState} {tickets : List Ticket}
    (h : tickets.forM (checkTicket state) = .ok ()) : ∀ ticket ∈ tickets, Playable state ticket := by
  induction tickets with
  | nil => exact fun _ mem => by cases mem
  | cons ticket tickets ih =>
    rw [List.forM_eq_forM, List.forM_cons] at h
    obtain ⟨_, first, rest⟩ := of_bind h
    exact List.forall_mem_cons.2 ⟨playable_of_checkTicket first, ih rest⟩

theorem lt_of_checked {n m : Nat} (h : checked n = .ok m) : n < 2 ^ 64 := by
  unfold checked at h
  split at h
  · assumption
  · cases h

/-! ## The purchase -/

/-- What a purchase of `n` tickets that went through has checked, moved and emitted. -/
structure Bought (s s' : Chain) (signer : Pubkey) (buyer vault feeRecipient : TokenAddress)
    (tickets : List Ticket) (state : LordsPotState) (event : TicketPurchaseEvent) : Prop where
  unpaused : state.isLordsPotPaused = false
  some : 1 ≤ tickets.length
  few : tickets.length ≤ min state.maxTicketsPerPurchase HARD_MAX_TICKETS_PER_PURCHASE
  playable : ∀ ticket ∈ tickets, Playable state ticket
  priceFits : tickets.length * state.ticketPrice < 2 ^ 64
  feeFits : state.relayFeeBase + tickets.length * state.relayFeePerTicket < 2 ^ 64
  pays : s'.amount buyer + (tickets.length * state.ticketPrice + state.relayFeeBase +
    tickets.length * state.relayFeePerTicket) = s.amount buyer
  toVault : s'.amount vault = s.amount vault + tickets.length * state.ticketPrice
  toFeeRecipient : s'.amount feeRecipient = s.amount feeRecipient +
    (state.relayFeeBase + tickets.length * state.relayFeePerTicket)
  others : ∀ address, address ≠ buyer → address ≠ vault → address ≠ feeRecipient →
    s'.tokens address = s.tokens address
  stateKept : s'.lordsPotState = s.lordsPotState
  emitted : s'.purchases = s.purchases ++ [(event, state)]
  eventBuyer : event.buyer = signer
  amountPaid : event.amountPaid = tickets.length * state.ticketPrice
  ticketsBought : event.ticketsBought = tickets.length
  ticketsData : event.ticketsData = tickets
  epoch : event.epoch = state.ongoingEpoch

section

variable {s s' : Chain} {signers : List Pubkey} {signer usdcMint : Pubkey}
  {buyer vault feeRecipient : TokenAddress}

/-- The two transfers together. -/
theorem transfers_move {tokens paid tokens' : TokenAddress → Option TokenAccount} {total fee : Nat}
    (buyerVault : buyer ≠ vault) (buyerFee : buyer ≠ feeRecipient) (vaultFee : vault ≠ feeRecipient)
    (first : transferChecked tokens buyer vault usdcMint total = .ok paid)
    (second : (if 0 < fee then transferChecked paid buyer feeRecipient usdcMint fee else .ok paid) =
      .ok tokens') :
    balance tokens' buyer + (total + fee) = balance tokens buyer ∧
      balance tokens' vault = balance tokens vault + total ∧
      balance tokens' feeRecipient = balance tokens feeRecipient + fee ∧
      ∀ address, address ≠ buyer → address ≠ vault → address ≠ feeRecipient →
        tokens' address = tokens address := by
  obtain ⟨debit, credit, rest⟩ := transferChecked_moves buyerVault first
  have feeKept : balance paid feeRecipient = balance tokens feeRecipient := by
    rw [balance, balance, rest feeRecipient buyerFee.symm vaultFee.symm]
  split at second
  · obtain ⟨debit', credit', rest'⟩ := transferChecked_moves buyerFee second
    have vaultKept : balance tokens' vault = balance paid vault := by
      rw [balance, balance, rest' vault buyerVault.symm vaultFee]
    refine ⟨by omega, by omega, by omega, fun address b v f => ?_⟩
    rw [rest' address b f, rest address b v]
  · cases second
    exact ⟨by omega, credit, by omega, fun address b v _ => rest address b v⟩

/-- A purchase that succeeds. -/
theorem bought_of_execute (tickets : BorshVec Ticket) (buyerVault : buyer ≠ vault)
    (buyerFee : buyer ≠ feeRecipient) (vaultFee : vault ≠ feeRecipient)
    (h : execute s signers
      (.buyTicket signer buyer vault feeRecipient usdcMint tickets.items) = .ok s') :
    ∃ state event, s.Holds state ∧
      Bought s s' signer buyer vault feeRecipient tickets.items state event := by
  simp only [execute] at h
  obtain ⟨-, h⟩ := of_require h
  obtain ⟨state, holds, h⟩ := of_loadState h
  obtain ⟨-, h⟩ := of_loadTokens h
  obtain ⟨unpaused, h⟩ := of_require h
  obtain ⟨-, h⟩ := of_require h
  obtain ⟨-, h⟩ := of_require h
  obtain ⟨-, h⟩ := of_require h
  obtain ⟨-, h⟩ := of_require h
  obtain ⟨-, h⟩ := of_requireDistinct h
  obtain ⟨hardMax, h⟩ := of_require h
  obtain ⟨some, h⟩ := of_require h
  obtain ⟨max, h⟩ := of_require h
  obtain ⟨_, checks, h⟩ := of_bind h
  obtain ⟨totalAmount, total, h⟩ := of_bind h
  obtain ⟨ticketFee, perTicket, h⟩ := of_bind h
  obtain ⟨relayFee, fee, h⟩ := of_bind h
  obtain ⟨paid, first, h⟩ := of_bind h
  obtain ⟨tokens, second, rfl⟩ : ∃ tokens,
      (if 0 < relayFee then transferChecked paid buyer feeRecipient usdcMint relayFee
        else .ok paid) = .ok tokens ∧
      s' = { s with
        tokens := tokens
        purchases := s.purchases ++ [(⟨signer, totalAmount, tickets.items.length % 2 ^ 32,
          tickets.items, state.ongoingEpoch⟩, state)] } := by
    split at h
    · rename_i charged
      obtain ⟨tokens, second, h⟩ := of_bind h
      cases h
      exact ⟨tokens, (if_pos charged).trans second, rfl⟩
    · rename_i free
      cases h
      exact ⟨paid, if_neg free, rfl⟩
  have count : tickets.items.length % 2 ^ 32 = tickets.items.length := Nat.mod_eq_of_lt tickets.length_lt
  rw [count] at hardMax some max total perTicket
  rw [decide_eq_true_eq] at hardMax max
  have priceFits := lt_of_checked total
  have feeFits := lt_of_checked fee
  obtain rfl := of_checked total
  obtain rfl := of_checked perTicket
  obtain rfl := of_checked fee
  have swap := Nat.mul_comm state.relayFeePerTicket tickets.items.length
  obtain ⟨debit, toVault, toFee, others⟩ := transfers_move buyerVault buyerFee vaultFee first second
  refine ⟨state, _, holds, {
    unpaused := by simpa using unpaused
    some := Nat.pos_of_ne_zero (bne_iff_ne.1 some)
    few := Nat.le_min.2 ⟨max, hardMax⟩
    playable := playable_of_forM checks
    priceFits := priceFits
    feeFits := by omega
    pays := ?_
    toVault := toVault
    toFeeRecipient := ?_
    others := others
    stateKept := rfl
    emitted := rfl
    eventBuyer := rfl
    amountPaid := rfl
    ticketsBought := count
    ticketsData := rfl
    epoch := rfl }⟩
  · simp only [Chain.amount]
    omega
  · simp only [Chain.amount]
    omega

/-- **A purchase is all or nothing**: it fails and the chain is as it was, or it has checked every
ticket, moved exactly the price and the relay fee, and emitted what was paid for. -/
theorem buyTicket_atomic (tickets : BorshVec Ticket) (buyerVault : buyer ≠ vault)
    (buyerFee : buyer ≠ feeRecipient) (vaultFee : vault ≠ feeRecipient)
    (h : step s (.invoke signers
      (.buyTicket signer buyer vault feeRecipient usdcMint tickets.items)) = some s') :
    (∃ error, execute s signers (.buyTicket signer buyer vault feeRecipient usdcMint tickets.items) =
        .error error ∧ s' = s) ∨
      ∃ state event, s.Holds state ∧
        Bought s s' signer buyer vault feeRecipient tickets.items state event := by
  simp only [step] at h
  split at h
  · cases h
  · split at h
    · rename_i error failed
      cases h
      exact .inl ⟨error, failed, rfl⟩
    · rename_i executed
      cases h
      exact .inr (bought_of_execute tickets buyerVault buyerFee vaultFee executed)

end

/-- A program that sells tickets at 100, for a fee of 7 and 3 a ticket. -/
def selling : List Action :=
  [.invoke ["admin"] (.initializeState "admin" USDC_MINT_ADDRESS 30 10 100 1 7 3 "fees" 50 500
     "treasury"),
   .token (.associated "user" USDC_MINT_ADDRESS) (some ⟨USDC_MINT_ADDRESS, 1000⟩),
   .token (.associated "fees" USDC_MINT_ADDRESS) (some ⟨USDC_MINT_ADDRESS, 0⟩)]

/-- Two tickets for 213, of which 200 are in the vault. -/
theorem buyTicket_atomic_two : ∃ s s' : Chain, s'.amount vaultUsdc = s.amount vaultUsdc + 200 ∧
    ∃ state event, s.Holds state ∧ Bought s s' "user" (.associated "user" USDC_MINT_ADDRESS) vaultUsdc
      (.associated "fees" USDC_MINT_ADDRESS) [⟨[1, 2, 3, 4, 5], 1⟩, ⟨[6, 7, 8, 9, 30], 10⟩]
      state event := by
  obtain ⟨s, -, hp⟩ := Machine.exists_reachable_of_run (M := machine)
    (s := ⟨none, fun _ => none, []⟩) ⟨rfl, rfl, rfl⟩ selling
    (fun s => (step s (.invoke ["user"] (.buyTicket "user" (.associated "user" USDC_MINT_ADDRESS)
      vaultUsdc (.associated "fees" USDC_MINT_ADDRESS) USDC_MINT_ADDRESS
      [⟨[1, 2, 3, 4, 5], 1⟩, ⟨[6, 7, 8, 9, 30], 10⟩]))).any fun s' =>
        s'.amount vaultUsdc == s.amount vaultUsdc + 200) (by decide +kernel)
  rw [Option.any_eq_true] at hp
  obtain ⟨s', stepped, paid⟩ := hp
  rw [beq_iff_eq] at paid
  obtain ⟨_, _, rfl⟩ | bought := buyTicket_atomic
    ⟨[⟨[1, 2, 3, 4, 5], 1⟩, ⟨[6, 7, 8, 9, 30], 10⟩], by decide⟩ (by decide) (by decide) (by decide) stepped
  · omega
  · exact ⟨s, s', paid, bought⟩

end LordsPot.Program
