import LordsPot.Frontend.Purchase
import LordsPot.Library.Double
import LordsPot.Program.Purchase

/-!
# What the page quotes

`calculateRelayFee` and the total that the Home page compares with the balance of the buyer. The fee is
computed in doubles and the rest in `bigint`. The number of instructions is an exact ceiling: a ticket
count is below 2^32, and the double nearest to a quotient by 65 is then on the same side of every whole
number.

The program charges every instruction for itself (`charge`), and the charges add up to the quote as
long as the fee is a double.
-/

namespace LordsPot.Frontend

open Program Transition Double

/-- `RELAY_FEE_BASE_USDC` and `RELAY_FEE_PER_TICKET_USDC`. -/
structure RelayFee where
  base : Nat
  perTicket : Nat
  deriving Repr, DecidableEq

/-- `Math.ceil(ticketCount / TICKET_RULES.MAX_TICKETS_PER_IX)`. -/
def instructionCount (ticketCount : Nat) : Nat :=
  (ticketCount + TICKET_RULES.MAX_TICKETS_PER_IX - 1) / TICKET_RULES.MAX_TICKETS_PER_IX

def calculateRelayFee (fee : RelayFee) (ticketCount : Nat) : Nat :=
  if ticketCount ≤ 0 then 0
  else
    let instructions := instructionCount ticketCount
    double (double (fee.base * instructions) + double (fee.perTicket * ticketCount))

namespace Home

def totalCostUnits (fee : RelayFee) (home : Home) : Nat :=
  home.stagedTickets.length * home.onChain.elim 1000000 (·.ticketPriceUsdc) +
    calculateRelayFee fee home.stagedTickets.length

def cannotAfford (fee : RelayFee) (home : Home) : Bool :=
  home.usdcBalance.any fun balance =>
    0 < home.stagedTickets.length && balance < home.totalCostUnits fee

end Home

/-! ## What the program charges -/

/-- The tickets of an instruction. -/
def ticketsData : Instruction → List Program.Ticket
  | .buyTicket _ _ _ _ _ tickets => tickets
  | _ => []

/-- `total_amount` and `relay_fee` of `buy_ticket`. -/
def charge (state : LordsPotState) (ix : Instruction) : Nat :=
  (ticketsData ix).length * state.ticketPrice +
    (state.relayFeePerTicket * (ticketsData ix).length + state.relayFeeBase)

/-- The parts of the fee and their sum are doubles. -/
structure RelayFee.Exact (fee : RelayFee) (ticketCount : Nat) : Prop where
  base : double (fee.base * instructionCount ticketCount) = fee.base * instructionCount ticketCount
  perTicket : double (fee.perTicket * ticketCount) = fee.perTicket * ticketCount
  sum : double (fee.base * instructionCount ticketCount + fee.perTicket * ticketCount) =
    fee.base * instructionCount ticketCount + fee.perTicket * ticketCount

section Charge

variable {coder : Coder} {isOnCurve : Pubkey → Bool} {mint buyer feeRecipient : Pubkey}
  {state : LordsPotState} {fee : RelayFee} {tickets : List StagedTicket}
  {txs : List (List Instruction)} {ticketCount : Nat}

/-- A fee of at most 2^53 base units is a double. -/
theorem exact_of_le
    (h : fee.base * instructionCount ticketCount + fee.perTicket * ticketCount ≤ 2 ^ 53) :
    fee.Exact ticketCount where
  base := double_of_le (by omega)
  perTicket := double_of_le (by omega)
  sum := double_of_le h

theorem calculateRelayFee_exact (exactly : fee.Exact ticketCount) :
    calculateRelayFee fee ticketCount =
      fee.base * instructionCount ticketCount + fee.perTicket * ticketCount := by
  unfold calculateRelayFee
  split
  · rename_i none
    obtain rfl := Nat.le_zero.1 none
    rfl
  · simp only [exactly.base, exactly.perTicket, exactly.sum]

theorem length_of_mapM {α β : Type} {f : α → Option β} {xs : List α} {ys : List β}
    (h : xs.mapM f = some ys) : ys.length = xs.length := by
  have same := congrArg List.length (Table.map_of_mapM h)
  rwa [List.length_map, List.length_map, eq_comm] at same

/-- The tickets are sent in order. -/
theorem formatted_of_sent {slices : List (List StagedTicket)}
    (h : List.Forall₂ (Sent coder mint buyer feeRecipient) slices txs) :
    slices.flatten.mapM (formatTicket coder) = some (txs.flatten.map ticketsData).flatten := by
  induction h with
  | nil => rfl
  | cons first _ ih =>
    obtain ⟨formatted, written, rfl⟩ := first
    rw [List.flatten_cons, List.mapM_append, written, ih]
    rfl

theorem ticketsData_of_sent {slices : List (List StagedTicket)}
    (h : List.Forall₂ (Sent coder mint buyer feeRecipient) slices txs) :
    txs.flatten.map (fun ix => (ticketsData ix).length) = slices.map List.length := by
  induction h with
  | nil => rfl
  | cons first _ ih =>
    obtain ⟨formatted, written, rfl⟩ := first
    rw [List.flatten_cons, List.map_append, ih, List.map_cons, List.map_cons, ← length_of_mapM written]
    rfl

/-- The charges of all the instructions. -/
theorem sum_charge (h : buyTickets coder isOnCurve mint buyer tickets feeRecipient = .ok txs) :
    (txs.flatten.map (charge state)).sum = tickets.length * state.ticketPrice +
      (state.relayFeeBase * instructionCount tickets.length +
        state.relayFeePerTicket * tickets.length) := by
  have lengths := ticketsData_of_sent (sent_of_buyTickets h)
  have charges : txs.flatten.map (charge state) = (Slices.slices 65 tickets).map fun slice =>
      slice.length * (state.ticketPrice + state.relayFeePerTicket) + state.relayFeeBase := by
    have each := congrArg (List.map fun n =>
      n * (state.ticketPrice + state.relayFeePerTicket) + state.relayFeeBase) lengths
    rw [List.map_map, List.map_map] at each
    refine Eq.trans (List.map_congr_left fun ix _ => ?_) each
    simp only [charge, Function.comp_apply]
    ring
  rw [charges, Slices.sum_slices (by decide), Slices.length_slices]
  show _ = tickets.length * state.ticketPrice +
    (state.relayFeeBase * ((tickets.length + 65 - 1) / 65) + state.relayFeePerTicket * tickets.length)
  ring

/-- What an instruction takes from its buyer when it succeeds. -/
theorem pays_charge {s s' : Chain} {signers : List Pubkey} {slice : List StagedTicket}
    {tx : List Instruction} {ix : Instruction} (mem : ix ∈ tx)
    (sent : Sent coder mint buyer feeRecipient slice tx) (few : slice.length ≤ 65)
    (buyerVault : buyer ≠ vaultAuthority) (buyerFee : buyer ≠ feeRecipient)
    (vaultFee : vaultAuthority ≠ feeRecipient) (holds : s.Holds state)
    (h : execute s signers ix = .ok s') :
    s'.Holds state ∧ s'.amount (.associated buyer mint) + charge state ix =
      s.amount (.associated buyer mint) := by
  obtain ⟨formatted, written, rfl⟩ := sent
  obtain rfl := List.mem_singleton.1 mem
  have length := length_of_mapM written
  have apart : ∀ {a b : Pubkey}, a ≠ b → TokenAddress.associated a mint ≠ .associated b mint :=
    fun differ same => differ (TokenAddress.associated.inj same).1
  obtain ⟨state', event, holds', bought⟩ := bought_of_execute ⟨formatted, by omega⟩
    (apart buyerVault) (apart buyerFee) (apart vaultFee) h
  obtain rfl := holds.unique holds'
  refine ⟨holds.of_eq bought.stateKept, ?_⟩
  have pays : s'.amount (.associated buyer mint) + (formatted.length * state.ticketPrice +
      state.relayFeeBase + formatted.length * state.relayFeePerTicket) =
      s.amount (.associated buyer mint) := bought.pays
  have charged : charge state (.buyTicket buyer (.associated buyer mint) (.associated vaultAuthority mint)
      (.associated feeRecipient mint) mint formatted) = formatted.length * state.ticketPrice +
      (state.relayFeePerTicket * formatted.length + state.relayFeeBase) := rfl
  rw [charged, Nat.mul_comm state.relayFeePerTicket]
  omega

/-- **The charges are what is paid**: if all the instructions succeed, one after the other, the
balance of the buyer falls by their charges. -/
theorem paid_of_execute {s s' : Chain} {signers : List Pubkey}
    (built : buyTickets coder isOnCurve mint buyer tickets feeRecipient = .ok txs)
    (buyerVault : buyer ≠ vaultAuthority) (buyerFee : buyer ≠ feeRecipient)
    (vaultFee : vaultAuthority ≠ feeRecipient) (holds : s.Holds state)
    (h : txs.flatten.foldlM (fun s ix => execute s signers ix) s = .ok s') :
    s'.amount (.associated buyer mint) + (txs.flatten.map (charge state)).sum =
      s.amount (.associated buyer mint) := by
  have each : ∀ ix ∈ txs.flatten, ∃ slice tx, ix ∈ tx ∧ slice.length ≤ 65 ∧
      Sent coder mint buyer feeRecipient slice tx := by
    intro ix mem
    obtain ⟨tx, sent, inside⟩ := List.mem_flatten.1 mem
    obtain ⟨slice, cut, made⟩ := Table.exists_of_forall₂_right (sent_of_buyTickets built) sent
    exact ⟨slice, tx, inside, (Slices.length_of_mem_slices (by decide) cut).2, made⟩
  revert each
  generalize txs.flatten = ixs at h ⊢
  intro each
  induction ixs generalizing s with
  | nil =>
    cases h
    rfl
  | cons ix ixs ih =>
    rw [List.foldlM_cons] at h
    obtain ⟨next, executed, h⟩ := of_bind h
    obtain ⟨slice, tx, inside, few, sent⟩ := each ix List.mem_cons_self
    obtain ⟨holds', paid⟩ := pays_charge inside sent few buyerVault buyerFee vaultFee holds executed
    have later := ih holds' h fun ix mem => each ix (List.mem_cons_of_mem _ mem)
    rw [List.map_cons, List.sum_cons]
    omega

end Charge

/-- **The quote is the charge**: the instructions partition the tickets in order into chunks of 1 to
65, and what the program charges for them is the total that the page compares with the balance, where
the parts of the relay fee and their sum are doubles. -/
theorem charged_eq_quoted (coder : Coder) (isOnCurve : Pubkey → Bool) (mint buyer feeRecipient : Pubkey)
    (state : LordsPotState) (fee : RelayFee) (tickets : List StagedTicket)
    (txs : List (List Instruction)) (base : fee.base = state.relayFeeBase)
    (perTicket : fee.perTicket = state.relayFeePerTicket) (max : 65 ≤ state.maxTicketsPerPurchase)
    (built : buyTickets coder isOnCurve mint buyer tickets feeRecipient = .ok txs)
    (exactly : fee.Exact tickets.length) :
    tickets.mapM (formatTicket coder) = some (txs.flatten.map ticketsData).flatten ∧
    (∀ ix ∈ txs.flatten, 1 ≤ (ticketsData ix).length ∧ (ticketsData ix).length ≤ 65 ∧
      (ticketsData ix).length ≤ min state.maxTicketsPerPurchase HARD_MAX_TICKETS_PER_PURCHASE) ∧
    (txs.flatten.map (charge state)).sum =
      tickets.length * state.ticketPrice + calculateRelayFee fee tickets.length ∧
    ∀ (s : Chain) (home : Home) (onChain : LordsPotOnChainState), s.Holds state →
      fetchOnChainState coder s = some onChain → home.onChain = some onChain →
      home.stagedTickets = tickets →
      home.totalCostUnits fee = (txs.flatten.map (charge state)).sum := by
  have sent := sent_of_buyTickets built
  have sum : (txs.flatten.map (charge state)).sum =
      tickets.length * state.ticketPrice + calculateRelayFee fee tickets.length := by
    rw [sum_charge built, calculateRelayFee_exact exactly, base, perTicket]
  refine ⟨?_, fun ix mem => ?_, sum, fun s home onChain holds fetched loaded staged => ?_⟩
  · have order := formatted_of_sent sent
    rwa [Slices.flatten_slices (by decide)] at order
  · have length := List.mem_map_of_mem (f := fun ix => (ticketsData ix).length) mem
    rw [ticketsData_of_sent sent] at length
    obtain ⟨slice, cut, same⟩ := List.mem_map.1 length
    have bounds := Slices.length_of_mem_slices (by decide) cut
    simp only [HARD_MAX_TICKETS_PER_PURCHASE]
    omega
  · rw [sum, Home.totalCostUnits, staged, loaded]
    show _ * onChain.ticketPriceUsdc + _ = _
    rw [(eq_of_fetch holds fetched).2]

/-- Three tickets at the largest odd fee that is a double. -/
def threeTickets : List StagedTicket := List.replicate 3 ⟨[1, 2, 3, 4, 5], some 1, false⟩

def threeSent : List (List Instruction) :=
  [[.buyTicket "user" (.associated "user" USDC_MINT_ADDRESS) vaultUsdc
    (.associated "admin" USDC_MINT_ADDRESS) USDC_MINT_ADDRESS (List.replicate 3 ⟨[1, 2, 3, 4, 5], 1⟩)]]

theorem buyTickets_three :
    buyTickets coder (fun _ => true) USDC_MINT_ADDRESS "user" threeTickets "admin" = .ok threeSent := by
  decide +kernel

/-- Three times the fee is no double, and the quote is one less than the charge. -/
theorem misquoted : ¬ ∀ (coder : Coder) (isOnCurve : Pubkey → Bool) (mint buyer feeRecipient : Pubkey)
    (state : LordsPotState) (fee : RelayFee) (tickets : List StagedTicket)
    (txs : List (List Instruction)), fee.base = state.relayFeeBase →
    fee.perTicket = state.relayFeePerTicket → double fee.base = fee.base →
    double fee.perTicket = fee.perTicket → 65 ≤ state.maxTicketsPerPurchase →
    buyTickets coder isOnCurve mint buyer tickets feeRecipient = .ok txs →
    tickets.mapM (formatTicket coder) = some (txs.flatten.map ticketsData).flatten ∧
    (∀ ix ∈ txs.flatten, 1 ≤ (ticketsData ix).length ∧ (ticketsData ix).length ≤ 65) ∧
    (txs.flatten.map (charge state)).sum =
      tickets.length * state.ticketPrice + calculateRelayFee fee tickets.length := by
  intro all
  have quoted := (all coder (fun _ => true) USDC_MINT_ADDRESS "user" "admin"
    { thirtyTen with relayFeePerTicket := 2 ^ 53 - 1 } ⟨0, 2 ^ 53 - 1⟩ threeTickets threeSent rfl rfl
    (by decide +kernel) (by decide +kernel) (by decide) buyTickets_three).2.2
  exact absurd quoted (by decide +kernel)

/-- Three tickets without a fee, as deployed. -/
theorem charged_eq_quoted_three :
    (threeSent.flatten.map (charge thirtyTen)).sum = 3 * 1000000 + calculateRelayFee ⟨0, 0⟩ 3 :=
  (charged_eq_quoted coder (fun _ => true) USDC_MINT_ADDRESS "user" "admin" thirtyTen ⟨0, 0⟩
    threeTickets threeSent rfl rfl (by decide) buyTickets_three (exact_of_le (by decide))).2.2.1

end LordsPot.Frontend
