import LordsPot.Program.Succeeds

/-!
# One epoch, one set of rules

The ranges of the balls change only while the program is paused, and every resume raises the
epoch, so the purchases of one epoch were all checked against the same ranges. The invariant says
how the purchases so far stand to the state the program is in.
-/

namespace LordsPot.Program

open Transition

/-- What a purchase is checked against. -/
def LordsPotState.rules (state : LordsPotState) : Nat × Nat × Nat :=
  (state.normalMax, state.bonusMax, state.ticketPrice)

/-- A purchase was checked and charged by the state it is kept with. -/
structure CheckedAgainst (event : TicketPurchaseEvent) (state : LordsPotState) : Prop where
  epoch : event.epoch = state.ongoingEpoch
  tickets : event.ticketsData.forM (checkTicket state) = .ok ()
  charge : event.amountPaid = event.ticketsBought * state.ticketPrice

/-- The purchases so far and the state `state` of the program. -/
structure Covers (state : LordsPotState) (purchases : List (TicketPurchaseEvent × LordsPotState)) :
    Prop where
  past : ∀ p ∈ purchases, p.1.epoch ≤ state.ongoingEpoch
  price : ∀ p ∈ purchases, p.2.ticketPrice = state.ticketPrice
  /-- Purchases of the running epoch were checked against what a purchase now would be. -/
  running : state.isLordsPotPaused = false →
    ∀ p ∈ purchases, p.1.epoch = state.ongoingEpoch → p.2.rules = state.rules

structure EpochBook (s : Chain) : Prop where
  fresh : s.lordsPotState = none → s.purchases = []
  checked : ∀ p ∈ s.purchases, CheckedAgainst p.1 p.2
  ordered : s.purchases.Pairwise fun p q => p.1.epoch ≤ q.1.epoch
  alike : ∀ p ∈ s.purchases, ∀ q ∈ s.purchases, p.1.epoch = q.1.epoch → p.2.rules = q.2.rules
  covers : ∀ state, s.Holds state → Covers state s.purchases

section Covers

variable {state data : LordsPotState} {purchases : List (TicketPurchaseEvent × LordsPotState)}

/-- A change that keeps the epoch and the price, and the ranges unless it leaves the program
paused. -/
theorem Covers.same_epoch (h : Covers state purchases) (epoch : data.ongoingEpoch = state.ongoingEpoch)
    (price : data.ticketPrice = state.ticketPrice)
    (rules : data.isLordsPotPaused = false →
      state.isLordsPotPaused = false ∧ data.rules = state.rules) : Covers data purchases := by
  constructor
  · intro p hp
    rw [epoch]
    exact h.past p hp
  · intro p hp
    rw [price]
    exact h.price p hp
  · intro open? p hp running
    obtain ⟨was, same⟩ := rules open?
    rw [same]
    exact h.running was p hp (running.trans epoch)

/-- In a later epoch nothing has been bought yet. -/
theorem Covers.later (h : Covers state purchases) (epoch : state.ongoingEpoch < data.ongoingEpoch)
    (price : data.ticketPrice = state.ticketPrice) : Covers data purchases := by
  constructor
  · intro p hp
    have := h.past p hp
    omega
  · intro p hp
    rw [price]
    exact h.price p hp
  · intro _ p hp running
    have := h.past p hp
    omega

theorem Covers.append (h : Covers state purchases) {event : TicketPurchaseEvent}
    (epoch : event.epoch = state.ongoingEpoch) : Covers state (purchases ++ [(event, state)]) := by
  constructor
  · intro p hp
    rcases List.mem_append.1 hp with old | new
    · exact h.past p old
    · rw [List.mem_singleton.1 new]
      exact epoch.le
  · intro p hp
    rcases List.mem_append.1 hp with old | new
    · exact h.price p old
    · rw [List.mem_singleton.1 new]
  · intro unpaused p hp running
    rcases List.mem_append.1 hp with old | new
    · exact h.running unpaused p old running
    · rw [List.mem_singleton.1 new]

end Covers

section Steps

variable {s s' : Chain} {state data : LordsPotState}

theorem EpochBook.of_eq (book : EpochBook s) (account : s'.lordsPotState = s.lordsPotState)
    (purchases : s'.purchases = s.purchases) : EpochBook s' := by
  constructor
  · rw [account, purchases]
    exact book.fresh
  · rw [purchases]
    exact book.checked
  · rw [purchases]
    exact book.ordered
  · rw [purchases]
    exact book.alike
  · intro state holds
    rw [purchases]
    exact book.covers state (holds.of_eq account.symm)

theorem EpochBook.store (book : EpochBook s) (holds : s.Holds state)
    (covers : Covers state s.purchases → Covers data s.purchases) : EpochBook (s.store data) := by
  refine ⟨?_, book.checked, book.ordered, book.alike, ?_⟩
  · intro absent
    refine book.fresh ?_
    simpa [Chain.store] using absent
  · intro state' holds'
    rw [holds'.unique (holds.store)]
    exact covers (book.covers state holds)

/-- A purchase comes after the others and is checked as those of its epoch were. -/
theorem EpochBook.buy (book : EpochBook s) (holds : s.Holds state)
    (unpaused : state.isLordsPotPaused = false) {event : TicketPurchaseEvent}
    (checked : CheckedAgainst event state) {tokens : TokenAddress → Option TokenAccount} :
    EpochBook { s with tokens := tokens, purchases := s.purchases ++ [(event, state)] } := by
  have covers := book.covers state holds
  constructor
  · exact fun absent => absurd absent holds.ne_none
  · intro p hp
    rcases List.mem_append.1 hp with old | new
    · exact book.checked p old
    · rw [List.mem_singleton.1 new]
      exact checked
  · refine List.pairwise_append.2 ⟨book.ordered, List.pairwise_singleton .., ?_⟩
    intro p old q new
    rw [List.mem_singleton.1 new, checked.epoch]
    exact covers.past p old
  · intro p hp q hq same
    rcases List.mem_append.1 hp with oldP | newP <;> rcases List.mem_append.1 hq with oldQ | newQ
    · exact book.alike p oldP q oldQ same
    · rw [List.mem_singleton.1 newQ] at same ⊢
      exact covers.running unpaused p oldP (same.trans checked.epoch)
    · rw [List.mem_singleton.1 newP] at same ⊢
      exact (covers.running unpaused q oldQ (same.symm.trans checked.epoch)).symm
    · rw [List.mem_singleton.1 newP, List.mem_singleton.1 newQ]
  · intro state' holds'
    rw [holds'.unique (holds.of_eq rfl)]
    exact covers.append checked.epoch

theorem EpochBook.succeeds {signers : List Pubkey} {ix : Instruction} (book : EpochBook s)
    (sized : Sized s) (h : Succeeds s signers ix s') : EpochBook s' := by
  cases h with
  | initializeState fresh =>
    have empty := book.fresh fresh
    constructor <;> simp [empty]
    exact fun _ _ => by constructor <;> simp
  | migrated => exact book
  | migrateState present legacy => exact absurd legacy (sized.not_legacy present)
  | setAdmin holds | setTreasuryAuthority holds | setRelayConfig holds =>
    exact book.store holds fun covers => covers.same_epoch rfl rfl fun unpaused => ⟨unpaused, rfl⟩
  | pauseProtocol holds =>
    refine book.store holds fun covers => covers.same_epoch rfl rfl fun unpaused => ?_
    cases unpaused
  | resumeProtocol holds _ _ later =>
    exact book.store holds fun covers => covers.later later rfl
  | updateEpoch holds _ paused =>
    refine book.store holds fun covers => covers.same_epoch rfl rfl fun unpaused => ?_
    simp only [paused] at unpaused
    cases unpaused
  | buyTicket holds _ unpaused paid =>
    exact book.buy holds unpaused ⟨paid.epoch, paid.checks, paid.price⟩
  | claimWinnings | withdrawVaultFunds => exact book.of_eq rfl rfl

theorem epochBook (h : machine.Reachable s) : EpochBook s := by
  refine (Machine.ReachableBy.invariant (M := machine) (I := fun s => Sized s ∧ EpochBook s)
    ?_ ?_ h).2
  · intro s initial
    have closed : s.lordsPotState = none := Initial.noState initial
    have empty : s.purchases = [] := Initial.noPurchases initial
    refine ⟨fun account present => ?_, ?_⟩
    · rw [closed] at present
      cases present
    · refine ⟨fun _ => empty, ?_, ?_, ?_, fun state holds => absurd closed holds.ne_none⟩ <;>
        simp [empty]
  · intro s a s' ⟨sized, book⟩ _ hs
    obtain ⟨_, _, -, -, succeeds⟩ | ⟨account, purchases, -⟩ := step_cases hs
    · exact ⟨sized.succeeds succeeds, book.succeeds sized succeeds⟩
    · exact ⟨sized.of_eq account, book.of_eq account purchases⟩

/-- The epoch moves by a resume only, and then forward. -/
theorem epoch_step {a : Action} (sized : Sized s) (holds : s.Holds state)
    (hs : machine.step s a = some s') :
    ∃ state', s'.Holds state' ∧ (state'.ongoingEpoch = state.ongoingEpoch ∨
      ∃ signers admin, a = .invoke signers (.resumeProtocol admin state'.ongoingEpoch) ∧
        state.ongoingEpoch < state'.ongoingEpoch) := by
  obtain ⟨signers, ix, rfl, -, succeeds⟩ | ⟨same, -, -⟩ := step_cases hs
  · cases succeeds with
    | initializeState fresh => exact absurd fresh holds.ne_none
    | migrated => exact ⟨state, holds, .inl rfl⟩
    | migrateState present legacy => exact absurd legacy (sized.not_legacy present)
    | resumeProtocol holds' _ _ later =>
      cases holds.unique holds'
      exact ⟨_, holds.store, .inr ⟨signers, state.admin, rfl, later⟩⟩
    | setAdmin holds' | setTreasuryAuthority holds' | setRelayConfig holds' | pauseProtocol holds'
    | updateEpoch holds' =>
      cases holds.unique holds'
      exact ⟨_, holds.store, .inl rfl⟩
    | buyTicket | claimWinnings | withdrawVaultFunds => exact ⟨state, holds.of_eq rfl, .inl rfl⟩
  · exact ⟨state, holds.of_eq same, .inl rfl⟩

theorem epoch_resume {signers : List Pubkey} {admin : Pubkey} {nextEpoch : Nat}
    (holds : s.Holds state) (h : execute s signers (.resumeProtocol admin nextEpoch) = .ok s') :
    ∃ state', s'.Holds state' ∧ state.ongoingEpoch < state'.ongoingEpoch := by
  cases execute_succeeds h with
  | resumeProtocol holds' _ _ later =>
    cases holds.unique holds'
    exact ⟨_, holds.store, later⟩

end Steps

/-- **One epoch, one set of rules**, in every state the program can be in: purchases come in the
order of their epochs; the epoch changes by a resume only and rises at each; and the purchases of
one epoch were checked against the same ranges and charged the same price. -/
theorem one_rule_set {s : Chain} (h : machine.Reachable s) :
    (s.purchases.Pairwise fun p q => p.1.epoch ≤ q.1.epoch) ∧
    (∀ state, s.Holds state →
      (∀ a s', machine.step s a = some s' → ∃ state', s'.Holds state' ∧
        (state'.ongoingEpoch = state.ongoingEpoch ∨
          ∃ signers admin, a = .invoke signers (.resumeProtocol admin state'.ongoingEpoch) ∧
            state.ongoingEpoch < state'.ongoingEpoch)) ∧
      ∀ signers admin nextEpoch s', execute s signers (.resumeProtocol admin nextEpoch) = .ok s' →
        ∃ state', s'.Holds state' ∧ state.ongoingEpoch < state'.ongoingEpoch) ∧
    (∀ p ∈ s.purchases, CheckedAgainst p.1 p.2) ∧
    ∀ p ∈ s.purchases, ∀ q ∈ s.purchases, p.1.epoch = q.1.epoch →
      p.2.normalMax = q.2.normalMax ∧ p.2.bonusMax = q.2.bonusMax ∧
        p.2.ticketPrice = q.2.ticketPrice := by
  have book := epochBook h
  refine ⟨book.ordered, fun state holds => ⟨?_, ?_⟩, book.checked, ?_⟩
  · intro a s' hs
    exact epoch_step (sized h) holds hs
  · intro signers admin nextEpoch s' ran
    exact epoch_resume holds ran
  · intro p hp q hq same
    simpa [LordsPotState.rules] using book.alike p hp q hq same

/-- Two purchases of epoch 1, new ranges and epoch 2, and a purchase of epoch 2. -/
def acrossEpochs : List Action :=
  let buy (balls : List Nat) : Action := .invoke ["user"] (.buyTicket "user"
    (.associated "user" USDC_MINT_ADDRESS) vaultUsdc (.associated "fees" USDC_MINT_ADDRESS)
    USDC_MINT_ADDRESS [⟨balls, 1⟩])
  [.invoke ["admin"] (.initializeState "admin" USDC_MINT_ADDRESS 30 10 100 1 5 5 "fees" 50 500
     "treasury"),
   .token (.associated "user" USDC_MINT_ADDRESS) (some ⟨USDC_MINT_ADDRESS, 1000⟩),
   .token (.associated "fees" USDC_MINT_ADDRESS) (some ⟨USDC_MINT_ADDRESS, 0⟩),
   buy [1, 2, 3, 4, 5], buy [1, 2, 3, 4, 30], buy [1, 2, 3, 4, 35],
   .invoke ["admin"] (.pauseProtocol "admin"), .invoke ["admin"] (.updateEpoch "admin" 35 10),
   .invoke ["admin"] (.resumeProtocol "admin" 1), .invoke ["admin"] (.resumeProtocol "admin" 2),
   buy [1, 2, 3, 4, 35]]

theorem one_rule_set_twice : ∃ (s : Chain), (s.purchases.map (·.1.epoch)) = [1, 1, 2] ∧
    s.purchases.map (·.2.normalMax) = [30, 30, 35] ∧
    ∀ p ∈ s.purchases, ∀ q ∈ s.purchases, p.1.epoch = q.1.epoch → p.2.normalMax = q.2.normalMax := by
  obtain ⟨s, hs, hp⟩ := Machine.exists_reachable_of_run (M := machine)
    (s := ⟨none, fun _ => none, []⟩) ⟨rfl, rfl, rfl⟩ acrossEpochs
    (fun s => (s.purchases.map (·.1.epoch)) == [1, 1, 2] &&
      s.purchases.map (·.2.normalMax) == [30, 30, 35]) (by decide +kernel)
  simp only [Bool.and_eq_true, beq_iff_eq] at hp
  exact ⟨s, hp.1, hp.2, fun p hp q hq same => ((one_rule_set hs).2.2.2 p hp q hq same).1⟩

end LordsPot.Program
