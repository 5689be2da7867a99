import Mathlib.Algebra.Order.Group.Nat
import LordsPot.Ingest.Buyers
import LordsPot.Ingest.Vouched
import LordsPot.Program.Epochs
import LordsPot.Program.Ledger

/-!
# The orders and the program

The backend beside the program it listens to. Transactions are executed on the chain, each as a whole,
and the RPC node answers of those that have been; deliveries may name anything. What is assumed is
that the logs of a transaction that went through hold the events its instructions emitted, which those
of a failed one may hold too.
-/

namespace LordsPot.OnSolana

open Transition Program

/-- A transaction the chain has executed, with the purchases that have come of it. -/
structure Tx where
  signature : Signature
  err : Bool
  purchases : List (TicketPurchaseEvent × LordsPotState)
  deriving DecidableEq

structure State where
  chain : Chain
  txs : List Tx := []
  ingest : Ingest.System := {}

def numbers (ticket : Program.Ticket) : Ingest.TicketData := ⟨ticket.bonusBall, ticket.normalBall⟩

/-- An event as the parser reads it, at the clock of its transaction. -/
def logged (timestamp : Nat) (event : TicketPurchaseEvent) : Ingest.PurchaseData where
  buyer := event.buyer
  amount_paid := event.amountPaid
  tickets_bought := event.ticketsBought
  tickets_data := event.ticketsData.map numbers
  timestamp := timestamp
  epoch := event.epoch

/-- The length of a vector is a u32. -/
def Instruction.encodable : Instruction → Bool
  | .buyTicket _ _ _ _ _ tickets => tickets.length < 2 ^ 32
  | _ => true

/-- The instructions of a transaction one after the other, of this program and of others; one that
fails takes all of them back. -/
def executeAll : Chain → List Program.Action → Option Chain
  | s, [] => some s
  | s, .invoke signers ix :: rest =>
      if signers.contains vaultAuthority || !Instruction.encodable ix then none
      else match execute s signers ix with
        | .ok s' => executeAll s' rest
        | .error _ => none
  | s, a :: rest => (Program.step s a).bind (executeAll · rest)

inductive Action where
  | transact (signature : Signature) (instructions : List Program.Action) (timestamp : Nat)
  | ingest (e : Ingest.Event)

/-- The transaction has been executed, and this is how it ended. -/
def ended (txs : List Tx) (signature : Signature) (err : Bool) : Bool :=
  txs.any fun tx => tx.signature == signature && tx.err == err

/-- The node answers of transactions that were executed, and says how they ended. -/
def answers (s : State) : Ingest.Event → Bool
  | .call i (.fetch answer err) _ => match s.ingest.runs[i]? with
    | some (.webhook signature .verifying) => answer == .null || ended s.txs signature err
    | _ => true
  | .poll (.arrive sig) => ended s.txs sig.signature sig.err
  | _ => true

section

variable (logs : Signature → List String) (parseLogs : List String → List Ingest.AnchorEvent)
  (keccak256 : String → Bytes32) (adminPublicKey : Wallet)

def step (s : State) : Action → Option State
  | .transact signature instructions timestamp =>
      if s.txs.any (·.signature == signature) then none
      else match executeAll s.chain instructions with
        | none => some { s with txs := s.txs ++ [⟨signature, true, []⟩] }
        | some chain =>
            let purchases := chain.purchases.drop s.chain.purchases.length
            if Ingest.purchasesOf logs parseLogs signature =
                purchases.map (fun p => logged timestamp p.1) then
              some { s with chain := chain, txs := s.txs ++ [⟨signature, false, purchases⟩] }
            else none
  | .ingest e =>
      if answers s e then
        (Ingest.System.step logs parseLogs keccak256 adminPublicKey s.ingest e).map fun ingest =>
          { s with ingest := ingest }
      else none

/-- Before `initialize`, and before the backend has heard of anything. -/
structure Initial (s : State) : Prop where
  chain : Program.Initial s.chain
  noTxs : s.txs = []
  ingest : Ingest.System.Initial s.ingest
  unborn : s.ingest.indexer.history = []

def machine : Machine State Action := ⟨Initial, step logs parseLogs keccak256 adminPublicKey⟩

end

/-! ## One transaction -/

section

variable {s s' : Chain} {actions : List Program.Action}

/-- The transaction is a run of the program. -/
theorem run_of_executeAll (h : executeAll s actions = some s') : Program.machine.run s actions = some s' := by
  induction actions generalizing s with
  | nil => exact h
  | cons a actions ih =>
    cases a with
    | invoke signers ix =>
      simp only [executeAll] at h
      split at h
      · cases h
      · rename_i unsigned
        rw [Bool.or_eq_true, not_or] at unsigned
        split at h
        · rename_i s₁ executed
          refine Machine.run_cons.2 ⟨s₁, ?_, ih h⟩
          simp only [Program.machine, Program.step, if_neg unsigned.1, executed]
        · cases h
    | token | deposit =>
      obtain ⟨s₁, stepped, h⟩ := Option.bind_eq_some_iff.1 h
      exact Machine.run_cons.2 ⟨s₁, stepped, ih h⟩

/-- A purchase counts its tickets. -/
def Counted (p : TicketPurchaseEvent × LordsPotState) : Prop := p.1.ticketsBought = p.1.ticketsData.length

theorem adds_of_execute {signers : List Pubkey} {ix : Instruction} (sized : Sized s)
    (encodable : Instruction.encodable ix = true) (h : execute s signers ix = .ok s') :
    ∃ added, s'.purchases = s.purchases ++ added ∧ ∀ p ∈ added, Counted p := by
  cases execute_succeeds h with
  | migrateState present legacy => exact absurd legacy (sized.not_legacy present)
  | buyTicket =>
    obtain ⟨-, state, event, data, charged⟩ := charged_of_execute h
    refine ⟨[(event, state)], charged.purchases, fun p hp => ?_⟩
    rw [List.mem_singleton.1 hp, Counted, charged.count, data]
    exact Nat.mod_eq_of_lt (of_decide_eq_true encodable)
  | _ => exact ⟨[], (List.append_nil _).symm, nofun⟩

/-- **The rule of transactions**: one that goes through adds purchases that count their tickets. -/
theorem adds_of_executeAll (sized : Sized s) (h : executeAll s actions = some s') :
    ∃ added, s'.purchases = s.purchases ++ added ∧ ∀ p ∈ added, Counted p := by
  induction actions generalizing s with
  | nil =>
    cases h
    exact ⟨[], (List.append_nil _).symm, nofun⟩
  | cons a actions ih =>
    have more : ∀ {s₁ : Chain}, Sized s₁ → (∃ added, s₁.purchases = s.purchases ++ added ∧
        ∀ p ∈ added, Counted p) → executeAll s₁ actions = some s' →
        ∃ added, s'.purchases = s.purchases ++ added ∧ ∀ p ∈ added, Counted p := by
      rintro s₁ sized ⟨first, before, counted⟩ h
      obtain ⟨rest, after, counted'⟩ := ih sized h
      exact ⟨first ++ rest, by rw [after, before, List.append_assoc],
        List.forall_mem_append.2 ⟨counted, counted'⟩⟩
    cases a with
    | invoke signers ix =>
      simp only [executeAll] at h
      split at h
      · cases h
      · rename_i allowed
        rw [Bool.or_eq_true, not_or, Bool.not_eq_true, Bool.not_eq_true, Bool.not_eq_false'] at allowed
        split at h
        · rename_i s₁ executed
          exact more (sized.succeeds (execute_succeeds executed))
            (adds_of_execute sized allowed.2 executed) h
        · cases h
    | token | deposit =>
      obtain ⟨s₁, stepped, h⟩ := Option.bind_eq_some_iff.1 h
      obtain ⟨_, _, is, -⟩ | ⟨account, purchases, -⟩ := step_cases stepped
      · cases is
      · exact more (sized.of_eq account) ⟨[], by rw [purchases, List.append_nil], nofun⟩ h

end

/-! ## The system -/

/-- The transaction of this signature went through. -/
def Succeeded (txs : List Tx) (signature : Signature) : Prop :=
  ∃ tx ∈ txs, tx.signature = signature ∧ tx.err = false

section

variable (logs : Signature → List String) (parseLogs : List String → List Ingest.AnchorEvent)
  (keccak256 : String → Bytes32) (adminPublicKey : Wallet)

structure Backed (s : State) : Prop where
  chain : Program.machine.Reachable s.chain
  ingest : (Ingest.System.machine logs parseLogs keccak256 adminPublicKey).Reachable s.ingest
  vouched : Ingest.Vouched (Succeeded s.txs) s.ingest
  signatures : (s.txs.map (·.signature)).Nodup
  purchases : s.chain.purchases = s.txs.flatMap (·.purchases)
  counted : ∀ p ∈ s.chain.purchases, Counted p
  logged : ∀ tx ∈ s.txs, tx.err = false → ∃ timestamp, Ingest.purchasesOf logs parseLogs tx.signature =
    tx.purchases.map fun p => logged timestamp p.1

end

section

variable {logs : Signature → List String} {parseLogs : List String → List Ingest.AnchorEvent}
  {keccak256 : String → Bytes32} {adminPublicKey : Wallet} {s s' : State}

/-- What a transaction comes to. -/
theorem transact_cases {signature : Signature} {instructions : List Program.Action} {timestamp : Nat}
    (hs : step logs parseLogs keccak256 adminPublicKey s (.transact signature instructions timestamp) = some s') :
    signature ∉ s.txs.map (·.signature) ∧
      ((executeAll s.chain instructions = none ∧ s' = { s with txs := s.txs ++ [⟨signature, true, []⟩] }) ∨
        ∃ chain purchases, executeAll s.chain instructions = some chain ∧
          s' = { s with chain := chain, txs := s.txs ++ [⟨signature, false, purchases⟩] }) := by
  simp only [step] at hs
  split at hs
  · cases hs
  · rename_i fresh
    refine ⟨by simpa using fresh, ?_⟩
    split at hs
    · rename_i failed
      cases hs
      exact .inl ⟨failed, rfl⟩
    · rename_i chain executed
      split at hs <;> cases hs
      exact .inr ⟨chain, _, executed, rfl⟩

/-- A step of ingestion leaves the chain alone. -/
theorem ingest_cases {e : Ingest.Event}
    (hs : step logs parseLogs keccak256 adminPublicKey s (.ingest e) = some s') :
    ∃ ingest, answers s e = true ∧
      Ingest.System.step logs parseLogs keccak256 adminPublicKey s.ingest e = some ingest ∧
      s' = { s with ingest := ingest } := by
  simp only [step] at hs
  split at hs
  · rename_i answered
    obtain ⟨ingest, stepped, rfl⟩ := Option.map_eq_some_iff.1 hs
    exact ⟨ingest, answered, stepped, rfl⟩
  · cases hs

theorem Succeeded.append {txs more : List Tx} {signature : Signature} (h : Succeeded txs signature) :
    Succeeded (txs ++ more) signature := by
  obtain ⟨tx, mem, is⟩ := h
  exact ⟨tx, List.mem_append_left _ mem, is⟩

theorem candid_of_answers {e : Ingest.Event} (h : answers s e = true) :
    Ingest.Candid (Succeeded s.txs) s.ingest e := by
  have succeeded : ∀ {signature err}, ended s.txs signature err = true → err = false →
      Succeeded s.txs signature := by
    intro signature err told fine
    obtain ⟨tx, mem, is⟩ := List.any_eq_true.1 told
    rw [Bool.and_eq_true, beq_iff_eq, beq_iff_eq] at is
    exact ⟨tx, mem, is.1, is.2.trans fine⟩
  unfold Ingest.Candid
  split
  · intro signature here known fine
    simp only [answers, here, Bool.or_eq_true, beq_iff_eq] at h
    exact succeeded (h.resolve_left known) fine
  · exact succeeded h
  · trivial

/-- A new transaction, with the purchases it adds to the chain. -/
theorem Backed.transact (h : Backed logs parseLogs keccak256 adminPublicKey s) (tx : Tx) {chain : Chain}
    (fresh : tx.signature ∉ s.txs.map (·.signature)) (reached : Program.machine.Reachable chain)
    (purchases : chain.purchases = s.chain.purchases ++ tx.purchases)
    (counted : ∀ p ∈ tx.purchases, Counted p)
    (told : tx.err = false → ∃ timestamp, Ingest.purchasesOf logs parseLogs tx.signature =
      tx.purchases.map fun p => OnSolana.logged timestamp p.1) :
    Backed logs parseLogs keccak256 adminPublicKey { s with chain := chain, txs := s.txs ++ [tx] } where
  chain := reached
  ingest := h.ingest
  vouched := h.vouched.mono fun _ => Succeeded.append
  signatures := Table.nodup_insert h.signatures fresh
  purchases := by
    rw [purchases, h.purchases, List.flatMap_append, List.flatMap_singleton]
  counted := by
    rw [purchases]
    exact List.forall_mem_append.2 ⟨h.counted, counted⟩
  logged tx' mem fine := by
    rcases List.mem_append.1 mem with old | new
    · exact h.logged tx' old fine
    · cases List.mem_singleton.1 new
      exact told fine

theorem Backed.step (h : Backed logs parseLogs keccak256 adminPublicKey s) {a : Action}
    (hs : step logs parseLogs keccak256 adminPublicKey s a = some s') :
    Backed logs parseLogs keccak256 adminPublicKey s' := by
  cases a with
  | transact signature instructions timestamp =>
    simp only [OnSolana.step] at hs
    split at hs
    · cases hs
    · rename_i fresh
      have fresh : signature ∉ s.txs.map (·.signature) := by simpa using fresh
      split at hs
      · cases hs
        exact h.transact ⟨signature, true, []⟩ fresh h.chain (List.append_nil _).symm nofun nofun
      · rename_i chain executed
        obtain ⟨added, purchases, counted⟩ := adds_of_executeAll (sized h.chain) executed
        rw [purchases, List.drop_left] at hs
        split at hs <;> cases hs
        rename_i told
        exact h.transact ⟨signature, false, added⟩ fresh
          (.run h.chain (run_of_executeAll executed)) purchases counted fun _ => ⟨timestamp, told⟩
  | ingest e =>
    obtain ⟨ingest, answered, stepped, rfl⟩ := ingest_cases hs
    exact ⟨h.chain, .next h.ingest trivial stepped, h.vouched.step (candid_of_answers answered) stepped,
      h.signatures, h.purchases, h.counted, h.logged⟩

theorem Backed.initial (hi : Initial s) : Backed logs parseLogs keccak256 adminPublicKey s where
  chain := .start hi.chain
  ingest := .start hi.ingest
  vouched := .initial hi.ingest hi.unborn
  signatures := by
    rw [hi.noTxs]
    exact List.nodup_nil
  purchases := by rw [hi.noTxs, hi.chain.noPurchases, List.flatMap_nil]
  counted := by
    rw [hi.chain.noPurchases]
    exact nofun
  logged := by
    rw [hi.noTxs]
    exact nofun

theorem backed_of_reachable (h : (machine logs parseLogs keccak256 adminPublicKey).Reachable s) :
    Backed logs parseLogs keccak256 adminPublicKey s :=
  Machine.ReachableBy.invariant (M := machine logs parseLogs keccak256 adminPublicKey)
    (I := Backed logs parseLogs keccak256 adminPublicKey) (fun _ hi => .initial hi)
    (fun _ _ _ inv _ hs => inv.step hs) h

end

/-! ## What an order stands for -/

/-- The price of the tickets of a purchase. -/
def price (p : TicketPurchaseEvent × LordsPotState) : Nat := p.1.ticketsData.length * p.2.ticketPrice

/-- The order is what this transaction has bought, for a buyer who has paid for it. -/
structure PaidFor (s : State) (o : RelayOrder) (tx : Tx) : Prop where
  executed : tx ∈ s.txs ∧ tx.signature = o.signature ∧ tx.err = false
  some : tx.purchases ≠ []
  emitted : tx.purchases ⊆ s.chain.purchases
  agreed : ∀ p ∈ tx.purchases, p.1.buyer = o.buyer ∧ p.1.epoch = o.purchaseEpoch
  tickets : (s.ingest.store.ticketsOf o.hash).map Ingest.ticketData =
    tx.purchases.flatMap fun p => p.1.ticketsData.map numbers
  playable : ∀ p ∈ tx.purchases, ∀ ticket ∈ p.1.ticketsData, Playable p.2 ticket
  amount : o.amountUsdc = (tx.purchases.map price).sum
  count : o.ticketCount = (s.ingest.store.ticketsOf o.hash).length

/-- A ticket of the order is in a purchase of its transaction, by the order's buyer. -/
theorem PaidFor.bought {s : State} {o : RelayOrder} {tx : Tx} (h : PaidFor s o tx) {t : Ticket}
    (ht : t ∈ s.ingest.store.db.tickets) (own : o.hash = t.orderHash) :
    ∃ p ∈ tx.purchases, p.1.buyer = o.buyer ∧ Ingest.ticketData t ∈ p.1.ticketsData.map numbers := by
  have row : t ∈ s.ingest.store.ticketsOf o.hash := List.mem_filter.2 ⟨ht, beq_iff_eq.2 own.symm⟩
  have data := List.mem_map_of_mem (f := Ingest.ticketData) row
  rw [h.tickets] at data
  obtain ⟨p, hp, data⟩ := List.mem_flatMap.1 data
  exact ⟨p, hp, (h.agreed p hp).1, data⟩

section

variable {p q : Ingest.Purchase} {ds : List Ingest.PurchaseData}

theorem epoch_of_mergeLoop (h : Ingest.mergeLoop p ds = .ok q) : q.epoch = p.epoch := by
  induction ds generalizing p with
  | nil =>
    cases h
    rfl
  | cons d ds ih =>
    rw [Ingest.mergeLoop] at h
    split at h
    · exact (ih h).trans rfl
    · cases h

/-- A merge that succeeds is of purchases of its buyer in its epoch, and of one at least. -/
theorem agreed_of_merged (h : Ingest.mergeEvents ds = .ok q) :
    ds ≠ [] ∧ ∀ d ∈ ds, d.buyer = q.buyer ∧ d.epoch = q.epoch := by
  unfold Ingest.mergeEvents at h
  split at h
  · cases h
  · obtain ⟨buyer, same⟩ := Ingest.mergeLoop_ok h
    refine ⟨List.cons_ne_nil _ _, fun d hd => ?_⟩
    exact ⟨(same d hd).1.trans buyer.symm, (same d hd).2.trans (epoch_of_mergeLoop h).symm⟩

end

section

variable {logs : Signature → List String} {parseLogs : List String → List Ingest.AnchorEvent}
  {keccak256 : String → Bytes32} {adminPublicKey : Wallet} {s s' : State}

theorem Backed.checked (h : Backed logs parseLogs keccak256 adminPublicKey s)
    {p : TicketPurchaseEvent × LordsPotState} (mem : p ∈ s.chain.purchases) :
    p.1.amountPaid = price p ∧ ∀ ticket ∈ p.1.ticketsData, Playable p.2 ticket := by
  have checked := (epochBook h.chain).checked p mem
  refine ⟨?_, playable_of_forM checked.tickets⟩
  rw [checked.charge, h.counted p mem, price]

/-- The rows of purchases are as many as the purchases count. -/
theorem length_of_data {rows : List Ticket} {purchases : List (TicketPurchaseEvent × LordsPotState)}
    (data : rows.map Ingest.ticketData = purchases.flatMap fun p => p.1.ticketsData.map numbers)
    (counted : ∀ p ∈ purchases, Counted p) :
    rows.length = (purchases.map (·.1.ticketsBought)).sum := by
  have length := congrArg List.length data
  rw [List.length_map, List.length_flatMap] at length
  refine length.trans (congrArg List.sum (List.map_congr_left fun p hp => ?_))
  rw [List.length_map]
  exact (counted p hp).symm

theorem Backed.paidFor (h : Backed logs parseLogs keccak256 adminPublicKey s)
    (store : Ingest.StoreOk logs parseLogs keccak256 s.ingest.store) {o : RelayOrder}
    (mem : o ∈ s.ingest.store.db.relayOrders) : ∃ tx, PaidFor s o tx := by
  obtain ⟨tx, executed, signature, fine⟩ := h.vouched.store.orders o mem
  obtain ⟨timestamp, told⟩ := h.logged tx executed fine
  obtain ⟨_, merged, merges, created, rows⟩ := store.recorded o mem
  rw [← signature, told] at merges
  obtain ⟨some, agreed⟩ := agreed_of_merged merges
  obtain ⟨amount, bought, data⟩ := Ingest.merged_events merges
  have emitted : tx.purchases ⊆ s.chain.purchases := by
    rw [h.purchases]
    exact fun p hp => List.mem_flatMap.2 ⟨tx, executed, hp⟩
  have buyer : o.buyer = merged.buyer := congrArg RelayOrder.buyer created
  have epoch : o.purchaseEpoch = merged.epoch := congrArg RelayOrder.purchaseEpoch created
  have amountUsdc : o.amountUsdc = merged.amount_paid := congrArg RelayOrder.amountUsdc created
  have ticketCount : o.ticketCount = merged.tickets_bought := congrArg RelayOrder.ticketCount created
  have tickets : (s.ingest.store.ticketsOf o.hash).map Ingest.ticketData =
      tx.purchases.flatMap fun p => p.1.ticketsData.map numbers := by
    rw [rows, data, List.flatMap_map]
    rfl
  refine ⟨tx, ⟨executed, signature, fine⟩, by simpa using some, emitted, fun p hp => ?_, tickets,
    fun p hp => (h.checked (emitted hp)).2, ?_, ?_⟩
  · rw [buyer, epoch]
    exact agreed _ (List.mem_map_of_mem hp)
  · rw [amountUsdc, amount, List.map_map]
    exact congrArg List.sum (List.map_congr_left fun p hp => (h.checked (emitted hp)).1)
  · rw [ticketCount, bought, length_of_data tickets fun p hp => h.counted p (emitted hp), List.map_map]
    rfl

/-- What the orders of distinct transactions add up to is no more than all purchases add up to. -/
theorem Backed.sum_le (h : Backed logs parseLogs keccak256 adminPublicKey s) {orders : List RelayOrder}
    (distinct : (orders.map (·.signature)).Nodup) (f : RelayOrder → Nat)
    (g : TicketPurchaseEvent × LordsPotState → Nat)
    (each : ∀ o ∈ orders, ∃ tx ∈ s.txs, tx.signature = o.signature ∧ f o = (tx.purchases.map g).sum) :
    (orders.map f).sum ≤ (s.chain.purchases.map g).sum := by
  let all (tx : Tx) : Nat := (tx.purchases.map g).sum
  let of (signature : Signature) : Nat :=
    Table.sumWhere (fun tx : Tx => decide (some tx.signature = some signature)) all s.txs
  have within : ∀ o ∈ orders, f o ≤ of o.signature := by
    intro o mem
    obtain ⟨tx, executed, signature, is⟩ := each o mem
    rw [is]
    refine List.single_le_sum (fun _ _ => Nat.zero_le _) _ (List.mem_map_of_mem (f := all) ?_)
    exact List.mem_filter.2 ⟨executed, decide_eq_true (congrArg some signature)⟩
  calc (orders.map f).sum
      ≤ (orders.map fun o => of o.signature).sum := List.sum_le_sum within
    _ = ((orders.map (·.signature)).map of).sum := by rw [List.map_map]; rfl
    _ ≤ Table.sumWhere (fun _ => true) all s.txs :=
        Table.sum_by_key_le (fun tx => some tx.signature) all (fun _ => true) _ distinct
          fun _ _ _ _ _ => rfl
    _ = (s.chain.purchases.map g).sum := by
        rw [h.purchases, List.map_flatMap, List.flatMap_def, List.sum_flatten, List.map_map, Table.sumWhere,
          List.filter_true]
        rfl

/-- The orders together amount to no more than has been paid. -/
theorem Backed.paid (h : Backed logs parseLogs keccak256 adminPublicKey s)
    (store : Ingest.StoreOk logs parseLogs keccak256 s.ingest.store) :
    (s.ingest.store.db.relayOrders.map (·.amountUsdc)).sum ≤
      (s.chain.purchases.map (·.1.amountPaid)).sum := by
  refine h.sum_le store.signatures _ _ fun o mem => ?_
  obtain ⟨tx, is⟩ := h.paidFor store mem
  refine ⟨tx, is.executed.1, is.executed.2.1, is.amount.trans (congrArg List.sum ?_)⟩
  exact List.map_congr_left fun p hp => (h.checked (is.emitted hp)).1.symm

theorem hashes_of_storeOk (inj : Function.Injective keccak256) {store : Ingest.Store}
    (h : Ingest.StoreOk logs parseLogs keccak256 store) : (store.db.relayOrders.map (·.hash)).Nodup := by
  have hashed : store.db.relayOrders.map (·.hash) = (store.db.relayOrders.map (·.signature)).map keccak256 := by
    rw [List.map_map]
    exact List.map_congr_left fun o mem => (h.recorded o mem).hash
  rw [hashed]
  exact h.signatures.map inj

/-- There are no more tickets than have been bought. -/
theorem Backed.tickets_le (inj : Function.Injective keccak256)
    (h : Backed logs parseLogs keccak256 adminPublicKey s)
    (store : Ingest.StoreOk logs parseLogs keccak256 s.ingest.store) :
    s.ingest.store.db.tickets.length ≤ (s.chain.purchases.map (·.1.ticketsBought)).sum := by
  let orders := s.ingest.store.db.relayOrders
  have hashes : (orders.map (·.hash)).Nodup := hashes_of_storeOk inj store
  calc s.ingest.store.db.tickets.length
      ≤ Table.sumWhere (fun t => decide (∃ k ∈ orders.map (·.hash), some t.orderHash = some k))
          (fun _ => 1) s.ingest.store.db.tickets := by
        have all : s.ingest.store.db.tickets.filter
            (fun t => decide (∃ k ∈ orders.map (·.hash), some t.orderHash = some k)) =
            s.ingest.store.db.tickets := by
          refine List.filter_eq_self.2 fun t mem => decide_eq_true ?_
          obtain ⟨o, known, same⟩ := store.owned t mem
          exact ⟨o.hash, List.mem_map_of_mem known, congrArg some same.symm⟩
        rw [Table.sumWhere, all, List.map_const', List.sum_replicate_nat, Nat.mul_one]
    _ = (orders.map fun o => (s.ingest.store.ticketsOf o.hash).length).sum := by
        rw [← Table.sum_by_key _ _ _ hashes, List.map_map]
        refine congrArg List.sum (List.map_congr_left fun o _ => ?_)
        simp [Table.sumWhere, Ingest.Store.ticketsOf, beq_eq_decide]
    _ ≤ (s.chain.purchases.map (·.1.ticketsBought)).sum := by
        refine h.sum_le store.signatures _ _ fun o mem => ?_
        obtain ⟨tx, is⟩ := h.paidFor store mem
        exact ⟨tx, is.executed.1, is.executed.2.1, length_of_data is.tickets fun p hp => h.counted p (is.emitted hp)⟩

theorem Backed.storeOk (inj : Function.Injective keccak256)
    (h : Backed logs parseLogs keccak256 adminPublicKey s) :
    Ingest.StoreOk logs parseLogs keccak256 s.ingest.store :=
  (Machine.ReachableBy.invariant (M := Ingest.System.machine logs parseLogs keccak256 adminPublicKey)
    (I := Ingest.System.Inv logs parseLogs keccak256) (fun _ hi => .initial hi)
    (fun _ _ _ inv _ hs => inv.step inj hs) h.ingest).store

end

/-- **Every order has been paid for**: whatever is delivered, and however the instructions of the
program are run, an order is exactly what one transaction that went through has bought, its tickets
are playable and paid at the price of their epoch, every ticket is of an order, and the orders together
amount to no more than has been paid. -/
theorem orders_paid_for {logs : Signature → List String}
    {parseLogs : List String → List Ingest.AnchorEvent} {keccak256 : String → Bytes32}
    (inj : Function.Injective keccak256) {adminPublicKey : Wallet} {s : State}
    (h : (machine logs parseLogs keccak256 adminPublicKey).Reachable s) :
    (∀ o ∈ s.ingest.store.db.relayOrders, ∃ tx, PaidFor s o tx) ∧
      (∀ t ∈ s.ingest.store.db.tickets, ∃ o ∈ s.ingest.store.db.relayOrders, o.hash = t.orderHash) ∧
      (s.ingest.store.db.relayOrders.map (·.amountUsdc)).sum ≤
        (s.chain.purchases.map (·.1.amountPaid)).sum := by
  have backed := backed_of_reachable h
  have store := backed.storeOk inj
  exact ⟨fun o mem => backed.paidFor store mem, store.owned, backed.paid store⟩

/-! ## A delivery that names a purchase, a failed one, and one that never was -/

def purchaseLogs (signature : Signature) : List String :=
  ["Program log: Instruction: BuyTicket", signature]

def oneTicket : TicketPurchaseEvent where
  buyer := "user"
  amountPaid := 100
  ticketsBought := 1
  ticketsData := [⟨[1, 2, 3, 4, 5], 1⟩]
  epoch := 1

/-- The failed transaction got as far as its first purchase. -/
def parsePurchase : List String → List Ingest.AnchorEvent
  | [_, "paid"] | [_, "failed"] => [⟨"TicketPurchaseEvent", logged 7 oneTicket⟩]
  | _ => []

def buyOne : Program.Action :=
  .invoke ["user"] (.buyTicket "user" (.associated "user" USDC_MINT_ADDRESS) vaultUsdc
    (.associated "fees" USDC_MINT_ADDRESS) USDC_MINT_ADDRESS [⟨[1, 2, 3, 4, 5], 1⟩])

/-- The user can pay for two tickets; the second transaction asks for two more. -/
def bought : List Action :=
  [.transact "setup"
    [.invoke ["admin"] (.initializeState "admin" USDC_MINT_ADDRESS 30 10 100 1 7 3 "fees" 50 500
       "treasury"),
     .token (.associated "user" USDC_MINT_ADDRESS) (some ⟨USDC_MINT_ADDRESS, 250⟩),
     .token (.associated "fees" USDC_MINT_ADDRESS) (some ⟨USDC_MINT_ADDRESS, 0⟩)] 0,
   .transact "paid" [buyOne] 7, .transact "failed" [buyOne, buyOne] 7]

def doorbell : List Ingest.Event :=
  .deliver [⟨some "paid", none⟩, ⟨some "failed", none⟩, ⟨some "forged", none⟩] ::
  List.replicate 10 (.call 0 .go false) ++
  [.startWebhook "wh-paid", .call 1 .go false, .call 1 (.fetch .full false) false, .call 1 .go false,
    .startWebhook "wh-failed", .call 2 .go false, .call 2 (.fetch .full true) false, .call 2 .go false,
    .startWebhook "wh-forged", .call 3 .go false, .call 3 (.fetch .null false) false,
    .startTicket "ticket-paid", .call 4 (.create ["1-"]) false, .call 4 .go false]

/-- Of the three signatures only the one that was paid for has an order. -/
theorem orders_paid_for_doorbell : ∃ s : State,
    s.ingest.store.db.relayOrders.map (fun o => (o.signature, o.amountUsdc)) = [("paid", 100)] ∧
      ∀ o ∈ s.ingest.store.db.relayOrders, ∃ tx, PaidFor s o tx := by
  obtain ⟨s, hs, one⟩ := Machine.exists_reachable_of_run
    (M := machine purchaseLogs parsePurchase id "admin") (s := ⟨⟨none, fun _ => none, []⟩, [], {}⟩)
    ⟨⟨rfl, rfl, rfl⟩, rfl, ⟨rfl, List.nodup_nil, rfl, rfl, rfl⟩, rfl⟩
    (bought ++ doorbell.map .ingest)
    (fun s => s.ingest.store.db.relayOrders.map (fun o => (o.signature, o.amountUsdc)) == [("paid", 100)])
    (by decide +kernel)
  exact ⟨s, beq_iff_eq.1 one, (orders_paid_for Function.injective_id hs).1⟩

end LordsPot.OnSolana
