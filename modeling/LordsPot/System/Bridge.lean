import LordsPot.Relay.Arrival
import LordsPot.Relay.AtMostOnce
import LordsPot.Relay.Distinct
import LordsPot.System.OnSolana

/-!
# From one chain to the other

The program, the ingestion and the relay over one database: orders arrive while the relay is at work,
and the relay writes rows that ingestion reads. Signatures are base58 and ticket ids are uuids, so a
signature has no hyphen, and an id has one and no comma.
-/

namespace LordsPot

open Transition

/-- The orders and tickets as they were created, beside the same chain. -/
def OnSolana.State.created (s : State) : State := { s with ingest := s.ingest.created }

namespace Bridge

structure State where
  solana : OnSolana.State
  drawing : Nat
  txs : List Relay.BuyTx := []
  procs : List Relay.Proc := []

namespace State

abbrev db (s : State) : Db := s.solana.ingest.store.db

/-- What the relay sees. -/
def relay (s : State) : Relay.State :=
  { db := s.db, drawing := s.drawing, txs := s.txs, procs := s.procs }

def putRelay (s : State) (r : Relay.State) : State where
  solana := { s.solana with
    ingest := { s.solana.ingest with store := { s.solana.ingest.store with db := r.db } } }
  drawing := r.drawing
  txs := r.txs
  procs := r.procs

@[simp] theorem relay_putRelay (s : State) (r : Relay.State) : (s.putRelay r).relay = r := rfl

theorem relay_solana {s : State} {solana : OnSolana.State} {db : Db}
    (is : solana.ingest.store.db = db) :
    ({ s with solana := solana } : State).relay = { s.relay with db := db } := by
  cases is
  rfl

end State

inductive Action where
  | solana (a : OnSolana.Action)
  | relay (a : Relay.Action)

/-- New signatures are base58, and new ids are uuids. -/
def wellNamed : OnSolana.Action → Bool
  | .transact signature _ _ => !signature.toList.contains '-' && signature != ""
  | .ingest (.call _ (.create ids) _) => ids.all fun id => id.toList.contains '-' && !id.toList.contains ','
  | _ => true

section

variable (logs : Signature → List String) (parseLogs : List String → List Ingest.AnchorEvent)
  (keccak256 : String → Bytes32) (adminPublicKey : Wallet)

def step (s : State) : Action → Option State
  | .solana a =>
      if wellNamed a then
        (OnSolana.step logs parseLogs keccak256 adminPublicKey s.solana a).map fun solana =>
          { s with solana := solana }
      else none
  | .relay a => (Relay.step keccak256 s.relay a).map s.putRelay

/-- Before `initialize`, with nothing sold and nothing relayed. -/
structure Initial (s : State) : Prop where
  solana : OnSolana.Initial s.solana
  noTxs : s.txs = []
  noProcs : s.procs = []

def machine : Machine State Action := ⟨Initial, step logs parseLogs keccak256 adminPublicKey⟩

end

/-- The relay broadcasts a chunk only when that is safe. -/
def broadcastSafe (keccak256 : String → Bytes32) (s : State) : Action → Bool
  | .solana _ => true
  | .relay a => Relay.chunkSafe keccak256 s.relay a

end Bridge

/-! ## Through the eyes of ingestion -/

section

variable {logs : Signature → List String} {parseLogs : List String → List Ingest.AnchorEvent}
  {keccak256 : String → Bytes32} {adminPublicKey : Wallet}

namespace OnSolana

variable {s s' : State}

/-- Ingestion reads no column that another worker writes. -/
theorem created_step {a : Action} (hs : step logs parseLogs keccak256 adminPublicKey s a = some s') :
    step logs parseLogs keccak256 adminPublicKey s.created a = some s'.created := by
  cases a with
  | transact signature instructions timestamp =>
    have chain : s.created.chain = s.chain := rfl
    have txs : s.created.txs = s.txs := rfl
    simp only [step, chain, txs] at hs ⊢
    split at hs
    · cases hs
    · rename_i fresh
      rw [if_neg fresh]
      cases ran : executeAll s.chain instructions with
      | none =>
        simp only [ran] at hs ⊢
        cases hs
        rfl
      | some chain =>
        simp only [ran] at hs ⊢
        split at hs <;> cases hs
        rename_i told
        rw [if_pos told]
        rfl
  | ingest e =>
    have same : answers s.created e = answers s e := rfl
    obtain ⟨ingest, answered, stepped, rfl⟩ := ingest_cases hs
    rw [step, same, if_pos answered]
    exact Option.map_eq_some_iff.2 ⟨_, Ingest.System.created_step stepped, rfl⟩

theorem created_ticketsOf (s : State) (hash : Bytes32) :
    s.created.ingest.store.ticketsOf hash = (s.ingest.store.ticketsOf hash).map (·.created) :=
  List.filter_map ..

/-- What was bought is read off columns that stay as they were created. -/
theorem PaidFor.of_created {o : RelayOrder} {tx : Tx} (h : PaidFor s.created o.created tx) :
    PaidFor s o tx where
  executed := h.executed
  some := h.some
  emitted := h.emitted
  agreed := h.agreed
  tickets := by
    have tickets := h.tickets
    rw [created_ticketsOf, List.map_map] at tickets
    exact tickets
  playable := h.playable
  amount := h.amount
  count := by
    have count := h.count
    rw [created_ticketsOf, List.length_map] at count
    exact count

end OnSolana

namespace Bridge

open OnSolana

/-- The order that ingestion creates arrives at the relay. -/
theorem arrives_of_createOrder {store store' : Ingest.Store} {p : Ingest.Purchase} {signature : Signature}
    {ids : List Uuid} (unique : (store.db.tickets.map (·.id)).Nodup)
    (base58 : '-' ∉ signature.toList ∧ signature ≠ "")
    (uuids : ∀ id ∈ ids, '-' ∈ id.toList ∧ ',' ∉ id.toList)
    (fresh : Ingest.freshIds store.db.tickets ids p.tickets_data.length = true)
    (created : Ingest.createOrder keccak256 store p signature ids = some store') :
    ∃ o rows, Relay.Arrives keccak256 store.db o rows ∧
      store'.db = { store.db with
        relayOrders := store.db.relayOrders ++ [o]
        tickets := store.db.tickets ++ rows } := by
  obtain ⟨rowIds, nodup⟩ := Ingest.nodup_rows (keccak256 signature) unique fresh
  simp only [Ingest.createOrder] at created
  split at created <;> cases created
  rename_i free
  refine ⟨p.order (keccak256 signature) signature, p.rows (keccak256 signature) ids, ?_, rfl⟩
  exact {
    hashed := ⟨rfl, base58⟩
    fresh := fun taken => by
      obtain ⟨o, was, same⟩ := List.mem_map.1 taken
      exact free (List.any_eq_true.2 ⟨o, was, Bool.or_eq_true_iff.2 (.inl (beq_iff_eq.2 same))⟩)
    unsent := rfl
    own := fun t ht => by
      obtain ⟨i, _, rfl⟩ := List.mem_iff_getElem.1 ht
      simp [Ingest.Purchase.rows, Ingest.Purchase.order]
    ids := nodup
    uuids := fun t ht => uuids _ (rowIds ▸ List.mem_map_of_mem ht) }

section

variable (logs : Signature → List String) (parseLogs : List String → List Ingest.AnchorEvent)
  (keccak256 : String → Bytes32) (adminPublicKey : Wallet)

/-- Ingestion sees a run of its own, and the relay keeps its books. -/
structure Bridged (s : State) : Prop where
  seen : (OnSolana.machine logs parseLogs keccak256 adminPublicKey).Reachable s.solana.created
  base58 : ∀ tx ∈ s.solana.txs, '-' ∉ tx.signature.toList ∧ tx.signature ≠ ""
  book : Relay.Book keccak256 s.relay
  distinct : Relay.Distinct s.relay

end

variable {s s' : State}

theorem Bridged.solana (h : Bridged logs parseLogs keccak256 adminPublicKey s) {a : OnSolana.Action}
    {solana : OnSolana.State} (named : wellNamed a = true)
    (hs : OnSolana.step logs parseLogs keccak256 adminPublicKey s.solana a = some solana) :
    Bridged logs parseLogs keccak256 adminPublicKey { s with solana := solana } := by
  have seen := h.seen.next trivial (OnSolana.created_step hs)
  cases a with
  | transact signature instructions timestamp =>
    have base58 : '-' ∉ signature.toList ∧ signature ≠ "" := by simpa [wellNamed] using named
    have added : ∃ tx : Tx, tx.signature = signature ∧ solana.txs = s.solana.txs ++ [tx] ∧
        solana.ingest = s.solana.ingest := by
      obtain ⟨-, ⟨-, rfl⟩ | ⟨_, _, -, rfl⟩⟩ := transact_cases hs
      · exact ⟨_, rfl, rfl, rfl⟩
      · exact ⟨_, rfl, rfl, rfl⟩
    obtain ⟨tx, rfl, txs, ingest⟩ := added
    have same : ({ s with solana := solana } : State).relay = s.relay :=
      State.relay_solana (congrArg (·.store.db) ingest)
    refine ⟨seen, ?_, same ▸ h.book, same ▸ h.distinct⟩
    rw [txs]
    exact List.forall_mem_append.2 ⟨h.base58, fun _ new => List.mem_singleton.1 new ▸ base58⟩
  | ingest e =>
    obtain ⟨ingest, -, stepped, rfl⟩ := ingest_cases hs
    rcases Ingest.System.db_step stepped with same | ⟨i, lost, signature, p, ids, rfl, here, fresh, created⟩
    · have same : ({ s with solana := { s.solana with ingest := ingest } } : State).relay = s.relay :=
        State.relay_solana same
      exact ⟨seen, h.base58, same ▸ h.book, same ▸ h.distinct⟩
    · obtain ⟨tx, executed, rfl, -⟩ :=
        (backed_of_reachable h.seen).vouched.runs _ (List.mem_of_getElem? here)
      have uuids : ∀ id ∈ ids, '-' ∈ id.toList ∧ ',' ∉ id.toList := by simpa [wellNamed] using named
      obtain ⟨o, rows, arrives, db⟩ :=
        arrives_of_createOrder h.book.ticketIds (h.base58 tx executed) uuids fresh created
      have arrived : ({ s with solana := { s.solana with ingest := ingest } } : State).relay =
          Relay.arrive s.relay o rows := State.relay_solana db
      refine ⟨seen, h.base58, ?_, ?_⟩
      · rw [arrived]
        exact h.book.arrive arrives
      · rw [arrived]
        exact { h.distinct with }

/-- **The bridge rule**: a step of either side. -/
theorem Bridged.step (inj : Function.Injective keccak256)
    (h : Bridged logs parseLogs keccak256 adminPublicKey s) {a : Action}
    (hs : step logs parseLogs keccak256 adminPublicKey s a = some s') :
    Bridged logs parseLogs keccak256 adminPublicKey s' := by
  cases a with
  | solana a =>
    simp only [Bridge.step] at hs
    split at hs
    · rename_i named
      obtain ⟨solana, stepped, hs⟩ := Option.map_eq_some_iff.1 hs
      cases hs
      exact h.solana named stepped
    · cases hs
  | relay a =>
    obtain ⟨r, stepped, rfl⟩ := Option.map_eq_some_iff.1 hs
    have same : (s.putRelay r).solana.created = s.solana.created := by
      have created := Relay.created_step stepped
      simp only [State.putRelay, OnSolana.State.created, Ingest.System.created, Ingest.Store.created, created]
      rfl
    exact {
      seen := same ▸ h.seen
      base58 := h.base58
      book := h.book.step inj stepped
      distinct := h.distinct.step h.book.ticketIds stepped }

theorem relay_initial (hi : Initial s) : Relay.Initial keccak256 s.relay := by
  have empty : s.relay.db = {} := congrArg Ingest.Store.db hi.solana.ingest.store
  have noTxs : s.relay.txs = [] := hi.noTxs
  have noProcs : s.relay.procs = [] := hi.noProcs
  constructor <;> simp [empty, noTxs, noProcs]

theorem Bridged.initial (hi : Initial s) : Bridged logs parseLogs keccak256 adminPublicKey s := by
  refine ⟨.start ⟨hi.solana.chain, hi.solana.noTxs, ?_, hi.solana.unborn⟩, ?_,
    .initial (relay_initial hi), ?_, ?_⟩
  · exact { hi.solana.ingest with store := congrArg Ingest.Store.created hi.solana.ingest.store }
  · rw [hi.solana.noTxs]
    exact nofun
  · rw [show s.relay.txs = [] from hi.noTxs]
    exact nofun
  · rw [show s.relay.procs = [] from hi.noProcs]
    exact nofun

/-- A ticket asked of Base is one that a buyer has paid for on Solana. -/
def Bought (s : State) (c : Relay.ChunkTicket) : Prop :=
  ∃ t ∈ s.db.tickets, Relay.select t = c ∧ ∃ o ∈ s.db.relayOrders, o.hash = t.orderHash ∧
    ∃ tx, PaidFor s.solana o tx ∧ ∃ p ∈ tx.purchases, Ingest.ticketData t ∈ p.1.ticketsData.map numbers

def mined (s : State) : List Relay.BuyTx := s.txs.filter (·.ticketIds.isSome)

theorem Bridged.bought (inj : Function.Injective keccak256)
    (h : Bridged logs parseLogs keccak256 adminPublicKey s) {tx : Relay.BuyTx} (htx : tx ∈ s.txs)
    {c : Relay.ChunkTicket} (hc : c ∈ tx.tickets) : Bought s c := by
  have backed := backed_of_reachable h.seen
  have store := backed.storeOk inj
  obtain ⟨t, ht, rfl⟩ := List.mem_map.1 (h.book.txRows tx htx c hc)
  obtain ⟨o', known, same⟩ := store.owned t.created (List.mem_map_of_mem ht)
  obtain ⟨buy, paid⟩ := backed.paidFor store known
  obtain ⟨o, ho, rfl⟩ := List.mem_map.1 known
  have paid := paid.of_created
  obtain ⟨p, hp, -, data⟩ := paid.bought ht same
  exact ⟨t, ht, rfl, o, ho, same, buy, paid, p, hp, data⟩

/-- No ticket is in two mined transactions, or twice in one. -/
theorem Bridged.minedIds (h : Bridged logs parseLogs keccak256 adminPublicKey s)
    (once : Relay.AtMostOnce s.relay) : ((mined s).flatMap fun tx => tx.tickets.map (·.id)).Nodup := by
  refine List.nodup_flatMap.2 ⟨fun tx mem => h.distinct.txs tx (List.mem_filter.1 mem).1, ?_⟩
  refine List.Nodup.pairwise_of_forall_ne (h.book.txHashes.of_map.filter _) fun tx mem tx' mem' differ => ?_
  obtain ⟨htx, ok⟩ := List.mem_filter.1 mem
  obtain ⟨htx', ok'⟩ := List.mem_filter.1 mem'
  intro id one other
  obtain ⟨c, hc, rfl⟩ := List.mem_map.1 one
  obtain ⟨c', hc', same⟩ := List.mem_map.1 other
  exact differ (once tx htx tx' htx' ok ok' (Relay.shareTicket_iff.2 ⟨c, hc, c', hc', same⟩))

theorem Bridged.mined_le (inj : Function.Injective keccak256)
    (h : Bridged logs parseLogs keccak256 adminPublicKey s) (once : Relay.AtMostOnce s.relay) :
    ((mined s).map (·.tickets.length)).sum ≤
      (s.solana.chain.purchases.map (·.1.ticketsBought)).sum := by
  have backed := backed_of_reachable h.seen
  have rows : ((mined s).flatMap fun tx => tx.tickets.map (·.id)) ⊆ s.db.tickets.map (·.id) := by
    intro id mem
    obtain ⟨tx, htx, mem⟩ := List.mem_flatMap.1 mem
    obtain ⟨c, hc, rfl⟩ := List.mem_map.1 mem
    obtain ⟨t, ht, rfl⟩ := List.mem_map.1 (h.book.txRows tx (List.mem_filter.1 htx).1 c hc)
    exact List.mem_map_of_mem ht
  calc ((mined s).map (·.tickets.length)).sum
      = ((mined s).flatMap fun tx => tx.tickets.map (·.id)).length := by simp [List.length_flatMap]
    _ ≤ (s.db.tickets.map (·.id)).length := ((h.minedIds once).subperm rows).length_le
    _ = s.solana.created.ingest.store.db.tickets.length := (List.length_map _).trans (List.length_map _).symm
    _ ≤ (s.solana.chain.purchases.map (·.1.ticketsBought)).sum :=
        backed.tickets_le inj (backed.storeOk inj)

theorem bridged_of_reachable (inj : Function.Injective keccak256)
    (h : (machine logs parseLogs keccak256 adminPublicKey).Reachable s) :
    Bridged logs parseLogs keccak256 adminPublicKey s :=
  Machine.ReachableBy.invariant (M := machine logs parseLogs keccak256 adminPublicKey)
    (I := Bridged logs parseLogs keccak256 adminPublicKey) (fun _ hi => .initial hi)
    (fun _ _ _ inv _ hs => inv.step inj hs) h

/-- A step of Solana's side broadcasts nothing. -/
theorem oneId_step (h : Relay.OneId s.relay) {a : Action} (safe : broadcastSafe keccak256 s a = true)
    (hs : step logs parseLogs keccak256 adminPublicKey s a = some s') : Relay.OneId s'.relay := by
  cases a with
  | solana a =>
    simp only [Bridge.step] at hs
    split at hs
    · obtain ⟨solana, -, rfl⟩ := Option.map_eq_some_iff.1 hs
      exact { h with }
    · cases hs
  | relay a =>
    obtain ⟨r, stepped, rfl⟩ := Option.map_eq_some_iff.1 hs
    exact h.step safe stepped

end Bridge

end

namespace Bridge

section

variable {logs : Signature → List String} {parseLogs : List String → List Ingest.AnchorEvent}
  {keccak256 : String → Bytes32} {adminPublicKey : Wallet} {s : State}

/-- **What the relay asks for has been paid for**: whatever is delivered, and however the steps of both
sides mix, every ticket in a transaction to Base is one that a transaction on Solana has bought, every
stamped ticket is in a mined one, and the mined ones hold no more tickets than have been bought, unless
two of them have a ticket in common. -/
theorem relayed_paid_for (inj : Function.Injective keccak256)
    (h : (machine logs parseLogs keccak256 adminPublicKey).Reachable s) :
    (∀ tx ∈ s.txs, ∀ c ∈ tx.tickets, Bought s c) ∧
      (∀ t ∈ s.db.tickets, ∀ n, t.megapotNftId = some n → ∃ tx ∈ mined s, t.id ∈ tx.tickets.map (·.id)) ∧
      (Relay.AtMostOnce s.relay → ((mined s).map (·.tickets.length)).sum ≤
        (s.solana.chain.purchases.map (·.1.ticketsBought)).sum) := by
  have bridged := bridged_of_reachable inj h
  refine ⟨fun tx htx c hc => bridged.bought inj htx hc, fun t ht n is => ?_, bridged.mined_le inj⟩
  obtain ⟨tx, htx, ok, own⟩ := bridged.book.stamped t ht n is
  exact ⟨tx, List.mem_filter.2 ⟨htx, ok⟩, own⟩

/-- **At most once, as orders arrive**: as long as no broadcast is unsafe, no two mined transactions
have a ticket in common, and they hold no more tickets than have been bought. -/
theorem mined_at_most_once (inj : Function.Injective keccak256)
    (h : (machine logs parseLogs keccak256 adminPublicKey).ReachableBy
      (fun s a => broadcastSafe keccak256 s a = true) s) :
    Relay.AtMostOnce s.relay ∧ ((mined s).map (·.tickets.length)).sum ≤
      (s.solana.chain.purchases.map (·.1.ticketsBought)).sum := by
  have oneId : Relay.OneId s.relay :=
    Machine.ReachableBy.invariant (M := machine logs parseLogs keccak256 adminPublicKey)
      (I := fun s => Relay.OneId s.relay)
      (fun s hi => .initial (show Relay.Initial keccak256 s.relay from relay_initial hi))
      (fun _ _ _ inv safe hs => oneId_step inv safe hs) h
  have bridged := bridged_of_reachable inj (h.mono fun _ _ _ => trivial)
  exact ⟨oneId.atMostOnce, bridged.mined_le inj oneId.atMostOnce⟩

end

/-! ## The ticket that was paid for, on Base -/

def relayPaid : List Relay.Action :=
  .job "paid" :: ([.read (Relay.alike ["1-"]), .gate 1 false, .balance 100, .lock,
    .findStuck []].map fun call => .call 0 call false) ++
  Relay.sendChunk 0 (Relay.alike ["1-"]) "b1" "0x1" ++
  [.call 0 .write false, .mine "0x1" [7], .call 0 (.receipt (some true)) false, .call 0 .write false]

def bothSides : List Action :=
  (OnSolana.bought ++ OnSolana.doorbell.map OnSolana.Action.ingest).map .solana ++ relayPaid.map .relay

def unsold : State where
  solana := ⟨⟨none, fun _ => none, []⟩, [], {}⟩
  drawing := 1

theorem initial_unsold : Initial unsold :=
  ⟨⟨⟨rfl, rfl, rfl⟩, rfl, ⟨rfl, List.nodup_nil, rfl, rfl, rfl⟩, rfl⟩, rfl, rfl⟩

/-- The ticket is stamped with the id that it was minted under. -/
theorem relayed_paid_for_doorbell : ∃ s : State, s.db.tickets.map (·.megapotNftId) = [some 7] ∧
    ∀ tx ∈ s.txs, ∀ c ∈ tx.tickets, Bought s c := by
  obtain ⟨s, hs, one⟩ := Machine.exists_reachable_of_run
    (M := machine OnSolana.purchaseLogs OnSolana.parsePurchase id "admin") initial_unsold bothSides
    (fun s => s.db.tickets.map (·.megapotNftId) == [some 7]) (by decide +kernel)
  exact ⟨s, beq_iff_eq.1 one, (relayed_paid_for Function.injective_id hs).1⟩

/-- The first job dies before it has written the hash of its transaction; the next one releases the
batch and broadcasts the ticket again, under the same order id, so that the second transaction
reverts. -/
def relayAgain : List Relay.Action :=
  .job "paid" :: ([.read (Relay.alike ["1-"]), .gate 1 false, .balance 100, .lock,
    .findStuck []].map fun call => .call 0 call false) ++
  Relay.sendChunk 0 (Relay.alike ["1-"]) "b1" "0x1" ++
  [.call 0 .crash false, .reset "paid", .call 1 .write false] ++
  .job "paid" :: ([.read (Relay.alike ["1-"]), .gate 1 false, .balance 100, .lock,
    .findStuck [⟨"b1", none, Relay.alike ["1-"]⟩], .write].map fun call => .call 2 call false) ++
  Relay.sendChunk 2 (Relay.alike ["1-"]) "b2" "0x2" ++ [.mine "0x1" [7], .revert "0x2"]

/-- Two transactions have the ticket, and one of them is mined. -/
theorem mined_at_most_once_doorbell : ∃ s : State,
    s.txs.map (fun tx => tx.tickets.map (·.id)) = [["1-"], ["1-"]] ∧
      ((mined s).map (·.tickets.length)).sum = 1 ∧ Relay.AtMostOnce s.relay ∧
      ((mined s).map (·.tickets.length)).sum ≤
        (s.solana.chain.purchases.map (·.1.ticketsBought)).sum := by
  obtain ⟨s, hs, hp⟩ := Machine.exists_reachableBy_of_runBy
    (M := machine OnSolana.purchaseLogs OnSolana.parsePurchase id "admin") (broadcastSafe id)
    initial_unsold
    ((OnSolana.bought ++ OnSolana.doorbell.map OnSolana.Action.ingest).map .solana ++
      relayAgain.map .relay)
    (fun s => s.txs.map (fun tx => tx.tickets.map (·.id)) == [["1-"], ["1-"]] &&
      ((mined s).map (·.tickets.length)).sum == 1) (by decide +kernel)
  rw [Bool.and_eq_true, beq_iff_eq, beq_iff_eq] at hp
  exact ⟨s, hp.1, hp.2, mined_at_most_once Function.injective_id hs⟩

end Bridge

end LordsPot
