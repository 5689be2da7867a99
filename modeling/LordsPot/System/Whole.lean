import LordsPot.System.Bridge
import LordsPot.System.Columns
import LordsPot.System.OnRecord

/-!
# The whole system

The program, the ingestion and the backend over one database: orders arrive while everybody is at
work, the payout path reads the program's account, and users submit the vouchers they have been handed
to the program. The admin's key signs claims in vouchers only.
-/

namespace LordsPot

open Transition

def OnSolana.State.setDb (s : OnSolana.State) (db : Db) : OnSolana.State :=
  { s with ingest := { s.ingest with store := { s.ingest.store with db := db } } }

namespace Whole

/-- The backend is read with the database of the ingestion and with the account on the chain. -/
structure State where
  solana : OnSolana.State
  backend : System.State
  /-- What the program has left on record. -/
  log : List Program.Entry := []

namespace State

abbrev db (s : State) : Db := s.solana.ingest.store.db

def system (s : State) : System.State :=
  { s.backend.setDb s.db with program := OnSolana.payoutProgram s.solana.chain }

/-- What the payout path sees. -/
abbrev payout (s : State) : Payout.State := s.system.payout

end State

inductive Action where
  | solana (a : OnSolana.Action)
  | backend (a : System.Action)
  /-- A user submits a voucher. -/
  | redeem (v : Payout.Voucher) (signature : Signature) (timestamp slot : Nat) (blockTime : Option Nat)

/-- What the chain does to the payout path. -/
def onChain : System.Action → Bool
  | .payout (.land ..) | .payout (.program _) => true
  | _ => false

/-- The transaction has no claim that the admin has signed. -/
def withheld (s : State) : OnSolana.Action → Bool
  | .transact _ instructions _ => OnSolana.withholds s.solana.chain instructions
  | .ingest _ => true

def recorded (s : State) : OnSolana.Action → List Program.Entry
  | .transact _ instructions _ => OnSolana.recorded s.solana.chain instructions
  | .ingest _ => []

/-- The voucher has been handed out, has not landed, and its blockhash is still valid. -/
def redeemable (s : State) (v : Payout.Voucher) (blockTime : Option Nat) : Bool :=
  s.backend.vouchers.contains v && s.backend.landed.all (·.voucher != v) &&
    decide (s.backend.height ≤ v.lastValidBlockHeight) && Payout.blockTimeOk s.system.now blockTime

section

variable (logs : Signature → List String) (parseLogs : List String → List Ingest.AnchorEvent)
  (stringToNumber : String → JsNumber) (keccak256 : String → Bytes32) (adminPublicKey : Wallet)

def step (s : State) : Action → Option State
  | .solana a =>
      if withheld s a then
        (OnSolana.step logs parseLogs keccak256 adminPublicKey s.solana a).map fun solana =>
          { s with solana := solana, log := s.log ++ recorded s a }
      else none
  | .backend a =>
      if onChain a then none
      else (System.step stringToNumber keccak256 s.system a).map fun backend =>
        { s with solana := s.solana.setDb backend.db, backend := backend }
  | .redeem v signature timestamp slot blockTime =>
      if redeemable s v blockTime then
        let a := OnSolana.Action.transact signature [OnSolana.redeem v] timestamp
        (OnSolana.step logs parseLogs keccak256 adminPublicKey s.solana a).map fun solana =>
          { solana := solana
            backend := if OnSolana.ended solana.txs signature true then s.backend
              else { s.backend with landed := ⟨v, signature, slot, blockTime⟩ :: s.backend.landed }
            log := s.log ++ recorded s a }
      else none

/-- Before `initialize`, with nothing sold and nobody at work. -/
structure Initial (s : State) : Prop where
  solana : OnSolana.Initial s.solana
  backend : System.Initial keccak256 s.system
  noLog : s.log = []

def machine : Machine State Action :=
  ⟨Initial keccak256, step logs parseLogs stringToNumber keccak256 adminPublicKey⟩

end

/-- The payout path takes safe steps. -/
def paySafe (s : State) : Action → Bool
  | .backend (.payout a) => Payout.paySafe s.payout a
  | _ => true

/-! ## Through the eyes of the payout path -/

section

variable {logs : Signature → List String} {parseLogs : List String → List Ingest.AnchorEvent}
  {stringToNumber : String → JsNumber} {keccak256 : String → Bytes32} {adminPublicKey : Wallet}
  {s s' : State}

/-- An order arrives with tickets that are bound to nothing. -/
theorem later_of_createOrder {store store' : Ingest.Store} {p : Ingest.Purchase} {signature : Signature}
    {ids : List Uuid} (unique : (store.db.tickets.map (·.id)).Nodup)
    (fresh : Ingest.freshIds store.db.tickets ids p.tickets_data.length = true)
    (created : Ingest.createOrder keccak256 store p signature ids = some store') :
    Payout.Later Payout.Stays store.db store'.db ∧ store'.db.payoutClaims = store.db.payoutClaims := by
  simp only [Ingest.createOrder] at created
  split at created <;> cases created
  refine ⟨⟨(Ingest.nodup_rows _ unique fresh).2, fun t w buyer => ?_, store.db.tickets, _, rfl,
    List.forall₂_same.2 fun t _ => .refl t, ?_⟩, rfl⟩
  · obtain ⟨o, found, rfl⟩ := Option.map_eq_some_iff.1 buyer
    refine Option.map_eq_some_iff.2 ⟨o, ?_, rfl⟩
    rw [Db.relayOrder?, Db.order?, Table.findUnique] at found ⊢
    rw [List.find?_append, found]
    rfl
  · intro t ht
    obtain ⟨i, _, rfl⟩ := List.mem_iff_getElem.1 ht
    simp [Ingest.Purchase.rows]

/-- A step that the payout path sees in the tables only. -/
theorem outside_of_tables {solana : OnSolana.State} {log : List Program.Entry}
    (later : Payout.Later Payout.Stays s.db solana.ingest.store.db)
    (claims : solana.ingest.store.db.payoutClaims = s.db.payoutClaims) :
    Payout.Outside s.payout (State.payout { s with solana := solana, log := log }) :=
  ⟨later, le_rfl, le_rfl, claims, rfl, rfl, rfl, rfl⟩

theorem later_refl {db : Db} (ids : (db.tickets.map (·.id)).Nodup) : Payout.Later Payout.Stays db db :=
  .of_rows ids rfl (fun _ => rfl) (List.forall₂_same.2 fun t _ => .refl t)

theorem outside_of_solana (ids : (s.db.tickets.map (·.id)).Nodup) {a : OnSolana.Action} {solana : OnSolana.State}
    {log : List Program.Entry}
    (hs : OnSolana.step logs parseLogs keccak256 adminPublicKey s.solana a = some solana) :
    Payout.Outside s.payout (State.payout { s with solana := solana, log := log }) := by
  cases a with
  | transact signature instructions timestamp =>
    obtain ⟨-, ⟨-, rfl⟩ | ⟨_, _, -, rfl⟩⟩ := OnSolana.transact_cases hs
    · exact outside_of_tables (later_refl ids) rfl
    · exact outside_of_tables (later_refl ids) rfl
  | ingest e =>
    obtain ⟨ingest, -, stepped, rfl⟩ := OnSolana.ingest_cases hs
    rcases Ingest.System.db_step stepped with same | ⟨_, _, _, _, _, -, -, fresh, created⟩
    · exact outside_of_tables (by rw [same]; exact later_refl ids) (by rw [same])
    · obtain ⟨later, claims⟩ := later_of_createOrder ids fresh created
      exact outside_of_tables later claims

/-- What the payout path's own steps leave alone off the chain. -/
theorem still_of_own {p p' : Payout.State} {a : Payout.Action} (own : a.own = true)
    (off : onChain (.payout a) = false) (hs : Payout.step p a = some p') :
    p'.now = p.now ∧ p'.program = p.program ∧ p'.landed = p.landed := by
  cases a with
  | request w | blocks n => cases hs; exact ⟨rfl, rfl, rfl⟩
  | route i act =>
    obtain ⟨_, _, _, _, -, -, rfl⟩ := Payout.step_route hs
    exact ⟨rfl, rfl, rfl⟩
  | tick act =>
    obtain ⟨_, _, rfl, -⟩ := Payout.tickStep_frame hs
    exact ⟨rfl, rfl, rfl⟩
  | land | program => cases off
  | clock | harvest | epoch => cases own

/-- A step of the backend is one of the payout path's own, or one of the rest of the system. -/
theorem backend_cases (hashes : (s.db.relayOrders.map (·.hash)).Nodup) (ids : (s.db.tickets.map (·.id)).Nodup)
    {a : System.Action} {backend : System.State} (off : onChain a = false)
    (hs : System.step stringToNumber keccak256 s.system a = some backend) :
    backend.landed = s.backend.landed ∧
      ((∃ action, a = .payout action ∧ Payout.step s.payout action =
          some (State.payout { s with solana := s.solana.setDb backend.db, backend := backend })) ∨
        Payout.Outside s.payout
          (State.payout { s with solana := s.solana.setDb backend.db, backend := backend })) := by
  rcases System.outside_of_step hashes ids hs with ⟨action, p, rfl, own, stepped, rfl⟩ | outside
  · obtain ⟨now, program, landed⟩ := still_of_own own off stepped
    refine ⟨landed, .inl ⟨action, rfl, stepped.trans (congrArg some ?_)⟩⟩
    obtain ⟨_, _, _, _, _, _, _, _, _⟩ := p
    cases now
    cases program
    rfl
  · exact ⟨outside.landed, .inr ⟨outside.toLater, outside.now, outside.height, outside.claims, outside.requests,
      outside.vouchers, outside.landed, outside.tick⟩⟩

/-- A voucher's transaction lands the voucher, or comes to nothing. -/
theorem redeem_cases {v : Payout.Voucher} {signature : Signature} {timestamp slot : Nat} {blockTime : Option Nat}
    (known : ∀ l ∈ s.backend.landed, l.signature ∈ s.solana.txs.map (·.signature))
    (hs : step logs parseLogs stringToNumber keccak256 adminPublicKey s
      (.redeem v signature timestamp slot blockTime) = some s') :
    ∃ solana, OnSolana.step logs parseLogs keccak256 adminPublicKey s.solana
        (.transact signature [OnSolana.redeem v] timestamp) = some solana ∧ signature ∈ solana.txs.map (·.signature) ∧
      ((OnSolana.claims (recorded s (.transact signature [OnSolana.redeem v] timestamp)) = [] ∧
          s' = { s with solana := solana,
                        log := s.log ++ recorded s (.transact signature [OnSolana.redeem v] timestamp) }) ∨
        OnSolana.claims (recorded s (.transact signature [OnSolana.redeem v] timestamp)) = [(v.wallet, v.amount)] ∧
          s' = { solana := solana
                 backend := { s.backend with landed := ⟨v, signature, slot, blockTime⟩ :: s.backend.landed }
                 log := s.log ++ recorded s (.transact signature [OnSolana.redeem v] timestamp) } ∧
          Payout.step s.payout (.land v signature slot blockTime) = some s'.payout) := by
  simp only [step] at hs
  split at hs
  · rename_i allowed
    obtain ⟨solana, stepped, rfl⟩ := Option.map_eq_some_iff.1 hs
    refine ⟨solana, stepped, ?_⟩
    obtain ⟨fresh, ⟨failed, rfl⟩ | ⟨chain, purchases, executed, rfl⟩⟩ := OnSolana.transact_cases stepped
    · have ended : OnSolana.ended (s.solana.txs ++ [⟨signature, true, []⟩]) signature true = true := by
        simp [OnSolana.ended]
      refine ⟨by simp, .inl ⟨?_, ?_⟩⟩
      · rw [recorded, OnSolana.recorded, failed]
        rfl
      · simp only [ended, if_true]
    · have ended : OnSolana.ended (s.solana.txs ++ [⟨signature, false, purchases⟩]) signature true = false := by
        have others : ∀ tx ∈ s.solana.txs, tx.signature ≠ signature := fun tx mem same =>
          fresh (List.mem_map.2 ⟨tx, mem, same⟩)
        simpa [OnSolana.ended] using fun tx mem same => absurd same (others tx mem)
      obtain ⟨accepted, claims⟩ := OnSolana.redeemed executed
      refine ⟨by simp, .inr ⟨claims, ?_, ?_⟩⟩
      · simp only [ended, Bool.false_eq_true, if_false]
      · simp only [redeemable, Bool.and_eq_true, List.all_eq_true] at allowed
        obtain ⟨⟨⟨handed, unlanded⟩, height⟩, time⟩ := allowed
        have guard : (s.payout.vouchers.contains v &&
            s.payout.landed.all (fun l => l.voucher != v && l.signature != signature) &&
            decide (s.payout.height ≤ v.lastValidBlockHeight) && Payout.blockTimeOk s.payout.now blockTime) =
            true := by
          simp only [Bool.and_eq_true, List.all_eq_true]
          refine ⟨⟨⟨handed, fun l hl => ⟨unlanded l hl, ?_⟩⟩, height⟩, time⟩
          exact bne_iff_ne.2 fun same => fresh (same ▸ known l hl)
        rw [Payout.step, if_pos guard, show Payout.claimWinnings s.payout.program v.admin v.wallet v.amount = _
          from accepted]
        simp only [ended, Bool.false_eq_true, if_false]
        rfl
  · cases hs

end

/-! ## The books -/

/-- The vouchers that have been redeemed, in order. -/
def redeemed (s : State) : List Payout.Voucher := (s.backend.landed.map (·.voucher)).reverse

section

variable (logs : Signature → List String) (parseLogs : List String → List Ingest.AnchorEvent)
  (keccak256 : String → Bytes32) (adminPublicKey : Wallet)

/-- The chain and ingestion have a run of their own, the claims on record are the vouchers' ones, and the
record accounts for what is in the vault. -/
structure Books (s : State) : Prop where
  seen : (OnSolana.machine logs parseLogs keccak256 adminPublicKey).Reachable s.solana.created
  signatures : ∀ l ∈ s.backend.landed, l.signature ∈ s.solana.txs.map (·.signature)
  claims : OnSolana.claims s.log = (redeemed s).map fun v => (v.wallet, v.amount)
  balanced : s.solana.chain.amount Program.vaultUsdc + Machine.total Program.Entry.debit s.log =
    Machine.total Program.Entry.credit s.log

end

section

variable {logs : Signature → List String} {parseLogs : List String → List Ingest.AnchorEvent}
  {stringToNumber : String → JsNumber} {keccak256 : String → Bytes32} {adminPublicKey : Wallet}
  {s s' : State}

theorem Books.hashes (inj : Function.Injective keccak256) (h : Books logs parseLogs keccak256 adminPublicKey s) :
    (s.db.relayOrders.map (·.hash)).Nodup := by
  have distinct := OnSolana.hashes_of_storeOk inj ((OnSolana.backed_of_reachable h.seen).storeOk inj)
  have same : s.solana.created.ingest.store.db.relayOrders.map (·.hash) = s.db.relayOrders.map (·.hash) :=
    List.map_map
  exact same ▸ distinct

/-- What a step of Solana's side leaves on record is what it moves. -/
theorem Books.moved (h : Books logs parseLogs keccak256 adminPublicKey s) {a : OnSolana.Action}
    {solana : OnSolana.State} (hs : OnSolana.step logs parseLogs keccak256 adminPublicKey s.solana a = some solana) :
    solana.chain.amount Program.vaultUsdc + Machine.total Program.Entry.debit (s.log ++ recorded s a) =
      Machine.total Program.Entry.credit (s.log ++ recorded s a) := by
  have balanced := h.balanced
  rw [Machine.total_append, Machine.total_append]
  cases a with
  | transact signature instructions timestamp =>
    have reached : Program.machine.Reachable s.solana.chain := (OnSolana.backed_of_reachable h.seen).chain
    have moved := OnSolana.amount_of_transact reached hs
    simp only [recorded]
    omega
  | ingest e =>
    obtain ⟨ingest, -, -, rfl⟩ := OnSolana.ingest_cases hs
    exact balanced

/-- Transactions stay executed. -/
theorem signatures_step {solana solana' : OnSolana.State} {a : OnSolana.Action}
    (hs : OnSolana.step logs parseLogs keccak256 adminPublicKey solana a = some solana') :
    solana.txs.map (·.signature) ⊆ solana'.txs.map (·.signature) := by
  cases a with
  | transact signature instructions timestamp =>
    obtain ⟨-, ⟨-, rfl⟩ | ⟨_, _, -, rfl⟩⟩ := OnSolana.transact_cases hs
    · exact List.map_subset _ (List.subset_append_left ..)
    · exact List.map_subset _ (List.subset_append_left ..)
  | ingest e =>
    obtain ⟨ingest, -, -, rfl⟩ := OnSolana.ingest_cases hs
    exact List.Subset.refl _

/-- A step of Solana's side, with no claim. -/
theorem solana_cases {a : OnSolana.Action}
    (hs : step logs parseLogs stringToNumber keccak256 adminPublicKey s (.solana a) = some s') :
    ∃ solana, OnSolana.step logs parseLogs keccak256 adminPublicKey s.solana a = some solana ∧
      OnSolana.claims (recorded s a) = [] ∧ s' = { s with solana := solana, log := s.log ++ recorded s a } := by
  simp only [step] at hs
  split at hs
  · rename_i unsigned
    obtain ⟨solana, stepped, rfl⟩ := Option.map_eq_some_iff.1 hs
    refine ⟨solana, stepped, ?_, rfl⟩
    cases a with
    | transact => exact OnSolana.claims_recorded unsigned
    | ingest => rfl
  · cases hs

theorem backend_of_step {a : System.Action}
    (hs : step logs parseLogs stringToNumber keccak256 adminPublicKey s (.backend a) = some s') :
    ∃ backend, onChain a = false ∧ System.step stringToNumber keccak256 s.system a = some backend ∧
      s' = { s with solana := s.solana.setDb backend.db, backend := backend } := by
  simp only [step] at hs
  split at hs
  · cases hs
  · rename_i off
    obtain ⟨backend, stepped, rfl⟩ := Option.map_eq_some_iff.1 hs
    exact ⟨backend, Bool.eq_false_iff.2 off, stepped, rfl⟩

/-- **The books** are kept by every step. -/
theorem Books.step (inj : Function.Injective keccak256) (h : Books logs parseLogs keccak256 adminPublicKey s)
    (ids : (s.db.tickets.map (·.id)).Nodup) {a : Action}
    (hs : step logs parseLogs stringToNumber keccak256 adminPublicKey s a = some s') :
    Books logs parseLogs keccak256 adminPublicKey s' := by
  cases a with
  | solana a =>
    obtain ⟨solana, stepped, none, rfl⟩ := solana_cases hs
    refine ⟨h.seen.next trivial (OnSolana.created_step stepped),
      fun l hl => signatures_step stepped (h.signatures l hl), ?_, h.moved stepped⟩
    rw [OnSolana.claims_append, none, List.append_nil]
    exact h.claims
  | backend a =>
    obtain ⟨backend, off, stepped, rfl⟩ := backend_of_step hs
    obtain ⟨landed, -⟩ := backend_cases (h.hashes inj) ids off stepped
    have same : (s.solana.setDb backend.db).created = s.solana.created := by
      have created : backend.db.created = s.db.created := System.created_step stepped
      simp only [OnSolana.State.setDb, OnSolana.State.created, Ingest.System.created, Ingest.Store.created, created]
    refine ⟨same ▸ h.seen, landed ▸ h.signatures, ?_, h.balanced⟩
    rw [redeemed, landed]
    exact h.claims
  | redeem v signature timestamp slot blockTime =>
    obtain ⟨solana, stepped, executed, ⟨none, rfl⟩ | ⟨claimed, rfl, -⟩⟩ := redeem_cases h.signatures hs
    · refine ⟨h.seen.next trivial (OnSolana.created_step stepped),
        fun l hl => signatures_step stepped (h.signatures l hl), ?_, h.moved stepped⟩
      rw [OnSolana.claims_append, none, List.append_nil]
      exact h.claims
    · refine ⟨h.seen.next trivial (OnSolana.created_step stepped), List.forall_mem_cons.2
        ⟨executed, fun l hl => signatures_step stepped (h.signatures l hl)⟩, ?_, h.moved stepped⟩
      rw [OnSolana.claims_append, claimed, h.claims, redeemed, redeemed, List.map_cons, List.reverse_cons,
        List.map_append]
      rfl

/-- **The payout path's run**: each step is one of its own, or one of the rest of the system. -/
theorem payout_step (inj : Function.Injective keccak256) (h : Books logs parseLogs keccak256 adminPublicKey s)
    (ids : (s.db.tickets.map (·.id)).Nodup) {a : Action}
    (hs : step logs parseLogs stringToNumber keccak256 adminPublicKey s a = some s') :
    (∃ action, Payout.step s.payout action = some s'.payout ∧
      (paySafe s a = true → Payout.paySafe s.payout action = true)) ∨ Payout.Outside s.payout s'.payout := by
  cases a with
  | solana a =>
    obtain ⟨solana, stepped, -, rfl⟩ := solana_cases hs
    exact .inr (outside_of_solana ids stepped)
  | backend a =>
    obtain ⟨backend, off, stepped, rfl⟩ := backend_of_step hs
    obtain ⟨-, ⟨action, rfl, own⟩ | outside⟩ := backend_cases (h.hashes inj) ids off stepped
    · exact .inl ⟨action, own, id⟩
    · exact .inr outside
  | redeem v signature timestamp slot blockTime =>
    obtain ⟨solana, stepped, -, ⟨-, rfl⟩ | ⟨-, -, lands⟩⟩ := redeem_cases h.signatures hs
    · exact .inr (outside_of_solana ids stepped)
    · exact .inl ⟨_, lands, fun _ => rfl⟩

theorem Books.initial (hi : Initial keccak256 s) : Books logs parseLogs keccak256 adminPublicKey s := by
  have landed : s.backend.landed = [] := hi.backend.noLandings
  refine ⟨.start ⟨hi.solana.chain, hi.solana.noTxs, ?_, hi.solana.unborn⟩, ?_, ?_, ?_⟩
  · exact { hi.solana.ingest with store := congrArg Ingest.Store.created hi.solana.ingest.store }
  · rw [landed]
    exact List.forall_mem_nil _
  · rw [hi.noLog, redeemed, landed]
    rfl
  · rw [hi.noLog, Machine.total_nil, Machine.total_nil, Program.Chain.amount, Program.balance, hi.solana.chain.noVault]
    rfl

theorem payout_initial (hi : Initial keccak256 s) : Payout.Initial s.payout where
  noClaims := hi.backend.noClaims
  unbound := hi.backend.unclaimed
  ticketIds := hi.backend.settlement.relay.ticketIds
  noRequests := hi.backend.noRequests
  noVouchers := hi.backend.noVouchers
  noLandings := hi.backend.noLandings
  noTick := hi.backend.noConfirmer

theorem earned_of_reachable (inj : Function.Injective keccak256)
    (h : (machine logs parseLogs stringToNumber keccak256 adminPublicKey).Reachable s) :
    Books logs parseLogs keccak256 adminPublicKey s ∧ Payout.Earned s.payout :=
  Machine.ReachableBy.invariant (M := machine logs parseLogs stringToNumber keccak256 adminPublicKey)
    (I := fun s => Books logs parseLogs keccak256 adminPublicKey s ∧ Payout.Earned s.payout)
    (fun _ hi => ⟨.initial hi, (Payout.Paying.initial (payout_initial hi)).toEarned⟩)
    (fun _ _ _ inv _ hs => by
      refine ⟨inv.1.step inj inv.2.ids hs, ?_⟩
      rcases payout_step inj inv.1 inv.2.ids hs with ⟨_, stepped, -⟩ | outside
      · exact inv.2.step stepped
      · exact inv.2.outside outside) h

theorem paying_of_reachable (inj : Function.Injective keccak256)
    (h : (machine logs parseLogs stringToNumber keccak256 adminPublicKey).ReachableBy
      (fun s a => paySafe s a = true) s) :
    Books logs parseLogs keccak256 adminPublicKey s ∧ Payout.Paying s.payout :=
  Machine.ReachableBy.invariant (M := machine logs parseLogs stringToNumber keccak256 adminPublicKey)
    (I := fun s => Books logs parseLogs keccak256 adminPublicKey s ∧ Payout.Paying s.payout)
    (fun _ hi => ⟨.initial hi, .initial (payout_initial hi)⟩)
    (fun _ _ _ inv safe hs => by
      refine ⟨inv.1.step inj inv.2.ids hs, ?_⟩
      rcases payout_step inj inv.1 inv.2.ids hs with ⟨_, stepped, ok⟩ | outside
      · exact inv.2.step (ok safe) stepped
      · exact inv.2.outside outside) h

end

end Whole

end LordsPot
