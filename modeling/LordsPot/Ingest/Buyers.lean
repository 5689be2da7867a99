import Mathlib.Data.List.Perm.Subperm
import LordsPot.Ingest.ExactlyOnce

/-!
# Whose tickets a transaction buys

`ticketWorker` merges the events of a transaction into one order of one buyer. The program asks
each instruction for a signer of its own, so a transaction can buy for several, and then the
merge is refused: of such a transaction no ticket is recorded.
-/

namespace LordsPot.Ingest

open Transition

/-- The purchases are of one buyer, in one epoch. -/
def Agree (ds : List PurchaseData) : Prop :=
  ∀ d ∈ ds, ∀ d' ∈ ds, d.buyer = d'.buyer ∧ d.epoch = d'.epoch

/-! ## Merging and agreement -/

section

variable {p q : Purchase} {d : PurchaseData} {ds : List PurchaseData}

theorem check_ok (h : p.check d = .ok ()) : d.buyer = p.buyer ∧ d.epoch = p.epoch := by
  unfold Purchase.check at h
  split at h
  · cases h
  · rename_i buyer
    split at h
    · rename_i epoch first read readFirst
      split at h
      · cases h
      · rename_i same
        simp only [toNumber, Option.ite_none_right_eq_some, Option.some.injEq] at read readFirst
        refine ⟨not_not.1 buyer, ?_⟩
        omega
    · cases h

theorem check_ne_disagree (buyer : d.buyer = p.buyer) (epoch : d.epoch = p.epoch) :
    p.check d ≠ .error .disagree := by
  unfold Purchase.check
  rw [if_neg (not_not.2 buyer), epoch]
  cases toNumber p.epoch <;> simp

/-- A loop that succeeds has met one buyer and one epoch, the order's own. -/
theorem mergeLoop_ok (h : mergeLoop p ds = .ok q) :
    q.buyer = p.buyer ∧ ∀ d ∈ ds, d.buyer = p.buyer ∧ d.epoch = p.epoch := by
  induction ds generalizing p with
  | nil =>
    cases h
    exact ⟨rfl, fun _ h => by cases h⟩
  | cons d ds ih =>
    rw [mergeLoop] at h
    split at h
    · rename_i checked
      obtain ⟨buyer, rest⟩ := ih h
      exact ⟨buyer, List.forall_mem_cons.2 ⟨check_ok checked, rest⟩⟩
    · cases h

theorem mergeLoop_ne_disagree (same : ∀ d ∈ ds, d.buyer = p.buyer ∧ d.epoch = p.epoch) :
    mergeLoop p ds ≠ .error .disagree := by
  induction ds generalizing p with
  | nil => simp [mergeLoop]
  | cons d ds ih =>
    obtain ⟨⟨buyer, epoch⟩, rest⟩ := List.forall_mem_cons.1 same
    rw [mergeLoop]
    split
    · exact ih rest
    · rename_i error refused
      rintro ⟨rfl⟩
      exact check_ne_disagree buyer epoch refused

/-- What is merged is of one buyer, in one epoch, and the order is that buyer's. -/
theorem agree_of_merged (h : mergeEvents ds = .ok q) : Agree ds ∧ ∀ d ∈ ds, d.buyer = q.buyer := by
  unfold mergeEvents at h
  split at h
  · cases h
  · obtain ⟨buyer, same⟩ := mergeLoop_ok h
    refine ⟨fun d hd d' hd' => ?_, fun d hd => ?_⟩
    · exact ⟨(same d hd).1.trans (same d' hd').1.symm, (same d hd).2.trans (same d' hd').2.symm⟩
    · exact (same d hd).1.trans buyer.symm

/-- Purchases that agree are never refused for disagreement. -/
theorem Agree.not_refused (agree : Agree ds) : mergeEvents ds ≠ .error .disagree := by
  unfold mergeEvents
  split
  · simp
  · exact mergeLoop_ne_disagree fun d hd => agree d hd _ (List.mem_cons_self ..)

theorem mergeLoop_ne_noEvent : mergeLoop p ds ≠ .error .noEvent := by
  induction ds generalizing p with
  | nil => simp [mergeLoop]
  | cons d ds ih =>
    rw [mergeLoop]
    split
    · exact ih
    · rename_i error refused
      rintro ⟨rfl⟩
      unfold Purchase.check at refused
      split at refused
      · cases refused
      · split at refused
        · split at refused <;> cases refused
        · cases refused

/-- Only logs without a purchase are refused for having none. -/
theorem eq_nil_of_noEvent (h : mergeEvents ds = .error .noEvent) : ds = [] := by
  unfold mergeEvents at h
  split at h
  · rfl
  · exact absurd h mergeLoop_ne_noEvent

end

/-! ## What a job that gives up has read -/

section

variable (chain : Signature → List String) (parseLogs : List String → List AnchorEvent)

/-- A job is given up for logs without a purchase, or for purchases that disagree. -/
def RefusedOk : Run → Prop
  | .ticket signature (.rejecting _) | .ticket signature .unrecoverable =>
      mergeEvents (purchasesOf chain parseLogs signature) = .error .noEvent ∨
        mergeEvents (purchasesOf chain parseLogs signature) = .error .disagree
  | _ => True

variable {chain parseLogs} {keccak256 : String → Bytes32} {adminPublicKey : Wallet}

theorem RefusedOk.threw (r : Run) : RefusedOk chain parseLogs r.threw := by
  cases r with
  | post p =>
    obtain ⟨p', same⟩ := Run.threw_post p
    rw [same]
    trivial
  | _ => trivial

theorem refusedOk_start {logs : List String} {signature : Signature} (read : logs = chain signature) :
    RefusedOk chain parseLogs (.ticket signature (ticketStart parseLogs logs)) := by
  subst read
  unfold ticketStart
  split
  · trivial
  · rename_i refused
    exact .inl refused
  · rename_i refused
    exact .inr refused
  · trivial

theorem refusedOk_ticketStep {s s' : Store} {signature : Signature} {p p' : TicketPhase} {call : Call}
    (ok : RefusedOk chain parseLogs (.ticket signature p))
    (hs : ticketStep keccak256 s signature p call = some (s', p')) :
    RefusedOk chain parseLogs (.ticket signature p') := by
  unfold ticketStep at hs
  split at hs
  · obtain ⟨-, rfl | rfl⟩ := quiet_updateThen (Option.some.inj hs)
    · exact ok
    · trivial
  · split at hs
    · split at hs
      · cases hs
        trivial
      · have went := Option.some.inj hs
        unfold updateThen at went
        split at went <;> cases went <;> trivial
    · cases hs
  · cases hs
    trivial
  · cases hs

theorem refusedOk_runStep {s s' : Store} {r r' : Run} {call : Call}
    (ok : RefusedOk chain parseLogs r)
    (hs : runStep chain keccak256 adminPublicKey s r call = some (s', r')) :
    RefusedOk chain parseLogs r' := by
  unfold runStep at hs
  split at hs
  case h_1 | h_4 =>
    obtain ⟨_, _, same⟩ := Option.map_eq_some_iff.1 hs
    cases same
    trivial
  case h_8 =>
    obtain ⟨⟨s₁, p'⟩, stepped, same⟩ := Option.map_eq_some_iff.1 hs
    cases same
    exact refusedOk_ticketStep ok stepped
  all_goals
    cases hs
    try trivial

theorem refusedOk_append {runs : List Run} {r q : Run} (ok : RefusedOk chain parseLogs r)
    (all : ∀ q ∈ runs, RefusedOk chain parseLogs q) (mem : q ∈ runs ++ [r]) :
    RefusedOk chain parseLogs q := by
  rcases List.mem_append.1 mem with old | new
  · exact all q old
  · rw [List.mem_singleton.1 new]
    exact ok

theorem refusedOk_set {runs : List Run} {r q : Run} {i : Nat} (ok : RefusedOk chain parseLogs r)
    (all : ∀ q ∈ runs, RefusedOk chain parseLogs q) (mem : q ∈ runs.set i r) :
    RefusedOk chain parseLogs q := by
  rcases List.mem_or_eq_of_mem_set mem with old | rfl
  · exact all q old
  · exact ok

theorem refusedOk_step {s s' : System} {e : Event} (inv : System.Inv chain parseLogs keccak256 s)
    (all : ∀ r ∈ s.runs, RefusedOk chain parseLogs r)
    (hs : System.step chain parseLogs keccak256 adminPublicKey s e = some s') :
    ∀ r ∈ s'.runs, RefusedOk chain parseLogs r := by
  cases e with
  | deliver body =>
    cases hs
    exact fun r mem => refusedOk_append (r := .post _) trivial all mem
  | startWebhook id =>
    obtain ⟨job, _, hs⟩ := Option.bind_eq_some_iff.1 hs
    cases hs
    exact fun r mem => refusedOk_append (r := .webhook job.data .finding) trivial all mem
  | startTicket id =>
    obtain ⟨job, taken, hs⟩ := Option.bind_eq_some_iff.1 hs
    cases hs
    have read := (inv.store.jobs job (JobQueue.mem_take taken).1).logs
    exact fun r mem => refusedOk_append (refusedOk_start read) all mem
  | call i call lost =>
    obtain ⟨r, at_i, hs⟩ := Option.bind_eq_some_iff.1 hs
    obtain ⟨⟨store, r'⟩, stepped, hs⟩ := Option.bind_eq_some_iff.1 hs
    cases hs
    refine fun q mem => refusedOk_set ?_ all mem
    split
    · exact RefusedOk.threw _
    · exact refusedOk_runStep (all r (List.mem_of_getElem? at_i)) stepped
  | throw i =>
    obtain ⟨r, _, hs⟩ := Option.bind_eq_some_iff.1 hs
    cases hs
    exact fun q mem => refusedOk_set (RefusedOk.threw r) all mem
  | crash i =>
    cases hs
    exact fun q mem => refusedOk_set (r := .ended) trivial all mem
  | poll a =>
    obtain ⟨indexer, _, rfl⟩ := System.poll_cases hs
    exact all
  | expireSeen | webhookUpkeep | ticketUpkeep =>
    cases hs
    exact all

end

/-! ## Whose tickets are recorded -/

section

variable (chain : Signature → List String) (parseLogs : List String → List AnchorEvent)

/-- The rows of a signature's orders for a buyer. -/
def Store.ticketsFor (s : Store) (signature : Signature) (buyer : Wallet) : List Ticket :=
  s.db.tickets.filter fun t => s.db.relayOrders.any fun o =>
    o.hash == t.orderHash && o.signature == signature && o.buyer == buyer

/-- Each buyer has a row for every ticket the transaction bought for it. -/
def RecordedForBuyers (s : Store) (signature : Signature) : Prop :=
  ∀ buyer, List.Subperm
    (((purchasesOf chain parseLogs signature).filter (·.buyer == buyer)).flatMap (·.tickets_data))
    ((s.ticketsFor signature buyer).map ticketData)

/-- `ticketWorker` has come to an end with the logs of the signature. -/
def Processed (s : System) (signature : Signature) : Prop :=
  .ticket signature .returned ∈ s.runs ∨ .ticket signature .unrecoverable ∈ s.runs ∨
    ∃ job ∈ s.store.ticketIngestQueue, job.status = .completed ∧ job.data.signature = signature

variable {chain parseLogs} {keccak256 : String → Bytes32} {adminPublicKey : Wallet}
  {signature : Signature}

/-- The order of a signature has all of its tickets, and they are its one buyer's. -/
theorem recorded_of_order {s : Store} (ok : StoreOk chain parseLogs keccak256 s) {o : RelayOrder}
    (mem : o ∈ s.db.relayOrders) (same : o.signature = signature) :
    RecordedForBuyers chain parseLogs s signature := by
  subst same
  obtain ⟨_, p, merged, created, tickets⟩ := ok.recorded o mem
  obtain ⟨-, -, data⟩ := merged_events merged
  have buyers := (agree_of_merged merged).2
  have buyerOf : o.buyer = p.buyer := congrArg RelayOrder.buyer created
  intro buyer
  by_cases mine : buyer = o.buyer
  · subst mine
    have all : (purchasesOf chain parseLogs o.signature).filter (·.buyer == o.buyer) =
        purchasesOf chain parseLogs o.signature := by
      rw [List.filter_eq_self]
      intro d hd
      rw [beq_iff_eq, buyers d hd, buyerOf]
    rw [all, ← data, ← tickets]
    refine List.Sublist.subperm (List.Sublist.map _ ?_)
    refine List.monotone_filter_right _ fun t ht => ?_
    rw [List.any_eq_true]
    exact ⟨o, mem, by rw [beq_iff_eq.1 ht]; simp⟩
  · have none : (purchasesOf chain parseLogs o.signature).filter (·.buyer == buyer) = [] := by
      rw [List.filter_eq_nil_iff]
      intro d hd taken
      exact mine ((beq_iff_eq.1 taken).symm.trans ((buyers d hd).trans buyerOf.symm))
    rw [none]
    exact List.nil_subperm

/-- **Every paid ticket is recorded for its own buyer** exactly when the purchases of the transaction
are of one buyer in one epoch. -/
theorem recordedForBuyers_iff (inj : Function.Injective keccak256)
    (paid : ∀ signature, ∀ d ∈ purchasesOf chain parseLogs signature, d.tickets_data ≠ [])
    {s : System} (h : (System.machine chain parseLogs keccak256 adminPublicKey).Reachable s)
    (processed : Processed s signature) :
    RecordedForBuyers chain parseLogs s.store signature ↔
      Agree (purchasesOf chain parseLogs signature) := by
  have both : System.Inv chain parseLogs keccak256 s ∧ ∀ r ∈ s.runs, RefusedOk chain parseLogs r := by
    refine h.invariant (I := fun s => System.Inv chain parseLogs keccak256 s ∧
      ∀ r ∈ s.runs, RefusedOk chain parseLogs r) (fun s (hi : System.Initial s) => ?_)
      fun _ _ _ inv _ hs => ⟨inv.1.step inj hs, refusedOk_step inv.1 inv.2 hs⟩
    refine ⟨System.Inv.initial hi, fun r mem => ?_⟩
    rw [hi.noRuns] at mem
    cases mem
  obtain ⟨inv, refused⟩ := both
  constructor
  · intro recorded d hd d' hd'
    obtain ⟨x, hx⟩ := List.exists_mem_of_ne_nil _ (paid signature d hd)
    have bought : x ∈ ((purchasesOf chain parseLogs signature).filter (·.buyer == d.buyer)).flatMap
        (·.tickets_data) := List.mem_flatMap.2 ⟨d, List.mem_filter.2 ⟨hd, beq_self_eq_true _⟩, hx⟩
    obtain ⟨t, ht, -⟩ := List.mem_map.1 ((recorded d.buyer).subset bought)
    obtain ⟨o, mem, owns⟩ := List.any_eq_true.1 (List.mem_filter.1 ht).2
    rw [Bool.and_eq_true, Bool.and_eq_true, beq_iff_eq, beq_iff_eq] at owns
    obtain ⟨_, p, merged, -⟩ := inv.store.recorded o mem
    rw [owns.1.2] at merged
    exact (agree_of_merged merged).1 d hd d' hd'
  · intro agree
    have ingested : purchasesOf chain parseLogs signature = [] ∨ Ingested s.store signature := by
      obtain returned | gaveUp | ⟨job, mem, completed, rfl⟩ := processed
      · exact .inr (inv.runs _ returned)
      · obtain none | disagree := refused _ gaveUp
        · exact .inl (eq_nil_of_noEvent none)
        · exact absurd disagree agree.not_refused
      · exact .inr ((inv.store.jobs job mem).completed completed)
    obtain none | ⟨o, mem, same, -⟩ := ingested
    · intro buyer
      rw [none]
      exact List.nil_subperm
    · exact recorded_of_order inv.store mem same

/-- Two purchases of one buyer, with two workers at the job. -/
theorem recordedForBuyers_twoWorkers : ∃ s : System, s.store.db.tickets.length = 3 ∧
    RecordedForBuyers (fun _ => twoInstructions) parseTwo s.store boughtTwice := by
  obtain ⟨s, hs, hp⟩ := Machine.exists_reachable_of_run
    (M := System.machine (fun _ => twoInstructions) parseTwo hashTwo "admin") (s := {})
    ⟨rfl, List.nodup_nil, rfl, rfl, rfl⟩ twoWorkers
    (fun s => s.store.db.tickets.length == 3 && s.store.ticketIngestQueue.any (fun job =>
      job.status == .completed && job.data.signature == boughtTwice)) (by decide +kernel)
  rw [Bool.and_eq_true, beq_iff_eq, List.any_eq_true] at hp
  obtain ⟨three, job, mem, done⟩ := hp
  rw [Bool.and_eq_true, beq_iff_eq, beq_iff_eq] at done
  have paid : ∀ signature, ∀ d ∈ purchasesOf (fun _ => twoInstructions) parseTwo signature,
      d.tickets_data ≠ [] := by
    have both : ∀ d ∈ purchaseEvents (parseTwo twoInstructions), d.tickets_data ≠ [] := by
      decide +kernel
    exact fun _ => both
  have agree : Agree (purchasesOf (fun _ => twoInstructions) parseTwo boughtTwice) := by
    have both : ∀ d ∈ purchaseEvents (parseTwo twoInstructions),
        ∀ d' ∈ purchaseEvents (parseTwo twoInstructions), d.buyer = d'.buyer ∧ d.epoch = d'.epoch := by
      decide +kernel
    exact both
  exact ⟨s, three, (recordedForBuyers_iff (Equiv.injective _) paid hs
    (.inr (.inr ⟨job, mem, done⟩))).2 agree⟩

end

/-! ## Two buyers in one transaction -/

/-- The two purchases, the second of another signer. -/
def twoBuyers : List PurchaseData :=
  [{ buyer := "11111111111111111111111111111111", amount_paid := 2000000, tickets_bought := 2,
     tickets_data := [⟨6, [1, 2, 3, 4, 5]⟩, ⟨2, [7, 8, 9, 10, 11]⟩], timestamp := 1700000000, epoch := 4 },
   { buyer := "11111111111111111111111111111112", amount_paid := 1000000, tickets_bought := 1,
     tickets_data := [⟨9, [3, 8, 13, 21, 30]⟩], timestamp := 1700000000, epoch := 4 }]

def twoSigners : List String :=
  buyInstruction "ahyrVCd3TvMAAAAAAAAAAAAAAAAAAAAAAAAAAAAAAAAAAAAAAAAAAICEHgAAAAAAAgAAAAIAAAAFAAAAAQIDBAUGBQAAAAcICQoLAgDxU2UAAAAABAAAAAAAAAA=" ++
    buyInstruction "ahyrVCd3TvMAAAAAAAAAAAAAAAAAAAAAAAAAAAAAAAAAAAAAAAAAAUBCDwAAAAAAAQAAAAEAAAAFAAAAAwgNFR4JAPFTZQAAAAAEAAAAAAAAAA=="

/-- What the parser finds in these logs, and nothing in any other. -/
def parseTwoBuyers (logs : List String) : List AnchorEvent :=
  if logs = twoSigners then twoBuyers.map fun d => ⟨"TicketPurchaseEvent", d⟩ else []

theorem paid_parseTwoBuyers (signature : Signature) :
    ∀ d ∈ purchasesOf (fun _ => twoSigners) parseTwoBuyers signature, d.tickets_data ≠ [] := by
  have both : ∀ d ∈ purchaseEvents (parseTwoBuyers twoSigners), d.tickets_data ≠ [] := by
    decide +kernel
  exact both

/-- A delivery, and one worker that takes its job to the end. -/
def oneWorker : List Event :=
  .deliver [⟨some boughtTwice, none⟩] :: List.replicate 6 (.call 0 .go false) ++
  [.startWebhook ("wh-" ++ boughtTwice), .call 1 .go false, .call 1 (.fetch .full false) false,
    .call 1 .go false, .startTicket ("ticket-" ++ boughtTwice), .call 2 .go false]

/-- Both have paid, and no ticket is recorded for either. -/
theorem unrecorded_twoBuyers : ¬ ∀ (chain : Signature → List String)
    (parseLogs : List String → List AnchorEvent) (keccak256 : String → Bytes32) (s : System)
    (signature : Signature), Function.Injective keccak256 →
    (∀ signature, ∀ d ∈ purchasesOf chain parseLogs signature, d.tickets_data ≠ []) →
    (System.machine chain parseLogs keccak256 "admin").Reachable s → Processed s signature →
    RecordedForBuyers chain parseLogs s.store signature := by
  intro all
  obtain ⟨s, hs, hp⟩ := Machine.exists_reachable_of_run
    (M := System.machine (fun _ => twoSigners) parseTwoBuyers hashTwo "admin") (s := {})
    ⟨rfl, List.nodup_nil, rfl, rfl, rfl⟩ oneWorker
    (fun s => s.store.db.tickets.isEmpty && s.runs.contains (.ticket boughtTwice .unrecoverable))
    (by decide +kernel)
  rw [Bool.and_eq_true, List.isEmpty_iff, List.contains_iff_mem] at hp
  have recorded := all _ _ _ s boughtTwice (Equiv.injective _) paid_parseTwoBuyers hs (.inr (.inl hp.2))
    "11111111111111111111111111111111"
  have none : (s.store.ticketsFor boughtTwice "11111111111111111111111111111111").map ticketData = [] := by
    rw [Store.ticketsFor, hp.1]
    rfl
  rw [none] at recorded
  have bought : ⟨6, [1, 2, 3, 4, 5]⟩ ∈ ((purchasesOf (fun _ => twoSigners) parseTwoBuyers
      boughtTwice).filter (·.buyer == "11111111111111111111111111111111")).flatMap (·.tickets_data) := by
    decide +kernel
  have found := recorded.subset bought
  cases found

end LordsPot.Ingest
