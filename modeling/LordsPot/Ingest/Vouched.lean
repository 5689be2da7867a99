import LordsPot.Ingest.ExactlyOnce

/-!
# No order without a transaction

A payload is only a doorbell: whoever rings it, an order is created for a signature that the RPC node
has answered for. `Good` is what the node vouches for when it says that a transaction has not failed.
-/

namespace LordsPot.Ingest

section

variable (Good : Signature → Prop)

/-- What a delivery or a job has in hand, where it goes on to an order. -/
def VouchedRun : Run → Prop
  | .webhook signature (.addingTicket _) | .ticket signature _ => Good signature
  | _ => True

def VouchedInfo (sig : SignatureInfo) : Prop := sig.err = false → Good sig.signature

def VouchedPoll : Poll → Prop
  | .looping _ todo => ∀ sig ∈ todo, VouchedInfo Good sig
  | .fetching _ sig todo | .adding _ sig todo =>
      Good sig.signature ∧ ∀ sig ∈ todo, VouchedInfo Good sig
  | _ => True

/-- Every job of the ticket queue and every order is of a transaction that the node has vouched for. -/
structure VouchedStore (s : Store) : Prop where
  jobs : ∀ job ∈ s.ticketIngestQueue, Good job.data.signature
  orders : ∀ o ∈ s.db.relayOrders, Good o.signature

structure Vouched (s : System) : Prop where
  history : ∀ sig ∈ s.indexer.history, VouchedInfo Good sig
  polls : ∀ p ∈ s.indexer.polls, VouchedPoll Good p
  runs : ∀ r ∈ s.runs, VouchedRun Good r
  store : VouchedStore Good s.store

/-- What the node says of a transaction that has not failed is true. -/
def Candid (s : System) : Event → Prop
  | .call i (.fetch answer err) _ => ∀ signature, s.runs[i]? = some (.webhook signature .verifying) →
      answer ≠ .null → err = false → Good signature
  | .poll (.arrive sig) => VouchedInfo Good sig
  | _ => True

end

section

variable {Good Good' : Signature → Prop} {chain : Signature → List String}
  {parseLogs : List String → List AnchorEvent} {keccak256 : String → Bytes32} {adminPublicKey : Wallet}

theorem VouchedInfo.mono (weaker : ∀ signature, Good signature → Good' signature) {sig : SignatureInfo}
    (h : VouchedInfo Good sig) : VouchedInfo Good' sig := fun fine => weaker _ (h fine)

/-- What is good stays good. -/
theorem Vouched.mono (weaker : ∀ signature, Good signature → Good' signature) {s : System}
    (h : Vouched Good s) : Vouched Good' s where
  history sig hsig := (h.history sig hsig).mono weaker
  polls p hp := by
    have was := h.polls p hp
    cases p with
    | looping => exact fun sig hsig => (was sig hsig).mono weaker
    | fetching | adding => exact ⟨weaker _ was.1, fun sig hsig => (was.2 sig hsig).mono weaker⟩
    | _ => trivial
  runs r hr := by
    have was := h.runs r hr
    unfold VouchedRun at was ⊢
    split <;> simp_all
  store := ⟨fun job mem => weaker _ (h.store.jobs job mem), fun o mem => weaker _ (h.store.orders o mem)⟩

theorem VouchedRun.threw {r : Run} (h : VouchedRun Good r) : VouchedRun Good r.threw := by
  cases r with
  | ticket signature p => exact h
  | post p =>
    obtain ⟨p', same⟩ := Run.threw_post p
    rw [same]
    trivial
  | _ => trivial

section Store

variable {s s' : Store} {signature : Signature} {call : Call}

theorem VouchedStore.quiet (h : VouchedStore Good s) (q : Quiet s s') : VouchedStore Good s' where
  jobs := q.jobs ▸ h.jobs
  orders := q.db ▸ h.orders

theorem VouchedStore.enqueueTicket (h : VouchedStore Good s) {job : TicketJob} (good : Good job.signature) :
    VouchedStore Good (s.enqueueTicket job) := by
  refine ⟨fun j mem => ?_, h.orders⟩
  rcases JobQueue.mem_add mem with old | rfl
  · exact h.jobs j old
  · exact good

/-- A change of the ticket queue that keeps what its jobs are about. -/
theorem VouchedStore.requeue (h : VouchedStore Good s) {completes : String → Prop}
    {jobs : List (JobQueue.Job TicketJob)}
    (kept : ∀ job ∈ jobs, ∃ old ∈ s.ticketIngestQueue, JobQueue.Kept completes old job) :
    VouchedStore Good { s with ticketIngestQueue := jobs } := by
  refine ⟨fun job mem => ?_, h.orders⟩
  obtain ⟨old, was, same⟩ := kept job mem
  rw [same.data]
  exact h.jobs old was

theorem vouched_webhookStep {p p' : WebhookPhase} (h : VouchedStore Good s)
    (r : VouchedRun Good (.webhook signature p))
    (candid : ∀ answer err, p = .verifying → call = .fetch answer err → answer ≠ .null → err = false →
      Good signature)
    (hs : webhookStep chain s signature p call = some (s', p')) :
    VouchedStore Good s' ∧ VouchedRun Good (.webhook signature p') := by
  unfold webhookStep at hs
  split at hs
  · split at hs
    · cases hs
      exact ⟨h, trivial⟩
    · cases hs
      refine ⟨h, ?_⟩
      split <;> trivial
  · rename_i answer err
    split at hs
    · cases hs
      exact ⟨h, trivial⟩
    · rename_i known
      split at hs
      · cases hs
        exact ⟨h, trivial⟩
      · rename_i fine
        cases hs
        refine ⟨h, ?_⟩
        split
        · exact candid answer err rfl rfl known (Bool.not_eq_true _ ▸ fine)
        · trivial
  · obtain ⟨q, rfl | rfl⟩ := quiet_updateThen (Option.some.inj hs)
    · exact ⟨h.quiet q, trivial⟩
    · exact ⟨h.quiet q, trivial⟩
  · cases hs
    exact ⟨h.enqueueTicket r, trivial⟩
  · obtain ⟨q, rfl | rfl⟩ := quiet_updateThen (Option.some.inj hs)
    · exact ⟨h.quiet q, trivial⟩
    · exact ⟨h.quiet q, trivial⟩
  · cases hs

/-- The order that a job creates is of the job's own signature. -/
theorem vouched_ticketStep {p p' : TicketPhase} (h : VouchedStore Good s) (good : Good signature)
    (hs : ticketStep keccak256 s signature p call = some (s', p')) : VouchedStore Good s' := by
  unfold ticketStep at hs
  split at hs
  · exact h.quiet (quiet_updateThen (Option.some.inj hs)).1
  · split at hs
    · split at hs
      · cases hs
        exact h
      · have went := Option.some.inj hs
        unfold updateThen at went
        split at went
        · rename_i created
          cases went
          simp only [createOrder] at created
          split at created <;> cases created
          refine ⟨h.jobs, fun o mem => ?_⟩
          rcases List.mem_append.1 mem with old | new
          · exact h.orders o old
          · rw [List.mem_singleton.1 new]
            exact good
        · cases went
          exact h
    · cases hs
  · cases hs
    exact ⟨h.jobs, h.orders⟩
  · cases hs

/-- **The run rule**: a step of a delivery or a job adds nothing that the node has not vouched for. -/
theorem vouched_runStep {r r' : Run} (h : VouchedStore Good s) (run : VouchedRun Good r)
    (candid : ∀ signature answer err, r = .webhook signature .verifying → call = .fetch answer err →
      answer ≠ .null → err = false → Good signature)
    (hs : runStep chain keccak256 adminPublicKey s r call = some (s', r')) :
    VouchedStore Good s' ∧ VouchedRun Good r' := by
  unfold runStep at hs
  split at hs
  case h_1 =>
    obtain ⟨⟨s₁, p'⟩, stepped, same⟩ := Option.map_eq_some_iff.1 hs
    cases same
    exact ⟨h.quiet (quiet_postStep stepped), trivial⟩
  case h_2 | h_3 =>
    cases hs
    exact ⟨⟨h.jobs, h.orders⟩, trivial⟩
  case h_4 =>
    obtain ⟨⟨s₁, p'⟩, stepped, same⟩ := Option.map_eq_some_iff.1 hs
    cases same
    refine vouched_webhookStep h run (fun answer err at_p is => ?_) stepped
    exact candid _ answer err (by rw [at_p]) is
  case h_5 => cases hs; exact ⟨h.requeue fun job => JobQueue.mem_complete, trivial⟩
  case h_6 =>
    cases hs
    exact ⟨h.requeue fun job => JobQueue.mem_setStatus (by decide), trivial⟩
  case h_7 => cases hs; exact ⟨h.requeue fun job => JobQueue.mem_threw, trivial⟩
  case h_8 =>
    obtain ⟨⟨s₁, p'⟩, stepped, same⟩ := Option.map_eq_some_iff.1 hs
    cases same
    exact ⟨vouched_ticketStep h run stepped, run⟩
  case h_9 => cases hs

end Store

/-! ## The indexer -/

section Poll

variable {s s' : State}

/-- A failed signature is skipped, so what is fetched and added is good. -/
theorem vouched_pollStep {p p' : Poll} {act : PollAct}
    (history : ∀ sig ∈ s.history, VouchedInfo Good sig) (h : VouchedPoll Good p)
    (hs : pollStep chain s p act = some (s', p')) : s'.history = s.history ∧ VouchedPoll Good p' := by
  unfold pollStep at hs
  split at hs
  case h_1 cursor =>
    cases hs
    refine ⟨rfl, fun sig hsig => history sig ?_⟩
    have after := List.mem_of_mem_take (List.mem_reverse.1 hsig)
    cases cursor with
    | none => exact after
    | some k => exact (List.takeWhile_sublist _).subset after
  case h_2 sigs sig todo =>
    obtain ⟨first, rest⟩ := List.forall_mem_cons.1 h
    split at hs
    · cases hs
      exact ⟨rfl, rest⟩
    · rename_i fetch
      cases hs
      rw [Bool.or_eq_true, not_or, Bool.not_eq_true] at fetch
      exact ⟨rfl, first fetch.1, rest⟩
  case h_3 =>
    split at hs <;> cases hs
    · exact ⟨rfl, h⟩
    · exact ⟨rfl, h.2⟩
  case h_4 => cases hs; exact ⟨rfl, h.2⟩
  case h_5 => split at hs <;> cases hs <;> exact ⟨rfl, trivial⟩
  case h_6 => cases hs; exact ⟨rfl, trivial⟩
  case h_7 => cases hs

theorem vouched_pollAction {a : Action} (h : ∀ sig ∈ s.history, VouchedInfo Good sig)
    (polls : ∀ p ∈ s.polls, VouchedPoll Good p) (candid : ∀ sig, a = .arrive sig → VouchedInfo Good sig)
    (hs : Ingest.step chain s a = some s') :
    (∀ sig ∈ s'.history, VouchedInfo Good sig) ∧ ∀ p ∈ s'.polls, VouchedPoll Good p := by
  cases a with
  | arrive sig =>
    simp only [Ingest.step] at hs
    split at hs <;> cases hs
    exact ⟨List.forall_mem_cons.2 ⟨candid sig rfl, h⟩, polls⟩
  | order signature => cases hs; exact ⟨h, polls⟩
  | begin =>
    cases hs
    refine ⟨h, fun p hp => ?_⟩
    rcases List.mem_append.1 hp with old | new
    · exact polls p old
    · rw [List.mem_singleton.1 new]
      trivial
  | poll i act =>
    obtain ⟨p, here, hs⟩ := Option.bind_eq_some_iff.1 hs
    obtain ⟨⟨s₁, p'⟩, stepped, hs⟩ := Option.bind_eq_some_iff.1 hs
    cases hs
    obtain ⟨same, next⟩ := vouched_pollStep h (polls p (List.mem_of_getElem? here)) stepped
    refine ⟨fun sig hsig => h sig (same ▸ hsig), fun q hq => ?_⟩
    rcases List.mem_or_eq_of_mem_set hq with old | rfl
    · exact polls q old
    · exact next

end Poll

/-! ## The system -/

section System

variable {s s' : System}

theorem vouched_append {runs : List Run} {r q : Run} (new : VouchedRun Good r)
    (all : ∀ q ∈ runs, VouchedRun Good q) (mem : q ∈ runs ++ [r]) : VouchedRun Good q := by
  rcases List.mem_append.1 mem with old | last
  · exact all q old
  · rw [List.mem_singleton.1 last]
    exact new

theorem vouched_set {runs : List Run} {r q : Run} {i : Nat} (new : VouchedRun Good r)
    (all : ∀ q ∈ runs, VouchedRun Good q) (mem : q ∈ runs.set i r) : VouchedRun Good q := by
  rcases List.mem_or_eq_of_mem_set mem with old | rfl
  · exact all q old
  · exact new

/-- The job that the indexer adds is of the signature it has fetched. -/
theorem VouchedStore.addPolled {store : Store} (h : VouchedStore Good store) {indexer : State}
    (polls : ∀ p ∈ indexer.polls, VouchedPoll Good p) (a : Action) :
    VouchedStore Good (System.addPolled store (System.pollAdds chain indexer a)) := by
  unfold System.addPolled
  split
  · rename_i job added
    unfold System.pollAdds at added
    split at added
    · split at added
      · rename_i here
        cases added
        exact h.enqueueTicket (polls _ (List.mem_of_getElem? here)).1
      · cases added
    · cases added
  · exact h

/-- **The vouching rule**: as long as the node is candid, whatever is delivered, nothing is worked on
that it has not vouched for. -/
theorem Vouched.step {e : Event} (h : Vouched Good s) (candid : Candid Good s e)
    (hs : System.step chain parseLogs keccak256 adminPublicKey s e = some s') : Vouched Good s' := by
  cases e with
  | deliver body =>
    cases hs
    exact ⟨h.history, h.polls, fun _ => vouched_append (r := .post _) trivial h.runs, h.store⟩
  | expireSeen signature =>
    cases hs
    exact ⟨h.history, h.polls, h.runs, h.store.jobs, h.store.orders⟩
  | startWebhook id =>
    obtain ⟨job, _, hs⟩ := Option.bind_eq_some_iff.1 hs
    cases hs
    exact ⟨h.history, h.polls, fun _ => vouched_append (r := .webhook job.data .finding) trivial h.runs,
      h.store.jobs, h.store.orders⟩
  | startTicket id =>
    obtain ⟨job, taken, hs⟩ := Option.bind_eq_some_iff.1 hs
    cases hs
    have good := h.store.jobs job (JobQueue.mem_take taken).1
    exact ⟨h.history, h.polls, fun _ => vouched_append (r := .ticket job.data.signature _) good h.runs,
      h.store.requeue fun _ => JobQueue.mem_setStatus (by decide)⟩
  | call i call lost =>
    obtain ⟨r, here, hs⟩ := Option.bind_eq_some_iff.1 hs
    obtain ⟨⟨store, r'⟩, stepped, hs⟩ := Option.bind_eq_some_iff.1 hs
    cases hs
    obtain ⟨store, next⟩ := vouched_runStep h.store (h.runs r (List.mem_of_getElem? here))
      (fun signature answer err is fetch => by
        subst fetch
        exact candid signature (is ▸ here)) stepped
    refine ⟨h.history, h.polls, fun _ => vouched_set ?_ h.runs, store⟩
    split
    · exact next.threw
    · exact next
  | throw i =>
    obtain ⟨r, here, hs⟩ := Option.bind_eq_some_iff.1 hs
    cases hs
    exact ⟨h.history, h.polls, fun _ => vouched_set (h.runs r (List.mem_of_getElem? here)).threw h.runs,
      h.store⟩
  | crash i =>
    cases hs
    exact ⟨h.history, h.polls, fun _ => vouched_set (r := .ended) trivial h.runs, h.store⟩
  | webhookUpkeep id act =>
    cases hs
    exact ⟨h.history, h.polls, h.runs, h.store.jobs, h.store.orders⟩
  | ticketUpkeep id act =>
    cases hs
    exact ⟨h.history, h.polls, h.runs, h.store.requeue fun _ => JobQueue.mem_upkeep⟩
  | poll a =>
    obtain ⟨indexer, stepped, rfl⟩ := System.poll_cases hs
    obtain ⟨history, polls⟩ := vouched_pollAction (s := s.polled) h.history h.polls
      (fun sig is => by subst is; exact candid) stepped
    exact ⟨history, polls, h.runs, h.store.addPolled h.polls a⟩

theorem Vouched.initial (hi : System.Initial s) (unborn : s.indexer.history = []) : Vouched Good s where
  history sig hsig := by
    rw [unborn] at hsig
    cases hsig
  polls p hp := by
    rw [hi.noPolls] at hp
    cases hp
  runs r hr := by
    rw [hi.noRuns] at hr
    cases hr
  store := by
    rw [hi.store]
    exact ⟨nofun, nofun⟩

end System

end

end LordsPot.Ingest
