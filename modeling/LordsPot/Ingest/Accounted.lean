import LordsPot.Ingest.Buyers
import LordsPot.Library.Audit

/-!
# What has been acknowledged is accounted for

A delivery is marked as seen, so that its repetitions are passed over, when its rows and jobs are
stored. From then on the signature can be found somewhere: its row waits for a job that is still there,
or says why nothing came of it, or a ticket job or an order has it. The mark is what is logged here; it
can expire, the account does not.
-/

namespace LordsPot.Ingest

open Transition

/-! ## Statuses -/

/-- The status of a signature's inbox row. -/
def Store.status? (s : Store) (signature : Signature) : Option WebhookStatus :=
  (Table.findUnique (·.signature) signature s.inbox).map (·.status)

section

variable {s s' : Store} {signature other : Signature}

theorem status_of_find {row : WebhookInbox}
    (h : s.inbox.find? (·.signature == signature) = some row) : s.status? signature = some row.status := by
  have found : Table.findUnique (·.signature) signature s.inbox = some row := h
  rw [Store.status?, found, Option.map_some]

theorem status_of_any :
    s.inbox.any (·.signature == signature) = true ↔ s.status? signature ≠ none := by
  rw [Store.status?, ne_eq, Option.map_eq_none_iff, Table.findUnique_eq_none, not_not]
  simp

/-- One row is inserted, where its signature has none yet. -/
theorem status_insert (s : Store) (signature : Signature) :
    Store.status? { s with inbox := if s.inbox.any (·.signature == signature) then s.inbox
      else s.inbox ++ [{ signature := signature }] } other =
    if other = signature ∧ s.status? signature = none then some .RECEIVED else s.status? other := by
  split
  · rename_i there
    rw [if_neg fun h => status_of_any.1 there h.2]
  · rename_i absent
    rw [status_of_any, not_not] at absent
    have fresh : signature ∉ s.inbox.map (·.signature) := by
      rwa [Store.status?, Option.map_eq_none_iff, Table.findUnique_eq_none] at absent
    rw [absent, Store.status?, Table.findUnique_insert _ fresh]
    by_cases this : signature = other
    · rw [if_pos this, if_pos ⟨this.symm, rfl⟩]
      rfl
    · rw [if_neg this, if_neg fun h => this h.1.symm]
      rfl

theorem status_createMany (signatures : List Signature) : (s.createMany signatures).status? signature =
    (s.status? signature).or (if signature ∈ signatures then some .RECEIVED else none) := by
  induction signatures generalizing s with
  | nil => simp [Store.createMany]
  | cons first signatures ih =>
    have next := ih (s := { s with inbox := if s.inbox.any (·.signature == first) then s.inbox
      else s.inbox ++ [{ signature := first }] })
    rw [status_insert] at next
    refine next.trans ?_
    by_cases this : signature = first
    · subst this
      cases s.status? signature <;> simp
    · simp [this]

theorem status_updateInbox {status : WebhookStatus} {error : Option String}
    (h : s.updateInbox signature status error = some s') :
    s'.status? other = if other = signature then some status else s.status? other := by
  unfold Store.updateInbox at h
  split at h
  · rename_i there
    cases h
    rw [Store.status?, Table.findUnique_updateMany (ρ := WebhookInbox) _
      (f := fun row => { row with status := status, error := error.or row.error }) fun _ => rfl,
      Store.status?]
    cases found : Table.findUnique (·.signature) other s.inbox with
    | none =>
      rw [if_neg]
      · rfl
      · rintro rfl
        exact status_of_any.1 there (by rw [Store.status?, found, Option.map_none])
    | some row =>
      have own : row.signature = other := Table.key_of_findUnique found
      by_cases this : other = signature <;> simp [own, this]
  · cases h

end

/-! ## The account -/

section

variable (chain : Signature → List String) (parseLogs : List String → List AnchorEvent)
  (failed : Signature → Bool)

/-- The signature's transaction bought nothing. -/
def Bootless (signature : Signature) : Prop :=
  failed signature = true ∨ buysTicket (chain signature) = false

/-- Its purchases cannot be one order. -/
def Refused (signature : Signature) : Prop :=
  mergeEvents (purchasesOf chain parseLogs signature) = .error .noEvent ∨
    mergeEvents (purchasesOf chain parseLogs signature) = .error .disagree

/-- `ticketWorker` has it, or has made an order of it. -/
def HandedOn (s : Store) (signature : Signature) : Prop :=
  Ingested s signature ∨
    ∃ job ∈ s.ticketIngestQueue, job.status ≠ .completed ∧ job.data.signature = signature

def Accounted (s : Store) (signature : Signature) : Prop :=
  match s.status? signature with
  | none => False
  | some .RECEIVED => ∃ job ∈ s.webhookIngestQueue, job.status ≠ .completed ∧ job.data = signature
  | some .SKIPPED => Bootless chain failed signature
  | some .FAILED => Refused chain parseLogs signature
  | some .PROCESSED => HandedOn s signature

/-- The row is there, and its job if it still waits. -/
def Stored (s : Store) (signature : Signature) : Prop :=
  ∃ status, s.status? signature = some status ∧
    (status = .RECEIVED → ∃ job ∈ s.webhookIngestQueue, job.data = signature)

/-- The job of `ticketWorker` or the order is there. -/
def Passed (s : Store) (signature : Signature) : Prop :=
  Ingested s signature ∨ ∃ job ∈ s.ticketIngestQueue, job.data.signature = signature

structure WebhookJobOk (s : Store) (job : JobQueue.Job Signature) : Prop where
  id : job.id = "wh-" ++ job.data
  row : s.status? job.data ≠ none
  completed : job.status = .completed → s.status? job.data ≠ some .RECEIVED

/-- What a status says. -/
def Tells (s : Store) (signature : Signature) : WebhookStatus → Prop
  | .RECEIVED => True
  | .SKIPPED => Bootless chain failed signature
  | .FAILED => Refused chain parseLogs signature
  | .PROCESSED => Passed s signature

/-- What the statuses say is so. -/
structure Truthful (s : Store) : Prop where
  jobs : ∀ job ∈ s.webhookIngestQueue, WebhookJobOk s job
  tells : ∀ signature status, s.status? signature = some status →
    Tells chain parseLogs failed s signature status

/-- What a job of `webhookIngestWorker` has seen to before it goes on. -/
def WebhookSeen (s : Store) (signature : Signature) : WebhookPhase → Prop
  | .returned => s.status? signature ≠ some .RECEIVED
  | .skipping _ => Bootless chain failed signature
  | .markingProcessed => Passed s signature
  | _ => True

/-- What a run has seen to before it goes on. -/
def SeenTo (s : Store) : Run → Prop
  | .post (.enqueuing fresh) => ∀ signature ∈ fresh, s.status? signature ≠ none
  | .post (.marking todo _) => ∀ signature ∈ todo, Stored s signature
  | .webhook signature p => s.status? signature ≠ none ∧ WebhookSeen chain failed s signature p
  | _ => True

end

section

variable {chain : Signature → List String} {parseLogs : List String → List AnchorEvent}
  {keccak256 : String → Bytes32} {failed : Signature → Bool} {s s' : Store} {signature : Signature}

/-- What no step undoes. -/
structure Later (s s' : Store) : Prop where
  row : ∀ signature, s.status? signature ≠ none → s'.status? signature ≠ none
  received : ∀ signature, s.status? signature ≠ none → s'.status? signature = some .RECEIVED →
    s.status? signature = some .RECEIVED ∧
      ∀ job ∈ s.webhookIngestQueue, job.data = signature →
        ∃ job ∈ s'.webhookIngestQueue, job.data = signature
  passed : ∀ signature, Passed s signature → Passed s' signature

theorem Stored.later (l : Later s s') (h : Stored s signature) : Stored s' signature := by
  obtain ⟨status, is, waits⟩ := h
  have there : s.status? signature ≠ none := by rw [is]; exact Option.some_ne_none _
  obtain ⟨status', is'⟩ := Option.ne_none_iff_exists'.1 (l.row signature there)
  refine ⟨status', is', ?_⟩
  rintro rfl
  obtain ⟨was, kept⟩ := l.received signature there is'
  rw [is] at was
  obtain ⟨job, mem, own⟩ := waits (Option.some.inj was)
  exact kept job mem own

theorem SeenTo.later (l : Later s s') {r : Run} (h : SeenTo chain failed s r) :
    SeenTo chain failed s' r := by
  cases r with
  | post p =>
    cases p with
    | enqueuing fresh => exact fun signature mem => l.row signature (h signature mem)
    | marking todo status => exact fun signature mem => (h signature mem).later l
    | _ => trivial
  | webhook signature p =>
    refine ⟨l.row signature h.1, ?_⟩
    have own := h.2
    cases p with
    | returned => exact fun received => own (l.received signature h.1 received).1
    | skipping error => exact own
    | markingProcessed => exact l.passed signature own
    | _ => trivial
  | _ => trivial

theorem SeenTo.threw {r : Run} (h : SeenTo chain failed s r) : SeenTo chain failed s r.threw := by
  cases r with
  | webhook signature p => exact ⟨h.1, trivial⟩
  | post p =>
    cases p with
    | marking todo status => exact h
    | _ => trivial
  | _ => trivial

/-- A stored signature is accounted for where the statuses are truthful. -/
theorem Stored.accounted (ok : StoreOk chain parseLogs keccak256 s)
    (truth : Truthful chain parseLogs failed s) (h : Stored s signature) :
    Accounted chain parseLogs failed s signature := by
  obtain ⟨status, is, waits⟩ := h
  rw [Accounted, is]
  cases status with
  | RECEIVED =>
    obtain ⟨job, mem, own⟩ := waits rfl
    refine ⟨job, mem, fun completed => ?_, own⟩
    exact (truth.jobs job mem).completed completed (own ▸ is)
  | SKIPPED => exact truth.tells signature _ is
  | FAILED => exact truth.tells signature _ is
  | PROCESSED =>
    rcases truth.tells signature _ is with ingested | ⟨job, mem, own⟩
    · exact .inl ingested
    · by_cases completed : job.status = .completed
      · exact .inl (own ▸ (ok.jobs job mem).completed completed)
      · exact .inr ⟨job, mem, completed, own⟩

/-! ## Steps -/

structure Advances (chain : Signature → List String) (parseLogs : List String → List AnchorEvent)
    (failed : Signature → Bool) (s s' : Store) : Prop where
  later : Later s s'
  truth : Truthful chain parseLogs failed s'

theorem Tells.mono (passed : ∀ signature, Passed s signature → Passed s' signature)
    {status : WebhookStatus} (h : Tells chain parseLogs failed s signature status) :
    Tells chain parseLogs failed s' signature status := by
  cases status with
  | PROCESSED => exact passed signature h
  | _ => exact h

/-- Inbox and webhook jobs stay. -/
theorem Truthful.frame (truth : Truthful chain parseLogs failed s) (inbox : s'.inbox = s.inbox)
    (jobs : s'.webhookIngestQueue = s.webhookIngestQueue)
    (passed : ∀ signature, Passed s signature → Passed s' signature) :
    Advances chain parseLogs failed s s' := by
  have same : ∀ signature, s'.status? signature = s.status? signature := fun signature => by
    rw [Store.status?, inbox, Store.status?]
  refine ⟨⟨fun signature => ?_, fun signature _ received => ?_, passed⟩, ⟨fun job mem => ?_, ?_⟩⟩
  · rw [same]
    exact id
  · rw [same] at received
    exact ⟨received, fun job mem own => ⟨job, by rwa [jobs], own⟩⟩
  · rw [jobs] at mem
    have ok := truth.jobs job mem
    exact ⟨ok.id, by rw [same]; exact ok.row, by rw [same]; exact ok.completed⟩
  · intro signature status is
    rw [same] at is
    exact (truth.tells signature status is).mono passed

/-- Only the inbox changes: rows stay, none goes back to RECEIVED, and a new status says what is so. -/
theorem Truthful.restatus (truth : Truthful chain parseLogs failed s) (q : Quiet s s')
    (jobs : s'.webhookIngestQueue = s.webhookIngestQueue)
    (change : ∀ signature, s'.status? signature = s.status? signature ∨ ∃ status,
      s'.status? signature = some status ∧ Tells chain parseLogs failed s signature status ∧
        (status = .RECEIVED → s.status? signature = none)) : Advances chain parseLogs failed s s' := by
  have passed : ∀ signature, Passed s signature → Passed s' signature := fun signature h => by
    rwa [Passed, Ingested, q.db, q.relayed, q.jobs]
  have row : ∀ signature, s.status? signature ≠ none → s'.status? signature ≠ none := by
    intro signature there
    rcases change signature with same | ⟨status, is, -⟩
    · rwa [same]
    · rw [is]
      exact Option.some_ne_none _
  have received : ∀ signature, s.status? signature ≠ none → s'.status? signature = some .RECEIVED →
      s.status? signature = some .RECEIVED := by
    intro signature there now
    rcases change signature with same | ⟨status, is, -, fresh⟩
    · rwa [same] at now
    · rw [is] at now
      exact absurd (fresh (Option.some.inj now)) there
  refine ⟨⟨row, fun signature there now => ⟨received signature there now, ?_⟩, passed⟩,
    ⟨fun job mem => ?_, ?_⟩⟩
  · exact fun job mem own => ⟨job, by rwa [jobs], own⟩
  · rw [jobs] at mem
    have ok := truth.jobs job mem
    exact ⟨ok.id, row _ ok.row, fun completed now => ok.completed completed (received _ ok.row now)⟩
  · intro signature status is
    rcases change signature with same | ⟨status', is', told, -⟩
    · rw [same] at is
      exact (truth.tells signature status is).mono passed
    · rw [is] at is'
      rw [Option.some.inj is']
      exact told.mono passed

theorem Truthful.createMany (truth : Truthful chain parseLogs failed s) (signatures : List Signature) :
    Advances chain parseLogs failed s (s.createMany signatures) := by
  refine truth.restatus ⟨rfl, rfl, rfl⟩ rfl fun signature => ?_
  rw [status_createMany]
  cases was : s.status? signature with
  | some status => exact .inl rfl
  | none =>
    rw [Option.none_or]
    split
    · exact .inr ⟨_, rfl, trivial, fun _ => rfl⟩
    · exact .inl rfl

theorem Truthful.updateInbox (truth : Truthful chain parseLogs failed s) {status : WebhookStatus}
    {error : Option String} (told : Tells chain parseLogs failed s signature status)
    (settled : status ≠ .RECEIVED) (updated : s.updateInbox signature status error = some s') :
    Advances chain parseLogs failed s s' ∧ s'.status? signature = some status := by
  have statuses : ∀ other, s'.status? other = if other = signature then some status else s.status? other :=
    fun other => status_updateInbox updated
  refine ⟨?_, by rw [statuses, if_pos rfl]⟩
  have same : Quiet s s' ∧ s'.webhookIngestQueue = s.webhookIngestQueue := by
    unfold Store.updateInbox at updated
    split at updated
    · cases updated
      exact ⟨⟨rfl, rfl, rfl⟩, rfl⟩
    · cases updated
  refine truth.restatus same.1 same.2 fun other => ?_
  rw [statuses]
  split
  · rename_i this
    subst this
    exact .inr ⟨status, rfl, told, fun received => absurd received settled⟩
  · exact .inl rfl

/-- The webhook jobs change; one completes only where its row is past RECEIVED, and only completed ones
are dropped. -/
theorem Truthful.requeue (truth : Truthful chain parseLogs failed s) {completes : String → Prop}
    {jobs : List (JobQueue.Job Signature)}
    (kept : ∀ job ∈ jobs, ∃ old ∈ s.webhookIngestQueue, JobQueue.Kept completes old job)
    (done : ∀ signature, completes ("wh-" ++ signature) → s.status? signature ≠ some .RECEIVED)
    (held : ∀ job ∈ s.webhookIngestQueue, job.status ≠ .completed →
      ∃ job' ∈ jobs, job'.data = job.data) :
    Advances chain parseLogs failed s { s with webhookIngestQueue := jobs } := by
  refine ⟨⟨fun _ there => there, fun signature _ received => ⟨received, ?_⟩, fun _ passed => passed⟩,
    ⟨fun job mem => ?_, truth.tells⟩⟩
  · rintro job mem rfl
    refine held job mem fun completed => ?_
    exact (truth.jobs job mem).completed completed received
  · obtain ⟨old, was, same⟩ := kept job mem
    have ok := truth.jobs old was
    refine ⟨by rw [same.id, same.data, ok.id], by rw [same.data]; exact ok.row, fun completed => ?_⟩
    rw [same.data]
    rcases same.completed completed with before | now
    · exact ok.completed before
    · exact done _ (ok.id ▸ now)

theorem Advances.trans {s'' : Store} (h : Advances chain parseLogs failed s s')
    (h' : Advances chain parseLogs failed s' s'') : Advances chain parseLogs failed s s'' where
  later := {
    row := fun signature there => h'.later.row signature (h.later.row signature there)
    received := fun signature there now => by
      obtain ⟨between, held'⟩ := h'.later.received signature (h.later.row signature there) now
      obtain ⟨before, held⟩ := h.later.received signature there between
      refine ⟨before, fun job mem own => ?_⟩
      obtain ⟨job', mem', own'⟩ := held job mem own
      exact held' job' mem' own'
    passed := fun signature passed => h'.later.passed signature (h.later.passed signature passed) }
  truth := h'.truth

theorem Truthful.refl (truth : Truthful chain parseLogs failed s) : Advances chain parseLogs failed s s :=
  truth.frame rfl rfl fun _ => id

theorem Truthful.add (truth : Truthful chain parseLogs failed s)
    (row : s.status? signature ≠ none) :
    Advances chain parseLogs failed s (s.enqueueWebhook signature) := by
  refine ⟨⟨fun _ there => there, fun _ _ received => ⟨received, fun job mem own => ?_⟩, fun _ => id⟩,
    ⟨fun job mem => ?_, truth.tells⟩⟩
  · exact ⟨job, JobQueue.held_add mem, own⟩
  · rcases JobQueue.mem_add mem with old | rfl
    · have ok := truth.jobs job old
      exact ⟨ok.id, ok.row, ok.completed⟩
    · exact ⟨rfl, row, fun completed => by cases completed⟩

theorem stored_add (truth : Truthful chain parseLogs failed (s.enqueueWebhook signature))
    (row : s.status? signature ≠ none) : Stored (s.enqueueWebhook signature) signature := by
  obtain ⟨status, is⟩ := Option.ne_none_iff_exists'.1 row
  refine ⟨status, is, fun _ => ?_⟩
  obtain ⟨job, mem, same⟩ := JobQueue.exists_add ("wh-" ++ signature) signature s.webhookIngestQueue
  have own := (truth.jobs job mem).id
  rw [same, String.append_right_inj] at own
  exact ⟨job, mem, own.symm⟩

/-- The jobs of a delivery are added, each with its row there. -/
theorem Truthful.enqueue (fresh : List Signature) (truth : Truthful chain parseLogs failed s)
    (rows : ∀ signature ∈ fresh, s.status? signature ≠ none) :
    Advances chain parseLogs failed s (fresh.foldl Store.enqueueWebhook s) ∧
      ∀ signature ∈ fresh, Stored (fresh.foldl Store.enqueueWebhook s) signature := by
  induction fresh generalizing s with
  | nil => exact ⟨truth.refl, fun _ mem => by cases mem⟩
  | cons first fresh ih =>
    have one : Advances chain parseLogs failed s (s.enqueueWebhook first) := truth.add
      (rows first List.mem_cons_self)
    obtain ⟨rest, stored⟩ := ih one.truth fun signature mem =>
      one.later.row signature (rows signature (List.mem_cons_of_mem _ mem))
    refine ⟨one.trans rest, List.forall_mem_cons.2 ⟨?_, stored⟩⟩
    have here : Stored (s.enqueueWebhook first) first := stored_add one.truth (rows first List.mem_cons_self)
    exact here.later rest.later

/-- The order stays, and so does every ticket job that has not been completed behind one. -/
theorem Passed.requeue (ok : StoreOk chain parseLogs keccak256 s) (e : Extends s s')
    (held : ∀ job ∈ s.ticketIngestQueue, job.status ≠ .completed →
      ∃ job' ∈ s'.ticketIngestQueue, job'.data = job.data)
    (h : Passed s signature) : Passed s' signature := by
  rcases h with ingested | ⟨job, mem, rfl⟩
  · exact .inl (ingested.mono e)
  · by_cases completed : job.status = .completed
    · exact .inl (((ok.jobs job mem).completed completed).mono e)
    · obtain ⟨job', mem', same⟩ := held job mem completed
      exact .inr ⟨job', mem', by rw [same]⟩

/-- The ticket jobs change, and only completed ones are dropped. -/
theorem Truthful.requeueTickets (truth : Truthful chain parseLogs failed s)
    (ok : StoreOk chain parseLogs keccak256 s) {jobs : List (JobQueue.Job TicketJob)}
    (held : ∀ job ∈ s.ticketIngestQueue, job.status ≠ .completed →
      ∃ job' ∈ jobs, job'.data = job.data) :
    Advances chain parseLogs failed s { s with ticketIngestQueue := jobs } :=
  truth.frame rfl rfl fun _ =>
    Passed.requeue ok ⟨List.Subset.refl _, List.Subset.refl _⟩ held

/-- An inbox update that tells what is so, or a throw. -/
theorem Truthful.updateThen (truth : Truthful chain parseLogs failed s) {γ : Type}
    (status : WebhookStatus) {error : Option String} {next thrown went : γ}
    (told : Tells chain parseLogs failed s signature status) (settled : status ≠ .RECEIVED)
    (hs : updateThen s (s.updateInbox signature status error) next thrown = (s', went)) :
    Advances chain parseLogs failed s s' ∧
      (went = next ∧ s'.status? signature = some status ∨ went = thrown) := by
  unfold Ingest.updateThen at hs
  split at hs
  · rename_i updated
    cases hs
    obtain ⟨advances, is⟩ := truth.updateInbox told settled updated
    exact ⟨advances, .inl ⟨rfl, is⟩⟩
  · cases hs
    exact ⟨truth.refl, .inr rfl⟩

variable {adminPublicKey : Wallet} {call : Call}

theorem advances_postStep {p p' : PostPhase} (truth : Truthful chain parseLogs failed s)
    (seen : SeenTo chain failed s (.post p)) (hs : postStep adminPublicKey s p call = some (s', p')) :
    Advances chain parseLogs failed s s' ∧ SeenTo chain failed s' (.post p') := by
  unfold postStep at hs
  split at hs
  · split at hs
    · cases hs
      exact ⟨truth.refl, trivial⟩
    · split at hs <;> cases hs <;> exact ⟨truth.refl, trivial⟩
  · cases hs
    exact ⟨truth.refl, trivial⟩
  · cases hs
    exact ⟨truth.refl, trivial⟩
  · rename_i fresh
    cases hs
    refine ⟨truth.createMany fresh, fun signature mem => ?_⟩
    rw [status_createMany, if_pos mem]
    cases s.status? signature <;> exact Option.some_ne_none _
  · cases hs
    exact truth.enqueue _ seen
  · rename_i first todo status
    cases hs
    obtain ⟨-, rest⟩ := List.forall_mem_cons.1 seen
    have marked : Advances chain parseLogs failed s { s with seen := first :: s.seen } :=
      truth.frame rfl rfl fun _ => id
    exact ⟨marked, fun signature mem => (rest signature mem).later marked.later⟩
  · cases hs
    exact ⟨truth.refl, (List.forall_mem_cons.1 seen).2⟩
  · cases hs
    exact ⟨truth.refl, trivial⟩
  · cases hs

/-- The RPC node does not know a transaction, or answers what has become of it, with its logs. -/
def honest (failed : Signature → Bool) (signature : Signature) : Call → Bool
  | .fetch answer err => answer == .null || answer == .full && err == failed signature
  | _ => true

theorem advances_webhookStep {p p' : WebhookPhase} (truth : Truthful chain parseLogs failed s)
    (after : StoreOk chain parseLogs keccak256 s') (answers : honest failed signature call = true)
    (seen : SeenTo chain failed s (.webhook signature p))
    (hs : webhookStep chain s signature p call = some (s', p')) :
    Advances chain parseLogs failed s s' ∧ SeenTo chain failed s' (.webhook signature p') := by
  obtain ⟨row, own⟩ := seen
  unfold webhookStep at hs
  split at hs
  · split at hs
    · rename_i absent
      exact absurd (Option.map_eq_none_iff.2 absent) row
    · rename_i inbox found
      cases hs
      refine ⟨truth.refl, row, ?_⟩
      by_cases processed : inbox.status = .PROCESSED
      · rw [if_pos processed, WebhookSeen, status_of_find found, processed]
        exact fun received => by cases received
      · rw [if_neg processed]
        trivial
  · rename_i answer err
    split at hs
    · cases hs
      exact ⟨truth.refl, row, trivial⟩
    · rename_i known
      simp only [honest, Bool.or_eq_true, Bool.and_eq_true, beq_iff_eq] at answers
      obtain ⟨rfl, rfl⟩ := answers.resolve_left known
      split at hs
      · rename_i err
        cases hs
        exact ⟨truth.refl, row, .inl err⟩
      · cases hs
        refine ⟨truth.refl, row, ?_⟩
        cases bought : buysTicket (Answer.full.logMessages (chain signature)) with
        | true => trivial
        | false => exact .inr bought
  · obtain ⟨advances, ⟨rfl, is⟩ | rfl⟩ := truth.updateThen .SKIPPED own (by decide) (Option.some.inj hs)
    · refine ⟨advances, advances.later.row _ row, ?_⟩
      rw [WebhookSeen, is]
      exact fun received => by cases received
    · exact ⟨advances, advances.later.row _ row, trivial⟩
  · rename_i logs
    cases hs
    have advances : Advances chain parseLogs failed s (s.enqueueTicket ⟨signature, logs⟩) :=
      truth.frame rfl rfl fun other passed => passed.imp_right fun ⟨job, mem, own⟩ =>
        ⟨job, JobQueue.held_add mem, own⟩
    refine ⟨advances, advances.later.row _ row, .inr ?_⟩
    obtain ⟨job, mem, same⟩ := JobQueue.exists_add ("ticket-" ++ signature)
      (⟨signature, logs⟩ : TicketJob) s.ticketIngestQueue
    have own := (after.jobs job mem).id
    rw [same, String.append_right_inj] at own
    exact ⟨job, mem, own.symm⟩
  · obtain ⟨advances, ⟨rfl, is⟩ | rfl⟩ := truth.updateThen .PROCESSED own (by decide) (Option.some.inj hs)
    · refine ⟨advances, advances.later.row _ row, ?_⟩
      rw [WebhookSeen, is]
      exact fun received => by cases received
    · exact ⟨advances, advances.later.row _ row, trivial⟩
  · cases hs

theorem advances_ticketStep {p p' : TicketPhase} (truth : Truthful chain parseLogs failed s)
    (ok : StoreOk chain parseLogs keccak256 s) (e : Extends s s')
    (refused : RefusedOk chain parseLogs (.ticket signature p))
    (hs : ticketStep keccak256 s signature p call = some (s', p')) :
    Advances chain parseLogs failed s s' := by
  have same : s'.inbox = s.inbox → s'.webhookIngestQueue = s.webhookIngestQueue →
      s'.ticketIngestQueue = s.ticketIngestQueue → Advances chain parseLogs failed s s' :=
    fun inbox jobs tickets => truth.frame inbox jobs fun _ =>
      Passed.requeue ok e fun job mem _ => ⟨job, by rwa [tickets], rfl⟩
  unfold ticketStep at hs
  split at hs
  · exact (truth.updateThen .FAILED refused (by decide) (Option.some.inj hs)).1
  · split at hs
    · split at hs
      · cases hs
        exact truth.refl
      · have went := Option.some.inj hs
        unfold Ingest.updateThen at went
        split at went
        · rename_i created
          cases went
          simp only [createOrder] at created
          split at created
          · cases created
          · cases created
            exact same rfl rfl rfl
        · cases went
          exact truth.refl
    · cases hs
  · cases hs
    exact same rfl rfl rfl
  · cases hs

/-- **The run rule**: a step of a delivery or a job keeps the account. -/
theorem advances_runStep {r r' : Run} (truth : Truthful chain parseLogs failed s)
    (ok : StoreOk chain parseLogs keccak256 s) (after : Steps chain parseLogs keccak256 s s')
    (answers : ∀ signature p, r = .webhook signature p → honest failed signature call = true)
    (seen : SeenTo chain failed s r) (refused : RefusedOk chain parseLogs r)
    (hs : runStep chain keccak256 adminPublicKey s r call = some (s', r')) :
    Advances chain parseLogs failed s s' ∧ SeenTo chain failed s' r' := by
  unfold runStep at hs
  split at hs
  case h_1 =>
    obtain ⟨⟨s₁, p'⟩, stepped, same⟩ := Option.map_eq_some_iff.1 hs
    cases same
    exact advances_postStep truth seen stepped
  case h_2 signature =>
    cases hs
    refine ⟨truth.requeue (fun job => JobQueue.mem_complete) (fun other same => ?_)
      (fun job mem _ => JobQueue.held_setStatus mem), trivial⟩
    rw [String.append_right_inj] at same
    rw [same]
    exact seen.2
  case h_3 =>
    cases hs
    exact ⟨truth.requeue (fun job => JobQueue.mem_threw) (fun _ none => none.elim)
      (fun job mem _ => JobQueue.held_threw mem), trivial⟩
  case h_4 =>
    obtain ⟨⟨s₁, p'⟩, stepped, same⟩ := Option.map_eq_some_iff.1 hs
    cases same
    exact advances_webhookStep truth after.ok (answers _ _ rfl) seen stepped
  case h_5 | h_6 =>
    cases hs
    exact ⟨truth.requeueTickets ok fun job mem _ => JobQueue.held_setStatus mem, trivial⟩
  case h_7 =>
    cases hs
    exact ⟨truth.requeueTickets ok fun job mem _ => JobQueue.held_threw mem, trivial⟩
  case h_8 =>
    obtain ⟨⟨s₁, p'⟩, stepped, same⟩ := Option.map_eq_some_iff.1 hs
    cases same
    exact ⟨advances_ticketStep truth ok after.extended refused stepped, trivial⟩
  case h_9 => cases hs

end

/-! ## Runs of the system -/

/-- The signature that a step marks as seen. -/
def acknowledges (s : System) : Event → List Signature
  | .call i .go _ => match s.runs[i]? with
    | some (.post (.marking (signature :: _) _)) => [signature]
    | _ => []
  | _ => []

/-- The RPC node is honest, and no failed job is dropped. -/
def dependable (failed : Signature → Bool) (s : System) : Event → Bool
  | .call i call _ => match s.runs[i]? with
    | some (.webhook signature _) => honest failed signature call
    | _ => true
  | .webhookUpkeep id act => JobQueue.keepsFailed id s.store.webhookIngestQueue act
  | .ticketUpkeep id act => JobQueue.keepsFailed id s.store.ticketIngestQueue act
  | _ => true

section

variable {chain : Signature → List String} {parseLogs : List String → List AnchorEvent}
  {keccak256 : String → Bytes32} {adminPublicKey : Wallet} {failed : Signature → Bool} {s s' : System}

/-- The stores advance, and every run is an old one or has seen to what it needs. -/
theorem Advances.runs {store store' : Store} (h : Advances chain parseLogs failed store store')
    {runs runs' : List Run} (all : ∀ r ∈ runs, SeenTo chain failed store r)
    (new : ∀ r ∈ runs', r ∈ runs ∨ SeenTo chain failed store' r) :
    Advances chain parseLogs failed store store' ∧ ∀ r ∈ runs', SeenTo chain failed store' r :=
  ⟨h, fun r mem => (new r mem).elim (fun old => (all r old).later h.later) id⟩

theorem seenTo_append {store : Store} {runs : List Run} {r q : Run} (new : SeenTo chain failed store r)
    (mem : q ∈ runs ++ [r]) : q ∈ runs ∨ SeenTo chain failed store q := by
  refine (List.mem_append.1 mem).imp_right fun last => ?_
  rw [List.mem_singleton.1 last]
  exact new

theorem seenTo_set {store : Store} {runs : List Run} {r q : Run} {i : Nat}
    (new : SeenTo chain failed store r) (mem : q ∈ runs.set i r) :
    q ∈ runs ∨ SeenTo chain failed store q := by
  refine (List.mem_or_eq_of_mem_set mem).imp_right fun same => ?_
  rw [same]
  exact new

theorem advances_step (inj : Function.Injective keccak256) {e : Event}
    (inv : System.Inv chain parseLogs keccak256 s) (refused : ∀ r ∈ s.runs, RefusedOk chain parseLogs r)
    (truth : Truthful chain parseLogs failed s.store) (all : ∀ r ∈ s.runs, SeenTo chain failed s.store r)
    (ok : dependable failed s e = true)
    (hs : System.step chain parseLogs keccak256 adminPublicKey s e = some s') :
    Advances chain parseLogs failed s.store s'.store ∧ ∀ r ∈ s'.runs, SeenTo chain failed s'.store r := by
  cases e with
  | deliver body =>
    cases hs
    exact truth.refl.runs all fun q mem => seenTo_append (r := .post (.scanning body [])) trivial mem
  | expireSeen signature =>
    cases hs
    have advances : Advances chain parseLogs failed s.store
        { s.store with seen := s.store.seen.filter (· != signature) } :=
      truth.frame rfl rfl fun _ => id
    exact advances.runs all fun q mem => .inl mem
  | startWebhook id =>
    obtain ⟨job, taken, hs⟩ := Option.bind_eq_some_iff.1 hs
    cases hs
    have row := (truth.jobs job (JobQueue.mem_take taken).1).row
    have advances : Advances chain parseLogs failed s.store { s.store with
        webhookIngestQueue := JobQueue.setStatus id .active s.store.webhookIngestQueue } :=
      truth.requeue (fun _ => JobQueue.mem_setStatus fun differs => by cases differs)
        (fun _ none => none.elim) fun job mem _ => JobQueue.held_setStatus mem
    exact advances.runs all fun q mem => seenTo_append (r := .webhook job.data .finding) ⟨row, trivial⟩ mem
  | startTicket id =>
    obtain ⟨job, taken, hs⟩ := Option.bind_eq_some_iff.1 hs
    cases hs
    have advances : Advances chain parseLogs failed s.store { s.store with
        ticketIngestQueue := JobQueue.setStatus id .active s.store.ticketIngestQueue } :=
      truth.requeueTickets inv.store fun job mem _ => JobQueue.held_setStatus mem
    exact advances.runs all fun q mem =>
      seenTo_append (r := .ticket job.data.signature (ticketStart parseLogs job.data.logs)) trivial mem
  | call i call lost =>
    obtain ⟨r, at_i, hs⟩ := Option.bind_eq_some_iff.1 hs
    obtain ⟨⟨store, r'⟩, stepped, hs⟩ := Option.bind_eq_some_iff.1 hs
    cases hs
    have mem := List.mem_of_getElem? at_i
    have after := (runStep_ok inj inv.store (inv.runs r mem) stepped).1
    have answers : ∀ signature p, r = .webhook signature p → honest failed signature call = true := by
      rintro signature p rfl
      simpa [dependable, at_i] using ok
    obtain ⟨advances, seen⟩ := advances_runStep truth inv.store after answers (all r mem)
      (refused r mem) stepped
    refine advances.runs all fun q mem => seenTo_set ?_ mem
    split
    · exact seen.threw
    · exact seen
  | throw i =>
    obtain ⟨r, at_i, hs⟩ := Option.bind_eq_some_iff.1 hs
    cases hs
    exact truth.refl.runs all fun q mem => seenTo_set (all r (List.mem_of_getElem? at_i)).threw mem
  | crash i =>
    cases hs
    exact truth.refl.runs all fun q mem => seenTo_set (r := .ended) trivial mem
  | webhookUpkeep id act =>
    cases hs
    have advances : Advances chain parseLogs failed s.store { s.store with
        webhookIngestQueue := JobQueue.upkeep id s.store.webhookIngestQueue act } :=
      truth.requeue (fun _ => JobQueue.mem_upkeep) (fun _ none => none.elim)
        fun job mem unfinished => JobQueue.held_upkeep ok mem unfinished
    exact advances.runs all fun q mem => .inl mem
  | ticketUpkeep id act =>
    cases hs
    have advances : Advances chain parseLogs failed s.store { s.store with
        ticketIngestQueue := JobQueue.upkeep id s.store.ticketIngestQueue act } :=
      truth.requeueTickets inv.store fun job mem unfinished => JobQueue.held_upkeep ok mem unfinished
    exact advances.runs all fun q mem => .inl mem
  | poll a =>
    obtain ⟨indexer, _, rfl⟩ := System.poll_cases hs
    refine Advances.runs ?_ all fun q mem => .inl mem
    unfold System.addPolled
    split
    · exact truth.frame rfl rfl fun other passed => passed.imp_right fun ⟨job, mem, own⟩ =>
        ⟨job, JobQueue.held_add mem, own⟩
    · exact truth.refl

/-- What a step marks as seen is stored already. -/
theorem stored_of_acknowledges {e : Event} (all : ∀ r ∈ s.runs, SeenTo chain failed s.store r)
    {signature : Signature} (mem : signature ∈ acknowledges s e) : Stored s.store signature := by
  unfold acknowledges at mem
  split at mem
  · split at mem
    · rename_i todo at_i
      rw [List.mem_singleton.1 mem]
      exact all _ (List.mem_of_getElem? at_i) _ List.mem_cons_self
    · cases mem
  · cases mem

/-- **Nothing that was acknowledged is lost**: as long as the RPC node tells the truth and failed jobs
are kept, the row of a signature that was ever marked as seen waits for a job that is there, or it was
skipped because the transaction bought nothing, or failed because its purchases cannot be one order, or
there is a ticket job that is not completed, or an order with its relay job. -/
theorem acknowledged_accounted (inj : Function.Injective keccak256) {a : Audited System Signature}
    (h : ((System.machine chain parseLogs keccak256 adminPublicKey).audited acknowledges).ReachableBy
      (fun a e => dependable failed a.state e = true) a) :
    ∀ signature ∈ a.log, Accounted chain parseLogs failed a.state.store signature := by
  suffices all : System.Inv chain parseLogs keccak256 a.state ∧
      (∀ r ∈ a.state.runs, RefusedOk chain parseLogs r) ∧
      Truthful chain parseLogs failed a.state.store ∧
      (∀ r ∈ a.state.runs, SeenTo chain failed a.state.store r) ∧
      ∀ signature ∈ a.log, Stored a.state.store signature from
    fun signature mem => (all.2.2.2.2 signature mem).accounted all.1.store all.2.2.1
  induction h with
  | @start a start =>
    obtain ⟨initial, empty⟩ := start
    refine ⟨System.Inv.initial initial, ?_, ?_, ?_, ?_⟩
    · rw [initial.noRuns]
      exact fun _ mem => by cases mem
    · rw [initial.store]
      refine ⟨(fun _ mem => by cases mem), fun _ _ is => ?_⟩
      cases is
    · rw [initial.noRuns]
      exact fun _ mem => by cases mem
    · rw [empty]
      exact fun _ mem => by cases mem
  | next _ ok hs ih =>
    obtain ⟨inv, refused, truth, seen, stored⟩ := ih
    obtain ⟨stepped, logged⟩ := Machine.audited_step.1 hs
    obtain ⟨advances, seen'⟩ := advances_step inj inv refused truth seen ok stepped
    refine ⟨inv.step inj stepped, refusedOk_step inv refused stepped, advances.truth, seen', ?_⟩
    rw [logged]
    refine List.forall_mem_append.2 ⟨fun signature mem => ?_, fun signature mem => ?_⟩
    · exact (stored signature mem).later advances.later
    · exact (stored_of_acknowledges seen mem).later advances.later

end

/-- After a delivery the node does not know the transaction yet; the next worker dies once it has added
the ticket job, and a third one finishes. By then the mark has expired and the job is dropped. -/
def thirdWorker : List Event :=
  .deliver [⟨some boughtTwice, none⟩] :: List.replicate 6 (.call 0 .go false) ++
  [.startWebhook ("wh-" ++ boughtTwice), .call 1 .go false, .call 1 (.fetch .null false) false,
    .call 1 .go false, .expireSeen boughtTwice] ++
  [.startWebhook ("wh-" ++ boughtTwice), .call 2 .go false, .call 2 (.fetch .full false) false,
    .call 2 .go false, .crash 2, .webhookUpkeep ("wh-" ++ boughtTwice) .stall] ++
  [.startWebhook ("wh-" ++ boughtTwice), .call 3 .go false, .call 3 (.fetch .full false) false,
    .call 3 .go false, .call 3 .go false, .call 3 .go false,
    .webhookUpkeep ("wh-" ++ boughtTwice) .remove]

theorem acknowledged_accounted_thirdWorker : ∃ a : Audited System Signature,
    a.log = [boughtTwice] ∧ a.state.store.seen = [] ∧ a.state.store.webhookIngestQueue.length = 0 ∧
      ∀ signature ∈ a.log,
        Accounted (fun _ => twoInstructions) parseTwo (fun _ => false) a.state.store signature := by
  obtain ⟨a, ha, hp⟩ := Machine.exists_reachableBy_of_runBy
    (M := (System.machine (fun _ => twoInstructions) parseTwo hashTwo "admin").audited acknowledges)
    (fun a e => dependable (fun _ => false) a.state e) (s := ⟨{}, []⟩)
    ⟨⟨rfl, List.nodup_nil, rfl, rfl, rfl⟩, rfl⟩ thirdWorker
    (fun a => a.log == [boughtTwice] && a.state.store.seen == [] &&
      a.state.store.webhookIngestQueue.length == 0) (by decide +kernel)
  rw [Bool.and_eq_true, Bool.and_eq_true, beq_iff_eq, beq_iff_eq, beq_iff_eq] at hp
  exact ⟨a, hp.1.1, hp.1.2, hp.2, acknowledged_accounted (Equiv.injective _) ha⟩

end LordsPot.Ingest
