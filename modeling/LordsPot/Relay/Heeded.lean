import LordsPot.Relay.Watch
import LordsPot.Relay.Finished

/-!
# Reverts are honoured as far as the catch knows of them

What a job makes of a revert is decided by the error that reaches its `catch`, and that is never the
classification of the revert: a stuck batch is released and the loop goes on, and a fresh chunk is
given up with an error of the worker's own. So the order ends as the revert demands exactly when some
call throws an error of the same class.
-/

namespace LordsPot.Relay

open Transition

/-- Where a job may stand once its `catch` has been given an error of this class. -/
def RevertClass.Leads (cls : RevertClass) : Proc → Prop
  | .catching _ | .ended => True
  | .failing _ isPermanent _ =>
      isPermanent = cls.isPermanent ∧ cls.isPaused = false ∧ cls ≠ .already_processed
  | .pausing .. => cls.isPaused = true
  | .findingOrder _ | .readingRound .. | .finalizing .. | .stranding _ => cls = .already_processed
  | _ => False

/-- A ticket of an order that has failed for good. -/
def GivenUp (db : Db) (id : Uuid) : Prop := ∃ hash, id ∈ (rowsOf db hash).map (·.id) ∧
  ∀ o ∈ db.relayOrders, o.hash = hash → o.status = .FAILED_PERMANENT

section Calls

variable {keccak256 : String → Bytes32} {parseError : String → Option String} {s s' : State}
  {p p' : Proc} {call : Call} {cls : RevertClass} {hash : Bytes32}

theorem leads_thrown (cls : RevertClass) (p : Proc) : cls.Leads p.thrown := by
  unfold Proc.thrown
  split <;> trivial

/-- The class of the error decides which way the job leaves. -/
theorem leads_procStep (leads : cls.Leads p)
    (same : ∀ order cls', p = .catching order → call = .classify cls' → cls' = cls)
    (h : procStep keccak256 s p call = some (s', p')) : cls.Leads p' := by
  unfold procStep at h
  split at h
  case h_7 order cls' =>
    cases h
    obtain rfl := same order cls' rfl rfl
    cases cls' <;> simp [RevertClass.Leads, RevertClass.isPermanent, RevertClass.isPaused]
  case h_8 | h_10 =>
    cases h
    exact leads
  case h_9 =>
    obtain ⟨ticketIds, found, eq⟩ := Option.map_eq_some_iff.1 h
    cases eq
    exact leads
  case h_29 =>
    cases h
    exact leads_thrown cls _
  case h_32 => cases h
  case h_11 | h_12 | h_13 | h_14 | h_30 =>
    cases h
    trivial
  all_goals exact absurd leads id

/-- An error that is neither paused nor already processed has the last write fail the order, for good
or for now. -/
theorem failing_of_leads (leads : cls.Leads p) (failing : cls.isPermanent || cls.isTransient)
    (order : p.hash? = none ∨ p.hash? = some hash)
    (h : procStep keccak256 s p .write = some (s', p')) : ∀ o ∈ s'.db.relayOrders, o.hash = hash →
      o.status = if cls.isPermanent then .FAILED_PERMANENT else .RETRY_PENDING := by
  cases p with
  | failing hash' isPermanent reason =>
    cases h
    have same : hash' = hash := Option.some.inj (order.resolve_left fun none? => by cases none?)
    intro o' ho' own
    obtain ⟨o, ho, rfl⟩ := Table.mem_updateMany.1 ho'
    by_cases hit : (o.hash == hash' && ANY.contains o.status) = true
    · rw [if_pos hit, leads.1]
    · rw [if_neg hit] at own
      refine absurd ?_ hit
      rw [Bool.and_eq_true, beq_iff_eq]
      refine ⟨own.trans same.symm, ?_⟩
      cases o.status <;> rfl
  | pausing hash' reason =>
    cases cls with
    | paused reason => cases failing
    | _ => cases leads
  | catching order | ended => cases h
  | findingOrder | readingRound | finalizing | stranding =>
    have is : cls = .already_processed := leads
    rw [is] at failing
    cases failing
  | _ => exact absurd leads id

/-- A paused one has it defer the order, which is in PROCESSING or deferred already. -/
theorem deferred_of_leads (leads : cls.Leads p) (paused : cls.isPaused = true)
    (order : p.hash? = none ∨ p.hash? = some hash)
    (busy : ∀ o ∈ s.db.relayOrders, o.hash = hash → o.status = .PROCESSING ∨ o.status = .DEFERRED)
    (h : procStep keccak256 s p .write = some (s', p')) :
    ∀ o ∈ s'.db.relayOrders, o.hash = hash → o.status = .DEFERRED := by
  cases p with
  | pausing hash' reason =>
    cases h
    have same : hash' = hash := Option.some.inj (order.resolve_left fun none? => by cases none?)
    intro o' ho' own
    obtain ⟨o, ho, rfl⟩ := Table.mem_updateMany.1 ho'
    split
    · rfl
    · rename_i miss
      rw [if_neg miss] at own
      refine (busy o ho own).resolve_left fun processing => miss ?_
      rw [Bool.and_eq_true, beq_iff_eq]
      exact ⟨own.trans same.symm, by rw [processing]; rfl⟩
  | failing hash' isPermanent reason =>
    rw [leads.2.1] at paused
    cases paused
  | catching order | ended => cases h
  | findingOrder | readingRound | finalizing | stranding =>
    have is : cls = .already_processed := leads
    rw [is] at paused
    cases paused
  | _ => exact absurd leads id

theorem GivenUp.step {id' : Uuid} (h : GivenUp s.db id') (owned : Owned s)
    (unique : (s.db.relayOrders.map (·.hash)).Nodup) {a : Action} (ok : finishedSafe s a = true)
    (hs : step keccak256 s a = some s') : GivenUp s'.db id' := by
  obtain ⟨hash, mine, failed⟩ := h
  refine ⟨hash, ((owned.stays_step hs).mine hash id').1 mine, fun o' ho' own => ?_⟩
  have hashes := step_hashes hs
  have old : o'.hash ∈ s.db.relayOrders.map (·.hash) := hashes ▸ List.mem_map_of_mem ho'
  obtain ⟨o, ho, same⟩ := List.mem_map.1 old
  have was := failed o ho (same.trans own)
  obtain ⟨o'', ho'', hash'', status, -⟩ :=
    finishedStay_step unique ok hs o ho (by rw [was]; rfl)
  obtain rfl := List.inj_on_of_nodup_map (hashes ▸ unique) ho'' ho' (hash''.trans same)
  exact status.trans was

/-! ## The note on one process -/

/-- What holds of the note `m` on process `p`. -/
structure MarkOk (parseError : String → Option String) (db : Db) (m : Mark) (p : Proc) : Prop where
  order : p.hash? = none ∨ p.hash? = some m.hash
  gone : m.ended ≠ none → p = .ended
  reverts : ∀ r ∈ m.reverts, Mine db m.hash r.tickets
  leads : ∀ c, m.caught = some c → (classifyError parseError c.err).Leads p

/-- The tickets that were given up when a job started are given up still, and when they are its own
order's, it gets nowhere. -/
structure Stopped (db : Db) (barred : List Uuid) (m : Mark) (p : Proc) : Prop where
  given : ∀ id ∈ m.barred, id ∈ barred
  stopped : ∀ id ∈ m.barred, id ∈ (rowsOf db m.hash).map (·.id) → p = .reading m.hash ∨ p = .ended

theorem ended_procStep (h : procStep keccak256 s .ended call = some (s', p')) : p' = .ended := by
  cases call with
  | throw | crash =>
    cases h
    rfl
  | _ => cases h

/-- A job does not come past the read of an order that has failed for good. -/
theorem ended_of_reading (failed : ∀ o ∈ s.db.relayOrders, o.hash = hash → o.status = .FAILED_PERMANENT)
    (h : procStep keccak256 s (.reading hash) call = some (s', p')) : p' = .ended := by
  cases call with
  | throw | crash =>
    cases h
    rfl
  | read tickets =>
    simp only [procStep] at h
    split at h
    · cases h
      rfl
    · rename_i o found
      have was := failed o (Table.mem_of_findUnique found) (Table.key_of_findUnique found)
      split at h
      · cases h
        rw [was]
        rfl
      · cases h
  | _ => cases h

/-- A job that has just seen a revert is still at it. -/
theorem sees_of_ended (h : procStep keccak256 s p call = some (s', .ended)) : p.sees call = [] := by
  unfold Proc.sees
  split
  · rename_i cls
    cases h
  · cases h
  · rfl

theorem mine_of_sees (own : ∀ order round phase, p = .relaying order round phase →
      OwnPhase s.db order.hash phase) (order : p.hash? = none ∨ p.hash? = some hash) {r : Revert}
    (hr : r ∈ p.sees call) : Mine s.db hash r.tickets := by
  unfold Proc.sees at hr
  split at hr
  · obtain rfl := Option.some.inj (order.resolve_left fun none? => by cases none?)
    split at hr
    · cases hr
    · cases List.mem_singleton.1 hr
      exact (own _ _ _ rfl).inHand.left
  · obtain rfl := Option.some.inj (order.resolve_left fun none? => by cases none?)
    cases List.mem_singleton.1 hr
    exact (own _ _ _ rfl).inHand.left
  · cases hr

theorem mine_of_sends (own : ∀ order round phase, p = .relaying order round phase →
      OwnPhase s.db order.hash phase) (order : p.hash? = none ∨ p.hash? = some hash) {id : Uuid}
    (hid : id ∈ p.sends call) : id ∈ (rowsOf s.db hash).map (·.id) ∧ p.trying = true := by
  unfold Proc.sends at hid
  split at hid
  · obtain rfl := Option.some.inj (order.resolve_left fun none? => by cases none?)
    obtain ⟨c, hc, rfl⟩ := List.mem_map.1 hid
    exact ⟨(own _ _ _ rfl).inHand c (List.mem_append_left _ hc), rfl⟩
  · cases hid

end Calls

/-! ## One call of one process -/

section After

variable {keccak256 : String → Bytes32} {parseError : String → Option String} {s s' : State}
  {p p' : Proc} {call : Call} {m : Mark} {barred : List Uuid} {lost : Bool} {err : Err}

theorem hash_after (h : procStep keccak256 s p call = some (s', p')) :
    (p.answered p' lost).hash? = none ∨
      (p.answered p' lost).hash? = p.hash? := by
  cases lost with
  | true => exact hash_of_thrown p
  | false => exact hash_of_procStep h

theorem ended_after (h : procStep keccak256 s p call = some (s', p')) (gone : p = .ended) :
    (p.answered p' lost) = .ended := by
  subst gone
  cases lost with
  | true => rfl
  | false => exact ended_procStep h

theorem sees_after (h : procStep keccak256 s p call = some (s', p'))
    (gone : (p.answered p' lost) = .ended) : (if lost then [] else p.sees call) = [] := by
  cases lost with
  | true => rfl
  | false =>
    obtain rfl : p' = .ended := gone
    exact sees_of_ended h

/-- The status is noted when the process ends. -/
theorem gone_after (h : procStep keccak256 s p call = some (s', p')) (ok : MarkOk parseError s.db m p)
    (gone : (m.after p call lost err (p.answered p' lost) s'.db).ended ≠ none) :
    (p.answered p' lost) = .ended := by
  by_cases fin : ends p (p.answered p' lost) = true
  · rw [ends, Bool.and_eq_true, beq_iff_eq] at fin
    exact fin.1
  · simp only [Mark.after, if_neg fin] at gone
    exact ended_after h (ok.gone gone)

/-- What an ended process has seen and caught is what it had before. -/
theorem settled_after (m : Mark) (err : Err) (h : procStep keccak256 s p call = some (s', p'))
    (gone : (p.answered p' lost) = .ended) (db : Db) :
    (m.after p call lost err (p.answered p' lost) db).reverts = m.reverts ∧
      (m.after p call lost err (p.answered p' lost) db).caught = m.caught := by
  have out : Proc.isCatching .ended = false := rfl
  simp only [Mark.after, sees_after h gone, List.nil_append, true_and]
  rw [gone, out, Bool.and_false]
  rfl

theorem markOk_after (owned : Owned s) (hp : p ∈ s.procs) (ok : MarkOk parseError s.db m p)
    (h : procStep keccak256 s p call = some (s', p'))
    (classes : ∀ order cls c, p = .catching order → call = .classify cls → m.caught = some c →
      cls = classifyError parseError c.err) :
    MarkOk parseError s'.db (m.after p call lost err (p.answered p' lost) s'.db)
      (p.answered p' lost) := by
  have own : ∀ order round phase, p = .relaying order round phase → OwnPhase s.db order.hash phase :=
    fun order round phase is => owned.jobs _ _ _ (is ▸ hp)
  constructor
  case order => exact (hash_after h).elim .inl fun same => same ▸ ok.order
  case gone => exact gone_after h ok
  case reverts =>
    intro r hr
    refine Mine.stays ?_ (owned.stays h)
    rcases List.mem_append.1 hr with now | old
    · cases lost with
      | true => cases now
      | false => exact mine_of_sees own ok.order now
    · exact ok.reverts r old
  case leads =>
    intro c hc
    by_cases catching : (p.trying && (p.answered p' lost).isCatching) = true
    · have at? := (Bool.and_eq_true_iff.1 catching).2
      unfold Proc.isCatching at at?
      split at at?
      · rename_i order is
        rw [is]
        trivial
      · cases at?
    · simp only [Mark.after, if_neg catching] at hc
      cases lost with
      | true => exact leads_thrown _ p
      | false =>
        exact leads_procStep (ok.leads c hc) (fun order cls' at? is => classes order cls' c at? is hc) h

theorem stopped_after (owned : Owned s) (stopped : Stopped s.db barred m p)
    (h : procStep keccak256 s p call = some (s', p')) (failed : ∀ id ∈ barred, GivenUp s.db id) :
    Stopped s'.db barred (m.after p call lost err (p.answered p' lost) s'.db)
      (p.answered p' lost) := by
  refine ⟨stopped.given, fun id hid mine => .inr ?_⟩
  have mine' := ((owned.stays h).mine m.hash id).2 mine
  rcases stopped.stopped id hid mine' with reading | gone
  · obtain ⟨hash, his, failed⟩ := failed id (stopped.given id hid)
    obtain ⟨t, ht, rfl⟩ := List.mem_map.1 his
    obtain ⟨ht, own⟩ := mem_rowsOf.1 ht
    have same : hash = m.hash := own.symm.trans (order_of_mine owned.ticketIds mine' ht rfl)
    subst same reading
    cases lost with
    | true => rfl
    | false => exact ended_of_reading failed h
  · exact ended_after h gone

/-- A permanent revert of a job that ends: so has its order. -/
theorem failed_after (ok : MarkOk parseError s.db m p)
    (h : procStep keccak256 s p call = some (s', p')) (agrees : m.agrees parseError call s.db = true)
    {r : Revert} (hr : r ∈ m.reverts) (permanent : r.cls.isPermanent = true) :
    ∀ o ∈ s'.db.relayOrders, o.hash = m.hash → o.status = .FAILED_PERMANENT := by
  rw [Mark.agrees, Bool.and_eq_true, List.all_eq_true] at agrees
  have meets := agrees.1 r hr
  cases cls : r.cls with
  | permanent reason =>
    simp only [cls, Bool.and_eq_true, beq_iff_eq, Option.any_eq_true] at meets
    obtain ⟨rfl, c, hc, is⟩ := meets
    have failed := failing_of_leads (ok.leads c hc) (by rw [is]; rfl) ok.order h
    simpa only [is, ↓reduceIte] using failed
  | _ =>
    rw [cls] at permanent
    cases permanent

theorem deferred_after (hashes : (s.db.relayOrders.map (·.hash)).Nodup)
    (ok : MarkOk parseError s.db m p) (h : procStep keccak256 s p call = some (s', p'))
    (agrees : m.agrees parseError call s.db = true) {r : Revert} (hr : r ∈ m.reverts)
    (paused : r.cls.isPaused = true) :
    ∀ o ∈ s'.db.relayOrders, o.hash = m.hash → o.status = .DEFERRED := by
  rw [Mark.agrees, Bool.and_eq_true, List.all_eq_true] at agrees
  have meets := agrees.1 r hr
  cases cls : r.cls with
  | paused reason =>
    simp only [cls, Bool.and_eq_true, beq_iff_eq, Option.any_eq_true] at meets
    obtain ⟨⟨rfl, c, hc, is⟩, busy⟩ := meets
    refine deferred_of_leads (ok.leads c hc) is ok.order (fun o ho own => ?_) h
    have found : s.db.order? m.hash = some o := own ▸ Table.findUnique_of_mem hashes ho
    simpa [found] using busy
  | _ =>
    rw [cls] at paused
    cases paused

theorem heeded_after (owned : Owned s) (hashes : (s.db.relayOrders.map (·.hash)).Nodup)
    (hp : p ∈ s.procs) (ok : MarkOk parseError s.db m p) (stopped : Stopped s.db barred m p)
    (heeded : Heeded m) (h : procStep keccak256 s p call = some (s', p'))
    (agrees : ends p (p.answered p' lost) = true → m.agrees parseError call s.db = true) :
    Heeded (m.after p call lost err (p.answered p' lost) s'.db) := by
  -- either the process ends here, with the order in this status, or it has ended like this before
  have status_of : ∀ {status}, (m.after p call lost err (p.answered p' lost) s'.db).ended =
      some status → (p.answered p' lost) = .ended ∧ (m.ended = some status ∨
        (m.agrees parseError call s.db = true ∧ ∃ o ∈ s'.db.relayOrders, o.hash = m.hash ∧
          o.status = status)) := by
    intro status hs
    refine ⟨gone_after h ok (by rw [hs]; exact Option.some_ne_none _), ?_⟩
    by_cases fin : ends p (p.answered p' lost) = true
    · simp only [Mark.after, if_pos fin] at hs
      obtain ⟨o, found, is⟩ := Option.map_eq_some_iff.1 hs
      exact .inr ⟨agrees fin, o, Table.mem_of_findUnique found, Table.key_of_findUnique found, is⟩
    · simp only [Mark.after, if_neg fin] at hs
      exact .inl hs
  constructor
  case permanent =>
    intro status hs r hr permanent
    obtain ⟨gone, now⟩ := status_of hs
    rw [(settled_after m err h gone s'.db).1] at hr
    rcases now with old | ⟨meets, o, ho, own, rfl⟩
    · exact heeded.permanent status old r hr permanent
    · exact failed_after ok h meets hr permanent o ho own
  case paused =>
    intro status hs r hr paused
    obtain ⟨gone, now⟩ := status_of hs
    rw [(settled_after m err h gone s'.db).1] at hr
    rcases now with old | ⟨meets, o, ho, own, rfl⟩
    · exact heeded.paused status old r hr paused
    · exact deferred_after hashes ok h meets hr paused o ho own
  case transient =>
    intro hs c hc reverted r hr
    obtain ⟨gone, now⟩ := status_of hs
    obtain ⟨sameReverts, sameCaught⟩ := settled_after m err h gone s'.db
    rw [sameCaught] at hc
    rw [sameReverts] at hr
    rcases now with old | ⟨meets, -⟩
    · exact heeded.transient old c hc reverted r hr
    · rw [Mark.agrees, Bool.and_eq_true] at meets
      simpa [hc, reverted, Option.mem_def.1 hr] using meets.2
  case barred =>
    intro id hid
    rcases List.mem_append.1 hid with old | now
    · exact heeded.barred id old
    · intro given
      obtain ⟨mine, trying⟩ := mine_of_sends (fun order round phase is =>
        owned.jobs order round phase (is ▸ hp)) ok.order now
      rcases stopped.stopped id given mine with rfl | rfl <;> cases trying

end After

/-! ## Every note -/

/-- Every process is as its note says. -/
structure Noted (keccak256 : String → Bytes32) (parseError : String → Option String) (w : Watch) :
    Prop where
  relay : (machine keccak256).Reachable w.relay
  marks : ∀ i p, w.relay.procs[i]? = some p → MarkOk parseError w.relay.db (w.marks i) p

/-- The tickets given up are of failed orders, and every note is as it should be. -/
structure Watched (w : Watch) : Prop where
  barred : ∀ id ∈ w.barred, GivenUp w.relay.db id
  stopped : ∀ i p, w.relay.procs[i]? = some p → Stopped w.relay.db w.barred (w.marks i) p
  heeded : ∀ i, Heeded (w.marks i)

theorem MarkOk.stays {parseError : String → Option String} {db db' : Db} {m : Mark} {p : Proc}
    (h : MarkOk parseError db m p) (stays : Stays db db') : MarkOk parseError db' m p where
  order := h.order
  gone := h.gone
  reverts r hr := (h.reverts r hr).stays stays
  leads := h.leads

theorem Stopped.stays {db db' : Db} {barred barred' : List Uuid} {m : Mark} {p : Proc}
    (h : Stopped db barred m p) (stays : Stays db db') (more : ∀ id ∈ barred, id ∈ barred') :
    Stopped db' barred' m p where
  given id hid := more id (h.given id hid)
  stopped id hid mine := h.stopped id hid ((stays.mine m.hash id).2 mine)

/-- What holds of the notes and processes there were, and of the new ones, holds of all. -/
theorem forall_start {w : Watch} {s : State} {p : Proc} {m : Mark} {P : Mark → Proc → Prop}
    (procs : s.procs = w.relay.procs ++ [p]) (new : P m p)
    (old : ∀ i q, w.relay.procs[i]? = some q → P (w.marks i) q) :
    ∀ i q, (w.start s m).relay.procs[i]? = some q → P ((w.start s m).marks i) q := by
  intro i q hi
  simp only [Watch.start] at hi ⊢
  rw [procs] at hi
  rcases Table.of_getElem?_concat hi with there | ⟨rfl, rfl⟩
  · have bound := (List.getElem?_eq_some_iff.1 there).1
    rw [Function.update_of_ne bound.ne]
    exact old i q there
  · rw [Function.update_self]
    exact new

theorem forall_noted {w : Watch} {s : State} {i : Nat} {p p' : Proc} {call : Call} {lost : Bool}
    {err : Err} {P : Mark → Proc → Prop} (hi : w.relay.procs[i]? = some p)
    (procs : s.procs = w.relay.procs.set i p')
    (new : P ((w.marks i).after p call lost err p' s.db) p')
    (old : ∀ j q, w.relay.procs[j]? = some q → P (w.marks j) q) :
    ∀ j q, (w.noted s i p call lost err p').relay.procs[j]? = some q →
      P ((w.noted s i p call lost err p').marks j) q := by
  intro j q hj
  simp only [Watch.noted] at hj ⊢
  rw [procs] at hj
  by_cases same : j = i
  · subst same
    rw [List.getElem?_set_self (List.getElem?_eq_some_iff.1 hi).1] at hj
    obtain rfl := Option.some.inj hj
    rw [Function.update_self]
    exact new
  · rw [List.getElem?_set_ne (Ne.symm same)] at hj
    rw [Function.update_of_ne same]
    exact old j q hj

/-- The note of a process that has just started. -/
theorem MarkOk.new {parseError : String → Option String} {db : Db} {hash : Bytes32}
    {barred : List Uuid} {p : Proc} (known : p.hash? = none ∨ p.hash? = some hash) :
    MarkOk parseError db { hash := hash, barred := barred } p where
  order := known
  gone ended := absurd rfl ended
  reverts r hr := absurd hr List.not_mem_nil
  leads c hc := by cases hc

theorem Heeded.new (hash : Bytes32) (barred : List Uuid) :
    Heeded { hash := hash, barred := barred } where
  permanent status hs := by cases hs
  paused status hs := by cases hs
  transient hs := by cases hs
  barred id hid := absurd hid List.not_mem_nil

section Steps

variable {keccak256 : String → Bytes32} {parseError : String → Option String} {w w' : Watch} {e : Event}

theorem Noted.step (h : Noted keccak256 parseError w)
    (hs : watchStep keccak256 parseError w e = some w') : Noted keccak256 parseError w' := by
  have owned := owned_of_reachable h.relay
  have hrelay := relay_watchStep hs
  have stays := owned.stays_step hrelay
  refine ⟨.next h.relay trivial hrelay, ?_⟩
  cases watchMove hs with
  | idle procs => exact fun i p hi => (h.marks i p (procs ▸ hi)).stays stays
  | job procs =>
    exact forall_start procs (.new (.inr rfl)) fun i q hi => (h.marks i q hi).stays stays
  | other procs known =>
    exact forall_start procs (.new known) fun i q hi => (h.marks i q hi).stays stays
  | call action hi hstep classes =>
    refine forall_noted hi rfl ?_ fun j q hj => (h.marks j q hj).stays stays
    exact (markOk_after owned (List.mem_of_getElem? hi) (h.marks _ _ hi) hstep classes).stays
      (.of_same rfl rfl)

theorem noted_of_reachable {ok : Watch → Event → Prop}
    (h : (watching keccak256 parseError).ReachableBy ok w) : Noted keccak256 parseError w := by
  refine h.invariant (I := Noted keccak256 parseError) ?_ fun _ _ _ inv _ hs => inv.step hs
  rintro w ⟨initial, -, -⟩
  refine ⟨.start initial, fun i p hp => ?_⟩
  rw [initial.noProcs] at hp
  cases hp

theorem Watched.step (h : Watched w) (noted : Noted keccak256 parseError w)
    (meets : agreed keccak256 parseError w e = true) (safe : finishedSafe w.relay e.action = true)
    (hs : watchStep keccak256 parseError w e = some w') : Watched w' := by
  have owned := owned_of_reachable noted.relay
  have unique := unique_of_reachable noted.relay
  have hrelay := relay_watchStep hs
  have stays := owned.stays_step hrelay
  have given : ∀ id ∈ w.barred, GivenUp w'.relay.db id := fun id hid =>
    (h.barred id hid).step owned unique safe hrelay
  cases watchMove hs with
  | idle procs =>
    exact ⟨given, fun i p hi => (h.stopped i p (procs ▸ hi)).stays stays fun _ mem => mem, h.heeded⟩
  | job procs =>
    rename_i s hash
    refine ⟨given, ?_, fun i => ?_⟩
    · refine forall_start procs ?_ fun i q hi => (h.stopped i q hi).stays stays fun _ mem => mem
      exact ⟨fun _ hid => hid, fun _ _ _ => .inl rfl⟩
    · exact Function.forall_update_iff _ (fun _ m => Heeded m) |>.2
        ⟨.new hash w.barred, fun j _ => h.heeded j⟩ i
  | other procs known =>
    rename_i s hash p
    refine ⟨given, ?_, fun i => ?_⟩
    · refine forall_start procs ?_ fun i q hi => (h.stopped i q hi).stays stays fun _ mem => mem
      exact ⟨fun id hid => absurd hid List.not_mem_nil, fun id hid => absurd hid List.not_mem_nil⟩
    · exact Function.forall_update_iff _ (fun _ m => Heeded m) |>.2
        ⟨.new hash [], fun j _ => h.heeded j⟩ i
  | call action hi hstep classes =>
    rename_i s i p p' call lost
    have ok := noted.marks i p hi
    have agrees : ends p (p.answered p' lost) = true →
        (w.marks i).agrees parseError call w.relay.db = true := by
      intro fin
      simp only [agreed, action, hi] at meets
      rw [← action, hrelay] at meets
      simp only [Option.all_some, Watch.noted,
        List.getElem?_set_self (List.getElem?_eq_some_iff.1 hi).1, fin] at meets
      exact meets
    refine ⟨fun id hid => ?_, ?_, fun j => ?_⟩
    · rcases mem_barred_noted.1 hid with old | ⟨fin, new⟩
      · exact given id old
      · obtain ⟨r, hr, hid⟩ := List.mem_flatMap.1 new
        obtain ⟨hr, permanent⟩ := List.mem_filter.1 hr
        obtain ⟨c, hc, rfl⟩ := List.mem_map.1 hid
        have failed := failed_after ok hstep (agrees fin) hr permanent
        exact ⟨(w.marks i).hash, (stays.mine _ _).1 (ok.reverts r hr c hc), failed⟩
    · have more : ∀ id ∈ w.barred, id ∈ (w.noted
          { s with procs := w.relay.procs.set i (p.answered p' lost) } i p call lost e.err
          (p.answered p' lost)).barred := fun _ hid => mem_barred_noted.2 (.inl hid)
      refine forall_noted hi rfl ?_ fun j q hj => (h.stopped j q hj).stays stays more
      exact (stopped_after owned (h.stopped i p hi) hstep h.barred).stays (.of_same rfl rfl) more
    · refine Function.forall_update_iff _ (fun _ m => Heeded m) |>.2 ⟨?_, fun j _ => h.heeded j⟩ j
      have heeded : Heeded ((w.marks i).after p call lost e.err (p.answered p' lost) s.db) :=
        heeded_after owned unique (List.mem_of_getElem? hi) ok (h.stopped i p hi) (h.heeded i) hstep
          agrees
      exact heeded

end Steps

/-- A job that gives up over a fresh chunk has its order retried, whatever the revert was. -/
theorem retried_of_own {keccak256 : String → Bytes32} {parseError : String → Option String}
    {w : Watch} (h : (watching keccak256 parseError).Reachable w) {i : Nat} {p p' : Proc}
    (hi : w.relay.procs[i]? = some p) {batchId : Uuid} {txHash : TxHash}
    (plain : Plain batchId ∧ Plain txHash)
    (caught : (w.marks i).caught = some (.reverted batchId txHash)) {s : State}
    (hstep : procStep keccak256 w.relay p .write = some (s, p')) :
    ∀ o ∈ s.db.relayOrders, o.hash = (w.marks i).hash → o.status = .RETRY_PENDING := by
  have ok := (noted_of_reachable h).marks i p hi
  have transient : (classifyError parseError (Caught.reverted batchId txHash).err).isTransient = true :=
    classifyError_own (fun err is => by cases is) fun b t is => by
      rcases is with is | is <;> cases is
      exact plain
  cases cls : classifyError parseError (Caught.reverted batchId txHash).err with
  | transient reason =>
    have leads := ok.leads _ caught
    rw [cls] at leads
    exact failing_of_leads leads rfl ok.order hstep
  | _ =>
    rw [cls] at transient
    cases transient

/-- A job ends as the reverts it has seen demand, and no late write reopens a finished order. -/
def heedSafe (keccak256 : String → Bytes32) (parseError : String → Option String) (w : Watch)
    (e : Event) : Bool := agreed keccak256 parseError w e && finishedSafe w.relay e.action

/-- **Reverts are honoured** along every run in which each job that ends after a permanent or paused
revert has caught an error of the same class, and in which finished orders stay finished. -/
theorem reverts_heeded {keccak256 : String → Bytes32} {parseError : String → Option String}
    {w : Watch} (h : (watching keccak256 parseError).ReachableBy
      (fun w e => heedSafe keccak256 parseError w e = true) w) : ∀ i, Heeded (w.marks i) := by
  have both : Noted keccak256 parseError w ∧ Watched w := by
    refine h.invariant (I := fun w => Noted keccak256 parseError w ∧ Watched w) ?_ ?_
    · rintro w hi
      have reached : (watching keccak256 parseError).Reachable w := .start hi
      refine ⟨noted_of_reachable reached, ?_⟩
      obtain ⟨initial, marks, barred⟩ := hi
      refine ⟨fun id hid => ?_, fun i p hp => ?_, fun i => ?_⟩
      · rw [barred] at hid
        exact absurd hid List.not_mem_nil
      · rw [initial.noProcs] at hp
        cases hp
      · rw [marks i]
        exact .new "" []
    · rintro w e w' ⟨noted, watched⟩ safe hs
      rw [heedSafe, Bool.and_eq_true] at safe
      exact ⟨noted.step hs, watched.step noted safe.1 safe.2 hs⟩
  exact both.2.heeded

/-! ## Runs -/

/-- Steps at which nothing is classified and nothing throws. -/
def plainly (actions : List Action) : List Event := actions.map fun action => { action := action }

/-- An error of the vault that no retry will cure. -/
def wrongBonusball : Err := { reason := some "execution reverted: InvalidBonusball" }

def wrong : RevertClass := .permanent "execution reverted: InvalidBonusball"

def unwatched : Watch := { relay := queued (alike ["1-"]) }

theorem initial_unwatched : (watching id fun _ => none).init unwatched :=
  ⟨initial_queued (alike ["1-"]) (by decide) (by decide +kernel), fun _ => rfl, rfl⟩

/-- The order's only chunk is broadcast, its hash is recorded, and it mines as a revert. -/
def sentAndReverted : List Event :=
  plainly (lockJob 0 1 (alike ["1-"]) ++ [.call 0 (.findStuck []) false] ++
    sendChunk 0 (alike ["1-"]) "b" "0x1" ++ [.call 0 .write false, .revert "0x1"])

/-- The revert is found to be permanent, the chunk is released, and the job's own error is
transient. -/
theorem permanent_retried : ¬ ∀ (keccak256 : String → Bytes32) (parseError : String → Option String)
    (w : Watch), (watching keccak256 parseError).Reachable w → ∀ i, Heeded (w.marks i) := by
  intro all
  obtain ⟨w, hw, hp⟩ := Machine.exists_reachable_of_run (M := watching id fun _ => none)
    initial_unwatched
    (sentAndReverted ++ plainly [.call 0 (.receipt (some false)) false] ++
      [{ action := .call 0 (.classify wrong) false, simulation := .reverts wrongBonusball }] ++
      plainly [.call 0 .write false,
        .call 0 (.classify (.transient "Batch b tx 0x1 reverted on-chain")) false,
        .call 0 .write false])
    (fun w => (w.marks 0).ended == some .RETRY_PENDING &&
      (w.marks 0).reverts.any (·.cls.isPermanent)) (by decide +kernel)
  simp only [Bool.and_eq_true, beq_iff_eq, List.any_eq_true] at hp
  obtain ⟨ended, r, hr, permanent⟩ := hp
  cases (all id (fun _ => none) w hw 0).permanent _ ended r hr permanent

/-- The job dies before it sees the revert; the next one sees it, and fails to broadcast the ticket
again with the same error. -/
theorem reverts_heeded_failed : ∃ w : Watch, ((w.marks 2).ended = some .FAILED_PERMANENT ∧
    (w.marks 2).reverts.map (·.cls) = [wrong] ∧ (w.marks 3).barred = ["1-"]) ∧
      ∀ i, Heeded (w.marks i) := by
  obtain ⟨w, hw, hp⟩ := Machine.exists_reachableBy_of_runBy (M := watching id fun _ => none)
    (heedSafe id fun _ => none) initial_unwatched
    (sentAndReverted ++ plainly ([.call 0 .crash false, .reset "signature", .call 1 .write false] ++
      lockJob 2 1 (alike ["1-"]) ++
      [.call 2 (.findStuck [{ id := "b", txHash := some "0x1", tickets := alike ["1-"] }]) false,
        .call 2 (.receipt (some false)) false]) ++
      [{ action := .call 2 (.classify wrong) false, simulation := .reverts wrongBonusball }] ++
      plainly ([.write, .findPending (alike ["1-"]), .count, .create "c", .write].map fun call =>
        .call 2 call false) ++
      [{ action := .call 2 .throw false, err := wrongBonusball }] ++
      plainly [.call 2 (.classify wrong) false, .call 2 .write false, .job "signature"])
    (fun w => (w.marks 2).ended == some .FAILED_PERMANENT &&
      (w.marks 2).reverts.map (·.cls) == [wrong] && (w.marks 3).barred == ["1-"])
    (by decide +kernel)
  simp only [Bool.and_eq_true, beq_iff_eq] at hp
  exact ⟨w, ⟨hp.1.1, hp.1.2, hp.2⟩, reverts_heeded hw⟩

end LordsPot.Relay
