import LordsPot.Relay.Effect

/-!
# Finished orders

SUCCESS and FAILED_PERMANENT are meant to be final. The guarded writes leave finished orders
alone; five writes name the order by its hash only, and those reopen a finished order when the
process that makes them is late.
-/

namespace LordsPot.Relay

open Transition

/-- Every order that has ended is as it was. -/
def FinishedStay (s s' : State) : Prop :=
  ∀ o ∈ s.db.relayOrders, o.status.finished = true → ∃ o' ∈ s'.db.relayOrders,
    o'.hash = o.hash ∧ o'.status = o.status ∧
      (o.status = .SUCCESS → o'.fulfillEpoch = o.fulfillEpoch)

/-- The call writes to a finished order what the order already has. -/
def rewrites (db : Db) (p : Proc) (call : Call) (status : OrderStatus) (o : RelayOrder) : Bool :=
  status == o.status &&
    (o.status != .SUCCESS || p.succeeds db call == some (o.hash, o.fulfillEpoch))

/-- A write without a guard finds the order unfinished, or writes what is there. -/
def finishedSafe (s : State) : Action → Bool
  | .call i call _ => s.procs[i]?.all fun p => (p.unguarded call).all fun (hash, status) =>
      s.db.relayOrders.all fun o =>
        o.hash != hash || !o.status.finished || rewrites s.db p call status o
  | _ => true

section Steps

variable {keccak256 : String → Bytes32} {s s' s'' : State}

theorem FinishedStay.refl (s : State) : FinishedStay s s := fun o ho _ =>
  ⟨o, ho, rfl, rfl, fun _ => rfl⟩

theorem FinishedStay.trans (h : FinishedStay s s') (h' : FinishedStay s' s'') :
    FinishedStay s s'' := by
  intro o ho done
  obtain ⟨o', ho', hash, status, epoch⟩ := h o ho done
  obtain ⟨o'', ho'', hash', status', epoch'⟩ := h' o' ho' (status ▸ done)
  refine ⟨o'', ho'', hash'.trans hash, status'.trans status, fun success => ?_⟩
  exact (epoch' (status ▸ success)).trans (epoch success)

/-- A write that is in the way of a finished order rewrites it. -/
theorem rewrites_of_safe {i : Nat} {call : Call} {lost : Bool} {p : Proc}
    (ok : finishedSafe s (.call i call lost) = true) (hi : s.procs[i]? = some p) {o : RelayOrder}
    (ho : o ∈ s.db.relayOrders) (done : o.status.finished = true) {status : OrderStatus}
    (overwrites : p.unguarded call = some (o.hash, status)) :
    rewrites s.db p call status o = true := by
  simp only [finishedSafe, hi, overwrites, Option.all_some, List.all_eq_true] at ok
  simpa [done] using ok o ho

/-- **The finished rule**: a safe step leaves finished orders as they are. -/
theorem finishedStay_step (unique : (s.db.relayOrders.map (·.hash)).Nodup) {a : Action}
    (ok : finishedSafe s a = true) (hs : step keccak256 s a = some s') : FinishedStay s s' := by
  intro o ho done
  have kept : o.hash ∈ s'.db.relayOrders.map (·.hash) := by
    rw [step_hashes hs]
    exact List.mem_map_of_mem ho
  rcases step_db hs with same | requeued | ⟨i, call, lost, p, s₁, rfl, hi, effect, eq⟩
  · exact ⟨o, same ▸ ho, rfl, rfl, fun _ => rfl⟩
  · refine ⟨o, ?_, rfl, rfl, fun _ => rfl⟩
    rw [requeued, requeueDeferred]
    refine Table.mem_updateMany.2 ⟨o, ho, if_neg fun deferred => ?_⟩
    rw [beq_iff_eq.1 deferred] at done
    cases done
  · obtain ⟨o', ho', hash⟩ := List.mem_map.1 kept
    obtain ⟨o₁, ho₁, rule⟩ := effect.orders o' (eq ▸ ho')
    obtain rfl : o₁ = o := List.inj_on_of_nodup_map unique ho₁ ho (rule.hash.symm.trans hash)
    refine ⟨o', ho', hash, ?_⟩
    rcases rule.finished done with same | overwrites
    · exact ⟨same.1, fun _ => same.2⟩
    · have again := rewrites_of_safe ok hi ho done overwrites
      simp only [rewrites, Bool.and_eq_true, beq_iff_eq, Bool.or_eq_true, bne_iff_ne] at again
      refine ⟨again.1, fun success => ?_⟩
      have stamp : p.succeeds s.db call = some (o₁.hash, o₁.fulfillEpoch) :=
        again.2.resolve_left fun open? => open? success
      rcases rule.success (again.1.trans success) with old | now
      · exact old.2
      · rw [stamp] at now
        simpa using now.symm

theorem unique_of_reachable (h : (machine keccak256).Reachable s) :
    (s.db.relayOrders.map (·.hash)).Nodup :=
  Machine.ReachableBy.invariant (M := machine keccak256)
    (I := fun s => (s.db.relayOrders.map (·.hash)).Nodup)
    (fun _ (hi : Initial keccak256 _) => hi.orderHashes)
    (fun _ _ _ unique _ hs => step_hashes hs ▸ unique) h

end Steps

/-- **SUCCESS and FAILED_PERMANENT are final** along every run in which each write without a
guard finds its order unfinished, or writes what is there. -/
theorem finished_stay {keccak256 : String → Bytes32} {s s' : State} {as : List Action}
    (h : (machine keccak256).Reachable s)
    (hr : (machine keccak256).runBy finishedSafe s as = some s') : FinishedStay s s' := by
  induction as generalizing s with
  | nil =>
    cases hr
    exact .refl _
  | cons a as ih =>
    simp only [Machine.runBy] at hr
    split at hr
    · rename_i ok
      obtain ⟨t, ht, hr⟩ := Option.bind_eq_some_iff.1 hr
      have first : FinishedStay s t := finishedStay_step (unique_of_reachable h) ok ht
      exact first.trans (ih (.next h trivial ht) hr)
    · cases hr

/-- A job that has confirmed its order's only ticket and is about to write SUCCESS; the reconciler
has found the order in PROCESSING. -/
def aboutToSucceed : List Action :=
  lockJob 0 1 (alike ["1-"]) ++ [.call 0 (.findStuck []) false] ++
    sendChunk 0 (alike ["1-"]) "b" "0x1" ++ [.call 0 .write false, .mine "0x1" [101]] ++
    ([.receipt (some true), .write, .collect [101]].map fun call => .call 0 call false) ++
    [.reset "signature"]

/-- The job writes SUCCESS, and then the reconciler its reset. -/
theorem success_reopened : ¬ ∀ keccak256 : String → Bytes32, Function.Injective keccak256 →
    ∀ s s' as, (machine keccak256).Reachable s → (machine keccak256).run s as = some s' →
      FinishedStay s s' := by
  intro all
  obtain ⟨s, hs, hp⟩ := Machine.exists_reachable_of_run (M := machine id)
    (initial_queued (alike ["1-"]) (by decide) (by decide +kernel))
    (aboutToSucceed ++ [.call 0 .write false])
    (fun s => (s.db.relayOrders.any fun o => o.status == .SUCCESS) &&
      ((machine id).run s [.call 1 .write false]).any fun s' =>
        s'.db.relayOrders.all fun o => o.status == .RETRY_PENDING) (by decide +kernel)
  simp only [Bool.and_eq_true, List.any_eq_true, beq_iff_eq, Option.any_eq_true, List.all_eq_true] at hp
  obtain ⟨⟨o, ho, success⟩, s', hr, reset⟩ := hp
  obtain ⟨o', ho', -, status, -⟩ :=
    all id Function.injective_id s s' _ hs hr o ho (by rw [success]; rfl)
  rw [reset o' ho', success] at status
  cases status

/-- Without the reset the order stays as the job left it, whatever the confirmer is asked. -/
theorem finished_stay_confirmed : ∃ s s', (s.db.relayOrders.any fun o => o.status == .SUCCESS) = true ∧
    FinishedStay s s' := by
  obtain ⟨s, hs, hp⟩ := Machine.exists_reachable_of_run (M := machine id)
    (initial_queued (alike ["1-"]) (by decide) (by decide +kernel))
    (aboutToSucceed ++ [.call 0 .write false])
    (fun s => (s.db.relayOrders.any fun o => o.status == .SUCCESS) &&
      ((machine id).runBy finishedSafe s
        [.confirm "signature", .call 2 (.read (alike ["1-"])) false, .requeue]).isSome)
    (by decide +kernel)
  obtain ⟨success, ran⟩ := Bool.and_eq_true_iff.1 hp
  obtain ⟨s', hr⟩ := Option.isSome_iff_exists.1 ran
  exact ⟨s, s', success, finished_stay hs hr⟩

end LordsPot.Relay
