import LordsPot.Vault.Contract

/-!
# Orders are routed once

The flag of an order is set before Megapot is called and the event is logged after it, so that between
the two the order is in flight. With what is in flight counted, the flags and the events agree in every
state, whatever is called in between: an order that is in flight cannot be entered again, and a call
that reverts takes its flag back together with everything else.
-/

namespace LordsPot.Vault

open Transition Rollback

/-- The orders of a log, in order. -/
def Event.orderId? : Event → Option Bytes32
  | .TicketsRouted orderId .. => some orderId
  | _ => none

def routed (logs : List Event) : List Bytes32 := logs.filterMap Event.orderId?

/-- The order a call has in flight. -/
def Waits.orderId? : Waits → Option Bytes32
  | .buying orderId .. => some orderId
  | _ => none

def inFlight (waits : List Waits) : List Bytes32 := waits.filterMap Waits.orderId?

/-- The flags are those of the orders that have been routed or are in flight, and no order is both, or
either twice. -/
structure Idempotent (w : World) (waits : List Waits) : Prop where
  once : (routed w.logs ++ inFlight waits).Nodup
  flag : ∀ orderId, w.isOrderFulfilled orderId = true ↔
    orderId ∈ routed w.logs ∨ orderId ∈ inFlight waits

section Functions

variable {w w' : World} {msgSender : Address} {call : VaultCall} {waits : Waits} {next : Option Waits}
  {returned : List Nat} {below : List Waits}

/-- Nothing about orders has changed. -/
structure OrdersSame (w w' : World) (next : Option Waits) : Prop where
  flags : w'.isOrderFulfilled = w.isOrderFulfilled
  logs : routed w'.logs = routed w.logs
  idle : next.bind Waits.orderId? = none

theorem routed_emit (w : World) (event : Event) :
    routed (w.emit event).logs = routed w.logs ++ event.orderId?.toList := by
  rw [World.emit, routed, List.filterMap_append]
  cases h : event.orderId? with
  | none => simp [routed, h]
  | some orderId => simp [routed, h]

theorem OrdersSame.emit {event : Event} (h : OrdersSame w w' next) (quiet : event.orderId? = none) :
    OrdersSame w (w'.emit event) next where
  flags := h.flags
  logs := by rw [routed_emit, quiet, Option.toList_none, List.append_nil, h.logs]
  idle := h.idle

/-- A call that is entered sets the flag of a fresh order, or leaves the orders alone. -/
theorem enter_orders (h : enter w msgSender call = some (w', next)) :
    (∃ orderId ticketCount source, next = some (.buying orderId ticketCount source) ∧
      w.isOrderFulfilled orderId = false ∧
      w' = { w with isOrderFulfilled := Function.update w.isOrderFulfilled orderId true }) ∨
    OrdersSame w w' next := by
  cases call with
  | buyTickets orderId tickets source =>
    simp only [enter] at h
    split at h
    · cases h
    · split at h
      · cases h
      · split at h
        · cases h
        · rename_i fresh
          cases h
          exact .inl ⟨orderId, tickets.length, source, rfl, Bool.eq_false_iff.2 fresh, rfl⟩
  | _ =>
    refine .inr ?_
    simp only [enter] at h
    repeat' split at h
    all_goals first
      | cases h; done
      | cases h; exact ⟨rfl, rfl, rfl⟩
      | cases h; exact OrdersSame.emit ⟨rfl, rfl, rfl⟩ rfl

/-- A call that goes on logs its order, or leaves the orders alone. -/
theorem resume_orders (h : resume w returned waits = some (w', next)) :
    (∃ orderId, waits.orderId? = some orderId ∧ next = none ∧
      w'.isOrderFulfilled = w.isOrderFulfilled ∧ routed w'.logs = routed w.logs ++ [orderId]) ∨
    (waits.orderId? = none ∧ OrdersSame w w' next) := by
  cases waits with
  | buying orderId ticketCount source =>
    cases h
    exact .inl ⟨orderId, rfl, rfl, rfl, routed_emit ..⟩
  | balanceBefore ticketCount =>
    obtain ⟨balance, -, h⟩ := Option.map_eq_some_iff.1 h
    cases h
    exact .inr ⟨rfl, rfl, rfl, rfl⟩
  | balanceAfter ticketCount balanceBefore =>
    obtain ⟨balance, -, h⟩ := Option.bind_eq_some_iff.1 h
    split at h
    · cases h
    · cases h
      exact .inr ⟨rfl, OrdersSame.emit ⟨rfl, rfl, rfl⟩ rfl⟩
  | _ =>
    refine .inr ⟨rfl, ?_⟩
    cases h
    first
      | exact ⟨rfl, rfl, rfl⟩
      | exact OrdersSame.emit ⟨rfl, rfl, rfl⟩ rfl

theorem inFlight_cons (waits : Waits) (below : List Waits) :
    inFlight (waits :: below) = waits.orderId?.toList ++ inFlight below := by
  cases h : waits.orderId? with
  | none => simp [inFlight, h]
  | some orderId => simp [inFlight, h]

/-- What is in flight once a call waits for its next external call, or has ended. -/
theorem inFlight_next (next : Option Waits) (below : List Waits) :
    inFlight (next.toList ++ below) = (next.bind Waits.orderId?).toList ++ inFlight below := by
  cases next with
  | none => rfl
  | some waits => exact inFlight_cons waits below

/-- Nothing about orders changes, and calls without an order come or go. -/
theorem Idempotent.same {before after : List Waits} (h : Idempotent w before)
    (flags : w'.isOrderFulfilled = w.isOrderFulfilled) (logs : routed w'.logs = routed w.logs)
    (flight : inFlight after = inFlight before) : Idempotent w' after where
  once := by rw [logs, flight]; exact h.once
  flag orderId := by rw [flags, logs, flight]; exact h.flag orderId

theorem Idempotent.enter (h : Idempotent w below) (entered : enter w msgSender call = some (w', next)) :
    Idempotent w' (next.toList ++ below) := by
  rcases enter_orders entered with ⟨orderId, ticketCount, source, rfl, fresh, rfl⟩ | same
  · have unseen : orderId ∉ routed w.logs ++ inFlight below := by
      intro mem
      have set := (h.flag orderId).2 (List.mem_append.1 mem)
      rw [fresh] at set
      cases set
    have flight : inFlight ((some (Waits.buying orderId ticketCount source)).toList ++ below) =
        orderId :: inFlight below := rfl
    constructor
    · rw [flight]
      exact List.nodup_middle.2 (List.nodup_cons.2 ⟨unseen, h.once⟩)
    · intro other
      rw [flight, List.mem_cons]
      by_cases this : other = orderId
      · simp [this]
      · simp [this, h.flag other]
  · exact h.same same.flags same.logs (by rw [inFlight_next, same.idle]; rfl)

theorem Idempotent.resume (h : Idempotent w (waits :: below))
    (went : resume w returned waits = some (w', next)) : Idempotent w' (next.toList ++ below) := by
  rcases resume_orders went with ⟨orderId, own, rfl, flags, logs⟩ | ⟨idle, same⟩
  · have flight : inFlight (waits :: below) = orderId :: inFlight below := by
      rw [inFlight_cons, own]
      rfl
    have once := h.once
    have flag := h.flag
    rw [flight] at once flag
    constructor
    · rw [logs, List.append_assoc]
      exact once
    · intro other
      rw [flags, logs, flag other, List.mem_append, List.mem_cons, List.mem_singleton, or_assoc]
      rfl
  · refine h.same same.flags same.logs ?_
    rw [inFlight_next, same.idle, inFlight_cons, idle]

end Functions

/-! ## Runs -/

variable {s s' : State}

/-- The open calls after a step that is entered or goes on. -/
theorem Sound.rest {I : World → List Waits → Prop} {P : World → Waits → Prop} {w snapshot : World}
    {stack : List (Frame World Waits)} {next : Option Waits} (below : Sound I P snapshot stack)
    (own : ∀ waits, next = some waits → P snapshot waits) (now : I w (next.toList ++ waiting stack)) :
    Sound I P w (rest snapshot stack next) := by
  cases next with
  | none => exact below.change now
  | some waits => exact below.push (own waits rfl) now

/-- What the functions keep holds after every step, with what is in flight, provided that the calls
that are entered are allowed there. -/
theorem sound_step {I : World → List Waits → Prop} {P : World → Waits → Prop}
    (allowed : List Waits → VaultCall → Prop) {a : Action} (h : Sound I P s.world s.stack)
    (calls : ∀ msgSender call, a = .call msgSender call → allowed (waiting s.stack) call)
    (enters : ∀ w w' below msgSender call next, I w below → allowed below call →
      enter w msgSender call = some (w', next) →
      I w' (next.toList ++ below) ∧ ∀ waits, next = some waits → P w waits)
    (resumes : ∀ w w' below waits returned next, I w (waits :: below) →
      resume w returned waits = some (w', next) →
      I w' (next.toList ++ below) ∧
        ∀ snapshot, P snapshot waits → ∀ waits', next = some waits' → P snapshot waits')
    (others : ∀ w below, I w below → I w (.other :: below) ∧ P w .other)
    (spends : ∀ w below token spender amount, I w below →
      I (w.setAllowance token spender (w.allowance token spender - amount)) below)
    (hs : step s a = some s') : Sound I P s'.world s'.stack := by
  cases a with
  | call msgSender call =>
    simp only [step] at hs
    split at hs
    · cases hs; exact h
    · split at hs
      · cases hs; exact h
      · rename_i entered
        cases hs
        obtain ⟨now, own⟩ := enters _ _ _ _ _ _ h.now (calls _ _ rfl) entered
        exact Sound.rest h own now
  | enterOther =>
    simp only [step] at hs
    split at hs
    · cases hs; exact h
    · cases hs
      obtain ⟨now, own⟩ := others _ _ h.now
      exact h.push own now
  | ret returned =>
    simp only [step] at hs
    split at hs
    · cases hs
    · rename_i frame stack open_
      rw [open_] at h
      split at hs
      · cases hs
        exact h.revert
      · rename_i went
        cases hs
        obtain ⟨now, own⟩ := resumes _ _ _ _ _ _ h.now went
        exact Sound.rest h.revert (own _ h.call) now
  | revert =>
    simp only [step] at hs
    split at hs
    · cases hs
    · rename_i frame stack open_
      rw [open_] at h
      cases hs
      exact h.revert
  | spend token spender amount =>
    simp only [step] at hs
    split at hs
    · cases hs
    · cases hs
      exact h.change (spends _ _ _ _ _ h.now)

/-- The order a call has in flight was not fulfilled when the call was entered. -/
def Fresh (snapshot : World) (waits : Waits) : Prop :=
  ∀ orderId, waits.orderId? = some orderId → snapshot.isOrderFulfilled orderId = false

theorem idempotent_initial (h : Initial s) : Sound Idempotent Fresh s.world s.stack := by
  obtain ⟨empty, initialOwner, relayer, megapotAddress, usdcAddress, referrerAddress, built⟩ := h
  rw [empty]
  unfold constructed at built
  split at built
  · cases built
  · rw [← Option.some.inj built]
    constructor
    · exact List.nodup_nil
    · intro orderId
      simp [routed, inFlight, World.setAllowance, Event.orderId?]

theorem idempotent_reachable (h : machine.Reachable s) : Sound Idempotent Fresh s.world s.stack := by
  refine h.invariant (fun s => idempotent_initial) fun s a s' ih _ hs => ?_
  have hs : step s a = some s' := hs
  refine sound_step (fun _ _ => True) ih (fun _ _ _ => trivial) ?_ ?_ ?_ ?_ hs
  · intro w w' below msgSender call next now _ entered
    refine ⟨now.enter entered, ?_⟩
    rintro waits rfl orderId own
    rcases enter_orders entered with ⟨_, _, _, same, fresh, -⟩ | same
    · cases same
      cases own
      exact fresh
    · have idle := same.idle
      rw [Option.bind_some, own] at idle
      cases idle
  · intro w w' below waits returned next now went
    refine ⟨now.resume went, fun snapshot _ => ?_⟩
    rintro waits' rfl orderId own
    rcases resume_orders went with ⟨_, -, ended, -⟩ | ⟨-, same⟩
    · cases ended
    · have idle := same.idle
      rw [Option.bind_some, own] at idle
      cases idle
  · intro w below now
    refine ⟨now.same rfl rfl rfl, ?_⟩
    rintro orderId own
    cases own
  · intro w below token spender amount now
    exact now.same rfl rfl rfl

/-- **Order idempotency under reentrancy.** Once no call is open, an order has been routed at most
once, and its flag says exactly whether it has been; and a `buyTickets` that reverts goes back to the
state it was entered in, where its order was not fulfilled. -/
theorem order_idempotent (s : State) (h : machine.Reachable s) :
    (s.stack = [] → ∀ orderId, (routed s.world.logs).count orderId ≤ 1 ∧
      (s.world.isOrderFulfilled orderId = true ↔ orderId ∈ routed s.world.logs)) ∧
    ∀ frame stack orderId ticketCount source, s.stack = frame :: stack →
      frame.waits = .buying orderId ticketCount source → ∀ s', step s .revert = some s' →
        s'.world = frame.snapshot ∧ s'.world.isOrderFulfilled orderId = false := by
  have sound := idempotent_reachable h
  constructor
  · intro committed orderId
    rw [committed] at sound
    have now : Idempotent s.world [] := sound.now
    constructor
    · have once := now.once
      rw [inFlight, List.filterMap_nil, List.append_nil] at once
      exact List.nodup_iff_count_le_one.1 once orderId
    · simpa [inFlight] using now.flag orderId
  · intro frame stack orderId ticketCount source open_ own s' reverted
    rw [open_] at sound
    simp only [step, open_, Option.some.injEq] at reverted
    subst reverted
    exact ⟨rfl, sound.call orderId (by rw [own]; rfl)⟩

/-! ## A relayer that is called back -/

/-- Megapot (9) is the relayer. -/
def selfRelayed : World where
  owner := 1
  vaultInfo := { relayer := 9, megapotAddress := 9, usdcAddress := 8, referrerAddress := 3 }
  logs := [.OwnershipTransferred 0 1]
  allowance := Function.update (fun _ _ => 0) 8 (Function.update (fun _ => 0) 9 MAX_UINT256)

theorem initial_selfRelayed : machine.init { world := selfRelayed } :=
  ⟨rfl, 1, 9, 9, 8, 3, rfl⟩

/-- During the purchase of `a`, Megapot tries `a` again and buys `b`; then the purchase of `a` reverts
and is made again. -/
def reentered : List Action :=
  [.call 9 (.buyTickets "a" [] "s"), .call 9 (.buyTickets "a" [] "s"), .call 9 (.buyTickets "b" [] "s"),
    .ret [7], .revert, .call 9 (.buyTickets "a" [] "s"), .call 9 (.buyTickets "b" [] "s"), .ret [8],
    .ret [9]]

theorem order_idempotent_reentered : ∃ s : State, (routed s.world.logs).count "a" ≤ 1 ∧
    s.world.isOrderFulfilled "a" = true ∧ "b" ∈ routed s.world.logs := by
  obtain ⟨s, reached, run⟩ := Machine.exists_reachable_of_run (M := machine) initial_selfRelayed reentered
    (fun s => s.stack.isEmpty && s.world.isOrderFulfilled "a" && s.world.isOrderFulfilled "b")
    (by decide +kernel)
  simp only [Bool.and_eq_true, List.isEmpty_iff] at run
  obtain ⟨⟨committed, a⟩, b⟩ := run
  have orders := (order_idempotent s reached).1 committed
  exact ⟨s, (orders "a").1, a, (orders "b").2.1 b⟩

end LordsPot.Vault
