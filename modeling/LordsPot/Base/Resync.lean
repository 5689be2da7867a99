import LordsPot.Base.Nonces

/-!
# Resyncs, and the order of the calls

A call that is at its broadcast when `resetNonceLane()` is called overwrites the reset as soon as
the broadcast is accepted. Where that does not happen, the first call after a reset or a failure
asks the chain.
-/

open Transition

namespace LordsPot.Base

/-! ## Resyncs -/

/-- While a resync is due the counter is reset, unless a broadcast is under way whose failure will
reset it. -/
structure Resyncing (s : Lane) : Prop where
  due : needsResync s.log = true →
    s.nextNonce = none ∨ ∃ i nonce, s.phase i = .broadcasting nonce
  entered : ∀ i source earlier, (.entered i source :: earlier) <:+ s.log →
    needsResync earlier = true → source = .pendingCount

namespace Resyncing

variable {s t : Lane}

theorem initial (hi : s.Initial) : Resyncing s := by
  obtain ⟨next, -, -, -, log⟩ := hi
  constructor <;> simp [log, needsResync]

/-- A step by which no call enters. -/
theorem keep (h : Resyncing s) (log : t.log = s.log ∨ ∃ e : Event, e.entry = none ∧ t.log = e :: s.log)
    (due : needsResync t.log = true →
      t.nextNonce = none ∨ ∃ i nonce, t.phase i = .broadcasting nonce) : Resyncing t := by
  refine ⟨due, fun i source earlier below => ?_⟩
  rcases log with log | ⟨e, noEntry, log⟩ <;> rw [log] at below
  · exact h.entered i source earlier below
  · rcases List.suffix_cons_iff.1 below with eq | below
    · rw [← (List.cons.inj eq).1] at noEntry
      cases noEntry
    · exact h.entered i source earlier below

/-- A call that is not broadcasting moves, and the counter is left alone. -/
theorem due_goto (h : Resyncing s) {i : CallId} {p : Phase}
    (notSending : ∀ nonce, s.phase i ≠ .broadcasting nonce) (due : needsResync s.log = true) :
    s.nextNonce = none ∨ ∃ j nonce, Function.update s.phase i p j = .broadcasting nonce := by
  rcases h.due due with reset | ⟨j, nonce, sends⟩
  · exact .inl reset
  · have ne : j ≠ i := fun e => notSending nonce (e ▸ sends)
    exact .inr ⟨j, nonce, by rw [Function.update_of_ne ne, sends]⟩

/-- The first call after a reset finds the counter reset, since nobody is inside when it enters. -/
theorem enter (h : Resyncing s) {i : CallId} {source : Source}
    (alone : ∀ j, (s.phase j).inside = false) (log : t.log = .entered i source :: s.log)
    (taken : s.nextNonce = none → source = .pendingCount) : Resyncing t := by
  constructor
  · intro due
    rw [log] at due
    cases due
  · intro j src earlier below due
    rw [log] at below
    rcases List.suffix_cons_iff.1 below with eq | below
    · cases eq
      rcases h.due due with reset | ⟨j, nonce, sends⟩
      · exact taken reset
      · have out := alone j
        rw [sends] at out
        cases out
    · exact h.entered j src earlier below due

theorem step (h : Resyncing s) (fifo : Fifo s) (nonces : Nonces s) {a : Action} {s' : Lane}
    (keeps : keepsReset s a = true) (hs : Base.step s a = some s') : Resyncing s' := by
  cases move_of_step hs with
  | buys =>
    refine h.keep (.inr ⟨_, rfl, rfl⟩) (h.due_goto ?_)
    simp [fifo.idle_made]
  | claims =>
    refine h.keep (.inl rfl) (h.due_goto ?_)
    simp [fifo.idle_made]
  | estimated estimates => exact h.keep (.inr ⟨_, rfl, rfl⟩) (h.due_goto (by simp [estimates]))
  | refused estimates => exact h.keep (.inl rfl) (h.due_goto (by simp [estimates]))
  | @enters i prev waits free =>
    have alone := fifo.alone waits free
    rcases enter_eq s i with ⟨-, eq⟩ | ⟨nonce, is, eq⟩ <;> rw [eq]
    · exact h.enter alone rfl fun _ => rfl
    · exact h.enter alone rfl fun reset => by simp [is] at reset
  | @counted i answer counts =>
    cases answer with
    | none => exact h.keep (.inl rfl) fun _ => .inl (nonces.counts i counts)
    | some nonce =>
      exact h.keep (.inr ⟨_, rfl, rfl⟩) fun _ => .inr ⟨i, nonce, Function.update_self ..⟩
  | @broadcast i nonce succeeds sends =>
    cases succeeds with
    | true =>
      have notDue : needsResync s.log = false := by simpa [keepsReset] using keeps
      refine h.keep (.inr ⟨_, rfl, rfl⟩) fun due => ?_
      rw [show needsResync (s.broadcast i nonce true).log = needsResync s.log from rfl, notDue] at due
      cases due
    | false => exact h.keep (.inr ⟨_, rfl, rfl⟩) fun _ => .inl rfl
  | releases done => exact h.keep (.inl rfl) (h.due_goto (by simp [done]))
  | resets => exact h.keep (.inr ⟨_, rfl, rfl⟩) fun _ => .inl rfl

theorem of_reachable (h : lane.ReachableBy (fun s a => keepsReset s a = true) s) :
    Resyncing s := by
  have all : Fifo s ∧ Nonces s ∧ Resyncing s :=
    h.invariant (I := fun s => Fifo s ∧ Nonces s ∧ Resyncing s)
      (fun _ hi => ⟨.initial hi, .initial hi, .initial hi⟩)
      fun _ _ _ inv keeps hs =>
        ⟨inv.1.step hs, inv.2.1.step inv.1 hs, inv.2.2.step inv.1 inv.2.1 keeps hs⟩
  exact all.2.2

end Resyncing

/-! ## The order of the calls -/

/-- The calls ask for the lane in the order in which they are made. -/
structure Called (s : Lane) : Prop where
  sorted : (joins s.log).Pairwise (· > ·)
  later : ∀ i ∈ joins s.log, ∀ j, s.phase j = .estimating → i < j

namespace Called

variable {s t : Lane} {i : CallId}

theorem initial (hi : s.Initial) : Called s := by
  obtain ⟨-, -, -, -, log⟩ := hi
  constructor <;> simp [log, joins]

/-- A step by which no call asks for the lane. -/
theorem keep (h : Called s) (joined : joins t.log = joins s.log)
    (estimates : ∀ j, t.phase j = .estimating → s.phase j = .estimating) : Called t :=
  ⟨joined ▸ h.sorted, fun i mem j is => h.later i (joined ▸ mem) j (estimates j is)⟩

theorem estimating_of_goto {p : Phase} (ne : p ≠ .estimating) (j : CallId)
    (is : Function.update s.phase i p j = .estimating) : s.phase j = .estimating := by
  by_cases same : j = i
  · rw [same, Function.update_self] at is
    exact absurd is ne
  · rwa [Function.update_of_ne same] at is

/-- A call asks for the lane while none made before it is at its estimate. -/
theorem join (h : Called s) (after : ∀ j ∈ joins s.log, j < i)
    (first : ∀ j, s.phase j = .estimating → j ≠ i → i < j) {m : Nat} :
    Called ({ s with made := m }.withNonceLane i) := by
  constructor
  · exact List.pairwise_cons.2 ⟨after, h.sorted⟩
  · intro k mem j is
    have before : s.phase j = .estimating := estimating_of_goto (by simp) j is
    rcases List.mem_cons.1 mem with rfl | mem
    · refine first j before ?_
      rintro rfl
      have at_ : Phase.waiting s.nonceLane = .estimating := (Function.update_self ..).symm.trans is
      cases at_
    · exact h.later k mem j before

theorem joins_lt_made (fifo : Fifo s) (mem : i ∈ joins s.log) : i < s.made :=
  fifo.lt_made fun idle => fifo.not_mem_joins (.inl idle) mem

theorem step (h : Called s) (fifo : Fifo s) {a : Action} {s' : Lane}
    (keeps : keepsTurn s a = true) (hs : Base.step s a = some s') : Called s' := by
  cases move_of_step hs with
  | buys =>
    refine h.join (fun j mem => joins_lt_made fifo mem) fun j is ne => ?_
    have lt : j < s.made := fifo.lt_made (by simp [is])
    have none := List.all_eq_true.1 keeps j (List.mem_range.2 lt)
    simp [is] at none
  | claims =>
    refine ⟨h.sorted, fun k mem j is => ?_⟩
    by_cases same : j = s.made
    · rw [same]
      exact joins_lt_made fifo mem
    · have before : s.phase j = .estimating := (Function.update_of_ne same ..).symm.trans is
      exact h.later k mem j before
  | @estimated i estimates =>
    refine h.join (fun j mem => h.later j mem i estimates) fun j is ne => ?_
    by_contra le
    have lt : j < i := Nat.lt_of_le_of_ne (Nat.le_of_not_lt le) ne
    have none := List.all_eq_true.1 keeps j (List.mem_range.2 lt)
    simp [is] at none
  | refused _ => exact h.keep rfl (estimating_of_goto (by simp))
  | @enters i prev waits free =>
    rcases enter_eq s i with ⟨-, eq⟩ | ⟨nonce, -, eq⟩ <;> rw [eq]
    · exact h.keep rfl (estimating_of_goto (by simp))
    · exact h.keep rfl (estimating_of_goto (by simp))
  | @counted i answer counts =>
    cases answer with
    | none => exact h.keep rfl (estimating_of_goto (by simp))
    | some nonce => exact h.keep rfl (estimating_of_goto (by simp))
  | @broadcast i nonce succeeds sends =>
    cases succeeds with
    | true => exact h.keep rfl (estimating_of_goto (by simp))
    | false => exact h.keep rfl (estimating_of_goto (by simp))
  | releases _ => exact h.keep rfl (estimating_of_goto (by simp))
  | resets => exact h.keep rfl fun _ is => is

theorem of_reachable (h : lane.ReachableBy (fun s a => keepsTurn s a = true) s) : Called s := by
  have both : Fifo s ∧ Called s :=
    h.invariant (I := fun s => Fifo s ∧ Called s) (fun _ hi => ⟨.initial hi, .initial hi⟩)
      fun _ _ _ inv keeps hs => ⟨inv.1.step hs, inv.2.step inv.1 keeps hs⟩
  exact both.2

end Called

/-! ## The lane -/

/-- **The lane serves its calls one by one, in turn and whatever they meet with, and numbers their
transactions without a gap. It resyncs after every reset in the runs in which no broadcast is
accepted whose call was already in the lane at the reset, and the calls are served in the order in
which they are made in the runs in which none asks for the lane before an earlier one that is still
at its gas estimate.** -/
theorem lane_serves (s : Lane) :
    (lane.Reachable s → Exclusive s ∧ InTurn s ∧ Unblocked s ∧ Consecutive s) ∧
    (lane.ReachableBy (fun s a => keepsReset s a = true) s → Serves s) ∧
    (lane.ReachableBy (fun s a => keepsTurn s a = true) s →
      (entries s.log).Pairwise (· > ·)) := by
  refine ⟨fun reach => ?_, fun reach => ?_, fun reach => ?_⟩
  · have fifo : Fifo s := .of_reachable reach
    have nonces : Nonces s := .of_reachable reach
    exact ⟨fifo.exclusive, fifo.inTurn, fifo.unblocked, nonces.consecutive⟩
  · have fifo : Fifo s := .of_reachable reach
    have nonces : Nonces s := .of_reachable reach
    have resyncing : Resyncing s := .of_reachable reach
    refine ⟨fifo.exclusive, fifo.inTurn, fifo.unblocked, nonces.consecutive, ?_⟩
    intro i source earlier below due
    obtain rfl := resyncing.entered i source earlier below due
    have entered : .entered i .pendingCount ∈ s.log := below.subset (List.mem_cons_self ..)
    exact ⟨rfl, fun nonce accepted => nonces.answered i nonce accepted entered⟩
  · have fifo : Fifo s := .of_reachable reach
    exact (Called.of_reachable reach).sorted.sublist fifo.inTurn.sublist

def startLane : Lane := ⟨none, none, 0, fun _ => .unmade, []⟩

theorem startLane_initial : startLane.Initial := ⟨rfl, rfl, rfl, fun _ => rfl, rfl⟩

/-- A broadcast fails, the lane is reset between two calls, and the next call takes the answer of
the chain. -/
theorem lane_serves_failing : ∃ s : Lane,
    s.log = [.accepted 1 7, .resynced 1 7, .entered 1 .pendingCount, .reset, .failed 0,
      .joined 1, .resynced 0 7, .entered 0 .pendingCount, .joined 0] ∧
    Exclusive s ∧ Serves s ∧ (entries s.log).Pairwise (· > ·) := by
  obtain ⟨s, reach, at_⟩ := Machine.exists_reachableBy_of_runBy (M := lane)
    (fun s a => keepsReset s a && keepsTurn s a) startLane_initial
    [.submitBuyTickets, .submitClaimWinnings, .enter 0, .counted 0 (some 7), .estimated 1 true,
      .broadcast 0 false, .release 0, .resetNonceLane, .enter 1, .counted 1 (some 7),
      .broadcast 1 true]
    (fun s => s.log = [.accepted 1 7, .resynced 1 7, .entered 1 .pendingCount, .reset, .failed 0,
      .joined 1, .resynced 0 7, .entered 0 .pendingCount, .joined 0])
    (by decide +kernel)
  have keeps := reach.mono fun s a h => (Bool.and_eq_true_iff.1 h).1
  have turns := reach.mono fun s a h => (Bool.and_eq_true_iff.1 h).2
  have any : lane.Reachable s := reach.mono fun _ _ _ => trivial
  exact ⟨s, of_decide_eq_true at_, ((lane_serves s).1 any).1, (lane_serves s).2.1 keeps,
    (lane_serves s).2.2 turns⟩

/-- `resetNonceLane()` while a broadcast is awaited: `this.nextNonce = nonce + 1` undoes it, and the
next call goes on from the counter. -/
theorem reset_lost : ¬ ∀ s, lane.Reachable s → Serves s := by
  intro all
  obtain ⟨s, reach, at_⟩ := Machine.exists_reachable_of_run (M := lane) startLane_initial
    [.submitBuyTickets, .enter 0, .counted 0 (some 7), .resetNonceLane, .broadcast 0 true,
      .release 0, .submitBuyTickets, .enter 1]
    (fun s => s.log = [.entered 1 (.counter 8), .joined 1, .accepted 0 7, .reset, .resynced 0 7,
      .entered 0 .pendingCount, .joined 0])
    (by decide +kernel)
  have log := of_decide_eq_true at_
  have fresh := (all s reach).resyncs 1 (.counter 8)
    [.joined 1, .accepted 0 7, .reset, .resynced 0 7, .entered 0 .pendingCount, .joined 0]
    (by rw [log]) rfl
  cases fresh.1

end LordsPot.Base
