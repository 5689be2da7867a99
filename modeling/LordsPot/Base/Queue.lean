import Mathlib.Data.List.Nodup
import LordsPot.Base.NonceLane

/-!
# The chain of promises is a queue

Each call waits for the one that asked for the lane before it, so the lane lets one call in at a
time, in turn, and none of them can keep the others out for good.
-/

open Transition

namespace LordsPot.Base

/-- Calls join at the head of `joins`; each waits for the one below it; those that have entered are
the bottom of the list, and only the top one of these may still be inside. -/
structure Fifo (s : Lane) : Prop where
  unmade : ∀ i, s.made ≤ i → s.phase i = .unmade
  distinct : (joins s.log).Nodup
  inTurn : entries s.log <:+ joins s.log
  last : s.nonceLane = (joins s.log).head?
  linked : ∀ i prev earlier, (i :: earlier) <:+ joins s.log → s.phase i = .waiting prev →
    prev = earlier.head?
  waits : ∀ i, (∃ prev, s.phase i = .waiting prev) ↔ i ∈ joins s.log ∧ i ∉ entries s.log
  served : ∀ i ∈ entries s.log, (s.phase i).inside = true ∨ (s.phase i).released = true
  inside : ∀ i, (s.phase i).inside = true → (entries s.log).head? = some i
  passed : ∀ i ∈ (entries s.log).tail, (s.phase i).released = true

namespace Fifo

variable {s : Lane} {i j : CallId} {p : Phase}

/-- A call that has not asked for the lane yet is at none of the phases of those that have. -/
theorem not_mem_joins (h : Fifo s) (idle : s.phase i = .unmade ∨ s.phase i = .estimating) :
    i ∉ joins s.log := by
  intro mem
  by_cases entered : i ∈ entries s.log
  · rcases idle with idle | idle <;> rcases h.served i entered with is | is <;>
      simp [idle, Phase.inside, Phase.released] at is
  · obtain ⟨prev, is⟩ := (h.waits i).2 ⟨mem, entered⟩
    rcases idle with idle | idle <;> rw [idle] at is <;> cases is

theorem exclusive (h : Fifo s) : Exclusive s := by
  intro i j hi hj
  exact Option.some.inj ((h.inside i hi).symm.trans (h.inside j hj))

theorem idle_made (h : Fifo s) : s.phase s.made = .unmade := h.unmade _ (Nat.le_refl _)

theorem lt_made (h : Fifo s) (made : s.phase i ≠ .unmade) : i < s.made :=
  Nat.lt_of_not_le fun beyond => made (h.unmade i beyond)

theorem initial (hi : s.Initial) : Fifo s := by
  obtain ⟨-, lane, -, phase, log⟩ := hi
  constructor <;> simp [phase, log, lane, joins, entries, Phase.inside, Phase.released]

/-- A call that asks for the lane is put on top. -/
theorem join (h : Fifo s) (idle : s.phase i = .unmade ∨ s.phase i = .estimating) {m : Nat}
    (le : s.made ≤ m) (lt : i < m) : Fifo ({ s with made := m }.withNonceLane i) := by
  have new : i ∉ joins s.log := h.not_mem_joins idle
  have notEntered : i ∉ entries s.log := fun mem => new (h.inTurn.subset mem)
  have other : ∀ j, j ≠ i → Function.update s.phase i (.waiting s.nonceLane) j = s.phase j :=
    fun j ne => Function.update_of_ne ne _ _
  constructor
  · intro j beyond
    have ne : j ≠ i := fun e => Nat.not_lt.2 beyond (e ▸ lt)
    exact (other j ne).trans (h.unmade j (Nat.le_trans le beyond))
  · exact List.nodup_cons.2 ⟨new, h.distinct⟩
  · exact h.inTurn.trans (List.suffix_cons i _)
  · rfl
  · intro j prev earlier below waits
    rcases List.suffix_cons_iff.1 below with top | below
    · obtain ⟨rfl, rfl⟩ := List.cons.inj top
      have is : Phase.waiting s.nonceLane = .waiting prev :=
        (Function.update_self j _ s.phase).symm.trans waits
      rw [← Phase.waiting.inj is]
      exact h.last
    · have mem : j ∈ joins s.log := below.subset (List.mem_cons_self ..)
      exact h.linked j prev earlier below ((other j fun e => new (e ▸ mem)).symm.trans waits)
  · intro j
    change (∃ prev, Function.update s.phase i _ j = _) ↔ j ∈ i :: joins s.log ∧ j ∉ entries s.log
    by_cases same : j = i
    · subst same
      simp [notEntered]
    · rw [other j same, h.waits j, List.mem_cons]
      simp [same]
  · intro j mem
    change (Function.update s.phase i _ j).inside = true ∨ (Function.update s.phase i _ j).released = true
    rw [other j fun e => notEntered (e ▸ mem)]
    exact h.served j mem
  · intro j is
    change (Function.update s.phase i _ j).inside = true at is
    by_cases same : j = i
    · rw [same, Function.update_self] at is
      cases is
    · rw [other j same] at is
      exact h.inside j is
  · intro j mem
    change (Function.update s.phase i _ j).released = true
    rw [other j fun e => notEntered (e ▸ List.mem_of_mem_tail mem)]
    exact h.passed j mem

/-- A step of a call that has not joined the queue, or is among those that have entered now. -/
theorem move (h : Fifo s) {t : Lane} (made : s.made ≤ t.made) (lt : i < t.made)
    (phase : t.phase = Function.update s.phase i p) (joined : joins t.log = joins s.log)
    (last : t.nonceLane = s.nonceLane) (inTurn : entries t.log <:+ joins s.log)
    (others : ∀ j, j ≠ i → (j ∈ entries t.log ↔ j ∈ entries s.log))
    (notWaiting : ∀ prev, p ≠ .waiting prev) (notQueued : i ∈ joins s.log → i ∈ entries t.log)
    (served : i ∈ entries t.log → p.inside = true ∨ p.released = true)
    (inside : ∀ j, (t.phase j).inside = true → (entries t.log).head? = some j)
    (passed : ∀ j ∈ (entries t.log).tail, (t.phase j).released = true) : Fifo t := by
  have self : t.phase i = p := by rw [phase, Function.update_self]
  have other : ∀ j, j ≠ i → t.phase j = s.phase j := by
    intro j ne
    rw [phase, Function.update_of_ne ne]
  refine ⟨?_, joined ▸ h.distinct, joined ▸ inTurn, ?_, ?_, ?_, ?_, inside, passed⟩
  · intro j beyond
    rw [other j fun e => Nat.not_lt.2 beyond (e ▸ lt)]
    exact h.unmade j (Nat.le_trans made beyond)
  · rw [last, joined, h.last]
  · intro j prev earlier below waits
    rw [joined] at below
    by_cases same : j = i
    · rw [same, self] at waits
      exact absurd waits (notWaiting prev)
    · exact h.linked j prev earlier below (other j same ▸ waits)
  · intro j
    rw [joined]
    by_cases same : j = i
    · rw [same, self]
      exact ⟨fun ⟨prev, is⟩ => absurd is (notWaiting prev), fun q => absurd (notQueued q.1) q.2⟩
    · rw [other j same, others j same]
      exact h.waits j
  · intro j mem
    by_cases same : j = i
    · rw [same, self]
      exact served (same ▸ mem)
    · rw [other j same]
      exact h.served j ((others j same).1 mem)

/-- A step of a call that does not move it in the queue. -/
theorem stay (h : Fifo s) {t : Lane} (made : s.made ≤ t.made) (lt : i < t.made)
    (phase : t.phase = Function.update s.phase i p) (joined : joins t.log = joins s.log)
    (entered : entries t.log = entries s.log) (last : t.nonceLane = s.nonceLane)
    (notWaiting : ∀ prev, p ≠ .waiting prev) (notQueued : i ∈ joins s.log → i ∈ entries s.log)
    (served : i ∈ entries s.log → p.inside = true ∨ p.released = true)
    (inside : p.inside = true → (entries s.log).head? = some i)
    (passed : i ∈ (entries s.log).tail → p.released = true) : Fifo t := by
  rw [← entered] at notQueued served inside passed
  refine h.move made lt phase joined last (entered ▸ h.inTurn) (fun j _ => by rw [entered])
    notWaiting notQueued served ?_ ?_
  · intro j is
    rw [phase] at is
    by_cases same : j = i
    · rw [same, Function.update_self] at is
      rw [same]
      exact inside is
    · rw [Function.update_of_ne same] at is
      rw [entered]
      exact h.inside j is
  · intro j mem
    rw [phase]
    by_cases same : j = i
    · rw [same, Function.update_self]
      exact passed (same ▸ mem)
    · rw [Function.update_of_ne same]
      exact h.passed j (entered ▸ mem)

/-- A call that has not asked for the lane does as it likes. -/
theorem outside (h : Fifo s) (idle : s.phase i = .unmade ∨ s.phase i = .estimating) {m : Nat}
    (le : s.made ≤ m) (lt : i < m) (out : p = .estimating ∨ p = .settled none) :
    Fifo ({ s with made := m }.goto i p) := by
  have new : i ∉ joins s.log := h.not_mem_joins idle
  have notEntered : i ∉ entries s.log := fun mem => new (h.inTurn.subset mem)
  refine h.stay le lt rfl rfl rfl rfl ?_ (fun mem => absurd mem new)
    (fun mem => absurd mem notEntered) ?_ (fun mem => absurd (List.mem_of_mem_tail mem) notEntered)
  · rcases out with rfl | rfl <;> simp
  · rcases out with rfl | rfl <;> simp [Phase.inside]

/-- A call inside goes on, or leaves. -/
theorem proceed (h : Fifo s) (is : (s.phase i).inside = true) {t : Lane} (made : t.made = s.made)
    (phase : t.phase = Function.update s.phase i p) (joined : joins t.log = joins s.log)
    (entered : entries t.log = entries s.log) (last : t.nonceLane = s.nonceLane)
    (next : p.inside = true ∨ p.released = true) : Fifo t := by
  have top := h.inside i is
  have mem : i ∈ entries s.log := List.mem_of_mem_head? top
  have lt : i < s.made := h.lt_made fun e => by simp [e, Phase.inside] at is
  have distinct : (entries s.log).Nodup := h.inTurn.sublist.nodup h.distinct
  refine h.stay (Nat.le_of_eq made.symm) (made ▸ lt) phase joined entered last ?_ (fun _ => mem)
    (fun _ => next) (fun _ => top) ?_
  · rintro prev rfl
    simp [Phase.inside, Phase.released] at next
  · intro below
    obtain ⟨rest, eq⟩ := List.head?_eq_some_iff.1 top
    rw [eq] at below distinct
    exact absurd below (List.nodup_cons.1 distinct).1

/-- Those that have entered asked before one that waits. -/
theorem entries_suffix (h : Fifo s) (notEntered : i ∉ entries s.log) {earlier : List CallId}
    (below : (i :: earlier) <:+ joins s.log) : entries s.log <:+ earlier := by
  rcases List.suffix_or_suffix_of_suffix h.inTurn below with sub | sub
  · rcases List.suffix_cons_iff.1 sub with eq | sub
    · exact absurd (eq ▸ List.mem_cons_self ..) notEntered
    · exact sub
  · exact absurd (sub.subset (List.mem_cons_self ..)) notEntered

/-- When a call enters, everything that asked for the lane before it has left the lane. -/
theorem below_released (h : Fifo s) {prev : Option CallId} (waits : s.phase i = .waiting prev)
    (free : s.released prev = true) :
    (i :: entries s.log) <:+ joins s.log ∧ ∀ j ∈ entries s.log, (s.phase j).released = true := by
  obtain ⟨mem, notEntered⟩ := (h.waits i).1 ⟨prev, waits⟩
  obtain ⟨later, earlier, eq⟩ := List.append_of_mem mem
  have below : (i :: earlier) <:+ joins s.log := ⟨later, eq.symm⟩
  have link := h.linked i prev earlier below waits
  have within := h.entries_suffix notEntered below
  have all : entries s.log = earlier := by
    cases earlier with
    | nil => exact List.suffix_nil.1 within
    | cons q rest =>
      rw [link, List.head?_cons] at free
      have joined : q ∈ joins s.log := below.subset (by simp)
      have entered : q ∈ entries s.log := by
        by_contra notEntered
        obtain ⟨prev, is⟩ := (h.waits q).2 ⟨joined, notEntered⟩
        simp [Lane.released, is, Phase.released] at free
      rcases List.suffix_cons_iff.1 within with eq | sub
      · exact eq
      · have distinct := below.sublist.nodup h.distinct
        exact absurd (sub.subset entered) (List.nodup_cons.1 (List.nodup_cons.1 distinct).2).1
  refine ⟨all ▸ below, fun j hj => ?_⟩
  cases eq : entries s.log with
  | nil =>
    rw [eq] at hj
    cases hj
  | cons q rest =>
    rw [eq] at hj
    rcases List.mem_cons.1 hj with rfl | below
    · rw [link, ← all, eq] at free
      exact free
    · exact h.passed j (by rw [eq]; exact below)

/-- Nobody is inside when a call enters. -/
theorem alone (h : Fifo s) {prev : Option CallId} (waits : s.phase i = .waiting prev)
    (free : s.released prev = true) (j : CallId) : (s.phase j).inside = false := by
  by_contra is
  rw [Bool.not_eq_false] at is
  have left := (h.below_released waits free).2 j (List.mem_of_mem_head? (h.inside j is))
  cases at_ : s.phase j <;> simp [at_, Phase.inside, Phase.released] at is left

/-- A call enters. -/
theorem enter (h : Fifo s) {prev : Option CallId} (waits : s.phase i = .waiting prev)
    (free : s.released prev = true) {t : Lane} (made : t.made = s.made)
    (phase : t.phase = Function.update s.phase i p) (joined : joins t.log = joins s.log)
    (entered : entries t.log = i :: entries s.log) (last : t.nonceLane = s.nonceLane)
    (next : p.inside = true) : Fifo t := by
  obtain ⟨below, left⟩ := h.below_released waits free
  have notEntered : i ∉ entries s.log := ((h.waits i).1 ⟨prev, waits⟩).2
  have lt : i < s.made := h.lt_made fun e => by rw [waits] at e; cases e
  have top : i ∈ entries t.log := entered ▸ List.mem_cons_self ..
  refine h.move (Nat.le_of_eq made.symm) (made ▸ lt) phase joined last (entered ▸ below) ?_ ?_
    (fun _ => top) (fun _ => .inl next) ?_ ?_
  · intro j ne
    rw [entered, List.mem_cons]
    simp [ne]
  · rintro prev rfl
    cases next
  · intro j is
    rw [phase] at is
    by_cases same : j = i
    · rw [same, entered]
      rfl
    · rw [Function.update_of_ne same, h.alone waits free j] at is
      cases is
  · intro j mem
    rw [entered, List.tail_cons] at mem
    have ne : j ≠ i := fun e => notEntered (e ▸ mem)
    rw [phase, Function.update_of_ne ne]
    exact left j mem

theorem step (h : Fifo s) {a : Action} {s' : Lane} (hs : Base.step s a = some s') : Fifo s' := by
  cases move_of_step hs with
  | buys => exact h.join (.inl h.idle_made) (Nat.le_succ _) (Nat.lt_succ_self _)
  | claims => exact h.outside (.inl h.idle_made) (Nat.le_succ _) (Nat.lt_succ_self _) (.inl rfl)
  | estimated estimates =>
    exact h.join (.inr estimates) (Nat.le_refl _) (h.lt_made (by simp [estimates]))
  | refused estimates =>
    exact h.outside (.inr estimates) (Nat.le_refl _) (h.lt_made (by simp [estimates])) (.inr rfl)
  | @enters i prev waits free =>
    rcases enter_eq s i with ⟨-, eq⟩ | ⟨nonce, -, eq⟩ <;> rw [eq]
    · exact h.enter waits free rfl rfl rfl rfl rfl rfl
    · exact h.enter waits free rfl rfl rfl rfl rfl rfl
  | @counted i answer counts =>
    have is : (s.phase i).inside = true := by simp [counts, Phase.inside]
    cases answer with
    | none => exact h.proceed is rfl rfl rfl rfl rfl (.inl rfl)
    | some nonce => exact h.proceed is rfl rfl rfl rfl rfl (.inl rfl)
  | @broadcast i nonce succeeds sends =>
    have is : (s.phase i).inside = true := by simp [sends, Phase.inside]
    cases succeeds with
    | true => exact h.proceed is rfl rfl rfl rfl rfl (.inl rfl)
    | false => exact h.proceed is rfl rfl rfl rfl rfl (.inl rfl)
  | @releases i result done =>
    have is : (s.phase i).inside = true := by simp [done, Phase.inside]
    exact h.proceed is rfl rfl rfl rfl rfl (.inr rfl)
  | resets => exact ⟨h.1, h.2, h.3, h.4, h.5, h.6, h.7, h.8, h.9⟩

theorem of_reachable {ok : Lane → Action → Prop} (h : lane.ReachableBy ok s) : Fifo s :=
  h.invariant (I := Fifo) (fun _ hi => initial hi) fun _ _ _ inv _ hs => inv.step hs

end Fifo

/-! ## Nobody is blocked -/

section Progress

variable {s : Lane} {fate : Fate}

/-- Runs made of the steps of calls in the lane that meet with their fate. -/
def Runs (fate : Fate) (s t : Lane) : Prop :=
  ∃ as, (∀ a ∈ as, fate.allows a = true) ∧ lane.run s as = some t

theorem Runs.refl (s : Lane) : Runs fate s s :=
  ⟨[], by simp, rfl⟩

theorem Runs.cons {t u : Lane} {a : Action} (allowed : fate.allows a = true)
    (hs : step s a = some t) (rest : Runs fate t u) : Runs fate s u := by
  obtain ⟨as, all, run⟩ := rest
  refine ⟨a :: as, fun b hb => ?_, Machine.run_cons.2 ⟨t, hs, run⟩⟩
  rcases List.mem_cons.1 hb with rfl | hb
  · exact allowed
  · exact all b hb

theorem Runs.trans {t u : Lane} (first : Runs fate s t) (second : Runs fate t u) :
    Runs fate s u := by
  obtain ⟨as, all, run⟩ := first
  induction as generalizing s with
  | nil =>
    cases run
    exact second
  | cons a as ih =>
    obtain ⟨m, hs, run⟩ := Machine.run_cons.1 run
    have rest : Runs fate m u := ih (fun b hb => all b (List.mem_cons_of_mem _ hb)) run
    exact .cons (all a (List.mem_cons_self ..)) hs rest

theorem Runs.fifo {t : Lane} (r : Runs fate s t) (h : Fifo s) : Fifo t := by
  obtain ⟨as, -, run⟩ := r
  exact Machine.run_invariant (M := lane) (fun _ _ _ inv hs => Fifo.step inv hs) h run

/-- The same calls have asked for the lane, and the same have entered. -/
structure SameQueue (s t : Lane) : Prop where
  joined : joins t.log = joins s.log
  entered : entries t.log = entries s.log

theorem SameQueue.trans {t u : Lane} (first : SameQueue s t) (second : SameQueue t u) :
    SameQueue s u :=
  ⟨second.joined.trans first.joined, second.entered.trans first.entered⟩

variable {i : CallId}

theorem leaves_of_finishing {result : Option Nat} (is : s.phase i = .finishing result) :
    ∃ t, Runs fate s t ∧ SameQueue s t ∧ (t.phase i).released = true := by
  have taken : step s (.release i) = some (s.goto i (.settled result)) := by simp only [step, is]
  refine ⟨_, .cons rfl taken (.refl _), ⟨rfl, rfl⟩, ?_⟩
  simp [Lane.goto, Phase.released]

theorem leaves_of_broadcasting {nonce : Nat} (is : s.phase i = .broadcasting nonce) :
    ∃ t, Runs fate s t ∧ SameQueue s t ∧ (t.phase i).released = true := by
  have taken : step s (.broadcast i (fate.succeeds i)) =
      some (s.broadcast i nonce (fate.succeeds i)) := by simp only [step, is]
  have allowed : fate.allows (.broadcast i (fate.succeeds i)) = true := by simp [Fate.allows]
  have next : ∃ result, (s.broadcast i nonce (fate.succeeds i)).phase i = .finishing result ∧
      SameQueue s (s.broadcast i nonce (fate.succeeds i)) := by
    cases fate.succeeds i with
    | true => exact ⟨_, Function.update_self .., rfl, rfl⟩
    | false => exact ⟨_, Function.update_self .., rfl, rfl⟩
  obtain ⟨result, finishing, same⟩ := next
  obtain ⟨t, rest, same', left⟩ := leaves_of_finishing finishing
  exact ⟨t, .cons allowed taken rest, same.trans same', left⟩

theorem leaves_of_counting (is : s.phase i = .counting) :
    ∃ t, Runs fate s t ∧ SameQueue s t ∧ (t.phase i).released = true := by
  have taken : step s (.counted i (fate.count i)) = some (s.counted i (fate.count i)) := by
    simp only [step, is]
  have allowed : fate.allows (.counted i (fate.count i)) = true := by simp [Fate.allows]
  cases answer : fate.count i with
  | none =>
    rw [answer] at taken allowed
    have finishing : (s.counted i none).phase i = .finishing none := Function.update_self ..
    obtain ⟨t, rest, same, left⟩ := leaves_of_finishing finishing
    exact ⟨t, .cons allowed taken rest, ⟨same.joined, same.entered⟩, left⟩
  | some nonce =>
    rw [answer] at taken allowed
    have sends : (s.counted i (some nonce)).phase i = .broadcasting nonce :=
      Function.update_self ..
    obtain ⟨t, rest, same, left⟩ := leaves_of_broadcasting sends
    exact ⟨t, .cons allowed taken rest, ⟨same.joined, same.entered⟩, left⟩

/-- A call inside leaves the lane, whatever it meets with. -/
theorem leaves (is : (s.phase i).inside = true) :
    ∃ t, Runs fate s t ∧ SameQueue s t ∧ (t.phase i).released = true := by
  cases at_ : s.phase i with
  | counting => exact leaves_of_counting at_
  | broadcasting nonce => exact leaves_of_broadcasting at_
  | finishing result => exact leaves_of_finishing at_
  | _ => simp [at_, Phase.inside] at is

/-- The lane empties. -/
theorem drains (h : Fifo s) :
    ∃ t, Runs fate s t ∧ SameQueue s t ∧ t.released (entries s.log).head? = true := by
  cases eq : entries s.log with
  | nil => exact ⟨s, .refl s, ⟨rfl, rfl⟩, rfl⟩
  | cons q rest =>
    rcases h.served q (by rw [eq]; exact List.mem_cons_self ..) with is | left
    · exact leaves is
    · exact ⟨s, .refl s, ⟨rfl, rfl⟩, left⟩

/-- The next call in the queue enters an empty lane. -/
theorem enters_next (h : Fifo s) (empty : s.released (entries s.log).head? = true)
    (next : (i :: entries s.log) <:+ joins s.log) :
    ∃ t, step s (.enter i) = some t ∧ joins t.log = joins s.log ∧
      entries t.log = i :: entries s.log ∧ (t.phase i).inside = true := by
  have distinct : (i :: entries s.log).Nodup := next.sublist.nodup h.distinct
  obtain ⟨prev, waits⟩ := (h.waits i).2
    ⟨next.subset (List.mem_cons_self ..), (List.nodup_cons.1 distinct).1⟩
  have link := h.linked i prev _ next waits
  have taken : step s (.enter i) = some (s.enter i) := by
    simp only [step, waits]
    rw [link, if_pos empty]
  refine ⟨_, taken, ?_⟩
  rcases enter_eq s i with ⟨-, eq⟩ | ⟨nonce, -, eq⟩ <;> rw [eq]
  · exact ⟨rfl, rfl, by simp [Lane.goto, Phase.inside]⟩
  · exact ⟨rfl, rfl, by simp [Lane.goto, Phase.inside]⟩

/-- One call after the other enters and leaves, up to the one that waits. -/
theorem enters (ahead : List CallId) : ∀ {s : Lane}, Fifo s →
    (i :: (ahead ++ entries s.log)) <:+ joins s.log →
    ∃ t, Runs fate s t ∧ (t.phase i).inside = true := by
  induction ahead using List.reverseRecOn with
  | nil =>
    intro s h next
    obtain ⟨t, emptied, same, empty⟩ := drains h
    rw [← same.entered] at empty
    obtain ⟨u, taken, -, -, is⟩ := enters_next (i := i) (emptied.fifo h) empty
      (by rw [same.entered, same.joined]; exact next)
    exact ⟨u, emptied.trans (.cons rfl taken (.refl u)), is⟩
  | append_singleton ahead q ih =>
    intro s h next
    rw [List.append_assoc, List.singleton_append] at next
    have first : (q :: entries s.log) <:+ joins s.log :=
      (List.suffix_append (i :: ahead) _).trans next
    obtain ⟨t, emptied, same, empty⟩ := drains h
    rw [← same.entered] at empty
    obtain ⟨u, taken, joined, entered, -⟩ := enters_next (i := q) (emptied.fifo h) empty
      (by rw [same.entered, same.joined]; exact first)
    have reach : Runs fate s u := emptied.trans (.cons rfl taken (.refl u))
    obtain ⟨v, rest, is⟩ := ih (reach.fifo h)
      (by rw [joined, entered, same.joined, same.entered]; exact next)
    exact ⟨v, reach.trans rest, is⟩

end Progress

theorem Fifo.unblocked {s : Lane} (h : Fifo s) : Unblocked s := by
  intro i prev waits fate
  obtain ⟨mem, notEntered⟩ := (h.waits i).1 ⟨prev, waits⟩
  obtain ⟨later, earlier, eq⟩ := List.append_of_mem mem
  have below : (i :: earlier) <:+ joins s.log := ⟨later, eq.symm⟩
  obtain ⟨ahead, split⟩ := h.entries_suffix notEntered below
  obtain ⟨t, ⟨as, allowed, run⟩, is⟩ := enters ahead h (split ▸ below)
  exact ⟨as, t, allowed, run, is⟩

end LordsPot.Base
