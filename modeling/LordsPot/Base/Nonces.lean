import LordsPot.Base.Queue

/-!
# The nonces of the lane

Between two resyncs every accepted broadcast has the nonce after the one before it.
-/

open Transition

namespace LordsPot.Base

/-- The nonce after the last one the chain or an accepted broadcast has told of. -/
def expected : List Event → Option Nat
  | [] => none
  | .resynced _ nonce :: _ => some nonce
  | .accepted _ nonce :: _ => some (nonce + 1)
  | _ :: log => expected log

/-- Neither an entry nor news of a nonce. -/
def Event.quiet (e : Event) : Prop :=
  e.entry = none ∧ e.acceptance = none ∧ e.resync = false

theorem expected_quiet {e : Event} (quiet : e.quiet) (log : List Event) :
    expected (e :: log) = expected log := by
  obtain ⟨-, notAccepted, notResynced⟩ := quiet
  cases e with
  | accepted => simp [Event.acceptance] at notAccepted
  | resynced => simp [Event.resync] at notResynced
  | _ => rfl

theorem mem_entries_of_entered {i : CallId} {source : Source} {log : List Event}
    (mem : .entered i source ∈ log) : i ∈ entries log :=
  List.mem_filterMap.2 ⟨_, mem, rfl⟩

/-- The counter and the nonce of a call in the lane are the ones expected. -/
structure Nonces (s : Lane) : Prop where
  next : ∀ nonce, s.nextNonce = some nonce → expected s.log = some nonce
  held : ∀ i nonce, s.phase i = .broadcasting nonce → expected s.log = some nonce
  accepted : ∀ i nonce earlier, (.accepted i nonce :: earlier) <:+ s.log →
    expected earlier = some nonce
  counts : ∀ i, s.phase i = .counting → s.nextNonce = none
  fresh : ∀ i nonce, s.phase i = .broadcasting nonce → .entered i .pendingCount ∈ s.log →
    .resynced i nonce ∈ s.log
  answered : ∀ i nonce, .accepted i nonce ∈ s.log → .entered i .pendingCount ∈ s.log →
    .resynced i nonce ∈ s.log
  known : ∀ i nonce, .accepted i nonce ∈ s.log → i ∈ entries s.log

namespace Nonces

variable {s t : Lane} {i : CallId} {p : Phase}

theorem initial (hi : s.Initial) : Nonces s := by
  obtain ⟨next, -, -, phase, log⟩ := hi
  constructor <;> simp [phase, log, next]

/-- A step that brings no news: nobody starts to count or to broadcast, and the counter is left
alone or reset. -/
theorem quiet (h : Nonces s) (next : t.nextNonce = s.nextNonce ∨ t.nextNonce = none)
    (log : t.log = s.log ∨ ∃ e : Event, e.quiet ∧ t.log = e :: s.log)
    (sends : ∀ j nonce, t.phase j = .broadcasting nonce → s.phase j = .broadcasting nonce)
    (counts : ∀ j, t.phase j = .counting → s.phase j = .counting) : Nonces t := by
  have same : expected t.log = expected s.log := by
    rcases log with log | ⟨e, quiet, log⟩ <;> rw [log]
    exact expected_quiet quiet _
  have sub : s.log ⊆ t.log := by
    rcases log with log | ⟨e, -, log⟩ <;> rw [log]
    · exact fun _ h => h
    · exact List.subset_cons_self ..
  have entered : ∀ j, .entered j .pendingCount ∈ t.log → .entered j .pendingCount ∈ s.log := by
    intro j mem
    rcases log with log | ⟨e, quiet, log⟩ <;> rw [log] at mem
    · exact mem
    · rcases List.mem_cons.1 mem with rfl | mem
      · simp [Event.quiet, Event.entry] at quiet
      · exact mem
  have accepted : ∀ j nonce earlier, (.accepted j nonce :: earlier) <:+ t.log →
      (.accepted j nonce :: earlier) <:+ s.log := by
    intro j nonce earlier below
    rcases log with log | ⟨e, quiet, log⟩ <;> rw [log] at below
    · exact below
    · rcases List.suffix_cons_iff.1 below with eq | below
      · rw [← (List.cons.inj eq).1] at quiet
        simp [Event.quiet, Event.acceptance] at quiet
      · exact below
  constructor
  · intro nonce is
    rw [same]
    rcases next with next | next <;> rw [next] at is
    · exact h.next nonce is
    · cases is
  · intro j nonce is
    rw [same]
    exact h.held j nonce (sends j nonce is)
  · exact fun j nonce earlier below => h.accepted j nonce earlier (accepted j nonce earlier below)
  · intro j is
    rcases next with next | next <;> rw [next]
    exact h.counts j (counts j is)
  · exact fun j nonce is mem => sub (h.fresh j nonce (sends j nonce is) (entered j mem))
  · intro j nonce mem at_
    obtain ⟨later, earlier, eq⟩ := List.append_of_mem mem
    have before : .accepted j nonce ∈ s.log :=
      (accepted j nonce earlier ⟨later, eq.symm⟩).subset (List.mem_cons_self ..)
    exact sub (h.answered j nonce before (entered j at_))
  · intro j nonce mem
    obtain ⟨later, earlier, eq⟩ := List.append_of_mem mem
    have before : .accepted j nonce ∈ s.log :=
      (accepted j nonce earlier ⟨later, eq.symm⟩).subset (List.mem_cons_self ..)
    exact List.filterMap_subset Event.entry sub (h.known j nonce before)

/-- Moving one call to a phase in which it neither counts nor broadcasts. -/
theorem quiet_goto (h : Nonces s) (next : t.nextNonce = s.nextNonce ∨ t.nextNonce = none)
    (log : t.log = s.log ∨ ∃ e : Event, e.quiet ∧ t.log = e :: s.log)
    (phase : t.phase = Function.update s.phase i p) (notSending : ∀ nonce, p ≠ .broadcasting nonce)
    (notCounting : p ≠ .counting) : Nonces t := by
  refine h.quiet next log (fun j nonce is => ?_) fun j is => ?_
  · rw [phase] at is
    by_cases same : j = i
    · rw [same, Function.update_self] at is
      exact absurd is (notSending nonce)
    · rwa [Function.update_of_ne same] at is
  · rw [phase] at is
    by_cases same : j = i
    · rw [same, Function.update_self] at is
      exact absurd is notCounting
    · rwa [Function.update_of_ne same] at is

/-- Nobody else is inside. -/
theorem only_here (alone : ∀ j, j ≠ i → (s.phase j).inside = false)
    (phase : t.phase = Function.update s.phase i p) {j : CallId} (is : (t.phase j).inside = true) :
    j = i := by
  by_contra same
  rw [phase, Function.update_of_ne same, alone j same] at is
  cases is

/-- A call enters with a nonce from the counter, or none if the counter is reset. -/
theorem enter (h : Nonces s) {source : Source} (alone : ∀ j, (s.phase j).inside = false)
    (new : i ∉ entries s.log) (next : t.nextNonce = s.nextNonce)
    (phase : t.phase = Function.update s.phase i p) (log : t.log = .entered i source :: s.log)
    (sends : ∀ nonce, p = .broadcasting nonce → s.nextNonce = some nonce ∧ source ≠ .pendingCount)
    (counts : p = .counting → s.nextNonce = none) : Nonces t := by
  have self : t.phase i = p := by rw [phase, Function.update_self]
  have only := @only_here s t i p (fun j _ => alone j) phase
  have same : expected t.log = expected s.log := by
    rw [log]
    rfl
  constructor
  · rw [next, same]
    exact h.next
  · intro j nonce is
    obtain rfl := only (j := j) (by simp [is, Phase.inside])
    rw [same]
    exact h.next nonce (sends nonce (self.symm.trans is)).1
  · intro j nonce earlier below
    rw [log] at below
    rcases List.suffix_cons_iff.1 below with eq | below
    · cases eq
    · exact h.accepted j nonce earlier below
  · intro j is
    obtain rfl := only (j := j) (by simp [is, Phase.inside])
    rw [next]
    exact counts (self.symm.trans is)
  · intro j nonce is mem
    obtain rfl := only (j := j) (by simp [is, Phase.inside])
    rw [log] at mem
    rcases List.mem_cons.1 mem with eq | mem
    · cases eq
      exact absurd rfl (sends nonce (self.symm.trans is)).2
    · exact absurd (mem_entries_of_entered mem) new
  · intro j nonce accepted entered
    rw [log] at accepted entered ⊢
    have before : .accepted j nonce ∈ s.log := by simpa using accepted
    have ne : j ≠ i := fun e => new (e ▸ h.known j nonce before)
    have entered : .entered j .pendingCount ∈ s.log := by simpa [ne] using entered
    exact List.mem_cons_of_mem _ (h.answered j nonce before entered)
  · intro j nonce accepted
    rw [log] at accepted ⊢
    have before : .accepted j nonce ∈ s.log := by simpa using accepted
    exact List.mem_cons_of_mem _ (h.known j nonce before)

/-- The chain answers. -/
theorem resynced (h : Nonces s) {nonce : Nat} (alone : ∀ j, j ≠ i → (s.phase j).inside = false)
    (next : t.nextNonce = some nonce) (phase : t.phase = Function.update s.phase i (.broadcasting nonce))
    (log : t.log = .resynced i nonce :: s.log) : Nonces t := by
  have self : t.phase i = .broadcasting nonce := by rw [phase, Function.update_self]
  have only := @only_here s t i (.broadcasting nonce) alone phase
  constructor
  · intro n is
    rw [log, ← is, next]
    rfl
  · intro j n is
    obtain rfl := only (j := j) (by simp [is, Phase.inside])
    obtain rfl := Phase.broadcasting.inj (self.symm.trans is)
    rw [log]
    rfl
  · intro j n earlier below
    rw [log] at below
    rcases List.suffix_cons_iff.1 below with eq | below
    · cases eq
    · exact h.accepted j n earlier below
  · intro j is
    obtain rfl := only (j := j) (by simp [is, Phase.inside])
    rw [self] at is
    cases is
  · intro j n is _
    obtain rfl := only (j := j) (by simp [is, Phase.inside])
    obtain rfl := Phase.broadcasting.inj (self.symm.trans is)
    rw [log]
    exact List.mem_cons_self ..
  · intro j n accepted entered
    rw [log] at accepted entered ⊢
    exact List.mem_cons_of_mem _ (h.answered j n (by simpa using accepted) (by simpa using entered))
  · intro j n accepted
    rw [log] at accepted ⊢
    exact h.known j n (by simpa using accepted)

/-- The mempool takes the transaction. -/
theorem acceptance (h : Nonces s) {nonce : Nat} (alone : ∀ j, j ≠ i → (s.phase j).inside = false)
    (sends : s.phase i = .broadcasting nonce) (mem : i ∈ entries s.log)
    (next : t.nextNonce = some (nonce + 1))
    (phase : t.phase = Function.update s.phase i (.finishing (some nonce)))
    (log : t.log = .accepted i nonce :: s.log) : Nonces t := by
  have self : t.phase i = .finishing (some nonce) := by rw [phase, Function.update_self]
  have only := @only_here s t i (.finishing (some nonce)) alone phase
  constructor
  · intro n is
    rw [log, ← is, next]
    rfl
  · intro j n is
    obtain rfl := only (j := j) (by simp [is, Phase.inside])
    rw [self] at is
    cases is
  · intro j n earlier below
    rw [log] at below
    rcases List.suffix_cons_iff.1 below with eq | below
    · cases eq
      exact h.held i nonce sends
    · exact h.accepted j n earlier below
  · intro j is
    obtain rfl := only (j := j) (by simp [is, Phase.inside])
    rw [self] at is
    cases is
  · intro j n is _
    obtain rfl := only (j := j) (by simp [is, Phase.inside])
    rw [self] at is
    cases is
  · intro j n accepted entered
    rw [log] at accepted entered ⊢
    have entered : .entered j .pendingCount ∈ s.log := by simpa using entered
    rcases List.mem_cons.1 accepted with eq | accepted
    · cases eq
      exact List.mem_cons_of_mem _ (h.fresh i nonce sends entered)
    · exact List.mem_cons_of_mem _ (h.answered j n accepted entered)
  · intro j n accepted
    rw [log] at accepted ⊢
    rcases List.mem_cons.1 accepted with eq | accepted
    · cases eq
      exact mem
    · exact h.known j n accepted

theorem step (h : Nonces s) (fifo : Fifo s) {a : Action} {s' : Lane}
    (hs : Base.step s a = some s') : Nonces s' := by
  have others : ∀ i, (s.phase i).inside = true → ∀ j, j ≠ i → (s.phase j).inside = false := by
    intro i is j ne
    by_contra also
    exact ne (fifo.exclusive j i ((Bool.not_eq_false _).mp also) is)
  cases move_of_step hs with
  | buys =>
    exact h.quiet_goto (.inl rfl) (.inr ⟨_, ⟨rfl, rfl, rfl⟩, rfl⟩) rfl (by simp) (by simp)
  | claims => exact h.quiet_goto (.inl rfl) (.inl rfl) rfl (by simp) (by simp)
  | estimated _ =>
    exact h.quiet_goto (.inl rfl) (.inr ⟨_, ⟨rfl, rfl, rfl⟩, rfl⟩) rfl (by simp) (by simp)
  | refused _ => exact h.quiet_goto (.inl rfl) (.inl rfl) rfl (by simp) (by simp)
  | @enters i prev waits free =>
    have new : i ∉ entries s.log := ((fifo.waits i).1 ⟨prev, waits⟩).2
    have alone := fifo.alone waits free
    rcases enter_eq s i with ⟨is, eq⟩ | ⟨nonce, is, eq⟩ <;> rw [eq]
    · exact h.enter alone new rfl rfl rfl (by simp) fun _ => is
    · refine h.enter alone new rfl rfl rfl (fun n e => ⟨?_, by simp⟩) (by simp)
      rw [is, Phase.broadcasting.inj e]
  | @counted i answer counts =>
    have alone := others i (by simp [counts, Phase.inside])
    cases answer with
    | none => exact h.quiet_goto (.inl rfl) (.inl rfl) rfl (by simp) (by simp)
    | some nonce => exact h.resynced alone rfl rfl rfl
  | @broadcast i nonce succeeds sends =>
    have is : (s.phase i).inside = true := by simp [sends, Phase.inside]
    cases succeeds with
    | true =>
      exact h.acceptance (others i is) sends (List.mem_of_mem_head? (fifo.inside i is)) rfl rfl rfl
    | false =>
      exact h.quiet_goto (.inr rfl) (.inr ⟨_, ⟨rfl, rfl, rfl⟩, rfl⟩) rfl (by simp) (by simp)
  | releases _ => exact h.quiet_goto (.inl rfl) (.inl rfl) rfl (by simp) (by simp)
  | resets =>
    exact h.quiet (.inr rfl) (.inr ⟨_, ⟨rfl, rfl, rfl⟩, rfl⟩) (fun _ _ h => h) fun _ h => h

theorem of_reachable {ok : Lane → Action → Prop} (h : lane.ReachableBy ok s) : Nonces s := by
  have both : Fifo s ∧ Nonces s :=
    h.invariant (I := fun s => Fifo s ∧ Nonces s)
      (fun _ hi => ⟨.initial hi, .initial hi⟩)
      fun _ _ _ inv _ hs => ⟨inv.1.step hs, inv.2.step inv.1 hs⟩
  exact both.2

/-- From a resync on the accepted nonces are counted up from its answer. -/
theorem consecutive (h : Nonces s) : Consecutive s := by
  intro i nonce mid
  have counted : ∀ earlier, (mid ++ .resynced i nonce :: earlier) <:+ s.log →
      (∀ e ∈ mid, e.resync = false) →
      expected (mid ++ .resynced i nonce :: earlier) =
        some (nonce + (acceptances mid).length) ∧
      (acceptances mid).reverse = List.range' nonce (acceptances mid).length := by
    intro earlier
    induction mid with
    | nil => exact fun _ _ => ⟨rfl, rfl⟩
    | cons e mid ih =>
      intro below noResync
      obtain ⟨next, listed⟩ := ih ((List.suffix_cons e _).trans below)
        fun e he => noResync e (List.mem_cons_of_mem _ he)
      cases e with
      | resynced j n => exact absurd (noResync _ (List.mem_cons_self ..)) (by simp [Event.resync])
      | accepted j n =>
        have this := (h.accepted j n _ below).symm.trans next
        obtain rfl := Option.some.inj this
        refine ⟨by simp [expected, acceptances, Event.acceptance, Nat.add_assoc], ?_⟩
        simp only [acceptances, List.filterMap_cons, Event.acceptance, List.reverse_cons,
          List.length_cons] at listed ⊢
        rw [listed, List.range'_concat]
        simp
      | _ => exact ⟨next, listed⟩
  exact fun earlier below noResync => (counted earlier below noResync).2

end Nonces

end LordsPot.Base
