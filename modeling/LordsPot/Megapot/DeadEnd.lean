import LordsPot.Megapot.Transition

/-!
# No dead end

A paused program is resumed with a round that is later than its epoch. `transitionLoop` waits for
one that is later than the cached round it has started from, so while the program is paused its
epoch must be a floor for the cached round and for every running loop's. A pause that lands after
the resume but before the round is cached, or a stale round that is cached while the program is
paused, goes below it.
-/

namespace LordsPot.Megapot

open Transition

def Caller.current? : Caller → Option RoundState
  | .loop current => some current
  | .boot .. => none

def Processor.current? : Processor → Option RoundState
  | .loop current _ => some current
  | .ensure _ | .boot => none

def Setter.current? : Setter → Option RoundState
  | .pausing caller => caller.current?
  | .verified current | .resumedLoop current .. => some current
  | .resumedBoot | .synced => none

/-- The round a running `transitionLoop` has started from. -/
def Process.current? : Process → Option RoundState
  | .lock caller | .pauseProtocol caller | .confirmPause caller _ | .resume caller .. =>
      caller.current?
  | .verifyPaused current | .expireLock current | .fetchActive current | .fetchSettled current _ |
    .upsertSettled current .. | .getOnChainState current _ => some current
  | .readPauseKey caller _ | .writeRound caller .. | .syncProtocolState caller .. => caller.current?
  | .writePauseKey caller _ | .writePauseRow caller _ => caller.current?
  -- the last sleep is on the way out
  | .pollDelay current last _ => if last.isSome then none else some current
  | .getRoundState | .ensureExisting _ | .ensureFetch _ | .ensureSaved _ | .delLock _ | .bootRead .. |
    .syncChain | .syncKey _ | .syncRow _ | .done => none

/-- The epoch is a floor for the cached round and every running loop's. -/
def level (s : State) (epoch : Nat) : Bool :=
  s.cache.all (fun round => epoch ≤ round.id) &&
    s.processes.all fun p => p.current?.all fun round => epoch ≤ round.id

/-- A pause lands, and a round is cached while the program is paused, only at a level with the
program's epoch. -/
def levelKept (s : State) : Action → Bool
  | .land signature => match s.sent[signature]?, Program.loadState s.chain with
      | some ⟨.pause, _⟩, .ok state => state.isLordsPotPaused || level s state.ongoingEpoch
      | _, _ => true
  | .process i event => match s.processes[i]?, Program.loadState s.chain with
      | some (.writeRound _ _ parsed _), .ok state =>
          !event.made || !state.isLordsPotPaused || state.ongoingEpoch ≤ parsed.id
      | _, _ => true
  | _ => true

structure Floor (s : State) (epoch : Nat) : Prop where
  cached : ∀ round, s.cache = some round → epoch ≤ round.id
  loops : ∀ p ∈ s.processes, ∀ round, p.current? = some round → epoch ≤ round.id

theorem level_iff {s : State} {epoch : Nat} : level s epoch = true ↔ Floor s epoch := by
  simp only [level, Bool.and_eq_true, Option.all_eq_true, List.all_eq_true, decide_eq_true_eq]
  constructor
  · exact fun h => ⟨fun round cached => h.1 round cached, fun p hp round current => h.2 p hp round current⟩
  · exact fun h => ⟨fun round cached => h.cached round cached, fun p hp round current => h.loops p hp round current⟩

/-- The program is the backend's, and while it is paused its epoch is a floor. -/
def Live (s : State) : Prop :=
  ∃ state, s.chain.Holds state ∧ state.admin = s.adminKey ∧
    (state.isLordsPotPaused = true → Floor s state.ongoingEpoch)

section Steps

variable {s s' : State} {p p' : Process}

theorem dueCheck_current {found round : RoundState} (h : (dueCheck s found).current? = some round) :
    found = round := by
  unfold dueCheck at h
  split at h
  · cases h
  · exact Option.some.inj h

theorem ensured_current {found round : RoundState} {caller : Ensure}
    (h : (ensured s found caller).current? = some round) : found = round := by
  cases caller with
  | transition => exact dueCheck_current h
  | loop | boot => cases h

theorem ensureFailed_current (caller : Ensure) : (ensureFailed caller).current? = none := by
  cases caller <;> rfl

/-- A loop that goes on after a call that threw keeps its round. -/
theorem kept_of_onThrow {now : Nat} {round : RoundState} (h : (p.onThrow now).current? = some round) :
    p.current? = some round := by
  revert h
  fun_cases Process.onThrow now p
  all_goals intro h
  all_goals first
    | exact h
    | cases h
    | (rw [ensureFailed_current] at h; cases h)

theorem bootNext_current {attempt : Nat} {onChain : Option Program.LordsPotState}
    {raw : Option RoundResponse} {round : RoundState}
    (h : (bootNext attempt onChain raw).current? = some round) : none = some round := by
  unfold bootNext at h
  split at h
  · split at h <;> exact h
  · exact h

/-- A loop keeps its round; a new one takes the cached round. -/
theorem run_current (h : p.run s = some (s', p')) {round : RoundState}
    (current : p'.current? = some round) : p.current? = some round ∨ s.cache = some round := by
  cases p with
  | getRoundState =>
    cases h
    cases cached : s.cache with
    | none => rw [cached] at current; cases current
    | some found =>
      rw [cached] at current
      exact .inr (congrArg some (dueCheck_current current))
  | ensureExisting caller =>
    cases h
    cases cached : s.cache with
    | none => rw [cached] at current; cases current
    | some found =>
      simp only [cached] at current
      split at current
      · cases current
      · exact .inr (congrArg some (ensured_current current))
  | ensureSaved caller =>
    cases h
    cases cached : s.cache with
    | none =>
      simp only [cached, ensureFailed_current] at current
      cases current
    | some found =>
      simp only [cached] at current
      split at current
      · rw [ensureFailed_current] at current
        cases current
      · exact .inr (congrArg some (ensured_current current))
  | lock caller =>
    simp only [Process.run] at h
    split at h
    · cases h
      cases caller <;> cases current
    · cases h
      cases caller with
      | loop => exact .inl current
      | boot =>
        simp only [Caller.locked] at current
        split at current <;> cases current
  | confirmPause caller signature =>
    simp only [Process.run] at h
    split at h
    · cases h
      exact .inl current
    · cases h
  | verifyPaused found =>
    cases h
    refine .inl ?_
    split at current
    · split at current
      · exact current
      · cases current
    · cases current
  | fetchActive found =>
    cases h
    refine .inl ?_
    split at current <;> exact current
  | getOnChainState found fetched =>
    cases h
    refine .inl ?_
    split at current
    · split at current <;> exact current
    · exact current
  | resume caller fetched onChain =>
    simp only [Process.run] at h
    split at h
    · cases h
      cases caller with
      | loop => exact .inl current
      | boot => cases current
    · cases h
      exact .inl (kept_of_onThrow current)
  | readPauseKey caller data =>
    cases h
    refine .inl ?_
    split at current
    · exact current
    · exact kept_of_onThrow current
  | syncProtocolState caller =>
    cases h
    cases caller with
    | loop => exact .inl current
    | ensure | boot => cases current
  | pollDelay found last wakes =>
    simp only [Process.run] at h
    split at h
    · cases h
      cases last with
      | none => exact .inl current
      | some => cases current
    · cases h
  | writePauseRow caller =>
    cases h
    cases caller with
    | pausing caller =>
      cases caller with
      | loop => exact .inl current
      | boot => cases current
    | verified => exact .inl current
    | resumedLoop | resumedBoot | synced => cases current
  | delLock boot =>
    cases h
    cases boot <;> cases current
  | bootRead attempt onChain raw =>
    cases h
    refine .inl ?_
    split at current
    · exact bootNext_current current
    · exact kept_of_onThrow current
    · exact bootNext_current current
  | syncChain =>
    cases h
    split at current <;> cases current
  | syncKey paused =>
    cases h
    split at current
    · split at current <;> cases current
    · cases current
  | syncRow paused =>
    cases h
    split at current <;> cases current
  | pauseProtocol | expireLock | upsertSettled | writeRound | writePauseKey =>
    cases h
    exact .inl current
  | ensureFetch =>
    cases h
    cases current
  | fetchSettled | done => cases h

theorem on_current {event : Event} (h : p.on s event = some (s', p')) {round : RoundState}
    (current : p'.current? = some round) : p.current? = some round ∨ s.cache = some round := by
  cases event with
  | ok => exact run_current h current
  | lost =>
    obtain ⟨⟨after, next⟩, -, same⟩ := Option.map_eq_some_iff.1 h
    cases same
    exact .inl (kept_of_onThrow current)
  | throw =>
    cases h
    exact .inl (kept_of_onThrow current)
  | fetched =>
    simp only [Process.on] at h
    split at h
    · cases h
      cases bootNext_current current
    · cases h
  | settled =>
    simp only [Process.on] at h
    split at h
    · cases h
      exact .inl current
    · cases h

theorem current?_of_idle (h : p.idle = true) : p.current? = none := by
  cases p <;> first | rfl | cases h

/-- A floor stays one when neither the cached round nor a loop's is lower than before. -/
theorem Floor.frame {epoch : Nat} (floor : Floor s epoch)
    (cached : ∀ round, s'.cache = some round → s.cache = some round ∨ epoch ≤ round.id)
    (loops : ∀ p ∈ s'.processes, ∀ round, p.current? = some round →
      p ∈ s.processes ∨ epoch ≤ round.id) : Floor s' epoch where
  cached round h := (cached round h).elim (floor.cached round) id
  loops p hp round h := (loops p hp round h).elim (fun old => floor.loops p old round h) id

theorem Floor.process {epoch i : Nat} {event : Event} {s₁ : State} (floor : Floor s epoch)
    (hp : s.processes[i]? = some p) (ran : p.on s event = some (s₁, p'))
    (kept : ∀ caller data parsed isPaused, p = .writeRound caller data parsed isPaused →
      event.made = true → epoch ≤ parsed.id) :
    Floor { s₁ with processes := s.processes.set i p' } epoch := by
  refine floor.frame (fun round cached => ?_) fun q hq round current => ?_
  · rcases Process.on_wrote ran with ⟨made, wrote⟩ | rfl
    · cases wrote with
      | round =>
        cases cached
        exact .inr (kept _ _ _ _ rfl made)
      | _ => exact .inl cached
    · exact .inl cached
  · rcases List.mem_or_eq_of_mem_set hq with old | rfl
    · exact .inl old
    · refine .inr ?_
      rcases on_current ran current with own | cached
      · exact floor.loops p (List.mem_of_getElem? hp) round own
      · exact floor.cached round cached

/-- A step of a process keeps the program, and a floor that no stale round is cached below. -/
theorem Live.process (live : Live s) {i : Nat} {event : Event}
    (ok : levelKept s (.process i event) = true) (hs : step s (.process i event) = some s') :
    Live s' := by
  obtain ⟨state, holds, admin, floor⟩ := live
  obtain ⟨p, s₁, p', hp, ran, rfl⟩ := step_process hs
  have same : s₁.chain = s.chain ∧ s₁.adminKey = s.adminKey := by
    rcases Process.on_wrote ran with ⟨-, wrote⟩ | rfl
    · cases wrote <;> exact ⟨rfl, rfl⟩
    · exact ⟨rfl, rfl⟩
  refine ⟨state, ?_, ?_, fun paused => ?_⟩
  · exact same.1 ▸ holds
  · exact admin.trans same.2.symm
  · refine (floor paused).process hp ran fun caller data parsed isPaused at_ made => ?_
    simpa [levelKept, hp, at_, loadState_eq_ok.2 holds, made, paused] using ok

/-- A landing: a pause that is executed finds a floor, and a resume ends the pause. -/
theorem Live.land (live : Live s) {signature : Nat} (ok : levelKept s (.land signature) = true)
    (hs : step s (.land signature) = some s') : Live s' := by
  obtain ⟨state, holds, admin, floor⟩ := live
  obtain ⟨tx, sent, ⟨chain, ran, rfl⟩ | rfl⟩ := step_land hs
  · cases tx with
    | pause =>
      obtain ⟨unpaused, holds'⟩ := execute_pause holds ran
      refine ⟨_, holds', admin, fun _ => ?_⟩
      have level : level s state.ongoingEpoch = true := by
        simpa [levelKept, sent, loadState_eq_ok.2 holds, unpaused] using ok
      have floor := level_iff.1 level
      exact floor.frame (fun _ cached => .inl cached) fun _ hp _ _ => .inl hp
    | resume update nextEpoch =>
      obtain ⟨-, -, state', holds', same, sold⟩ := execute_resume holds ran
      refine ⟨state', holds', same.trans admin, fun paused => ?_⟩
      have unpaused : state'.isLordsPotPaused = false := congrArg Prod.fst sold
      rw [unpaused] at paused
      cases paused
  · refine ⟨state, holds, admin, fun paused => ?_⟩
    exact (floor paused).frame (fun _ cached => .inl cached) fun _ hp _ _ => .inl hp

/-- Any other step: at most the cached round is lost. -/
theorem Live.aside (live : Live s) {a : Action} (aside : Aside s a s') : Live s' := by
  obtain ⟨state, holds, admin, floor⟩ := live
  obtain ⟨state', holds', same, terms⟩ := aside.chain state holds
  simp only [sale, Prod.mk.injEq] at terms
  obtain ⟨flag, epoch, -, -⟩ := terms
  refine ⟨state', holds', by rw [same, admin, aside.key], fun paused => ?_⟩
  rw [epoch]
  refine (floor (flag ▸ paused)).frame (fun round cached => ?_) fun p hp round current => ?_
  · rcases aside.cache with same | ⟨-, lost⟩
    · exact .inl (same ▸ cached)
    · cases lost.symm.trans cached
  · rcases aside.processes p hp with old | idle
    · exact .inl old
    · rw [current?_of_idle idle] at current
      cases current

/-- **The floor rule**: a level step keeps the program live. -/
theorem Live.step (live : Live s) {a : Action} (ok : levelKept s a = true)
    (hs : step s a = some s') : Live s' := by
  obtain ⟨i, event, rfl⟩ | ⟨signature, rfl⟩ | aside := step_cases hs
  · exact live.process ok hs
  · exact live.land ok hs
  · exact live.aside aside

end Steps

/-! ## Every run -/

/-- A program that is paused at the start is at no later epoch than the cached round. -/
structure Started (s : State) : Prop where
  initial : Initial s
  level : ∀ state, s.chain.Holds state → state.isLordsPotPaused = true →
    ∀ round, s.cache = some round → state.ongoingEpoch ≤ round.id

def startedMachine : Machine State Action := ⟨Started, step⟩

theorem Live.initial {s : State} (h : Started s) : Live s := by
  obtain ⟨state, holds, admin⟩ := h.initial.holds
  refine ⟨state, holds, admin, fun paused => ⟨h.level state holds paused, fun p hp => ?_⟩⟩
  rw [h.initial.noProcesses] at hp
  cases hp

/-- Where a `transitionLoop` sees a later round than its own and the program paused, the program
accepts the resume with that round. -/
def NoDeadEnd (s : State) : Prop :=
  ∀ current fetched state, .getOnChainState current fetched ∈ s.processes → current.id < fetched.id →
    s.chain.Holds state → state.isLordsPotPaused = true → state.ongoingEpoch < fetched.id ∧
      ∃ chain, Program.execute s.chain [s.adminKey] (.resumeProtocol s.adminKey fetched.id) = .ok chain

/-- **No dead end** in any run in which pauses land, and rounds are cached, at a level with the
program's epoch. -/
theorem no_dead_end {s : State}
    (h : startedMachine.ReachableBy (fun s a => levelKept s a = true) s) : NoDeadEnd s := by
  have live : Live s := Machine.ReachableBy.invariant (fun _ => Live.initial)
    (fun _ _ _ live ok hs => live.step ok hs) h
  intro current fetched state at_ later holds paused
  obtain ⟨state', holds', admin, floor⟩ := live
  cases holds.unique holds'
  have below : state.ongoingEpoch ≤ current.id := (floor paused).loops _ at_ current rfl
  have ahead : state.ongoingEpoch < fetched.id := below.trans_lt later
  exact ⟨ahead, execute_resumeProtocol holds admin paused ahead⟩

/-- A loop sees a later round than its own and the program paused at `epoch`. -/
def waitsAt (epoch : Nat) (s : State) : Bool :=
  (match Program.loadState s.chain with
    | .ok state => state.isLordsPotPaused && state.ongoingEpoch == epoch
    | .error _ => false) &&
  s.processes.any fun
    | .getOnChainState current fetched => current.id == 1 && fetched.id == 2
    | _ => false

theorem of_waitsAt {epoch : Nat} {s : State} (h : waitsAt epoch s = true) :
    ∃ current fetched state, .getOnChainState current fetched ∈ s.processes ∧ current.id = 1 ∧
      fetched.id = 2 ∧ s.chain.Holds state ∧ state.isLordsPotPaused = true ∧
      state.ongoingEpoch = epoch := by
  simp only [waitsAt, Bool.and_eq_true, List.any_eq_true] at h
  obtain ⟨program, p, hp, own⟩ := h
  split at program
  · rename_i state loaded
    split at own
    · rename_i current fetched
      simp only [Bool.and_eq_true, beq_iff_eq] at program own
      exact ⟨current, fetched, state, hp, own.1, own.2, loadState_eq_ok.1 loaded, program.1, program.2⟩
    · cases own
  · cases program

theorem started_onSale : Started onSale where
  initial := initial_onSale
  level := by
    rintro state ⟨account, present, -, rfl⟩ paused
    cases present
    cases paused

/-- The resume lands and the process dies before it has cached the round. When its lock has expired,
the next heartbeat finds the old round due and pauses again. -/
theorem paused_after_resume : ¬ ∀ s, startedMachine.Reachable s → NoDeadEnd s := by
  intro all
  obtain ⟨s, hs, hp⟩ := Machine.exists_reachable_of_run (M := startedMachine) started_onSale
    (resuming ++ [.land 1, .crash 0, .clock TRANSITION_LOCK_MS] ++ pausing 1 2 ++ fetching 1)
    (waitsAt 2) (by decide +kernel)
  obtain ⟨current, fetched, state, at_, own, next, holds, paused, epoch⟩ := of_waitsAt hp
  have accepted := all s hs current fetched state at_ (by omega) holds paused
  omega

/-- A loop that has paused the program finds round 2. -/
theorem no_dead_end_next : ∃ s, waitsAt 1 s = true ∧ NoDeadEnd s := by
  obtain ⟨s, hs, hp⟩ := Machine.exists_reachableBy_of_runBy (M := startedMachine) levelKept
    started_onSale
    (pausing 0 0 ++ .activate { id := 2, ballPool := some ⟨35, 10⟩, endedAt := some 100 } :: fetching 0)
    (waitsAt 1) (by decide +kernel)
  exact ⟨s, hp, no_dead_end hs⟩

end LordsPot.Megapot
