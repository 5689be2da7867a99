import LordsPot.Megapot.Transition

/-!
# After the rollover

What the program and the cached round have in common when `transitionLoop` leaves its wait loop. The
loop compares what it has read of the program with the round that it fetched, sends one transaction,
and goes on without waiting for it, but for the sleep at the end of the pass; the phantom branch
sends none. So the two agree only if a resume for the round has landed by then, the phantom branch
has met the right program, and nobody moved the program or the cached round in between.
-/

namespace LordsPot.Megapot

open Transition
open Program (LordsPotState Chain)

/-- The program holds these pause flag, epoch and ranges. -/
def Sells (chain : Chain) (terms : Bool × Nat × Nat × Nat) : Prop :=
  ∃ state, chain.Holds state ∧ sale state = terms

/-- The terms on which the tickets of a round are sold. -/
def RoundState.sale (round : RoundState) : Bool × Nat × Nat × Nat :=
  (false, round.id, round.normalsMax, round.bonusballMax)

/-- The program is unpaused at the fetched round, with its ranges. -/
def OnRound (chain : Chain) (fetched : RoundResponse) : Prop :=
  ∃ pool, fetched.ballPool = some pool ∧
    Sells chain (false, fetched.id, pool.normalsMax, pool.bonusballMax)

/-! ## A loop that rolls over -/

/-- The round for which a loop has sent its resume, and the signature; none in the phantom branch. -/
def Process.rollover? : Process → Option (RoundResponse × Option Nat)
  | .readPauseKey (.loop _ own) fetched | .writeRound (.loop _ own) fetched .. |
    .syncProtocolState (.loop _ own) fetched _ | .writePauseKey (.resumedLoop _ fetched own) _ |
    .writePauseRow (.resumedLoop _ fetched own) _ => some (fetched, own)
  | .pollDelay _ last _ => last
  | _ => none

/-- The loop has cached its round and is about to leave. -/
def Process.leaving : Process → Bool
  | .syncProtocolState (.loop ..) .. | .writePauseKey (.resumedLoop ..) _ |
    .writePauseRow (.resumedLoop ..) _ | .pollDelay _ (some _) _ => true
  | _ => false

/-- The program is at the fetched round, or still paused as it was read, at an earlier epoch. -/
def Ready (chain : Chain) (fetched : RoundResponse) (onChain : LordsPotState) : Prop :=
  OnRound chain fetched ∨
    onChain.isLordsPotPaused = true ∧ onChain.ongoingEpoch < fetched.id ∧ Sells chain (sale onChain)

/-- The program is at the fetched round, or its resume is under way to a program that is ready. -/
def Bound (s : State) (fetched : RoundResponse) : Option Nat → Prop
  | none => OnRound s.chain fetched
  | some signature => ∃ sent onChain, s.sent[signature]? = some sent ∧
      resumeTx fetched onChain = some sent.tx ∧ Ready s.chain fetched onChain

/-- The cached round is the fetched one. -/
def CachedAs (s : State) (fetched : RoundResponse) : Prop :=
  ∃ round, s.cache = some round ∧ parseRoundState fetched = .ok round

/-- What a loop that rolls over has seen to. -/
def Process.Rolling (s : State) : Process → Prop
  | .resume (.loop _) fetched onChain => Ready s.chain fetched onChain
  | .readPauseKey (.loop _ own) fetched => Bound s fetched own
  | .writeRound (.loop _ own) fetched parsed _ =>
      Bound s fetched own ∧ parseRoundState fetched = .ok parsed
  | .syncProtocolState (.loop _ own) fetched _ | .writePauseKey (.resumedLoop _ fetched own) _ |
    .writePauseRow (.resumedLoop _ fetched own) _ | .pollDelay _ (some (fetched, own)) _ =>
      Bound s fetched own ∧ CachedAs s fetched
  | _ => True

/-! ## The condition -/

/-- The transaction brings a paused program to the fetched round and its ranges. -/
def Tx.brings (state : LordsPotState) (fetched : RoundResponse) : Tx → Bool
  | .pause => false
  | .resume update nextEpoch => nextEpoch == fetched.id &&
      fetched.ballPool == some (update.getD ⟨state.normalMax, state.bonusMax⟩)

/-- A transaction that is executed leaves the process its rollover: it is its own, or brings the
program to the same round. -/
def Process.undisturbed (signature : Nat) (tx : Tx) (state : LordsPotState) : Process → Bool
  | .resume (.loop _) fetched _ => tx.brings state fetched
  | p => p.rollover?.all fun (fetched, own) => own == some signature || tx.brings state fetched

/-- A `resume_protocol` for this round that has landed. -/
def Sent.resumed (epoch : Nat) : Sent → Bool
  | ⟨.resume _ nextEpoch, .landed⟩ => nextEpoch == epoch
  | _ => false

/-- A loop finds the program paused at an earlier epoch than the fetched round's, or else at that
round; a resume for the round has landed when a loop that has sent one leaves; and from its read of
the program until then no other transaction takes the program elsewhere and nobody else puts another
round in the cache. -/
def rolloverKept (s : State) : Action → Bool
  | .process i .ok => match s.processes[i]?, Program.loadState s.chain with
      | some (.getOnChainState _ fetched), .ok state =>
          if state.isLordsPotPaused then state.ongoingEpoch < fetched.id
          else state.ongoingEpoch == fetched.id &&
            fetched.ballPool == some ⟨state.normalMax, state.bonusMax⟩
      | some (.pollDelay _ (some (fetched, some _)) _), _ => s.sent.any (·.resumed fetched.id)
      | some (.writeRound _ _ parsed _), _ => cacheKept parsed
      | _, _ => true
  | .process i .lost => match s.processes[i]? with
      | some (.writeRound _ _ parsed _) => cacheKept parsed
      | _ => true
  | .land signature => match s.sent[signature]?, Program.loadState s.chain with
      | some ⟨tx, .inFlight⟩, .ok state =>
          (execute s.chain [s.adminKey] (tx.coreInstructions s.adminKey)).toBool == false ||
            s.processes.all (·.undisturbed signature tx state)
      | _, _ => true
  | .redisLost => s.processes.all (!·.leaving)
  | _ => true
where
  cacheKept (parsed : RoundState) : Bool :=
    s.processes.all fun p => !p.leaving || s.cache == some parsed

/-- No resume that has landed is ahead of this epoch. -/
def Behind (sent : List Sent) (epoch : Nat) : Prop :=
  ∀ x ∈ sent, ∀ nextEpoch, x.resumed nextEpoch = true → nextEpoch ≤ epoch

/-- The program is the backend's, no resume that has landed is ahead of it, and every loop that rolls
over has seen to what it must. -/
structure Agrees (s : State) : Prop where
  program : ∃ state, s.chain.Holds state ∧ state.admin = s.adminKey ∧
    Behind s.sent state.ongoingEpoch
  rolling : ∀ p ∈ s.processes, p.Rolling s

section Steps

variable {s s' : State} {p p' : Process} {chain : Chain} {fetched : RoundResponse}

theorem OnRound.frame {chain' : Chain} (h : OnRound chain fetched)
    (kept : ∀ terms, Sells chain terms → Sells chain' terms) : OnRound chain' fetched := by
  obtain ⟨pool, range, sells⟩ := h
  exact ⟨pool, range, kept _ sells⟩

theorem Ready.frame {chain' : Chain} {onChain : LordsPotState} (h : Ready chain fetched onChain)
    (kept : ∀ terms, Sells chain terms → Sells chain' terms) : Ready chain' fetched onChain :=
  h.imp (·.frame kept) (.imp_right (.imp_right (kept _)))

theorem OnRound.unpaused (h : OnRound chain fetched) {state : LordsPotState}
    (holds : chain.Holds state) : state.isLordsPotPaused = false := by
  obtain ⟨pool, -, state', holds', same⟩ := h
  cases holds.unique holds'
  exact congrArg Prod.fst same

theorem Bound.frame {own : Option Nat} (h : Bound s fetched own)
    (kept : ∀ terms, Sells s.chain terms → Sells s'.chain terms)
    (sent : ∀ (k : Nat) (x : Sent), s.sent[k]? = some x → ∃ y : Sent, s'.sent[k]? = some y ∧ y.tx = x.tx) :
    Bound s' fetched own := by
  cases own with
  | none => exact OnRound.frame h kept
  | some signature =>
    obtain ⟨x, onChain, found, tx, ready⟩ := h
    obtain ⟨y, found', same⟩ := sent _ _ found
    exact ⟨y, onChain, found', same ▸ tx, ready.frame kept⟩

/-- A step that keeps the terms, the transactions and, for a loop about to leave, the cached round. -/
theorem Process.Rolling.frame (h : p.Rolling s)
    (kept : ∀ terms, Sells s.chain terms → Sells s'.chain terms)
    (sent : ∀ (k : Nat) (x : Sent), s.sent[k]? = some x → ∃ y : Sent, s'.sent[k]? = some y ∧ y.tx = x.tx)
    (cache : p.leaving = true → s'.cache = s.cache) : p.Rolling s' := by
  have leaves {fetched : RoundResponse} {own : Option Nat} (leaving : p.leaving = true)
      (h : Bound s fetched own ∧ CachedAs s fetched) : Bound s' fetched own ∧ CachedAs s' fetched := by
    obtain ⟨bound, round, cached, parse⟩ := h
    exact ⟨bound.frame kept sent, round, (cache leaving).trans cached, parse⟩
  unfold Process.Rolling at h ⊢
  split at h
  · exact h.frame kept
  · exact Bound.frame h kept sent
  · exact ⟨h.1.frame kept sent, h.2⟩
  · exact leaves rfl h
  · exact leaves rfl h
  · exact leaves rfl h
  · exact leaves rfl h
  · trivial

theorem rolling_ensureFailed (s : State) (caller : Ensure) : (ensureFailed caller).Rolling s := by
  cases caller <;> trivial

/-- After a call that threw no loop rolls over; a sleep goes on. -/
theorem rolling_onThrow (now : Nat) (h : p.Rolling s) : (p.onThrow now).Rolling s := by
  fun_cases Process.onThrow now p
  all_goals first
    | trivial
    | exact rolling_ensureFailed s _

theorem rolling_ensured (s s' : State) (current : RoundState) (caller : Ensure) :
    (ensured s' current caller).Rolling s := by
  cases caller with
  | transition =>
    simp only [ensured, dueCheck]
    split <;> trivial
  | loop | boot => trivial

theorem rolling_bootNext (s : State) (attempt : Nat) (onChain : Option LordsPotState)
    (raw : Option RoundResponse) : (bootNext attempt onChain raw).Rolling s := by
  unfold bootNext
  split
  · split <;> trivial
  · trivial

theorem sale_of_parse {parsed : RoundState} (h : parseRoundState fetched = .ok parsed)
    {pool : MaxBallLimit} (range : fetched.ballPool = some pool) :
    parsed.sale = (false, fetched.id, pool.normalsMax, pool.bonusballMax) := by
  simp only [parseRoundState, range] at h
  split at h
  · cases h
  · split at h
    · cases h
    · split at h
      · split at h
        · cases h
          rfl
        · cases h
      · cases h

/-- The round that a loop caches is the program's. -/
theorem OnRound.sells {parsed : RoundState} (h : OnRound chain fetched)
    (parse : parseRoundState fetched = .ok parsed) : Sells chain parsed.sale := by
  obtain ⟨pool, range, sells⟩ := h
  exact (sale_of_parse parse range).symm ▸ sells

/-- The transaction of a loop asks for the fetched round, and for its ranges where they differ. -/
theorem resumeTx_eq {onChain : LordsPotState} {tx : Tx} (h : resumeTx fetched onChain = some tx) :
    ∃ pool, fetched.ballPool = some pool ∧
      tx = .resume (if needsUpdate pool onChain then some pool else none) fetched.id := by
  obtain ⟨pool, range, h⟩ := Option.bind_eq_some_iff.1 h
  obtain ⟨-, h⟩ := Option.ite_none_right_eq_some.1 h
  exact ⟨pool, range, (Option.some.inj h).symm⟩

/-- Its own transaction brings a program that is as it was read to the fetched round. -/
theorem onRound_of_own {chain' : Chain} {key : Program.Pubkey} {state onChain : LordsPotState}
    (holds : chain.Holds state) (same : sale state = sale onChain) {tx : Tx}
    (own : resumeTx fetched onChain = some tx)
    (ran : execute chain [key] (tx.coreInstructions key) = .ok chain') : OnRound chain' fetched := by
  obtain ⟨pool, range, rfl⟩ := resumeTx_eq own
  obtain ⟨-, -, state', holds', -, sold⟩ := execute_resume holds ran
  refine ⟨pool, range, state', holds', sold.trans ?_⟩
  simp only [sale, Prod.mk.injEq] at same
  obtain ⟨-, -, normal, bonus⟩ := same
  split
  · rfl
  · -- nothing to update: the ranges that were read are the fetched round's
    rename_i equal
    simp only [needsUpdate, Bool.or_eq_true, bne_iff_ne, not_or, Decidable.not_not] at equal
    rw [equal.1, equal.2, ← normal, ← bonus]
    rfl

/-- So does one that brings a program to the same round. -/
theorem onRound_of_brings {chain' : Chain} {key : Program.Pubkey} {state : LordsPotState}
    (holds : chain.Holds state) {tx : Tx} (brings : tx.brings state fetched = true)
    (ran : execute chain [key] (tx.coreInstructions key) = .ok chain') : OnRound chain' fetched := by
  cases tx with
  | pause => cases brings
  | resume update nextEpoch =>
    simp only [Tx.brings, Bool.and_eq_true, beq_iff_eq] at brings
    obtain ⟨rfl, range⟩ := brings
    obtain ⟨-, -, state', holds', -, sold⟩ := execute_resume holds ran
    refine ⟨_, range, state', holds', sold.trans ?_⟩
    cases update <;> rfl

theorem Behind.append {sent new : List Sent} {epoch : Nat} (h : Behind sent epoch)
    (inFlight : ∀ x ∈ new, x.status = .inFlight) : Behind (sent ++ new) epoch := by
  intro x hx nextEpoch resumed
  rcases List.mem_append.1 hx with old | fresh
  · exact h x old nextEpoch resumed
  · -- what is in flight has not landed
    obtain ⟨tx, status⟩ := x
    cases inFlight _ fresh
    cases tx <;> cases resumed

theorem Behind.setStatus {signature epoch epoch' : Nat} {tx : Tx} {status : TxStatus}
    (h : Behind s.sent epoch) (later : epoch ≤ epoch')
    (own : ∀ nextEpoch, Sent.resumed nextEpoch ⟨tx, status⟩ = true → nextEpoch ≤ epoch') :
    Behind (s.setStatus signature tx status).sent epoch' := by
  intro x hx nextEpoch resumed
  rcases List.mem_or_eq_of_mem_set hx with old | rfl
  · exact (h x old nextEpoch resumed).trans later
  · exact own nextEpoch resumed

/-- A process sends at most a transaction that is in flight. -/
theorem Process.on_sent {event : Event} (h : p.on s event = some (s', p')) :
    ∃ new, s'.sent = s.sent ++ new ∧ ∀ x ∈ new, x.status = .inFlight := by
  rcases Process.on_wrote h with ⟨-, wrote⟩ | rfl
  · cases wrote with
    | send tx => exact ⟨[{ tx := tx }], rfl, by simp⟩
    | _ => exact ⟨[], (List.append_nil _).symm, by simp⟩
  · exact ⟨[], (List.append_nil _).symm, by simp⟩

/-- What a loop has read of the program: it is paused at an earlier epoch, or at the fetched round. -/
theorem Agrees.readOnChain (agrees : Agrees s) {i : Nat} {current : RoundState}
    (hp : s.processes[i]? = some (.getOnChainState current fetched))
    (ok : rolloverKept s (.process i .ok) = true)
    (h : Process.run s (.getOnChainState current fetched) = some (s', p')) : p'.Rolling s' := by
  obtain ⟨state, holds, -, -⟩ := agrees.program
  have loaded := loadState_eq_ok.2 holds
  cases h
  simp only [loaded]
  split
  · rename_i paused
    simp only [rolloverKept, hp, loaded, paused, if_true, decide_eq_true_eq] at ok
    exact .inr ⟨paused, ok, state, holds, rfl⟩
  · -- the phantom branch: what it meets must be the fetched round
    rename_i unpaused
    simp only [rolloverKept, hp, loaded, if_neg unpaused, Bool.and_eq_true, beq_iff_eq] at ok
    refine ⟨_, ok.2, state, holds, ?_⟩
    simp [sale, unpaused, ok.1]

/-- A loop whose program is ready has its resume under way, unless the broadcast threw. -/
theorem Process.Rolling.resume {caller : Caller} {onChain : LordsPotState}
    (ready : (Process.resume caller fetched onChain).Rolling s)
    (h : Process.run s (.resume caller fetched onChain) = some (s', p')) : p'.Rolling s' := by
  simp only [Process.run] at h
  split at h
  · rename_i tx built
    cases h
    cases caller with
    | boot => trivial
    | loop current =>
      refine ⟨{ tx := tx }, onChain, ?_, built, ready⟩
      simp [State.send]
  · cases h
    exact rolling_onThrow _ ready

/-- The loop's round is the cached one from its write on. -/
theorem Process.Rolling.writeRound {caller : Processor} {data : RoundResponse} {parsed : RoundState}
    {isPaused : Bool} (own : (Process.writeRound caller data parsed isPaused).Rolling s)
    (h : Process.run s (.writeRound caller data parsed isPaused) = some (s', p')) : p'.Rolling s' := by
  cases h
  cases caller with
  | ensure | boot => trivial
  | loop current signature =>
    have bound : Bound { s with cache := some parsed } data signature :=
      own.1.frame (fun _ sells => sells) fun _ x found => ⟨x, found, rfl⟩
    exact ⟨bound, parsed, rfl, own.2⟩

/-- Where the await of a process returns, the loop has seen to what it must. -/
theorem Agrees.run (agrees : Agrees s) {i : Nat} (hp : s.processes[i]? = some p)
    (ok : rolloverKept s (.process i .ok) = true) (h : p.run s = some (s', p')) : p'.Rolling s' := by
  obtain ⟨state, holds, -, -⟩ := agrees.program
  have own := agrees.rolling p (List.mem_of_getElem? hp)
  have loaded := loadState_eq_ok.2 holds
  cases p with
  | getOnChainState => exact agrees.readOnChain hp ok h
  | resume => exact own.resume h
  | readPauseKey caller data =>
    cases h
    split
    · rename_i parsed parse
      cases caller with
      | ensure | boot => trivial
      | loop => exact ⟨own, parse⟩
    · exact rolling_onThrow _ own
  | writeRound => exact own.writeRound h
  | syncProtocolState caller data =>
    cases h
    cases caller with
    | ensure | boot => trivial
    | loop =>
      exact Process.Rolling.frame (p := .syncProtocolState (.loop ..) data _) own (fun _ sells => sells)
        (fun _ x found => ⟨x, found, rfl⟩) fun _ => rfl
  | writePauseKey caller =>
    cases h
    cases caller with
    | resumedLoop =>
      exact Process.Rolling.frame (p := .writePauseKey (.resumedLoop ..) _) own (fun _ sells => sells)
        (fun _ x found => ⟨x, found, rfl⟩) fun _ => rfl
    | pausing | verified | resumedBoot | synced => trivial
  | writePauseRow caller =>
    cases h
    cases caller with
    | pausing caller => cases caller <;> trivial
    | resumedLoop =>
      exact Process.Rolling.frame (p := .writePauseRow (.resumedLoop ..) _) own (fun _ sells => sells)
        (fun _ x found => ⟨x, found, rfl⟩) fun _ => rfl
    | verified | resumedBoot | synced => trivial
  | pollDelay current last wakes =>
    simp only [Process.run] at h
    split at h
    · cases h
      cases last <;> trivial
    · cases h
  | getRoundState =>
    cases h
    split
    · trivial
    · exact rolling_ensured s s _ .transition
  | ensureExisting caller =>
    cases h
    split
    · trivial
    · split
      · trivial
      · exact rolling_ensured ..
  | ensureSaved caller =>
    cases h
    split
    · exact rolling_ensureFailed ..
    · split
      · exact rolling_ensureFailed ..
      · exact rolling_ensured ..
  | lock caller =>
    simp only [Process.run] at h
    split at h
    · cases h
      cases caller <;> trivial
    · cases h
      cases caller with
      | loop => trivial
      | boot =>
        simp only [Caller.locked]
        split <;> trivial
  | confirmPause caller signature =>
    simp only [Process.run] at h
    split at h
    · cases h
      trivial
    · cases h
  | verifyPaused current =>
    cases h
    simp only [loaded]
    split <;> trivial
  | fetchActive current =>
    cases h
    split <;> trivial
  | bootRead attempt onChain raw =>
    cases h
    split
    · exact rolling_bootNext ..
    · exact rolling_onThrow _ own
    · exact rolling_bootNext ..
  | delLock boot =>
    cases h
    cases boot <;> trivial
  | syncChain =>
    cases h
    simp only [loaded]
    trivial
  | syncKey paused =>
    cases h
    split
    · split <;> trivial
    · trivial
  | syncRow paused =>
    cases h
    split <;> trivial
  | ensureFetch | pauseProtocol | expireLock | upsertSettled =>
    cases h
    trivial
  | fetchSettled | done => cases h

/-- What a step of one process leaves the loops of others. -/
theorem Agrees.others (agrees : Agrees s) {i : Nat} {event : Event} (hp : s.processes[i]? = some p)
    (ok : rolloverKept s (.process i event) = true) (h : p.on s event = some (s', p')) :
    s'.adminKey = s.adminKey ∧ s'.chain = s.chain ∧ ∀ q ∈ s.processes, q.Rolling s' := by
  rcases Process.on_wrote h with ⟨made, wrote⟩ | rfl
  · refine ⟨by cases wrote <;> rfl, by cases wrote <;> rfl, fun q hq => ?_⟩
    refine (agrees.rolling q hq).frame ?_ (fun k x found => ?_) fun leaves => ?_
    · have same : s'.chain = s.chain := by cases wrote <;> rfl
      exact fun terms sells => same ▸ sells
    · cases wrote with
      | send tx => exact ⟨x, List.getElem?_append_left (List.getElem?_eq_some_iff.1 found).1 ▸ found, rfl⟩
      | _ => exact ⟨x, found, rfl⟩
    · cases wrote with
      | @round caller data parsed isPaused =>
        have kept : rolloverKept.cacheKept s parsed = true := by
          cases event with
          | ok => simpa [rolloverKept, hp] using ok
          | lost => simpa [rolloverKept, hp] using ok
          | fetched | settled | throw => cases made
        have cached := List.all_eq_true.1 kept q hq
        simp only [leaves, Bool.not_true, Bool.false_or, beq_iff_eq] at cached
        exact cached.symm
      | _ => rfl
  · exact ⟨rfl, rfl, agrees.rolling⟩

theorem Agrees.on (agrees : Agrees s) {i : Nat} {event : Event} (hp : s.processes[i]? = some p)
    (ok : rolloverKept s (.process i event) = true) (h : p.on s event = some (s', p')) :
    p'.Rolling s' := by
  obtain ⟨-, -, rest⟩ := agrees.others hp ok h
  have here := List.mem_of_getElem? hp
  cases event with
  | ok => exact agrees.run hp ok h
  | lost =>
    obtain ⟨⟨after, next⟩, -, same⟩ := Option.map_eq_some_iff.1 h
    cases same
    exact rolling_onThrow _ (rest p here)
  | throw =>
    cases h
    exact rolling_onThrow _ (rest p here)
  | fetched =>
    simp only [Process.on] at h
    split at h
    · cases h
      exact rolling_bootNext ..
    · cases h
  | settled =>
    simp only [Process.on] at h
    split at h
    · cases h
      trivial
    · cases h

theorem Agrees.process (agrees : Agrees s) {i : Nat} {event : Event}
    (ok : rolloverKept s (.process i event) = true) (hs : step s (.process i event) = some s') :
    Agrees s' := by
  obtain ⟨p, s₁, p', hp, ran, rfl⟩ := step_process hs
  obtain ⟨key, chain, rest⟩ := agrees.others hp ok ran
  have next := agrees.on hp ok ran
  have idle : ∀ {q : Process} (processes : List Process), q.Rolling s₁ →
      q.Rolling { s₁ with processes := processes } := fun _ rolling =>
    rolling.frame (fun _ sells => sells) (fun _ x found => ⟨x, found, rfl⟩) fun _ => rfl
  refine ⟨?_, fun q hq => ?_⟩
  · obtain ⟨state, holds, admin, behind⟩ := agrees.program
    obtain ⟨new, appended, inFlight⟩ := Process.on_sent ran
    exact ⟨state, chain ▸ holds, admin.trans key.symm, appended ▸ behind.append inFlight⟩
  · rcases List.mem_or_eq_of_mem_set hq with old | rfl
    · exact idle _ (rest q old)
    · exact idle _ next

theorem setStatus_sent (status : TxStatus) {signature : Nat} {tx : Tx}
    (own : s.sent[signature]? = some ⟨tx, .inFlight⟩) (k : Nat) (x : Sent) (found : s.sent[k]? = some x) :
    ∃ y : Sent, (s.setStatus signature tx status).sent[k]? = some y ∧ y.tx = x.tx := by
  by_cases same : signature = k
  · subst same
    cases own.symm.trans found
    refine ⟨⟨tx, status⟩, ?_, rfl⟩
    simp [State.setStatus, (List.getElem?_eq_some_iff.1 own).1]
  · refine ⟨x, ?_, rfl⟩
    simpa [State.setStatus, List.getElem?_set_ne same] using found

/-- A transaction that is executed leaves a loop's rollover: its own finds the program as it was
read. -/
theorem Bound.land {own : Option Nat} (h : Bound s fetched own) {signature : Nat} {tx : Tx}
    {status : TxStatus} {chain' : Chain} {state : LordsPotState} (holds : s.chain.Holds state)
    (sent : s.sent[signature]? = some ⟨tx, .inFlight⟩)
    (ran : execute s.chain [s.adminKey] (tx.coreInstructions s.adminKey) = .ok chain')
    (calm : (own == some signature || tx.brings state fetched) = true) :
    Bound { s.setStatus signature tx status with chain := chain' } fetched own := by
  cases own with
  | none =>
    have brings : tx.brings state fetched = true := by simpa using calm
    exact onRound_of_brings holds brings ran
  | some k =>
    obtain ⟨x, onChain, found, asked, ready⟩ := h
    obtain ⟨y, found', same⟩ := setStatus_sent status sent k x found
    refine ⟨y, onChain, found', same ▸ asked, .inl ?_⟩
    rcases Bool.or_eq_true_iff.1 calm with mine | brings
    · cases Option.some.inj (beq_iff_eq.1 mine)
      cases sent.symm.trans found
      obtain ⟨pool, -, rfl⟩ := resumeTx_eq asked
      obtain ⟨paused, -, -⟩ := execute_resume holds ran
      rcases ready with reached | ⟨-, -, state', holds', terms⟩
      · cases paused.symm.trans (reached.unpaused holds)
      · cases holds.unique holds'
        exact onRound_of_own holds terms asked ran
    · exact onRound_of_brings holds brings ran

theorem Process.Rolling.land (h : p.Rolling s) {signature : Nat} {tx : Tx} {status : TxStatus}
    {chain' : Chain} {state : LordsPotState} (holds : s.chain.Holds state)
    (sent : s.sent[signature]? = some ⟨tx, .inFlight⟩)
    (ran : execute s.chain [s.adminKey] (tx.coreInstructions s.adminKey) = .ok chain')
    (calm : p.undisturbed signature tx state = true) :
    p.Rolling { s.setStatus signature tx status with chain := chain' } := by
  unfold Process.Rolling at h ⊢
  split at h
  · exact .inl (onRound_of_brings holds calm ran)
  · exact Bound.land h holds sent ran calm
  · exact ⟨h.1.land holds sent ran calm, h.2⟩
  · exact ⟨h.1.land holds sent ran calm, h.2⟩
  · exact ⟨h.1.land holds sent ran calm, h.2⟩
  · exact ⟨h.1.land holds sent ran calm, h.2⟩
  · exact ⟨h.1.land holds sent ran calm, h.2⟩
  · trivial

theorem Agrees.land (agrees : Agrees s) {signature : Nat}
    (ok : rolloverKept s (.land signature) = true) (hs : step s (.land signature) = some s') :
    Agrees s' := by
  obtain ⟨state, holds, admin, behind⟩ := agrees.program
  obtain ⟨tx, sent, ⟨chain, ran, rfl⟩ | rfl⟩ := step_land hs
  · constructor
    · cases tx with
      | pause =>
        refine ⟨_, (execute_pause holds ran).2, admin, behind.setStatus le_rfl fun nextEpoch resumed => ?_⟩
        cases resumed
      | resume update nextEpoch =>
        obtain ⟨-, later, state', holds', same, sold⟩ := execute_resume holds ran
        have epoch : state'.ongoingEpoch = nextEpoch := congrArg (·.2.1) sold
        refine ⟨state', holds', same.trans admin, behind.setStatus ?_ fun _ resumed => ?_⟩
        · exact epoch ▸ later.le
        · exact (beq_iff_eq.1 resumed) ▸ epoch.ge
    · intro p hp
      have calm : s.processes.all (·.undisturbed signature tx state) = true := by
        simpa [rolloverKept, sent, loadState_eq_ok.2 holds, ran, Except.toBool] using ok
      exact (agrees.rolling p hp).land holds sent ran (List.all_eq_true.1 calm p hp)
  · refine ⟨⟨state, holds, admin, behind.setStatus le_rfl fun _ resumed => ?_⟩, fun p hp => ?_⟩
    · cases tx <;> cases resumed
    · exact (agrees.rolling p hp).frame (fun _ sells => sells) (setStatus_sent .failed sent) fun _ => rfl

theorem rolling_of_idle (s : State) (h : p.idle = true) : p.Rolling s := by
  cases p <;> trivial

/-- Any other step: Redis is lost only where no loop is about to leave. -/
theorem Agrees.aside (agrees : Agrees s) {a : Action} (ok : rolloverKept s a = true)
    (aside : Aside s a s') : Agrees s' := by
  obtain ⟨state, holds, admin, behind⟩ := agrees.program
  obtain ⟨state', holds', same, terms⟩ := aside.chain state holds
  obtain ⟨new, appended, inFlight⟩ := aside.sent
  have epoch : state'.ongoingEpoch = state.ongoingEpoch := congrArg (·.2.1) terms
  refine ⟨⟨state', holds', by rw [same, admin, aside.key], ?_⟩, fun p hp => ?_⟩
  · exact epoch ▸ appended ▸ behind.append inFlight
  rcases aside.processes p hp with old | idle
  · refine (agrees.rolling p old).frame ?_ (fun k x found => ⟨x, ?_, rfl⟩) fun leaves => ?_
    · rintro _ ⟨state'', holds'', rfl⟩
      cases holds.unique holds''
      exact ⟨state', holds', terms⟩
    · rw [appended, List.getElem?_append_left (List.getElem?_eq_some_iff.1 found).1]
      exact found
    · rcases aside.cache with same | ⟨rfl, -⟩
      · exact same
      · have stays := List.all_eq_true.1 ok p old
        rw [leaves] at stays
        cases stays
  · exact rolling_of_idle s' idle

theorem Agrees.step (agrees : Agrees s) {a : Action} (ok : rolloverKept s a = true)
    (hs : step s a = some s') : Agrees s' := by
  obtain ⟨i, event, rfl⟩ | ⟨signature, rfl⟩ | aside := step_cases hs
  · exact agrees.process ok hs
  · exact agrees.land ok hs
  · exact agrees.aside ok aside

end Steps

/-! ## Every run -/

/-- The step with which a `transitionLoop` leaves its wait loop through the rollover branch. -/
def Leaves (s : State) (a : Action) : Prop :=
  ∃ i current fetched signature wakes,
    s.processes[i]? = some (.pollDelay current (some (fetched, signature)) wakes) ∧ a = .process i .ok

/-- The program is unpaused at the cached round, with its ranges. -/
def RolledOver (s : State) : Prop :=
  ∃ state round, s.chain.Holds state ∧ s.cache = some round ∧ state.isLordsPotPaused = false ∧
    state.ongoingEpoch = round.id ∧ state.normalMax = round.normalsMax ∧
    state.bonusMax = round.bonusballMax

theorem Agrees.initial {s : State} (h : Initial s) : Agrees s := by
  obtain ⟨state, holds, admin⟩ := h.holds
  refine ⟨⟨state, holds, admin, fun x hx => ?_⟩, fun p hp => ?_⟩
  · rw [h.noSent] at hx
    cases hx
  · rw [h.noProcesses] at hp
    cases hp

/-- A loop whose resume, or another for its round, has landed is at its round. -/
theorem Agrees.onRound {s : State} (agrees : Agrees s) {fetched : RoundResponse} {own : Option Nat}
    (bound : Bound s fetched own)
    (landed : own.isSome = true → s.sent.any (·.resumed fetched.id) = true) :
    OnRound s.chain fetched := by
  obtain ⟨state, holds, -, behind⟩ := agrees.program
  cases own with
  | none => exact bound
  | some signature =>
    obtain ⟨sent, onChain, -, -, reached | ⟨-, earlier, state', holds', terms⟩⟩ := bound
    · exact reached
    · -- the program would still be before the round of a resume that has landed
      obtain ⟨x, hx, resumed⟩ := List.any_eq_true.1 (landed rfl)
      cases holds.unique holds'
      have same : state.ongoingEpoch = onChain.ongoingEpoch := congrArg (·.2.1) terms
      have reached := behind x hx fetched.id resumed
      omega

/-- **The postcondition of the transition** in any run in which a resume for the round has landed
when a loop leaves, the phantom branch finds the program at its round, and no loop is disturbed until
it leaves. -/
theorem rolled_over {s s' : State} {a : Action}
    (h : machine.ReachableBy (fun s a => rolloverKept s a = true) s) (ok : rolloverKept s a = true)
    (leaves : Leaves s a) (hs : step s a = some s') : RolledOver s' := by
  have agrees : Agrees s := Machine.ReachableBy.invariant (fun _ => Agrees.initial)
    (fun _ _ _ agrees ok hs => agrees.step ok hs) h
  obtain ⟨i, current, fetched, own, wakes, at_, rfl⟩ := leaves
  obtain ⟨p, s₁, p', hp, ran, rfl⟩ := step_process hs
  cases at_.symm.trans hp
  obtain ⟨bound, round, cached, parse⟩ := agrees.rolling _ (List.mem_of_getElem? at_)
  have landed : own.isSome = true → s.sent.any (·.resumed fetched.id) = true := by
    intro sent
    obtain ⟨signature, rfl⟩ := Option.isSome_iff_exists.1 sent
    simpa [rolloverKept, at_] using ok
  have same : s₁ = s := by
    simp only [Process.on, Process.run] at ran
    split at ran <;> cases ran
    rfl
  obtain ⟨state, holds, terms⟩ := (agrees.onRound bound landed).sells parse
  simp only [sale, RoundState.sale, Prod.mk.injEq] at terms
  exact ⟨state, round, same ▸ holds, same ▸ cached, terms⟩

/-- Loop 0 leaves, into a state that passes the test. -/
def leavesInto (test : State → Bool) (s : State) : Bool :=
  (match (s.processes[0]? : Option Process) with
    | some (.pollDelay _ (some _) _) => true
    | _ => false) && (step s (.process 0 .ok)).any test

theorem of_leavesInto {test : State → Bool} {s : State} (h : leavesInto test s = true) :
    ∃ s', Leaves s (.process 0 .ok) ∧ step s (.process 0 .ok) = some s' ∧ test s' = true := by
  simp only [leavesInto, Bool.and_eq_true] at h
  obtain ⟨own, left⟩ := h
  split at own
  · rename_i found current last wakes at_
    obtain ⟨s', stepped, passed⟩ := (Option.any_eq_true ..).1 left
    exact ⟨s', ⟨0, current, last.1, last.2, wakes, at_, rfl⟩, stepped, passed⟩
  · cases own

/-- The loop goes on from its broadcast to the sleep. -/
def caching : List Action := events 0 [.ok, .ok, .ok, .ok, .ok]

/-- The resume was sent and never lands. -/
theorem left_paused : ¬ ∀ s s' a, machine.Reachable s → Leaves s a → step s a = some s' →
    RolledOver s' := by
  intro all
  obtain ⟨s, hs, hp⟩ := Machine.exists_reachable_of_run (M := machine) initial_onSale
    (resuming ++ caching ++ [.clock POLL_DELAY_MS])
    (leavesInto fun s' => (Program.loadState s'.chain).toOption.any (·.isLordsPotPaused))
    (by decide +kernel)
  obtain ⟨s', leaves, stepped, paused⟩ := of_leavesInto hp
  obtain ⟨state, round, holds, -, unpaused, -⟩ := all s s' _ hs leaves stepped
  simp [loadState_eq_ok.2 holds, Except.toOption, unpaused] at paused

/-- The resume lands, with the new range, while the loop sleeps. -/
theorem rolled_over_landed : ∃ s s', Leaves s (.process 0 .ok) ∧
    step s (.process 0 .ok) = some s' ∧ s'.cache = some ⟨2, 35, 10, 300100⟩ ∧ RolledOver s' := by
  obtain ⟨s, hs, hp⟩ := Machine.exists_reachableBy_of_runBy (M := machine) rolloverKept initial_onSale
    (resuming ++ caching ++ [.land 1, .clock POLL_DELAY_MS])
    (fun s => rolloverKept s (.process 0 .ok) &&
      leavesInto (fun s' => s'.cache == some ⟨2, 35, 10, 300100⟩) s) (by decide +kernel)
  obtain ⟨ok, left⟩ := (Bool.and_eq_true ..).mp hp
  obtain ⟨s', leaves, stepped, cached⟩ := of_leavesInto left
  exact ⟨s, s', leaves, stepped, beq_iff_eq.1 cached, rolled_over hs ok leaves stepped⟩

end LordsPot.Megapot
