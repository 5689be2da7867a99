import LordsPot.Payout.Expiry

/-!
# Rotating the admin key

The sweep walks the history of the key that the backend runs with. What another key has co-signed
is not in it, however complete the walk. A voucher that landed before the rotation is found only as
long as the backend still runs with the old key.
-/

namespace LordsPot.Payout

open Transition

/-- `set_admin`, which both keys sign. -/
def setAdmin (p : Program) (newAdmin : Wallet) : Option Program :=
  if newAdmin = p.admin then none else some { p with admin := newAdmin }

inductive RotationAction where
  | payout (action : Action)
  | setAdmin (newAdmin : Wallet)
  /-- The backend starts again with this key, once nothing of the old process is left. -/
  | restart (key : Wallet)
  deriving Repr

/-- The transaction is in the key's history. -/
def signedBy (key : Wallet) (l : Landing) : Bool := l.voucher.admin == key

def Request.ended : Request → Bool
  | .answered _ | .crashed => true
  | _ => false

/-- The payout path where the sweep is truthful about its own key's history. -/
def rotationStep (s : State) : RotationAction → Option State
  | .payout (.tick (.sweepReturns r)) => match s.tick with
    | some (.sweeping pending notBefore calledAt before) =>
        if truthful notBefore (before.filter (signedBy s.adminKey)) (s.landed.filter (signedBy s.adminKey)) r
        then some { s with tick := some (.swept pending calledAt r) } else none
    | _ => none
  | .payout a => step s a
  | .setAdmin newAdmin => (setAdmin s.program newAdmin).map fun p => { s with program := p }
  | .restart key =>
      if s.tick.isNone && s.requests.all Request.ended then some { s with adminKey := key } else none

def rotationMachine : Machine State RotationAction := ⟨Initial, rotationStep⟩

/-- No voucher of the claim has landed, nor does one land in any continuation. -/
def StaysOut (k : Uuid) (s : State) : Prop :=
  ∀ as s', rotationMachine.run s as = some s' → ∀ l ∈ s'.landed, l.voucher.claimId ≠ k

/-- A landing of the claim that a tick expires was co-signed by the key that was swept. -/
def ownKey (s : State) : Action → Bool
  | .tick (.resolveNext false) => match s.tick with
    | some (.resolving (c :: _) _ landed used height) => match verdict landed used height s.now c with
      | .expired => s.landed.all fun l => l.voucher.claimId != c.id || signedBy s.adminKey l
      | _ => true
    | _ => true
  | _ => true

def rotationSafe (s : State) : RotationAction → Bool
  | .payout a => expirySafe s a && ownKey s a
  | _ => true

/-! ## A tick that never expires anything -/

/-- The same answers, not complete. -/
def Tick.mute : Tick → Tick
  | .swept pending calledAt r => .swept pending calledAt ⟨r.claims, false⟩
  | .usedRead pending calledAt r used => .usedRead pending calledAt ⟨r.claims, false⟩ used
  | .resolving pending calledAt r used height => .resolving pending calledAt ⟨r.claims, false⟩ used height
  | t => t

/-- What the attribution says holds of any sweep that is not complete. -/
def mute (s : State) : State := { s with tick := s.tick.map Tick.mute }

theorem mute_tick {s : State} {t : Tick} (ht : s.tick = some t) : (mute s).tick = some t.mute := by
  rw [mute, ht]
  rfl

theorem tickStep_crash (s : State) (t : Option Tick) :
    tickStep s t .crash = some { s with tick := none } := by
  unfold tickStep
  split
  case h_8 => rfl
  all_goals simp_all

theorem tickStep_mute {s s' : State} {act : TickAct} (answered : ∀ r, act ≠ .sweepReturns r)
    (resolved : ∀ fails, act ≠ .resolveNext fails) (hs : tickStep s s.tick act = some s') :
    tickStep (mute s) (mute s).tick act = some (mute s') := by
  cases tickMove hs with
  | idle here nothing =>
    have muted : (mute s).tick = none := by rw [mute, here]; rfl
    have pending : findPending (mute s).db = [] := nothing
    rw [muted, tickStep, pending]
  | read here pending =>
    have muted : (mute s).tick = none := by rw [mute, here]; rfl
    have pending : findPending (mute s).db = _ := pending
    rw [muted, tickStep, pending]
    rfl
  | call here | noAnswer here | used here =>
    rw [mute_tick here]
    rfl
  | answer => exact absurd rfl (answered _)
  | height here reached =>
    rw [mute_tick here]
    exact if_pos reached
  | resolve => exact absurd rfl (resolved _)
  | crash => exact tickStep_crash _ _

/-- What is not the confirmer's does not look at the tick. -/
theorem step_setTick {s s' : State} {a : Action} (other : ∀ act, a ≠ .tick act)
    (hs : step s a = some s') (tick : Option Tick) :
    step { s with tick := tick } a = some { s' with tick := tick } ∧ s'.tick = s.tick ∧
      s'.adminKey = s.adminKey := by
  cases a with
  | tick act => exact absurd rfl (other act)
  | route i act =>
    obtain ⟨r, db, r', handed, hr, routed, rfl⟩ := step_route hs
    refine ⟨?_, rfl, rfl⟩
    simp only [step, hr, routed, Option.bind_eq_bind, Option.bind_some]
    rfl
  | land v sig slot bt =>
    simp only [step] at hs ⊢
    split at hs
    · rename_i guard
      rw [if_pos guard]
      split at hs
      · cases hs
      · cases hs
        exact ⟨rfl, rfl, rfl⟩
    · cases hs
  | _ => cases hs; exact ⟨rfl, rfl, rfl⟩

/-! ## The invariant -/

/-- A complete answer has every past landing of the swept key. -/
def Heard (s : State) (pending : List PayoutClaim) (calledAt : Nat) (r : LandedClaims) : Prop :=
  r.complete = true → ∀ c ∈ pending, c.lastValidBlockHeight ≠ none → ∀ l ∈ s.landed,
    signedBy s.adminKey l = true → l.voucher.claimId = c.id →
    l.voucher.lastValidBlockHeight < calledAt → l.claim ∈ r.claims

def HeardTick (s : State) : Tick → Prop
  | .pendingRead _ | .sweeping .. => True
  | .swept pending calledAt r | .usedRead pending calledAt r _ | .resolving pending calledAt r _ _ =>
      Heard s pending calledAt r

structure Rotated (s : State) : Prop where
  book : Book s
  attribution : Attribution (mute s)
  heard : ∀ t, s.tick = some t → HeardTick s t

section Steps

variable {s s' : State}

theorem Book.mute (b : Book s) : Book (mute s) := b.frame rfl (fun _ => rfl) le_rfl rfl rfl rfl

/-- A step of somebody else. -/
theorem Rotated.other (h : Rotated s) {a : Action} (other : ∀ act, a ≠ .tick act)
    (ok : twinSafe s a = true) (hs : step s a = some s') : Rotated s' := by
  obtain ⟨muted, tick, key⟩ := step_setTick other hs (s.tick.map Tick.mute)
  have landed : ∀ {h : Nat} {l : Landing}, h ≤ s.height → l ∈ s'.landed →
      l.voucher.lastValidBlockHeight < h → l ∈ s.landed := by
    intro h l behind hl past
    rcases landed_step hs hl with old | ⟨-, height⟩
    · exact old
    · omega
  refine ⟨h.book.step hs, ?_, fun t ht => ?_⟩
  · rw [Payout.mute, tick]
    exact h.attribution.step h.book.mute ok muted
  · have keep : ∀ {pending calledAt r}, calledAt ≤ s.height → Heard s pending calledAt r →
        Heard s' pending calledAt r := by
      intro pending calledAt r behind heard complete c hc stamped l hl own same past
      exact heard complete c hc stamped l (landed behind hl past) (key ▸ own) same past
    rw [tick] at ht
    have heard := h.heard t ht
    have ok := h.attribution.tick _ (mute_tick ht)
    cases t with
    | pendingRead | sweeping => trivial
    | swept => exact keep ok.2.notAhead heard
    | usedRead => exact keep ok.2.1.notAhead heard
    | resolving => exact keep ok.1.2.1.notAhead heard

/-- The sweep of one key's history answers. -/
theorem Rotated.answer (h : Rotated s) {pending : List PayoutClaim} {notBefore calledAt : Nat}
    {before : List Landing} {r : LandedClaims}
    (ht : s.tick = some (.sweeping pending notBefore calledAt before))
    (answer : truthful notBefore (before.filter (signedBy s.adminKey))
      (s.landed.filter (signedBy s.adminKey)) r = true) :
    Rotated { s with tick := some (.swept pending calledAt r) } := by
  obtain ⟨snap, called⟩ := h.attribution.tick _ (mute_tick ht)
  simp only [truthful, Bool.and_eq_true, List.all_eq_true, List.any_eq_true, beq_iff_eq,
    Bool.or_eq_true, Bool.not_eq_true', List.contains_iff_mem, List.mem_filter] at answer
  obtain ⟨real, all⟩ := answer
  refine ⟨h.book.frame rfl (fun _ => rfl) le_rfl rfl rfl rfl, ?_, fun t he => ?_⟩
  · -- for the muted tick this is an answer that is not complete
    have muted : tickStep (mute s) (mute s).tick (.sweepReturns ⟨r.claims, false⟩) =
        some (mute { s with tick := some (.swept pending calledAt r) }) := by
      rw [mute_tick ht]
      refine if_pos ?_
      simp only [truthful, Bool.and_eq_true, List.all_eq_true, List.any_eq_true, beq_iff_eq,
        Bool.not_false, Bool.true_or, and_true]
      intro e he
      obtain ⟨l, ⟨hl, -⟩, same⟩ := real e he
      exact ⟨l, hl, same⟩
    exact h.attribution.tickStep h.book.mute muted
  · cases he
    intro complete c hc stamped l hl own same past
    rcases all with incomplete | all
    · rw [complete] at incomplete
      cases incomplete
    · rcases all l ⟨called.past l hl past, own⟩ with outside | inside
      · have after := snap.landedAfter h.book.mute hc stamped hl same
        rw [inWindow_of_bound (called.bound c hc) after] at outside
        cases outside
      · exact inside

/-- A tick goes on with the answer it has. -/
theorem heard_tickStep {act : TickAct} (h : ∀ t, s.tick = some t → HeardTick s t)
    (answered : ∀ r, act ≠ .sweepReturns r) (hs : tickStep s s.tick act = some s') :
    ∀ t, s'.tick = some t → HeardTick s' t := by
  cases tickMove hs with
  | idle => exact h
  | read | call =>
    intro t he
    cases he
    trivial
  | answer => exact absurd rfl (answered _)
  | noAnswer | crash => exact fun t he => by cases he
  | used here | height here =>
    have heard := h _ here
    intro t he
    cases he
    exact heard
  | resolve here =>
    have heard := h _ here
    intro t he
    dsimp only at he
    split at he <;> cases he
    exact fun complete c₁ hc₁ => heard complete c₁ (List.mem_cons_of_mem _ hc₁)

/-- The confirmer resolves a claim, and may expire it. -/
theorem Rotated.resolve (h : Rotated s) {c : PayoutClaim} {cs : List PayoutClaim} {calledAt height : Nat}
    {r : LandedClaims} {used : List Signature} {fails : Bool}
    (ht : s.tick = some (.resolving (c :: cs) calledAt r used height))
    (hs : tickStep s s.tick (.resolveNext fails) = some s') : Attribution (mute s') := by
  have hits : ∀ hit, verdict r used height s.now c = .landed hit →
      findHit ⟨r.claims, false⟩ used c = some hit :=
    fun hit he => show findHit r used c = some hit from verdict_landed he
  rw [ht] at hs
  cases hs
  refine h.attribution.resolve h.book.mute (mute_tick ht) hits ?_ ?_
  · cases fails with
    | true => exact fun k => .inl rfl
    | false => exact rowRule_resolve s.db c.id s.now _
  · cases cs with
    | nil => exact .inl rfl
    | cons c₁ cs => exact .inr rfl

/-- The confirmer's other steps. -/
theorem Rotated.tickStep (h : Rotated s) {act : TickAct} (answered : ∀ r, act ≠ .sweepReturns r)
    (hs : tickStep s s.tick act = some s') : Rotated s' := by
  refine ⟨h.book.step (a := .tick act) hs, ?_, heard_tickStep h.heard answered hs⟩
  by_cases resolves : ∃ fails, act = .resolveNext fails
  · obtain ⟨fails, rfl⟩ := resolves
    obtain ⟨c, cs, calledAt, r, used, height, ht⟩ : ∃ c cs calledAt r used height,
        s.tick = some (.resolving (c :: cs) calledAt r used height) := by
      cases tickMove hs with
      | resolve here => exact ⟨_, _, _, _, _, _, here⟩
    exact h.resolve ht hs
  · exact h.attribution.tickStep h.book.mute
      (tickStep_mute answered (fun fails same => resolves ⟨fails, same⟩) hs)

end Steps

/-! ## The expiry -/

section Expiry

variable {s s' : State}

/-- What a step is: an answer of the sweep, a step of the payout path, or a change of the key. -/
theorem rotationStep_cases {a : RotationAction} (hs : rotationStep s a = some s') :
    (∃ r pending notBefore calledAt before, a = .payout (.tick (.sweepReturns r)) ∧
      s.tick = some (.sweeping pending notBefore calledAt before) ∧
      truthful notBefore (before.filter (signedBy s.adminKey)) (s.landed.filter (signedBy s.adminKey)) r = true ∧
      s' = { s with tick := some (.swept pending calledAt r) }) ∨
    (∃ action, (a = .payout action ∨ ∃ p, action = .program p) ∧
      (∀ r, action ≠ .tick (.sweepReturns r)) ∧ step s action = some s') ∨
    ∃ key, a = .restart key ∧ s.tick = none ∧ s' = { s with adminKey := key } := by
  unfold rotationStep at hs
  split at hs
  · split at hs
    · rename_i ht
      split at hs
      · rename_i answer
        cases hs
        exact .inl ⟨_, _, _, _, _, rfl, ht, answer, rfl⟩
      · cases hs
    · cases hs
  · rename_i action other
    exact .inr (.inl ⟨action, .inl rfl, fun r same => other r same, hs⟩)
  · obtain ⟨p, -, rfl⟩ := Option.map_eq_some_iff.1 hs
    exact .inr (.inl ⟨.program p, .inr ⟨p, rfl⟩, fun r same => (by cases same), rfl⟩)
  · rename_i key
    split at hs
    · rename_i idle
      cases hs
      rw [Bool.and_eq_true, Option.isNone_iff_eq_none] at idle
      exact .inr (.inr ⟨key, rfl, idle.1, rfl⟩)
    · cases hs

/-- **The rotation rule**: a safe step keeps the book and what is known of the sweep. -/
theorem Rotated.next {a : RotationAction} (h : Rotated s) (ok : rotationSafe s a = true)
    (hs : rotationStep s a = some s') : Rotated s' := by
  rcases rotationStep_cases hs with ⟨r, pending, notBefore, calledAt, before, rfl, ht, answer, rfl⟩ |
    ⟨action, origin, unanswered, stepped⟩ | ⟨key, rfl, idle, rfl⟩
  · exact h.answer ht answer
  · by_cases own : ∃ act, action = .tick act
    · obtain ⟨act, rfl⟩ := own
      exact h.tickStep (fun r same => unanswered r (by rw [same])) stepped
    · refine h.other (fun act same => own ⟨act, same⟩) ?_ stepped
      rcases origin with rfl | ⟨p, rfl⟩
      · exact twinSafe_of_expirySafe (Bool.and_eq_true_iff.1 ok).1
      · rfl
  · refine ⟨h.book.frame rfl (fun _ => rfl) le_rfl rfl rfl rfl, ?_, fun t ht => ?_⟩
    · have att := h.attribution
      refine ⟨att.apart, att.resolved, fun t ht => ?_⟩
      rw [mute, idle] at ht
      cases ht
    · rw [show ({ s with adminKey := key } : State).tick = s.tick from rfl, idle] at ht
      cases ht

theorem Rotated.initial (h : Initial s) : Rotated s := by
  refine ⟨.initial h, .initial { h with noTick := ?_ }, fun t ht => ?_⟩
  · rw [mute, h.noTick]
    rfl
  · rw [h.noTick] at ht
    cases ht

theorem Dead.rotationStep {k : Uuid} {a : RotationAction} (d : Dead k s)
    (hs : rotationStep s a = some s') : Dead k s' := by
  rcases rotationStep_cases hs with ⟨_, _, _, _, _, -, -, -, rfl⟩ | ⟨action, -, -, stepped⟩ | ⟨key, -, -, rfl⟩
  · exact ⟨d.book.frame rfl (fun _ => rfl) le_rfl rfl rfl rfl, d.row, d.notLanded⟩
  · exact d.step stepped
  · exact ⟨d.book.frame rfl (fun _ => rfl) le_rfl rfl rfl rfl, d.row, d.notLanded⟩

theorem Dead.staysOut {k : Uuid} (d : Dead k s) : StaysOut k s := fun _ _ hr =>
  (Machine.run_invariant (I := Dead k) (fun _ _ _ d hs => d.rotationStep hs) d hr).notLanded

/-- A safe expiry: the voucher's landing would be in the history of the swept key. -/
theorem Rotated.dead (h : Rotated s) {c : PayoutClaim} {cs : List PayoutClaim} {calledAt height : Nat}
    {r : LandedClaims} {used : List Signature} (hs : step s (.tick (.resolveNext false)) = some s')
    (ht : s.tick = some (.resolving (c :: cs) calledAt r used height))
    (hv : verdict r used height s.now c = .expired)
    (behind : ∀ l ∈ c.lastValidBlockHeight, l < calledAt)
    (own : ∀ l ∈ s.landed, l.voucher.claimId = c.id → signedBy s.adminKey l = true) : Dead c.id s' := by
  obtain ⟨-, complete, l, hl, -⟩ := verdict_expired hv
  obtain ⟨⟨snap, -, spent⟩, notAhead⟩ := h.attribution.tick _ (mute_tick ht)
  have stamped : c.lastValidBlockHeight ≠ none := by rw [hl]; exact Option.some_ne_none _
  refine (dead_of_reported h.book snap spent notAhead hv fun L hL hk same => ?_).step hs
  exact h.heard _ ht complete c List.mem_cons_self stamped L hL (own L hL hk) hk (behind _ same)

/-- A claim that a safe step marks expired is dead. -/
theorem Rotated.marked (h : Rotated s) {action : Action} {k : Uuid}
    (ok : rotationSafe s (.payout action) = true) (hs : step s action = some s')
    (marked : marksExpired s s' k = true) : Dead k s' := by
  obtain ⟨expiry, key⟩ := Bool.and_eq_true_iff.1 ok
  obtain ⟨c, cs, calledAt, r, used, height, rfl, ht, rfl, hv, behind⟩ :=
    resolved_of_marksExpired h.book expiry hs marked
  simp only [ownKey, ht, hv] at key
  refine h.dead hs ht hv behind fun l hl same => ?_
  have own := List.all_eq_true.1 key l hl
  simpa [same] using own

end Expiry

/-- **No landed voucher is expired by a rotation** as long as a claim is expired only when its
landing, if there is one, was co-signed by the key that was swept, and the expiry is safe. -/
theorem no_rotated_expiry {s s' : State} {a : RotationAction} {k : Uuid}
    (h : rotationMachine.ReachableBy (fun s a => rotationSafe s a = true) s)
    (ok : rotationSafe s a = true) (hs : rotationStep s a = some s')
    (marked : marksExpired s s' k = true) : StaysOut k s' := by
  have inv : Rotated s := h.invariant (fun s (hi : Initial s) => .initial hi)
    fun _ _ _ inv ok hs => inv.next ok hs
  have unmarked : s'.db = s.db → False := by
    intro same
    obtain ⟨c, hc, hst, -, hst'⟩ := marksExpired_iff.1 marked
    rw [same, status?, hc] at hst'
    exact hst (Option.some.inj hst')
  rcases rotationStep_cases hs with ⟨_, _, _, _, _, -, -, -, rfl⟩ | ⟨action, rfl | ⟨p, rfl⟩, -, stepped⟩ |
    ⟨key, -, -, rfl⟩
  · exact (unmarked rfl).elim
  · exact (inv.marked ok stepped marked).staysOut
  · cases stepped
    exact (unmarked rfl).elim
  · exact (unmarked rfl).elim

/-- A voucher is issued under the old key. -/
def issueUnderOldKey : List Action :=
  .request "w" :: [.gate false, .findExisting, .readRevealed, .create "A", .bind, .sum, .ceiling true,
    .build (some 1150), .stamp false, .handOut].map (.route 0)

/-- The admin is rotated, the backend starts with the new key, and a tick goes as far as the height. -/
def rotateAndSweep : List RotationAction :=
  [.setAdmin "new", .restart "new"] ++ [.readPending, .callSweep, .sweepReturns ⟨[], true⟩, .readUsed,
    .readHeight 1301].map fun act => .payout (.tick act)

/-- The voucher lands under the old key, and the history of the new one does not have it. -/
theorem rotated_expiry : ¬ ∀ s a s' k, rotationMachine.Reachable s → rotationStep s a = some s' →
    marksExpired s s' k = true → StaysOut k s' := by
  intro all
  obtain ⟨s, hs, hp⟩ := Machine.exists_reachable_of_run (M := rotationMachine) initial_oneTicket
    ((issueUnderOldKey ++ [Action.land issued "sig1" 7 none, .blocks 301]).map .payout ++ rotateAndSweep)
    (fun s => (rotationStep s (.payout (.tick (.resolveNext false)))).any fun s' =>
      marksExpired s s' "A" && s'.landed.any fun l => l.voucher.claimId == "A")
    (by decide +kernel)
  obtain ⟨s', hs', hp⟩ := (Option.any_eq_true ..).1 hp
  simp only [Bool.and_eq_true, List.any_eq_true, beq_iff_eq] at hp
  obtain ⟨marked, l, hl, hk⟩ := hp
  exact all s _ s' "A" hs hs' marked [] s' rfl l hl hk

/-- A voucher that nobody submits is expired under the new key. -/
theorem no_rotated_expiry_unused : ∃ s s', marksExpired s s' "A" = true ∧ StaysOut "A" s' := by
  obtain ⟨s, hs, hp⟩ := Machine.exists_reachableBy_of_runBy (M := rotationMachine) rotationSafe
    initial_oneTicket ((issueUnderOldKey ++ [Action.blocks 301]).map .payout ++ rotateAndSweep)
    (fun s => rotationSafe s (.payout (.tick (.resolveNext false))) &&
      (rotationStep s (.payout (.tick (.resolveNext false)))).any (marksExpired s · "A"))
    (by decide +kernel)
  simp only [Bool.and_eq_true, Option.any_eq_true] at hp
  obtain ⟨ok, s', hs', marked⟩ := hp
  exact ⟨s, s', marked, no_rotated_expiry hs ok hs' marked⟩

end LordsPot.Payout
