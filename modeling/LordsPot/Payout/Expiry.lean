import LordsPot.Payout.Attribution

/-!
# False expiry

An expired claim gives its tickets back, so a voucher that landed or can still land must
not be marked `EXPIRED`. The block height is read after the sweep, and the pending claims
before it: the sweep proves nothing about a voucher that could still land when it was
called, and the unsigned grace nothing about a claim stamped since it was read.
`expirySafe` says when a step of the route or of the tick keeps clear of both.
-/

namespace LordsPot.Payout

open Transition

/-- The step marks claim `k`, which has a block height, `EXPIRED`. -/
def marksExpired (s s' : State) (k : Uuid) : Bool :=
  match s.db.claim? k with
  | some c => c.status != .EXPIRED && c.lastValidBlockHeight.isSome &&
      status? s'.db k == some .EXPIRED
  | none => false

/-- No voucher of the claim has landed, nor does one land in any continuation. -/
def NeverLands (k : Uuid) (s : State) : Prop :=
  ∀ as s', machine.run s as = some s' → ∀ l ∈ s'.landed, l.voucher.claimId ≠ k

/-- An expiry is safe when the voucher was behind the chain at the sweep's call, and a
grace release when the claim is still unstamped; a stamp, when it makes no twin. -/
def expirySafe (s : State) : Action → Bool
  | .tick (.resolveNext false) => match s.tick with
    | some (.resolving (c :: _) calledAt landed used height) =>
      match verdict landed used height s.now c with
      | .expired => decide (∀ l ∈ c.lastValidBlockHeight, l < calledAt)
      | .neverSigned => decide (∀ i ∈ issue? s.db c.id, i.lastValidBlockHeight = none)
      | _ => true
    | _ => true
  | a => twinSafe s a

theorem twinSafe_of_expirySafe {s : State} {a : Action} (h : expirySafe s a = true) :
    twinSafe s a = true := by
  unfold expirySafe at h
  split at h
  · rfl
  · exact h

/-! ## Who can mark a claim expired -/

theorem marksExpired_iff {s s' : State} {k : Uuid} : marksExpired s s' k = true ↔
    ∃ c, s.db.claim? k = some c ∧ c.status ≠ .EXPIRED ∧ c.lastValidBlockHeight ≠ none ∧
      status? s'.db k = some .EXPIRED := by
  unfold marksExpired
  cases s.db.claim? k <;> simp [and_assoc, Option.isSome_iff_ne_none]

/-- A stamped row is the confirmer's: every other step leaves it as it is. -/
theorem stamped_step {s s' : State} {a : Action} (b : Book s) (hs : step s a = some s') {k : Uuid}
    {c : PayoutClaim} (hc : s.db.claim? k = some c) (hl : c.lastValidBlockHeight ≠ none) :
    s'.db.claim? k = some c ∨
      ∃ c₀ cs calledAt landed used height, a = .tick (.resolveNext false) ∧
        s.tick = some (.resolving (c₀ :: cs) calledAt landed used height) ∧ c₀.id = k ∧
        ∃ c', s'.db.claim? k = some c' ∧ issue c' = issue c ∧
          Resolved (verdict landed used height s.now c₀) c c' := by
  cases a with
  | route i act =>
    obtain ⟨r, db, r', handed, hr, hstep, rfl⟩ := step_route hs
    exact .inl ((routeStep_spec hstep).stamped (fun k hk => b.requestRow i r k hr hk) k c hc hl)
  | tick act =>
    obtain ⟨db, tick, rfl, rfl | ⟨c₀, cs, calledAt, landed, used, height, ht, rfl, rfl⟩⟩ :=
      tickStep_frame hs
    · exact .inl hc
    · rcases rowRule_resolve s.db c₀.id s.now (verdict landed used height s.now c₀) k with
        same | ⟨hk, row, row', hr, hr', hi, res⟩
      · exact .inl (same.trans hc)
      · rw [hc] at hr
        cases hr
        exact .inr ⟨c₀, cs, calledAt, landed, used, height, rfl, ht, hk.symm, row', hr', hi, res⟩
  | land v sig slot bt =>
    obtain ⟨-, -, -, -, -, p, rfl⟩ := step_land hs
    exact .inl hc
  | epoch r =>
    cases hs
    refine .inl ?_
    rwa [Db.claim?, upsertSettledEpoch_payoutClaims]
  | request w => cases hs; exact .inl hc
  | clock ms => cases hs; exact .inl hc
  | blocks n => cases hs; exact .inl hc
  | program p => cases hs; exact .inl hc
  | harvest batchId txHash => cases hs; exact .inl hc

/-- What a stamped claim was issued for never changes. -/
theorem issue?_step {s s' : State} {a : Action} (b : Book s) (hs : step s a = some s') {k : Uuid}
    {i : Issue} (hi : issue? s.db k = some i) (hl : i.lastValidBlockHeight ≠ none) :
    issue? s'.db k = some i := by
  obtain ⟨c, hc, rfl⟩ := issue?_eq_some.1 hi
  rcases stamped_step b hs hc hl with same | ⟨-, -, -, -, -, -, -, -, -, c', hc', he, -⟩
  · rw [issue?, same]
    rfl
  · rw [issue?, hc', Option.map_some, he]

theorem height_step {s s' : State} {a : Action} (hs : step s a = some s') : s.height ≤ s'.height := by
  cases a with
  | route i act =>
    obtain ⟨r, db, r', handed, -, -, rfl⟩ := step_route hs
    exact le_rfl
  | tick act =>
    obtain ⟨db, tick, rfl, -⟩ := tickStep_frame hs
    exact le_rfl
  | land v sig slot bt =>
    obtain ⟨-, -, -, -, -, p, rfl⟩ := step_land hs
    exact le_rfl
  | blocks n => cases hs; exact Nat.le_add_right ..
  | request w => cases hs; exact le_rfl
  | clock ms => cases hs; exact le_rfl
  | program p => cases hs; exact le_rfl
  | harvest batchId txHash => cases hs; exact le_rfl
  | epoch r => cases hs; exact le_rfl

/-! ## A claim behind the chain that has not landed never lands -/

/-- The claim's voucher is behind the chain and has not landed. -/
structure Dead (k : Uuid) (s : State) : Prop where
  book : Book s
  row : ∃ i l, issue? s.db k = some i ∧ i.lastValidBlockHeight = some l ∧ l < s.height
  notLanded : ∀ l ∈ s.landed, l.voucher.claimId ≠ k

theorem landed_step {s s' : State} {a : Action} (hs : step s a = some s') {l : Landing}
    (hl : l ∈ s'.landed) : l ∈ s.landed ∨
      l.voucher ∈ s.vouchers ∧ s.height ≤ l.voucher.lastValidBlockHeight := by
  cases a with
  | route i act =>
    obtain ⟨r, db, r', handed, -, -, rfl⟩ := step_route hs
    exact .inl hl
  | tick act =>
    obtain ⟨db, tick, rfl, -⟩ := tickStep_frame hs
    exact .inl hl
  | land v sig slot bt =>
    obtain ⟨hv, -, height, -, -, p, rfl⟩ := step_land hs
    rcases List.mem_cons.1 hl with rfl | hl
    · exact .inr ⟨hv, height⟩
    · exact .inl hl
  | request w => cases hs; exact .inl hl
  | clock ms => cases hs; exact .inl hl
  | blocks n => cases hs; exact .inl hl
  | program p => cases hs; exact .inl hl
  | harvest batchId txHash => cases hs; exact .inl hl
  | epoch r => cases hs; exact .inl hl

theorem Dead.step {k : Uuid} {s s' : State} {a : Action} (d : Dead k s) (hs : step s a = some s') :
    Dead k s' := by
  obtain ⟨i, h, hi, hl, hh⟩ := d.row
  refine ⟨d.book.step hs, ⟨i, h, ?_, hl, hh.trans_le (height_step hs)⟩, fun l hl' hk => ?_⟩
  · exact issue?_step d.book hs hi (by rw [hl]; exact Option.some_ne_none _)
  · rcases landed_step hs hl' with old | ⟨hv, height⟩
    · exact d.notLanded l old hk
    · obtain ⟨j, hj, ha⟩ := d.book.voucherRow _ hv
      rw [hk, hi] at hj
      cases hj
      have : h = l.voucher.lastValidBlockHeight := Option.some.inj (hl.symm.trans ha.2.1)
      omega

theorem Dead.neverLands {k : Uuid} {s : State} (d : Dead k s) : NeverLands k s := fun _ _ hr =>
  (Machine.run_invariant (I := Dead k) (fun _ _ _ d hs => d.step hs) d hr).notLanded

/-! ## The expiry -/

theorem verdict_expired {r : LandedClaims} {used : List Signature} {height now : Nat}
    {c : PayoutClaim} (h : verdict r used height now c = .expired) :
    findHit r used c = none ∧ r.complete = true ∧
      ∃ l, c.lastValidBlockHeight = some l ∧ l + EXPIRY_BUFFER_BLOCKS < height := by
  unfold verdict at h
  split at h
  · cases h
  · rename_i hit
    split at h
    · split at h <;> cases h
    · rename_i l hl
      split at h
      · rename_i hc
        simp only [Bool.and_eq_true, decide_eq_true_eq] at hc
        exact ⟨hit, hc.1, l, hl, hc.2⟩
      · cases h

/-- A claim whose landings would all be in the answer has not landed: each would fit the claim and
not be spoken for. -/
theorem dead_of_reported {s : State} (b : Book s) {c : PayoutClaim} {cs : List PayoutClaim}
    {height : Nat} {r : LandedClaims} {used : List Signature} (snap : Snapshots s.db (c :: cs))
    (spent : Spent s.db s.landed (c :: cs) used) (notAhead : height ≤ s.height)
    (hv : verdict r used height s.now c = .expired)
    (reported : ∀ L ∈ s.landed, L.voucher.claimId = c.id →
      c.lastValidBlockHeight = some L.voucher.lastValidBlockHeight → L.claim ∈ r.claims) : Dead c.id s := by
  obtain ⟨hit, -, l, hl, hheight⟩ := verdict_expired hv
  have stamped : c.lastValidBlockHeight ≠ none := by rw [hl]; exact Option.some_ne_none _
  have mem : c ∈ c :: cs := List.mem_cons_self
  obtain ⟨row, hr, -, hi⟩ := snap.row c mem stamped
  have hrow : issue? s.db c.id = some (issue c) := by rw [issue?, hr, Option.map_some, hi]
  have notLanded : ∀ L ∈ s.landed, L.voucher.claimId ≠ c.id := by
    intro L hL hk
    obtain ⟨i, hi', ha⟩ := b.voucherRow _ (b.landedHanded L hL)
    rw [hk, hrow] at hi'
    cases hi'
    have reported := reported L hL hk ha.2.1
    have after : isAfterIssuance c L.blockTime = true := by
      unfold isAfterIssuance
      split
      · rfl
      · rename_i bt hbt
        exact decide_eq_true (snap.landedAfter b mem stamped hL hk bt hbt)
    have used := used_of_findHit_eq_none hit reported ha.1.symm after ha.2.2.symm
    exact spent.apart _ used L hL rfl c mem stamped hk.symm
  exact ⟨b, ⟨issue c, l, hrow, hl, by rw [EXPIRY_BUFFER_BLOCKS] at hheight; omega⟩, notLanded⟩

/-- A safe expiry: every landing of the claim would be in the sweep. -/
theorem dead_of_expired {s s' : State} (b : Book s) (h : Attribution s) {c : PayoutClaim}
    {cs : List PayoutClaim} {calledAt height : Nat} {r : LandedClaims} {used : List Signature}
    (hs : step s (.tick (.resolveNext false)) = some s')
    (ht : s.tick = some (.resolving (c :: cs) calledAt r used height))
    (hv : verdict r used height s.now c = .expired)
    (behind : ∀ l ∈ c.lastValidBlockHeight, l < calledAt) : Dead c.id s' := by
  obtain ⟨-, complete, l, hl, -⟩ := verdict_expired hv
  obtain ⟨⟨snap, evidence, spent⟩, notAhead⟩ := h.tick _ ht
  have stamped : c.lastValidBlockHeight ≠ none := by rw [hl]; exact Option.some_ne_none _
  refine (dead_of_reported b snap spent notAhead hv fun L hL hk same => ?_).step hs
  exact evidence.past complete c List.mem_cons_self stamped L hL hk (behind _ same)

theorem Attribution.of_reachable {ok : State → Action → Prop} (safe : ∀ s a, ok s a → twinSafe s a = true)
    {s : State} (h : machine.ReachableBy ok s) : Attribution s := by
  have both : Book s ∧ Attribution s := by
    refine h.invariant (I := fun s => Book s ∧ Attribution s) ?_ ?_
    · exact fun s hi => ⟨Book.initial hi, Attribution.initial hi⟩
    · exact fun s a s' hi hok hs => ⟨hi.1.step hs, hi.2.step hi.1 (safe s a hok) hs⟩
  exact both.2

/-- A claim that a safe step marks expired was resolved so, by a tick that called its sweep when the
voucher was behind the chain. -/
theorem resolved_of_marksExpired {s s' : State} {a : Action} {k : Uuid} (b : Book s)
    (ok : expirySafe s a = true) (hs : step s a = some s') (marked : marksExpired s s' k = true) :
    ∃ c cs calledAt r used height, a = .tick (.resolveNext false) ∧
      s.tick = some (.resolving (c :: cs) calledAt r used height) ∧ c.id = k ∧
      verdict r used height s.now c = .expired ∧ ∀ l ∈ c.lastValidBlockHeight, l < calledAt := by
  obtain ⟨c, hc, hst, hl, hst'⟩ := marksExpired_iff.1 marked
  rcases stamped_step b hs hc hl with
    same | ⟨c₀, cs, calledAt, landed, used, height, rfl, ht, rfl, c', hc', -, res⟩
  · rw [status?, same] at hst'
    exact absurd (Option.some.inj hst') hst
  have status : c'.status = .EXPIRED := by
    rw [status?, hc'] at hst'
    exact Option.some.inj hst'
  simp only [expirySafe, ht] at ok
  rcases res with ⟨-, -, -, h, -⟩ | ⟨-, -, -, h, -⟩ | ⟨hv | hv, -, -⟩
  · cases status.symm.trans h
  · cases status.symm.trans h
  · -- a grace release finds the row without a height
    rw [hv] at ok
    have unstamped := of_decide_eq_true ok (issue c) (by rw [issue?, hc]; rfl)
    exact absurd unstamped hl
  · rw [hv] at ok
    exact ⟨c₀, cs, calledAt, landed, used, height, rfl, ht, rfl, hv, of_decide_eq_true ok⟩

/-- **No false expiry** in a run whose steps are safe: a claim that is marked expired has
not landed and never will, whatever happens afterwards. -/
theorem no_false_expiry {s s' : State} {a : Action} {k : Uuid}
    (h : machine.ReachableBy (fun s a => expirySafe s a = true) s) (ok : expirySafe s a = true)
    (hs : step s a = some s') (marked : marksExpired s s' k = true) : NeverLands k s' := by
  have b := Book.of_reachable h
  have att := Attribution.of_reachable (fun _ _ => twinSafe_of_expirySafe) h
  obtain ⟨c, cs, calledAt, r, used, height, rfl, ht, rfl, hv, behind⟩ :=
    resolved_of_marksExpired b ok hs marked
  exact (dead_of_expired b att hs ht hv behind).neverLands

/-- A voucher is issued, and a tick begins while it is still valid. -/
def issueThenSweep : List Action :=
  .request "w" ::
    [.gate false, .findExisting, .readRevealed, .create "A", .bind, .sum, .ceiling true,
      .build (some 1150), .stamp false, .handOut].map (.route 0) ++
    [.tick .readPending, .tick .callSweep, .tick (.sweepReturns ⟨[], true⟩)]

def issued : Voucher := ⟨"A", "w", "admin", 100, 1150, ["t"]⟩

/-- The sweep returns, the voucher lands, the chain moves on, and only then is the height
read: the claim is marked expired although its voucher has landed. -/
theorem false_expiry : ¬ ∀ s a s' k, machine.Reachable s → step s a = some s' →
    marksExpired s s' k = true → NeverLands k s' := by
  intro all
  obtain ⟨s, hs, hp⟩ := Machine.exists_reachable_of_run (M := machine) initial_oneTicket
    (issueThenSweep ++ [.land issued "sig1" 7 none, .blocks 301, .tick .readUsed,
      .tick (.readHeight 1301)])
    (fun s => (step s (.tick (.resolveNext false))).any fun s' =>
      marksExpired s s' "A" && s'.landed.any (·.voucher.claimId == "A"))
    (by decide)
  obtain ⟨s', hs', hp⟩ := (Option.any_eq_true ..).1 hp
  simp only [Bool.and_eq_true, List.any_eq_true, beq_iff_eq] at hp
  obtain ⟨marked, l, hl, hk⟩ := hp
  exact all s _ s' "A" hs hs' marked [] s' rfl l hl hk

/-- A safe expiry: the sweep is called when the voucher is already behind the chain. -/
theorem no_false_expiry_unused : ∃ s s', marksExpired s s' "A" = true ∧ NeverLands "A" s' := by
  obtain ⟨s, hs, hp⟩ := Machine.exists_reachableBy_of_runBy (M := machine) expirySafe
    initial_oneTicket
    (issueThenSweep ++ [.tick .crash, .blocks 301, .tick .readPending, .tick .callSweep,
      .tick (.sweepReturns ⟨[], true⟩), .tick .readUsed, .tick (.readHeight 1301)])
    (fun s => expirySafe s (.tick (.resolveNext false)) &&
      (step s (.tick (.resolveNext false))).any (marksExpired s · "A"))
    (by decide)
  simp only [Bool.and_eq_true, Option.any_eq_true] at hp
  obtain ⟨ok, s', hs', marked⟩ := hp
  exact ⟨s, s', marked, no_false_expiry hs ok hs' marked⟩

end LordsPot.Payout
