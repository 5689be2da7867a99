import LordsPot.Payout.Book

/-!
# Which landing belongs to which claim

The confirmer matches landings to claims by wallet and amount. While no two live claims
of a wallet ask for the same amount, the match is exact: the signature that resolves a
claim is never the signature of another claim that is still pending. A tick works from
answers taken at different moments, and `TickOk` says what each of them is still worth
while the rest of the system goes on.
-/

namespace LordsPot.Payout

open Transition

/-! ## Live claims of one amount -/

/-- Another live claim of the voucher's wallet asks for the voucher's amount. -/
def twinLive (db : Db) (v : Voucher) : Bool :=
  db.payoutClaims.any fun c =>
    live c && c.wallet == v.wallet && c.amountUsdc == v.amount && c.id != v.claimId

/-- No two live claims of a wallet ask for the same amount. -/
def Apart (db : Db) : Prop :=
  ∀ j k cj ck, db.claim? j = some cj → db.claim? k = some ck → live cj = true → live ck = true →
    cj.wallet = ck.wallet → cj.amountUsdc = ck.amountUsdc → j = k

theorem live_iff {c : PayoutClaim} :
    live c = true ↔ c.status = .PENDING ∧ c.lastValidBlockHeight ≠ none := by
  simp [live, Option.isSome_iff_ne_none]

theorem issue?_eq_some {db : Db} {k : Uuid} {i : Issue} :
    issue? db k = some i ↔ ∃ c, db.claim? k = some c ∧ issue c = i :=
  Option.map_eq_some_iff

theorem status?_eq_some {db : Db} {k : Uuid} {st : PayoutStatus} :
    status? db k = some st ↔ ∃ c, db.claim? k = some c ∧ c.status = st :=
  Option.map_eq_some_iff

/-- No twin means apart from every live claim. -/
theorem not_twinLive {db : Db} {v : Voucher} (h : twinLive db v = false) {k : Uuid}
    {c : PayoutClaim} (hc : db.claim? k = some c) (hl : live c = true) (hw : c.wallet = v.wallet)
    (ha : c.amountUsdc = v.amount) : k = v.claimId := by
  by_contra hne
  have hk : c.id = k := Table.key_of_findUnique hc
  have : twinLive db v = true := by
    refine List.any_eq_true.2 ⟨c, Table.mem_of_findUnique hc, ?_⟩
    simp [hl, hw, ha, hk, hne]
  rw [h] at this
  cases this

/-! ## What a tick's answers are worth -/

section Tick

variable (db : Db) (landed : List Landing) (height : Nat)

/-- The claims a tick has still to resolve: a stamped one is still pending, as it was read. -/
structure Snapshots (pending : List PayoutClaim) : Prop where
  distinct : (pending.map (·.id)).Nodup
  row : ∀ c ∈ pending, c.lastValidBlockHeight ≠ none →
    ∃ row, db.claim? c.id = some row ∧ row.status = .PENDING ∧ issue row = issue c
  unstamped : ∀ c ∈ pending, c.lastValidBlockHeight = none → c.amountUsdc = 0

/-- The sweep was called when every voucher already behind the chain had landed or never will. -/
structure Called (pending : List PayoutClaim) (notBefore calledAt : Nat)
    (before : List Landing) : Prop where
  notAhead : calledAt ≤ height
  past : ∀ l ∈ landed, l.voucher.lastValidBlockHeight < calledAt → l ∈ before
  bound : ∀ c ∈ pending, notBefore ≤ notBeforeUnixTime c

/-- The sweep's answer: real landings only, and, if complete, all of the past ones. -/
structure Evidence (pending : List PayoutClaim) (calledAt : Nat) (r : LandedClaims) : Prop where
  notAhead : calledAt ≤ height
  real : ∀ e ∈ r.claims, ∃ l ∈ landed, l.claim = e
  past : r.complete = true → ∀ c ∈ pending, c.lastValidBlockHeight ≠ none → ∀ l ∈ landed,
    l.voucher.claimId = c.id → l.voucher.lastValidBlockHeight < calledAt → l.claim ∈ r.claims

/-- The signatures spoken for: those of the rows, and of no claim still to be resolved. -/
structure Spent (pending : List PayoutClaim) (used : List Signature) : Prop where
  real : ∀ sig ∈ used, ∃ l ∈ landed, l.signature = sig
  rows : ∀ k c sig, db.claim? k = some c → c.txSignature = some sig → sig ∈ used
  apart : ∀ sig ∈ used, ∀ l ∈ landed, l.signature = sig → ∀ c ∈ pending,
    c.lastValidBlockHeight ≠ none → c.id ≠ l.voucher.claimId

def TickOk (s : State) : Tick → Prop
  | .pendingRead pending =>
      Snapshots s.db pending ∧ pending.Pairwise fun a b => a.createdAt ≤ b.createdAt
  | .sweeping pending notBefore calledAt before =>
      Snapshots s.db pending ∧ Called s.landed s.height pending notBefore calledAt before
  | .swept pending calledAt r =>
      Snapshots s.db pending ∧ Evidence s.landed s.height pending calledAt r
  | .usedRead pending calledAt r used =>
      Snapshots s.db pending ∧ Evidence s.landed s.height pending calledAt r ∧
        Spent s.db s.landed pending used
  | .resolving pending calledAt r used height =>
      (Snapshots s.db pending ∧ Evidence s.landed s.height pending calledAt r ∧
        Spent s.db s.landed pending used) ∧ height ≤ s.height

end Tick

structure Attribution (s : State) : Prop where
  apart : Apart s.db
  /-- A signature on a row is that of a landing whose own claim is resolved. -/
  resolved : ∀ k c sig, s.db.claim? k = some c → c.txSignature = some sig →
    ∃ l ∈ s.landed, l.signature = sig ∧ status? s.db l.voucher.claimId ≠ some .PENDING
  tick : ∀ t, s.tick = some t → TickOk s t

/-! ## What the rest of the system does meanwhile -/

/-- What everyone but the confirmer can do: stamped rows stand, no row gains a signature,
and a landing is new and not yet behind the chain. -/
structure Meanwhile (s s' : State) : Prop where
  tick : s'.tick = s.tick
  height : s.height ≤ s'.height
  stamped : ∀ k c, s.db.claim? k = some c → c.lastValidBlockHeight ≠ none →
    s'.db.claim? k = some c
  signatures : ∀ k c' sig, s'.db.claim? k = some c' → c'.txSignature = some sig →
    ∃ c, s.db.claim? k = some c ∧ c.txSignature = some sig
  landed : s'.landed = s.landed ∨ ∃ l, s'.landed = l :: s.landed ∧
    (∀ l₀ ∈ s.landed, l₀.signature ≠ l.signature) ∧ s.height ≤ l.voucher.lastValidBlockHeight

section Meanwhile

variable {s s' : State} (m : Meanwhile s s')

include m

theorem Meanwhile.mem {l : Landing} (hl : l ∈ s.landed) : l ∈ s'.landed := by
  rcases m.landed with h | ⟨l', h, -⟩
  · rwa [h]
  · rw [h]
    exact List.mem_cons_of_mem _ hl

/-- A landing of an old signature is an old landing. -/
theorem Meanwhile.old {l : Landing} (hl : l ∈ s'.landed) {sig : Signature}
    (hs : l.signature = sig) (old : ∃ l₀ ∈ s.landed, l₀.signature = sig) : l ∈ s.landed := by
  rcases m.landed with h | ⟨l', h, fresh, -⟩
  · rwa [h] at hl
  · rw [h] at hl
    rcases List.mem_cons.1 hl with rfl | hl
    · obtain ⟨l₀, hl₀, he⟩ := old
      exact absurd (he.trans hs.symm) (fresh l₀ hl₀)
    · exact hl

/-- A landing whose voucher was behind the chain before is an old landing. -/
theorem Meanwhile.past {l : Landing} (hl : l ∈ s'.landed) {h : Nat} (hh : h ≤ s.height)
    (hp : l.voucher.lastValidBlockHeight < h) : l ∈ s.landed := by
  rcases m.landed with e | ⟨l', e, -, hv⟩
  · rwa [e] at hl
  · rw [e] at hl
    rcases List.mem_cons.1 hl with rfl | hl
    · omega
    · exact hl

theorem Snapshots.meanwhile {pending : List PayoutClaim} (h : Snapshots s.db pending) :
    Snapshots s'.db pending where
  distinct := h.distinct
  unstamped := h.unstamped
  row c hc hl := by
    obtain ⟨row, hr, hp, hi⟩ := h.row c hc hl
    have hs : row.lastValidBlockHeight ≠ none := by
      rw [show row.lastValidBlockHeight = c.lastValidBlockHeight from
        congrArg Issue.lastValidBlockHeight hi]
      exact hl
    exact ⟨row, m.stamped _ row hr hs, hp, hi⟩

theorem Evidence.meanwhile {pending : List PayoutClaim} {calledAt : Nat} {r : LandedClaims}
    (h : Evidence s.landed s.height pending calledAt r) : Evidence s'.landed s'.height pending calledAt r where
  notAhead := h.notAhead.trans m.height
  real e he :=
    let ⟨l, hl, hc⟩ := h.real e he
    ⟨l, m.mem hl, hc⟩
  past hcomplete c hc hs l hl hk hp := h.past hcomplete c hc hs l (m.past hl h.notAhead hp) hk hp

theorem Spent.meanwhile {pending : List PayoutClaim} {used : List Signature}
    (h : Spent s.db s.landed pending used) : Spent s'.db s'.landed pending used where
  real sig hs :=
    let ⟨l, hl, he⟩ := h.real sig hs
    ⟨l, m.mem hl, he⟩
  rows k c sig hc hs :=
    let ⟨c₀, hc₀, hs₀⟩ := m.signatures k c sig hc hs
    h.rows k c₀ sig hc₀ hs₀
  apart sig hs l hl he := h.apart sig hs l (m.old hl he (h.real sig hs)) he

theorem TickOk.meanwhile {t : Tick} (h : TickOk s t) : TickOk s' t := by
  cases t with
  | pendingRead pending => exact ⟨h.1.meanwhile m, h.2⟩
  | sweeping pending notBefore calledAt before =>
    exact ⟨h.1.meanwhile m, h.2.notAhead.trans m.height,
      fun l hl hp => h.2.past l (m.past hl h.2.notAhead hp) hp, h.2.bound⟩
  | swept pending calledAt r => exact ⟨h.1.meanwhile m, h.2.meanwhile m⟩
  | usedRead pending calledAt r used =>
    exact ⟨h.1.meanwhile m, h.2.1.meanwhile m, h.2.2.meanwhile m⟩
  | resolving pending calledAt r used height =>
    exact ⟨⟨h.1.1.meanwhile m, h.1.2.1.meanwhile m, h.1.2.2.meanwhile m⟩, h.2.trans m.height⟩

/-- Others keep the attribution as long as the live claims stay apart. -/
theorem Attribution.meanwhile (b : Book s) (h : Attribution s) (apart : Apart s'.db) :
    Attribution s' where
  apart := apart
  resolved k c sig hc hs := by
    obtain ⟨c₀, hc₀, hs₀⟩ := m.signatures k c sig hc hs
    obtain ⟨l, hl, he, hp⟩ := h.resolved k c₀ sig hc₀ hs₀
    obtain ⟨i, hi, ha⟩ := b.voucherRow _ (b.landedHanded l hl)
    obtain ⟨row, hr, rfl⟩ := issue?_eq_some.1 hi
    have stamped : row.lastValidBlockHeight ≠ none := by
      rw [show row.lastValidBlockHeight = _ from ha.2.1]
      exact Option.some_ne_none _
    refine ⟨l, m.mem hl, he, ?_⟩
    rw [status?, m.stamped _ row hr stamped, ← hr]
    exact hp
  tick t ht := (h.tick t (m.tick ▸ ht)).meanwhile m

end Meanwhile

/-- A handler's step is none of the confirmer's business. -/
theorem meanwhile_route {s : State} (b : Book s) {i : Nat} {r r' : Request} {act : RouteAct} {db : Db}
    {handed : Option Voucher} (hr : s.requests[i]? = some r)
    (spec : RouteSpec s.now s.db r act db r' handed) :
    Meanwhile s { s with db := db, requests := s.requests.set i r',
                         vouchers := s.vouchers ++ handed.toList } where
  tick := rfl
  height := le_rfl
  stamped := spec.stamped fun k hk => b.requestRow i r k hr hk
  signatures k c' sig hc hs := by
    rcases spec.resolution k c' hc with ⟨c, hc₀, -, he⟩ | ⟨-, -, hn⟩
    · exact ⟨c, hc₀, he ▸ hs⟩
    · rw [hn] at hs
      cases hs
  landed := .inl rfl

/-- The steps that change neither a claim nor a landing. -/
theorem meanwhile_frame {s s' : State} (tick : s'.tick = s.tick) (height : s.height ≤ s'.height)
    (claims : s'.db.payoutClaims = s.db.payoutClaims) (landed : s'.landed = s.landed) :
    Meanwhile s s' := by
  have lookup : ∀ k, s'.db.claim? k = s.db.claim? k := fun k => by rw [Db.claim?, Db.claim?, claims]
  refine ⟨tick, height, fun k c hc _ => (lookup k).trans hc, fun k c sig hc hs => ?_, .inl landed⟩
  rw [lookup] at hc
  exact ⟨c, hc, hs⟩

theorem apart_frame {db db' : Db} (claims : db'.payoutClaims = db.payoutClaims) (h : Apart db) :
    Apart db' := by
  have lookup : ∀ k, db'.claim? k = db.claim? k := fun k => by rw [Db.claim?, Db.claim?, claims]
  intro j k cj ck hj hk
  rw [lookup] at hj hk
  exact h j k cj ck hj hk

/-- A handler's step keeps live claims apart unless it stamps a twin. -/
theorem apart_route {now : Nat} {db db' : Db} {r r' : Request} {act : RouteAct}
    {handed : Option Voucher} (spec : RouteSpec now db r act db' r' handed)
    (rows : ∀ k, r.claimId? = some k → ∃ i, issue? db k = some i ∧ r.Agrees i) (h : Apart db)
    (alone : ∀ v, r = .built v → act = .stamp false →
      status? db v.claimId = some .PENDING → twinLive db v = false) : Apart db' := by
  -- a live row was live before, or is the row of the voucher just stamped
  have before : ∀ k c', db'.claim? k = some c' → live c' = true →
      db.claim? k = some c' ∨ ∃ v, r = .built v ∧ act = .stamp false ∧ v.claimId = k ∧
        c'.wallet = v.wallet ∧ c'.amountUsdc = v.amount ∧ status? db v.claimId = some .PENDING := by
    intro k c' hc hl
    obtain ⟨hp, hs⟩ := live_iff.1 hl
    have hi : issue? db' k = some (issue c') := by rw [issue?, hc]; rfl
    rcases spec.issued k _ hi with old | ⟨-, w, he⟩ | ⟨v, j, hr, hact, hk, hj, he⟩
    · obtain ⟨c, hc₀, he⟩ := issue?_eq_some.1 old
      refine .inl ?_
      have : c.lastValidBlockHeight ≠ none := by
        rw [show c.lastValidBlockHeight = c'.lastValidBlockHeight from
          congrArg Issue.lastValidBlockHeight he]
        exact hs
      rw [← hc, spec.stamped rows k c hc₀ this, hc₀]
    · exact absurd (congrArg Issue.lastValidBlockHeight he) hs
    · refine .inr ⟨v, hr, hact, hk, ?_, congrArg Issue.amount he, ?_⟩
      · subst hr hk
        obtain ⟨i, hi₀, ha⟩ := rows v.claimId rfl
        rw [hj] at hi₀
        cases hi₀
        exact (congrArg Issue.wallet he).trans ha.1
      · subst hk
        rcases spec.resolution _ c' hc with ⟨c, hc₀, hst, -⟩ | ⟨hn, -, -⟩
        · rw [status?, hc₀, Option.map_some, ← hst, hp]
        · rw [issue?, hn] at hj
          cases hj
  intro j k cj ck hj hk hlj hlk hw ha
  rcases before j cj hj hlj with hj | ⟨v, hr, hact, rfl, hvw, hva, hst⟩
  · rcases before k ck hk hlk with hk | ⟨v, hr, hact, rfl, hvw, hva, hst⟩
    · exact h j k cj ck hj hk hlj hlk hw ha
    · exact not_twinLive (alone v hr hact hst) hj hlj (hw.trans hvw) (ha.trans hva)
  · rcases before k ck hk hlk with hk | ⟨u, hr', -, rfl, -⟩
    · exact (not_twinLive (alone v hr hact hst) hk hlk (hw.symm.trans hvw) (ha.symm.trans hva)).symm
    · rw [hr] at hr'
      cases hr'
      rfl

/-! ## What the confirmer does -/

theorem findHit_eq_some {r : LandedClaims} {used : List Signature} {c : PayoutClaim}
    {hit : LandedClaim} (h : findHit r used c = some hit) :
    hit ∈ r.claims ∧ hit.wallet = c.wallet ∧ hit.signature ∉ used ∧ hit.amount = c.amountUsdc := by
  have mem := List.mem_of_find?_eq_some h
  have test := List.find?_some h
  rw [byWallet, List.mem_insertionSort, List.mem_filter] at mem
  simp only [Bool.and_eq_true, Bool.not_eq_true', List.contains_eq_mem, decide_eq_false_iff_not,
    beq_iff_eq] at test mem
  exact ⟨mem.1, mem.2, test.1, test.2.2⟩

/-- Without a hit, every landing that fits the claim is spoken for. -/
theorem used_of_findHit_eq_none {r : LandedClaims} {used : List Signature} {c : PayoutClaim}
    (h : findHit r used c = none) {e : LandedClaim} (he : e ∈ r.claims) (hw : e.wallet = c.wallet)
    (ht : isAfterIssuance c e.blockTime = true) (ha : e.amount = c.amountUsdc) :
    e.signature ∈ used := by
  have mem : e ∈ byWallet r c.wallet := by
    rw [byWallet, List.mem_insertionSort, List.mem_filter]
    exact ⟨he, by simpa using hw⟩
  by_contra fresh
  exact List.find?_eq_none.1 h e mem (by simp [fresh, ht, ha])

/-- What resolving does to the claim's row. -/
inductive Resolved (v : Verdict) (row row' : PayoutClaim) : Prop where
  | confirmed (hit : LandedClaim) : v = .landed hit → hit.failed = false →
      row'.status = .CONFIRMED → row'.txSignature = some hit.signature → Resolved v row row'
  | failed (hit : LandedClaim) : v = .landed hit → hit.failed = true → row'.status = .FAILED →
      row'.txSignature = row.txSignature → Resolved v row row'
  | expired : v = .neverSigned ∨ v = .expired → row'.status = .EXPIRED →
      row'.txSignature = row.txSignature → Resolved v row row'

theorem Resolved.not_pending {v : Verdict} {row row' : PayoutClaim} (h : Resolved v row row') :
    row'.status ≠ .PENDING := by
  rcases h with ⟨hit, -, -, h, -⟩ | ⟨hit, -, -, h, -⟩ | ⟨-, h, -⟩ <;> rw [h] <;> decide

/-- How the rows of a database compare after the resolution of claim `j`. -/
def RowRule (j : Uuid) (v : Verdict) (db db' : Db) : Prop :=
  ∀ k, db'.claim? k = db.claim? k ∨ k = j ∧ ∃ row row', db.claim? k = some row ∧
    db'.claim? k = some row' ∧ issue row' = issue row ∧ Resolved v row row'

theorem rowRule_releaseClaim {db : Db} {j : Uuid} {st : PayoutStatus} {reason : String} {v : Verdict}
    (resolved : ∀ row, Resolved v row { row with status := st, error := some (slice2000 reason) }) :
    RowRule j v db (releaseClaim db j st reason) := by
  intro k
  rw [claim?_releaseClaim]
  cases h : db.claim? k with
  | none => exact .inl rfl
  | some row =>
    by_cases hj : row.id = j
    · exact .inr ⟨(Table.key_of_findUnique h).symm.trans hj, row,
        { row with status := st, error := some (slice2000 reason) }, rfl,
        by rw [Option.map_some, if_pos (beq_iff_eq.2 hj)], rfl, resolved row⟩
    · exact .inl (by rw [Option.map_some, if_neg fun he => hj (beq_iff_eq.1 he)])

theorem rowRule_resolve (db : Db) (j : Uuid) (now : Nat) (v : Verdict) :
    RowRule j v db (resolve db j now v) := by
  cases v with
  | landed hit =>
    simp only [resolve]
    split
    · rename_i hf
      exact rowRule_releaseClaim fun row => .failed hit rfl hf rfl rfl
    · rename_i hf
      intro k
      rcases claim?_confirmClaim db k j hit.signature now with same | ⟨-, h⟩
      · exact .inl same
      · cases hk : db.claim? k with
        | none => exact .inl (by rw [h, hk]; rfl)
        | some row =>
          by_cases hj : row.id = j
          · exact .inr ⟨(Table.key_of_findUnique hk).symm.trans hj, row,
              { row with status := .CONFIRMED, confirmedAt := some now,
                         txSignature := some hit.signature, error := none }, rfl,
              by rw [h, hk, Option.map_some, if_pos (beq_iff_eq.2 hj)], rfl,
              .confirmed hit rfl (by simpa using hf) rfl rfl⟩
          · exact .inl (by rw [h, hk, Option.map_some, if_neg fun he => hj (beq_iff_eq.1 he)])
  | neverSigned => exact rowRule_releaseClaim fun row => .expired (.inl rfl) rfl rfl
  | expired => exact rowRule_releaseClaim fun row => .expired (.inr rfl) rfl rfl
  | wait => exact fun k => .inl rfl

section Resolve

variable {s : State} {c : PayoutClaim} {cs : List PayoutClaim} {calledAt height : Nat}
  {r : LandedClaims} {used : List Signature}

/-- A claim that is hit is stamped: nothing lands for an amount of 0. -/
theorem hit_stamped (b : Book s) (snap : Snapshots s.db (c :: cs))
    (evidence : Evidence s.landed s.height (c :: cs) calledAt r) {hit : LandedClaim}
    (hh : findHit r used c = some hit) : c.lastValidBlockHeight ≠ none := by
  obtain ⟨he, -, -, ha⟩ := findHit_eq_some hh
  obtain ⟨l, hl, rfl⟩ := evidence.real hit he
  intro hn
  have := b.landedPositive l hl
  rw [show l.voucher.amount = 0 from ha.trans (snap.unstamped c List.mem_cons_self hn)] at this
  omega

/-- The landing a hit names: no live claim but `c` can be its own. -/
theorem hit_landing (b : Book s) (h : Attribution s) (snap : Snapshots s.db (c :: cs))
    (evidence : Evidence s.landed s.height (c :: cs) calledAt r) {hit : LandedClaim}
    (hh : findHit r used c = some hit) :
    ∃ l ∈ s.landed, l.claim = hit ∧
      (status? s.db l.voucher.claimId = some .PENDING → l.voucher.claimId = c.id) := by
  obtain ⟨he, hw, -, ha⟩ := findHit_eq_some hh
  obtain ⟨l, hl, rfl⟩ := evidence.real hit he
  refine ⟨l, hl, rfl, fun hp => ?_⟩
  have stamped := hit_stamped b snap evidence hh
  obtain ⟨row, hr, hrp, hri⟩ := snap.row c List.mem_cons_self stamped
  obtain ⟨i, hi, hia⟩ := b.voucherRow _ (b.landedHanded l hl)
  obtain ⟨own, ho, rfl⟩ := issue?_eq_some.1 hi
  obtain ⟨own', ho', hop⟩ := status?_eq_some.1 hp
  rw [ho] at ho'
  cases ho'
  have wallet : own.wallet = row.wallet :=
    hia.1.trans (hw.trans (congrArg Issue.wallet hri).symm)
  have amount : own.amountUsdc = row.amountUsdc :=
    hia.2.2.trans (ha.trans (congrArg Issue.amount hri).symm)
  have rowStamped : row.lastValidBlockHeight ≠ none := fun hn =>
    stamped ((congrArg Issue.lastValidBlockHeight hri).symm.trans hn)
  have ownStamped : own.lastValidBlockHeight ≠ none := fun hn => by
    cases hia.2.1.symm.trans hn
  exact h.apart _ _ own row ho hr (live_iff.2 ⟨hop, ownStamped⟩) (live_iff.2 ⟨hrp, rowStamped⟩)
    wallet amount

/-- A verdict that landed comes from a hit. -/
theorem verdict_landed {now : Nat} {hit : LandedClaim}
    (hv : verdict r used height now c = .landed hit) : findHit r used c = some hit := by
  unfold verdict at hv
  split at hv
  · cases hv
    assumption
  · split at hv <;> split at hv <;> cases hv

/-- Resolving the first claim leaves the rows of the others as they were read. -/
theorem Snapshots.resolve {db db' : Db} {v : Verdict} (snap : Snapshots db (c :: cs))
    (rule : RowRule c.id v db db') : Snapshots db' cs where
  distinct := (List.nodup_cons.1 snap.distinct).2
  row c₁ hc₁ stamped := by
    obtain ⟨row, hr, pending, same⟩ := snap.row c₁ (List.mem_cons_of_mem _ hc₁) stamped
    rcases rule c₁.id with kept | ⟨he, -⟩
    · exact ⟨row, kept.trans hr, pending, same⟩
    · exact absurd (List.mem_map.2 ⟨c₁, hc₁, he⟩) (List.nodup_cons.1 snap.distinct).1
  unstamped c₁ hc₁ := snap.unstamped c₁ (List.mem_cons_of_mem _ hc₁)

/-- **The resolution rule**: resolving one claim keeps the attribution. -/
theorem Attribution.resolve (b : Book s) (h : Attribution s)
    (ht : s.tick = some (.resolving (c :: cs) calledAt r used height)) {v : Verdict}
    (hits : ∀ hit, v = .landed hit → findHit r used c = some hit) {db : Db}
    (rule : RowRule c.id v s.db db)
    {tick : Option Tick}
    (next : tick = none ∨ tick = some (.resolving cs calledAt r (useHit used v) height)) :
    Attribution { s with db := db, tick := tick } := by
  obtain ⟨⟨snap, evidence, spent⟩, hheight⟩ := h.tick _ ht
  have status : ∀ k, status? s.db k ≠ some .PENDING → status? db k ≠ some .PENDING := by
    intro k hk
    rcases rule k with same | ⟨-, row, row', -, hr', -, res⟩
    · rwa [status?, same]
    · rw [status?, hr']
      exact fun he => res.not_pending (Option.some.inj he)
  have landing : ∀ hit, v = .landed hit → ∃ l ∈ s.landed, l.signature = hit.signature ∧
      (status? s.db l.voucher.claimId = some .PENDING → l.voucher.claimId = c.id) := by
    intro hit he
    obtain ⟨l, hl, he, hp⟩ := hit_landing b h snap evidence (hits hit he)
    exact ⟨l, hl, congrArg LandedClaim.signature he, hp⟩
  refine ⟨?_, ?_, ?_⟩
  · have before : ∀ k c', db.claim? k = some c' → live c' = true → s.db.claim? k = some c' := by
      intro k c' hc hl
      rcases rule k with same | ⟨-, row, row', -, hr', -, res⟩
      · rwa [same] at hc
      · rw [hr'] at hc
        cases hc
        exact absurd (live_iff.1 hl).1 res.not_pending
    intro j k cj ck hj hk hlj hlk
    exact h.apart j k cj ck (before j cj hj hlj) (before k ck hk hlk) hlj hlk
  · have old : ∀ k row sig, s.db.claim? k = some row → row.txSignature = some sig →
        ∃ l ∈ s.landed, l.signature = sig ∧ status? db l.voucher.claimId ≠ some .PENDING := by
      intro k row sig hk hs
      obtain ⟨l, hl, he, hp⟩ := h.resolved k row sig hk hs
      exact ⟨l, hl, he, status _ hp⟩
    intro k c' sig hc hs
    rcases rule k with same | ⟨rfl, row, row', hr, hr', -, res⟩
    · exact old k c' sig (same ▸ hc) hs
    · rw [hr'] at hc
      cases hc
      rcases res with ⟨hit, hlanded, -, hst, hsig⟩ | ⟨-, -, -, -, hsig⟩ | ⟨-, -, hsig⟩
      · obtain ⟨l, hl, he, hp⟩ := landing hit hlanded
        rw [hsig] at hs
        cases hs
        refine ⟨l, hl, he, ?_⟩
        by_cases hk : l.voucher.claimId = c.id
        · rw [hk, status?, hr', Option.map_some, hst]
          decide
        · exact status _ fun hpending => hk (hp hpending)
      · exact old _ row sig hr (hsig ▸ hs)
      · exact old _ row sig hr (hsig ▸ hs)
  · intro t htick
    rcases next with rfl | rfl
    · cases htick
    cases htick
    refine ⟨⟨snap.resolve rule, ⟨evidence.notAhead, evidence.real, ?_⟩, ?_⟩, hheight⟩
    · exact fun hcomplete c₁ hc₁ => evidence.past hcomplete c₁ (List.mem_cons_of_mem _ hc₁)
    have useHit_cases : ∀ sig, sig ∈ useHit used v ↔ sig ∈ used ∨ ∃ hit, v = .landed hit ∧
        sig = hit.signature := by
      intro sig
      cases v <;> simp [useHit, or_comm]
    refine ⟨fun sig hs => ?_, fun k c' sig hc hs => ?_, fun sig hs l hl he c₁ hc₁ hst hid => ?_⟩
    · rcases (useHit_cases sig).1 hs with old | ⟨hit, hlanded, rfl⟩
      · exact spent.real sig old
      · obtain ⟨l, hl, he, -⟩ := landing hit hlanded
        exact ⟨l, hl, he⟩
    · refine (useHit_cases sig).2 ?_
      rcases rule k with same | ⟨-, row, row', hr, hr', -, res⟩
      · exact .inl (spent.rows k c' sig (same ▸ hc) hs)
      · rw [hr'] at hc
        cases hc
        rcases res with ⟨hit, hlanded, -, -, hsig⟩ | ⟨-, -, -, -, hsig⟩ | ⟨-, -, hsig⟩
        · rw [hsig] at hs
          cases hs
          exact .inr ⟨hit, hlanded, rfl⟩
        · exact .inl (spent.rows k row sig hr (hsig ▸ hs))
        · exact .inl (spent.rows k row sig hr (hsig ▸ hs))
    · rcases (useHit_cases sig).1 hs with old | ⟨hit, hlanded, rfl⟩
      · exact spent.apart sig old l hl he c₁ (List.mem_cons_of_mem _ hc₁) hst hid
      · obtain ⟨l₀, hl₀, he₀, hp⟩ := landing hit hlanded
        have same : l = l₀ := List.inj_on_of_nodup_map b.signatures hl hl₀ (he.trans he₀.symm)
        subst same
        obtain ⟨row, hr, hpend, -⟩ := snap.row c₁ (List.mem_cons_of_mem _ hc₁) hst
        have pending : status? s.db l.voucher.claimId = some .PENDING := by
          rw [← hid, status?, hr, Option.map_some, hpend]
        exact (List.nodup_cons.1 snap.distinct).1
          (List.mem_map.2 ⟨c₁, hc₁, hid.trans (hp pending)⟩)

end Resolve

theorem mem_findPending {db : Db} {c : PayoutClaim} :
    c ∈ findPending db ↔ c ∈ db.payoutClaims ∧ c.status = .PENDING := by
  rw [findPending, List.mem_insertionSort, List.mem_filter, beq_iff_eq]

/-- The first read: distinct claims, oldest first, as the database has them. -/
theorem snapshots_findPending {s : State} (b : Book s) :
    Snapshots s.db (findPending s.db) ∧
      (findPending s.db).Pairwise fun a b => a.createdAt ≤ b.createdAt := by
  have lookup : ∀ c ∈ findPending s.db, s.db.claim? c.id = some c := fun c hc =>
    Table.findUnique_of_mem b.ids (mem_findPending.1 hc).1
  have total : ∀ a b : PayoutClaim, a.createdAt ≤ b.createdAt ∨ b.createdAt ≤ a.createdAt :=
    fun a b => Nat.le_total ..
  refine ⟨⟨?_, fun c hc _ => ⟨c, lookup c hc, (mem_findPending.1 hc).2, rfl⟩, fun c hc hl => ?_⟩, ?_⟩
  · have perm : ((findPending s.db).map (·.id)).Perm
        ((s.db.payoutClaims.filter (·.status == .PENDING)).map (·.id)) :=
      (List.perm_insertionSort _ _).map _
    exact perm.nodup_iff.2 (b.ids.sublist (List.filter_sublist.map _))
  · have hi : issue? s.db c.id = some (issue c) := by rw [issue?, lookup c hc]; rfl
    exact (b.issued c.id _ hi).2 hl
  · have : Std.Total fun a b : PayoutClaim => a.createdAt ≤ b.createdAt := ⟨total⟩
    have : IsTrans PayoutClaim fun a b => a.createdAt ≤ b.createdAt := ⟨fun _ _ _ => Nat.le_trans⟩
    exact List.pairwise_insertionSort _ _

/-- The claims created before a landing are in the window of the sweep. -/
theorem inWindow_of_bound {notBefore : Nat} {c : PayoutClaim} {l : Landing}
    (bound : notBefore ≤ notBeforeUnixTime c)
    (after : ∀ bt, l.blockTime = some bt → c.createdAt ≤ bt * 1000 + CLOCK_SKEW_MS) :
    inWindow notBefore l = true := by
  unfold inWindow
  split
  · rfl
  · rename_i bt hbt
    have := after bt hbt
    rw [notBeforeUnixTime] at bound
    rw [decide_eq_true_eq]
    omega

/-- A stamped claim still to be resolved was created before its own landings. -/
theorem Snapshots.landedAfter {s : State} (b : Book s) {pending : List PayoutClaim}
    (snap : Snapshots s.db pending) {c : PayoutClaim} (hc : c ∈ pending)
    (hs : c.lastValidBlockHeight ≠ none) {l : Landing} (hl : l ∈ s.landed)
    (hk : l.voucher.claimId = c.id) (bt : Nat) (hbt : l.blockTime = some bt) :
    c.createdAt ≤ bt * 1000 + CLOCK_SKEW_MS := by
  obtain ⟨row, hr, -, hi⟩ := snap.row c hc hs
  have hrow : issue? s.db l.voucher.claimId = some (issue c) := by
    rw [hk, issue?, hr, Option.map_some, hi]
  exact b.landedAfter l hl _ hrow bt hbt

/-- **The tick rule**: the confirmer's own steps keep the attribution. -/
theorem Attribution.tickStep {s s' : State} {act : TickAct} (b : Book s) (h : Attribution s)
    (hs : tickStep s s.tick act = some s') : Attribution s' := by
  have moveTo : ∀ tick, (∀ t, tick = some t → TickOk s t) → Attribution { s with tick := tick } :=
    fun tick ok => ⟨h.apart, h.resolved, fun t ht => by
      cases t <;> exact ok _ ht⟩
  cases tickMove hs with
  | idle => exact h
  | read here pending =>
    refine moveTo _ fun t ht => ?_
    cases ht
    rw [TickOk, ← pending]
    exact snapshots_findPending b
  | @call c cs here =>
    refine moveTo _ fun t he => ?_
    cases he
    obtain ⟨snap, sorted⟩ := h.tick _ here
    refine ⟨snap, le_rfl, fun l hl _ => hl, fun c₁ hc₁ => ?_⟩
    have oldest : c.createdAt ≤ c₁.createdAt := by
      rcases List.mem_cons.1 hc₁ with rfl | hc₁
      · exact le_rfl
      · exact (List.pairwise_cons.1 sorted).1 c₁ hc₁
    exact Nat.div_le_div_right (Nat.sub_le_sub_right oldest _)
  | answer here answer =>
    refine moveTo _ fun t he => ?_
    cases he
    obtain ⟨snap, called⟩ := h.tick _ here
    simp only [truthful, Bool.and_eq_true, List.all_eq_true, List.any_eq_true, beq_iff_eq,
      Bool.or_eq_true, Bool.not_eq_true', List.contains_iff_mem] at answer
    refine ⟨snap, called.notAhead, fun e he => answer.1 e he, fun hcomplete c hc hst l hl hk hp => ?_⟩
    rcases answer.2 with incomplete | all
    · rw [hcomplete] at incomplete
      cases incomplete
    · rcases all l (called.past l hl hp) with outside | inside
      · rw [inWindow_of_bound (called.bound c hc) (snap.landedAfter b hc hst hl hk)] at outside
        cases outside
      · exact inside
  | noAnswer | crash => exact moveTo _ fun t he => by cases he
  | used here =>
    refine moveTo _ fun t he => ?_
    cases he
    obtain ⟨snap, evidence⟩ := h.tick _ here
    refine ⟨snap, evidence, ?_, ?_, ?_⟩
    · intro sig hsig
      obtain ⟨c, hc, he⟩ := List.mem_filterMap.1 hsig
      obtain ⟨l, hl, hls, -⟩ := h.resolved c.id c sig (Table.findUnique_of_mem b.ids hc) he
      exact ⟨l, hl, hls⟩
    · exact fun k c sig hc hsig => List.mem_filterMap.2 ⟨c, Table.mem_of_findUnique hc, hsig⟩
    · intro sig hsig l hl hls c hc hst hid
      obtain ⟨c₀, hc₀, he⟩ := List.mem_filterMap.1 hsig
      obtain ⟨l₀, hl₀, hls₀, hp⟩ := h.resolved c₀.id c₀ sig (Table.findUnique_of_mem b.ids hc₀) he
      obtain rfl : l = l₀ := List.inj_on_of_nodup_map b.signatures hl hl₀ (hls.trans hls₀.symm)
      obtain ⟨row, hr, hpend, -⟩ := snap.row c hc hst
      exact hp (by rw [← hid, status?, hr, Option.map_some, hpend])
  | height here reached =>
    refine moveTo _ fun t he => ?_
    cases he
    exact ⟨h.tick _ here, reached⟩
  | @resolve c cs calledAt height r used fails here =>
    refine h.resolve b here (v := verdict r used height s.now c) (fun _ => verdict_landed) ?_ ?_
    · cases fails with
      | true => exact fun k => .inl rfl
      | false => exact rowRule_resolve s.db c.id s.now _
    · cases cs with
      | nil => exact .inl rfl
      | cons c₁ cs => exact .inr rfl

/-- Before any claim there is nothing to attribute. -/
theorem Attribution.initial {s : State} (h : Initial s) : Attribution s := by
  have none : ∀ k, s.db.claim? k = none := fun k => by
    rw [Db.claim?, h.noClaims]
    rfl
  refine ⟨fun j k cj ck hj => ?_, fun k c sig hc => ?_, fun t ht => ?_⟩
  · rw [none] at hj
    cases hj
  · rw [none] at hc
    cases hc
  · rw [h.noTick] at ht
    cases ht

/-- The voucher whose claim the action stamps. -/
def stamping (s : State) : Action → Option Voucher
  | .route i (.stamp false) => match s.requests[i]? with
    | some (.built v) => some v
    | _ => none
  | _ => none

/-- The handler is not about to stamp a twin of a live claim. -/
def twinSafe (s : State) (a : Action) : Bool :=
  (stamping s a).all fun v => status? s.db v.claimId != some .PENDING || !twinLive s.db v

/-- **The attribution is kept** by every step that stamps no twin. -/
theorem Attribution.step {s s' : State} {a : Action} (b : Book s) (h : Attribution s)
    (ok : twinSafe s a = true) (hs : step s a = some s') : Attribution s' := by
  have quiet : ∀ {s' : State}, Meanwhile s s' → s'.db.payoutClaims = s.db.payoutClaims →
      Attribution s' := fun m claims => h.meanwhile m b (apart_frame claims h.apart)
  cases a with
  | request w =>
    cases hs
    exact quiet (meanwhile_frame rfl le_rfl rfl rfl) rfl
  | route i act =>
    obtain ⟨r, db, r', handed, hr, hstep, rfl⟩ := step_route hs
    have spec := routeStep_spec hstep
    refine h.meanwhile (meanwhile_route b hr spec) b ?_
    refine apart_route spec (fun k hk => b.requestRow i r k hr hk) h.apart fun v hv hact hp => ?_
    subst hv hact
    simpa [twinSafe, stamping, hr, hp] using ok
  | tick act => exact h.tickStep b hs
  | land v sig slot bt =>
    obtain ⟨-, fresh, height, -, -, p, rfl⟩ := step_land hs
    refine quiet ⟨rfl, le_rfl, fun _ _ hc _ => hc, fun _ c _ hc hsig => ⟨c, hc, hsig⟩, ?_⟩ rfl
    exact .inr ⟨_, rfl, fun l hl => (fresh l hl).2, height⟩
  | clock ms =>
    cases hs
    exact quiet (meanwhile_frame rfl le_rfl rfl rfl) rfl
  | blocks n =>
    cases hs
    exact quiet (meanwhile_frame rfl (Nat.le_add_right ..) rfl rfl) rfl
  | program p =>
    cases hs
    exact quiet (meanwhile_frame rfl le_rfl rfl rfl) rfl
  | harvest batchId txHash =>
    cases hs
    exact quiet (meanwhile_frame rfl le_rfl rfl rfl) rfl
  | epoch r =>
    cases hs
    have claims := upsertSettledEpoch_payoutClaims s.db r
    exact quiet (meanwhile_frame rfl le_rfl claims rfl) claims

end LordsPot.Payout
