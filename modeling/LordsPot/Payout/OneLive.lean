import LordsPot.Payout.Held

/-!
# One live voucher per wallet

A wallet has at most one live claim as long as no handler binds tickets while another of
the wallet's pending claims holds tickets and is stamped or may still be. The route looks
for a live claim before it creates its own, and the lookup reads a mark that is written
last, so a second handler passes it, and a harvest between the two binds gives it tickets
of its own.
-/

namespace LordsPot.Payout

open Transition

/-- No wallet has two claims that are pending and stamped. -/
def OneLive (s : State) : Prop :=
  ∀ w, (s.db.payoutClaims.filter fun c => c.wallet == w && live c).length ≤ 1

/-- The claim of a handler that has bound tickets and not stamped it yet. -/
def Request.binding? : Request → Option Uuid
  | .bound _ k | .summed _ k _ _ | .withinCeiling _ k _ _ => some k
  | .built v => some v.claimId
  | _ => none

/-- A pending claim with tickets that is stamped or may still be. -/
def charged (s : State) (c : PayoutClaim) : Bool :=
  c.status == .PENDING && !(boundIds s.db c.id).isEmpty &&
    (c.lastValidBlockHeight.isSome || s.requests.any (·.binding? == some c.id))

/-- A bind takes no ticket while another claim of the wallet is charged. -/
def bindSafe (s : State) : Action → Bool
  | .route i .bind => match s.requests[i]? with
    | some (.created w k epochs) =>
      !s.db.tickets.any (claimable s.db w epochs) ||
        s.db.payoutClaims.all fun c => c.wallet != w || c.id == k || !charged s c
    | _ => true
  | _ => true

theorem charged_iff {s : State} {c : PayoutClaim} : charged s c = true ↔
    c.status = .PENDING ∧ boundIds s.db c.id ≠ [] ∧
      (c.lastValidBlockHeight ≠ none ∨ ∃ n : Nat, (s.requests[n]?).bind Request.binding? = some c.id) := by
  have any : s.requests.any (·.binding? == some c.id) = true ↔
      ∃ n : Nat, (s.requests[n]?).bind Request.binding? = some c.id := by
    simp only [List.any_eq_true, beq_iff_eq]
    constructor
    · rintro ⟨r, hr, hb⟩
      obtain ⟨n, hn⟩ := List.mem_iff_getElem?.1 hr
      exact ⟨n, by rw [hn]; exact hb⟩
    · rintro ⟨n, hn⟩
      obtain ⟨r, hr, hb⟩ := Option.bind_eq_some_iff.1 hn
      exact ⟨r, List.mem_of_getElem? hr, hb⟩
  rw [charged, Bool.and_eq_true, Bool.and_eq_true, Bool.or_eq_true, any, beq_iff_eq,
    Bool.not_eq_true', List.isEmpty_eq_false_iff, Option.isSome_iff_ne_none, and_assoc]

theorem Request.claimId?_of_binding {r : Request} {k : Uuid} (h : r.binding? = some k) :
    r.claimId? = some k := by
  cases r <;> cases h <;> rfl

structure OneCharged (s : State) : Prop where
  /-- No two charged claims of a wallet. -/
  one : ∀ j k cj ck, s.db.claim? j = some cj → s.db.claim? k = some ck → charged s cj = true →
    charged s ck = true → cj.wallet = ck.wallet → j = k
  /-- A live claim has tickets. -/
  bound : ∀ k c, s.db.claim? k = some c → live c = true → boundIds s.db k ≠ []
  /-- A claim just created has none. -/
  empty : ∀ (n : Nat) w k epochs, s.requests[n]? = some (.created w k epochs) →
    boundIds s.db k = []

theorem OneCharged.initial {s : State} (h : Initial s) : OneCharged s := by
  have none : ∀ k, s.db.claim? k = none := fun k => by
    rw [Db.claim?, h.noClaims]
    rfl
  refine ⟨fun j k cj ck hj => ?_, fun k c hc => ?_, fun n w k epochs hn => ?_⟩
  · rw [none] at hj
    cases hj
  · rw [none] at hc
    cases hc
  · rw [h.noRequests] at hn
    cases hn

theorem OneCharged.oneLive {s : State} (b : Book s) (h : OneCharged s) : OneLive s := by
  intro w
  have charge : ∀ c ∈ s.db.payoutClaims, live c = true →
      s.db.claim? c.id = some c ∧ charged s c = true := by
    intro c hc hl
    have row := Table.findUnique_of_mem b.ids hc
    exact ⟨row, charged_iff.2 ⟨(live_iff.1 hl).1, h.bound _ c row hl, .inl (live_iff.1 hl).2⟩⟩
  refine Table.length_filter_le_one b.ids fun c hc c' hc' hp hp' => ?_
  simp only [Bool.and_eq_true, beq_iff_eq] at hp hp'
  obtain ⟨row, hch⟩ := charge c hc hp.2
  obtain ⟨row', hch'⟩ := charge c' hc' hp'.2
  exact h.one _ _ c c' row row' hch hch' (hp.1.trans hp'.1.symm)

/-! ## Who becomes charged -/

/-- Steps other than the handlers' charge no claim. -/
theorem OneCharged.frame {s s' : State} (h : OneCharged s)
    (requests : ∀ (n : Nat) (r : Request), s'.requests[n]? = some r →
      s.requests[n]? = some r ∨ r.claimId? = none)
    (rows : ∀ k c, s'.db.claim? k = some c → c.status = .PENDING →
      s.db.claim? k = some c ∧ boundRows s'.db k = boundRows s.db k)
    (shrink : ∀ k, boundIds s.db k = [] → boundIds s'.db k = []) : OneCharged s' := by
  have before : ∀ k c, s'.db.claim? k = some c → charged s' c = true →
      s.db.claim? k = some c ∧ charged s c = true := by
    intro k c hc hch
    obtain ⟨hp, hb, hgo⟩ := charged_iff.1 hch
    obtain ⟨hc₀, hrows⟩ := rows k c hc hp
    have hid : c.id = k := Table.key_of_findUnique hc
    rw [hid, show boundIds s'.db k = boundIds s.db k from congrArg Prod.snd hrows] at hb
    refine ⟨hc₀, charged_iff.2 ⟨hp, by rwa [hid], hgo.imp id ?_⟩⟩
    rintro ⟨n, hn⟩
    obtain ⟨r, hr, hbind⟩ := Option.bind_eq_some_iff.1 hn
    rcases requests n r hr with old | none
    · exact ⟨n, by rw [old]; exact hbind⟩
    · rw [Request.claimId?_of_binding hbind] at none
      cases none
  refine ⟨fun j k cj ck hj hk hcj hck hw => ?_, fun k c hc hl => ?_, fun n w k epochs hn => ?_⟩
  · obtain ⟨hj, hcj⟩ := before j cj hj hcj
    obtain ⟨hk, hck⟩ := before k ck hk hck
    exact h.one j k cj ck hj hk hcj hck hw
  · obtain ⟨hc₀, hrows⟩ := rows k c hc (live_iff.1 hl).1
    rw [show boundIds s'.db k = boundIds s.db k from congrArg Prod.snd hrows]
    exact h.bound k c hc₀ hl
  · rcases requests n _ hn with old | none
    · exact shrink k (h.empty n w k epochs old)
    · cases none

/-- The bind a step is about to make. -/
theorem boundIds_bind {db : Db} {w : Wallet} {epochs : List Nat} {k : Uuid}
    (none : db.tickets.any (claimable db w epochs) = false) :
    boundIds (bindTickets db w epochs k) k = boundIds db k := by
  have same : boundRows (bindTickets db w epochs k) k = boundRows db k := by
    refine boundRows_updateMany rfl (fun _ => rfl) (fun _ => rfl) fun t ht => ?_
    rw [if_neg (List.any_eq_false.1 none t ht)]
  exact congrArg Prod.snd same

/-- No ticket is bound to a claim that does not exist. -/
theorem boundIds_of_fresh {s : State} (h : Bound s) {k : Uuid} (fresh : s.db.claim? k = none) :
    boundIds s.db k = [] := by
  refine List.map_eq_nil_iff.2 (List.filter_eq_nil_iff.2 fun t ht hb => ?_)
  obtain ⟨i, hi, -⟩ := h.owners t ht k (boundTo_eq_true.1 hb)
  rw [issue?, fresh] at hi
  cases hi

/-- What is summed to a positive amount is some ticket. -/
theorem boundIds_ne_nil {db : Db} {k : Uuid} {a : Nat} {ids : List Uuid}
    (h : boundRows db k = (a, ids)) (positive : 0 < a) : boundIds db k ≠ [] := by
  intro empty
  have sum : boundSum db k = a := congrArg Prod.fst h
  rw [boundSum, Table.sumWhere, List.map_eq_nil_iff.1 empty] at sum
  simp at sum
  omega

/-- How a handler moves on in the phases between its bind and its stamp. -/
theorem routeStep_binding {now : Nat} {program : Program} {adminKey : Wallet} {db db' : Db}
    {r r' : Request} {act : RouteAct} {handed : Option Voucher}
    (h : routeStep now program adminKey db r act = some (db', r', handed)) :
    (∀ k, r'.binding? = some k → r.binding? = some k ∨
      ∃ w epochs, r = .created w k epochs ∧ act = .bind ∧ db' = bindTickets db w epochs k) ∧
    (∀ w k epochs, r' = .created w k epochs → db.claim? k = none ∧ db'.tickets = db.tickets) := by
  cases routeMove h with
  | create fresh =>
    refine ⟨fun _ hj => (by cases hj), fun _ _ _ he => ?_⟩
    cases he
    exact ⟨fresh, rfl⟩
  | bind =>
    rename_i w k epochs
    refine ⟨fun j hj => ?_, fun _ _ _ he => (by cases he)⟩
    cases hj
    exact .inr ⟨w, epochs, rfl, rfl, rfl⟩
  | sum | ceiling | build => exact ⟨fun _ hk => .inl hk, fun _ _ _ he => (by cases he)⟩
  | _ => exact ⟨fun _ hj => (by cases hj), fun _ _ _ he => (by cases he)⟩

section Route

variable {s : State} {i : Nat} {r r' : Request} {act : RouteAct} {db : Db} {handed : Option Voucher}

/-- The state after a handler's step. -/
def routed (s : State) (i : Nat) (r' : Request) (db : Db) (handed : Option Voucher) : State :=
  { s with db := db, requests := s.requests.set i r', vouchers := s.vouchers ++ handed.toList }

theorem routed_requests {n : Nat} {r₀ : Request} (h : (routed s i r' db handed).requests[n]? = some r₀) :
    i = n ∧ r₀ = r' ∨ i ≠ n ∧ s.requests[n]? = some r₀ := by
  rcases Table.of_getElem?_set h with ⟨same, new⟩ | ⟨other, old⟩
  · exact .inl ⟨same.symm, new⟩
  · exact .inr ⟨Ne.symm other, old⟩

/-- A handler's step charges no claim but the one it binds tickets to. -/
theorem charged_route (b : Book s) (hr : s.requests[i]? = some r)
    (hstep : routeStep s.now s.program s.adminKey s.db r act = some (db, r', handed)) {k : Uuid}
    {c' : PayoutClaim} (hc' : db.claim? k = some c')
    (hch : charged (routed s i r' db handed) c' = true) :
    ∃ c, s.db.claim? k = some c ∧ c.wallet = c'.wallet ∧
      (charged s c = true ∨ ∃ w epochs, r = .created w k epochs ∧ act = .bind ∧
        db = bindTickets s.db w epochs k) := by
  have spec := routeStep_spec hstep
  have tickets := routeStep_tickets hstep
  obtain ⟨binding, -⟩ := routeStep_binding hstep
  obtain ⟨hp, hb, hgo⟩ := charged_iff.1 hch
  have here : owner? s i = r.claimId? := by rw [owner?, hr]; rfl
  have hid : c'.id = k := Table.key_of_findUnique hc'
  rw [hid] at hb hgo
  have bindingAt : ∀ {n : Nat} {r₀ : Request}, s.requests[n]? = some r₀ → r₀.binding? = some k →
      ∃ n : Nat, (s.requests[n]?).bind Request.binding? = some k :=
    fun {n} _ hn hbind => ⟨n, by rw [hn]; exact hbind⟩
  -- a claim of the old table, with what it was issued for
  obtain ⟨c, hc, hst⟩ : ∃ c, s.db.claim? k = some c ∧ c'.status = c.status := by
    rcases spec.resolution k c' hc' with ⟨c, hc, hst, -⟩ | ⟨hn, -⟩
    · exact ⟨c, hc, hst⟩
    · exfalso
      have unowned : ∀ (n : Nat) (r₀ : Request), s.requests[n]? = some r₀ → r₀.claimId? ≠ some k := by
        intro n r₀ hr₀ hk
        obtain ⟨j, hj, -⟩ := b.requestRow n r₀ k hr₀ hk
        rw [issue?, hn] at hj
        cases hj
      have hi : issue? db k = some (issue c') := by rw [issue?, hc']; rfl
      rcases hgo with hl | ⟨n, hn'⟩
      · rcases spec.issued k _ hi with old | ⟨-, w, he⟩ | ⟨v, j, rfl, -, hk, -⟩
        · rw [issue?, hn] at old
          cases old
        · exact hl (congrArg Issue.lastValidBlockHeight he)
        · exact unowned i _ hr (congrArg some hk)
      · obtain ⟨r₀, hr₀, hbind⟩ := Option.bind_eq_some_iff.1 hn'
        rcases routed_requests hr₀ with ⟨-, rfl⟩ | ⟨-, hr₀⟩
        · rcases binding k hbind with old | ⟨w, epochs, rfl, -⟩
          · exact unowned i r hr (Request.claimId?_of_binding old)
          · exact unowned i _ hr rfl
        · exact unowned n r₀ hr₀ (Request.claimId?_of_binding hbind)
  have hid₀ : c.id = k := Table.key_of_findUnique hc
  have hi : issue? db k = some (issue c') := by rw [issue?, hc']; rfl
  have hi₀ : issue? s.db k = some (issue c) := by rw [issue?, hc]; rfl
  have wallet : c.wallet = c'.wallet := by
    rcases spec.issued k _ hi with old | ⟨hn, -⟩ | ⟨v, j, -, -, -, hj, he⟩
    · rw [hi₀] at old
      exact congrArg Issue.wallet (Option.some.inj old)
    · rw [hi₀] at hn
      cases hn
    · rw [hi₀] at hj
      cases hj
      exact (congrArg Issue.wallet he).symm
  refine ⟨c, hc, wallet, ?_⟩
  -- stamped before, or with a handler between bind and stamp before, unless it binds now
  have went : (c.lastValidBlockHeight ≠ none ∨
      ∃ n : Nat, (s.requests[n]?).bind Request.binding? = some k) ∨
      ∃ w epochs, r = .created w k epochs ∧ act = .bind ∧ db = bindTickets s.db w epochs k := by
    rcases hgo with hl | ⟨n, hn⟩
    · rcases spec.issued k _ hi with old | ⟨hn, -⟩ | ⟨v, j, rfl, -, hk, -⟩
      · rw [hi₀] at old
        have same : c.lastValidBlockHeight = c'.lastValidBlockHeight :=
          congrArg Issue.lastValidBlockHeight (Option.some.inj old)
        exact .inl (.inl (same ▸ hl))
      · rw [hi₀] at hn
        cases hn
      · exact .inl (.inr (bindingAt hr (congrArg some hk)))
    · obtain ⟨r₀, hr₀, hbind⟩ := Option.bind_eq_some_iff.1 hn
      rcases routed_requests hr₀ with ⟨-, rfl⟩ | ⟨-, hr₀⟩
      · exact (binding k hbind).imp (fun old => .inr (bindingAt hr old)) id
      · exact .inl (.inr (bindingAt hr₀ hbind))
  rcases went with went | bind
  · refine .inl (charged_iff.2 ⟨hst ▸ hp, ?_, by rwa [hid₀]⟩)
    rw [hid₀]
    rcases tickets.owned k with same | owned
    · rwa [← show boundIds db k = boundIds s.db k from congrArg Prod.snd same]
    · -- its own handler is at no phase between bind and stamp, nor is it stamped
      exfalso
      have own : r.claimId? = some k := by
        rcases owned with ⟨w, epochs, rfl⟩ | ⟨status, rfl⟩ | ⟨status, rfl⟩ <;> rfl
      obtain ⟨j, hj, ha⟩ := b.requestRow i r k hr own
      rw [hi₀] at hj
      cases hj
      rcases went with hl | ⟨n, hn⟩
      · rcases owned with ⟨w, epochs, rfl⟩ | ⟨status, rfl⟩ | ⟨status, rfl⟩
        · exact hl ha.2
        · exact hl ha
        · exact hl ha
      · obtain ⟨r₀, hr₀, hbind⟩ := Option.bind_eq_some_iff.1 hn
        have hn : owner? s n = some k := by
          rw [owner?, hr₀]
          exact Request.claimId?_of_binding hbind
        obtain rfl := b.oneOwner i n k (here.trans own) hn
        rw [hr] at hr₀
        cases hr₀
        rcases owned with ⟨w, epochs, rfl⟩ | ⟨status, rfl⟩ | ⟨status, rfl⟩ <;> cases hbind
  · exact .inr bind

/-- A safe handler step keeps one charged claim a wallet. -/
theorem OneCharged.route (b : Book s) (bound : Bound s) (h : OneCharged s)
    (hr : s.requests[i]? = some r)
    (hstep : routeStep s.now s.program s.adminKey s.db r act = some (db, r', handed))
    (ok : bindSafe s (.route i act) = true) : OneCharged (routed s i r' db handed) := by
  have spec := routeStep_spec hstep
  have tickets := routeStep_tickets hstep
  have here : owner? s i = r.claimId? := by rw [owner?, hr]; rfl
  -- the claim a bind charges was the only one
  have alone : ∀ {w k epochs}, r = .created w k epochs → act = .bind →
      db = bindTickets s.db w epochs k → boundIds db k ≠ [] →
      ∀ j c, s.db.claim? j = some c → charged s c = true → c.wallet = w → j = k := by
    rintro w k epochs rfl rfl rfl hb j c hc hch hw
    have takes : s.db.tickets.any (claimable s.db w epochs) = true := by
      by_contra none
      exact hb ((boundIds_bind (by simpa using none)).trans (h.empty i w k epochs hr))
    simp only [bindSafe, hr, takes, Bool.not_true, Bool.false_or, List.all_eq_true] at ok
    have := ok c (Table.mem_of_findUnique hc)
    rw [hw, hch] at this
    simp only [bne_self_eq_false, Bool.not_true, Bool.false_or, Bool.or_false, beq_iff_eq] at this
    exact (Table.key_of_findUnique hc).symm.trans this
  have ids : ∀ {k c'}, db.claim? k = some c' → charged (routed s i r' db handed) c' = true →
      boundIds db k ≠ [] := by
    intro k c' hc' hch
    rw [← show c'.id = k from Table.key_of_findUnique hc']
    exact (charged_iff.1 hch).2.1
  refine ⟨fun j k cj ck hj hk hcj hck hw => ?_, fun k c hc hl => ?_, fun n w k epochs hn => ?_⟩
  · obtain ⟨dj, hdj, hwj, cases_j⟩ := charged_route b hr hstep hj hcj
    obtain ⟨dk, hdk, hwk, cases_k⟩ := charged_route b hr hstep hk hck
    have row : ∀ {k w epochs c}, s.db.claim? k = some c → r = .created w k epochs → c.wallet = w := by
      rintro k w epochs c hc rfl
      obtain ⟨j, hj, ha⟩ := b.requestRow i _ k hr rfl
      rw [issue?, hc] at hj
      cases hj
      exact ha.1
    have wallets : dj.wallet = dk.wallet := hwj.trans (hw.trans hwk.symm)
    rcases cases_j with hcj₀ | ⟨w, epochs, hrj, hact, hdb⟩
    · rcases cases_k with hck₀ | ⟨w, epochs, hrk, hact, hdb⟩
      · exact h.one j k dj dk hdj hdk hcj₀ hck₀ wallets
      · exact alone hrk hact hdb (ids hk hck) j dj hdj hcj₀ (wallets.trans (row hdk hrk))
    · rcases cases_k with hck₀ | ⟨u, epochs', hrk, -⟩
      · exact (alone hrj hact hdb (ids hj hcj) k dk hdk hck₀
          (wallets.symm.trans (row hdj hrj))).symm
      · rw [hrj] at hrk
        cases hrk
        rfl
  · have hi : issue? db k = some (issue c) := by
      rw [issue?, show db.claim? k = some c from hc]
      rfl
    obtain ⟨hp, hlv⟩ := live_iff.1 hl
    have kept : ∀ {c₀}, s.db.claim? k = some c₀ → c₀.lastValidBlockHeight ≠ none →
        boundRows db k = boundRows s.db k := by
      intro c₀ hc₀ hs
      rcases tickets.owned k with same | owned
      · exact same
      · have own : r.claimId? = some k := by
          rcases owned with ⟨w, epochs, rfl⟩ | ⟨status, rfl⟩ | ⟨status, rfl⟩ <;> rfl
        obtain ⟨j, hj, ha⟩ := b.requestRow i r k hr own
        rw [issue?, hc₀] at hj
        cases hj
        rcases owned with ⟨w, epochs, rfl⟩ | ⟨status, rfl⟩ | ⟨status, rfl⟩
        · exact absurd ha.2 hs
        · exact absurd ha hs
        · exact absurd ha hs
    rcases spec.issued k _ hi with old | ⟨-, w, he⟩ | ⟨v, j, rfl, rfl, rfl, hj, he⟩
    · obtain ⟨c₀, hc₀, he⟩ := issue?_eq_some.1 old
      have hs : c₀.lastValidBlockHeight ≠ none := by
        rw [show c₀.lastValidBlockHeight = c.lastValidBlockHeight from
          congrArg Issue.lastValidBlockHeight he]
        exact hlv
      have same := spec.stamped (fun k hk => b.requestRow i r k hr hk) k c₀ hc₀ hs
      have hcc : c = c₀ := Option.some.inj (Eq.trans (Eq.symm hc) same)
      rw [show boundIds (routed s i r' db handed).db k = boundIds s.db k from
        congrArg Prod.snd (kept hc₀ hs)]
      exact h.bound k c₀ hc₀ (hcc ▸ hl)
    · exact absurd (congrArg Issue.lastValidBlockHeight he) hlv
    · obtain ⟨c₀, hc₀, -⟩ := issue?_eq_some.1 hj
      have hold : Holds s v.claimId v.amount v.tickets := .inl ⟨i, by rw [hr]; rfl⟩
      have pending : c₀.status = .PENDING := by
        rcases spec.resolution _ c hc with ⟨c₁, hc₁, hst, -⟩ | ⟨hn, -⟩
        · rw [hc₀] at hc₁
          cases hc₁
          exact hst.symm.trans hp
        · rw [hc₀] at hn
          cases hn
      have rows := bound.held _ _ _ c₀ hold hc₀ fun released => released.1 pending
      have same : boundRows db v.claimId = boundRows s.db v.claimId := by
        rcases tickets.owned v.claimId with same | ⟨w, epochs, he⟩ | ⟨status, he⟩ | ⟨status, he⟩
        · exact same
        · cases he
        · cases he
        · cases he
      exact boundIds_ne_nil (same.trans rows) (bound.positive _ _ _ hold)
  · rcases routed_requests hn with ⟨-, he⟩ | ⟨hne, hn⟩
    · obtain ⟨fresh, same⟩ := (routeStep_binding hstep).2 w k epochs he.symm
      exact (congrArg Prod.snd (boundRows_congr same)).trans (boundIds_of_fresh bound fresh)
    · have other : r.claimId? ≠ some k := fun hk => by
        refine hne (b.oneOwner i n k (here.trans hk) ?_)
        rw [owner?, hn]
        rfl
      exact (congrArg Prod.snd (tickets.bound other)).trans (h.empty n w k epochs hn)

end Route

/-- A step that binds nothing binds nothing to a claim without tickets. -/
theorem boundIds_of_rebound {db db' : Db} (h : Rebound db db' fun _ _ => False) {k : Uuid}
    (empty : boundIds db k = []) : boundIds db' k = [] := by
  refine List.map_eq_nil_iff.2 (List.filter_eq_nil_iff.2 fun t' ht' hb => ?_)
  obtain ⟨t, ht, -, -, -, bound⟩ := h t' ht'
  have old := (bound k (boundTo_eq_true.1 hb)).resolve_right id
  exact List.filter_eq_nil_iff.1 (List.map_eq_nil_iff.1 empty) t ht (boundTo_eq_true.2 old)

theorem OneCharged.tickStep {s s' : State} {act : TickAct} (h : OneCharged s)
    (hs : tickStep s s.tick act = some s') : OneCharged s' := by
  obtain ⟨db, tick, rfl, rfl | ⟨c, cs, calledAt, landed, used, height, ht, -, rfl⟩⟩ := tickStep_frame hs
  · exact h.frame (fun _ _ hn => .inl hn) (fun _ _ hc _ => ⟨hc, rfl⟩) fun _ he => he
  · generalize verdict landed used height s.now c = v
    refine h.frame (fun _ _ hn => .inl hn) (fun k c' hc hp => ?_)
      fun k he => boundIds_of_rebound (resolve_tickets s.db c.id s.now v).2.2 he
    refine ⟨?_, boundRows_resolve_standing hc fun released => released.1 hp⟩
    rcases rowRule_resolve s.db c.id s.now v k with same | ⟨-, row, row', -, hr', -, res⟩
    · exact same ▸ hc
    · rw [hr'] at hc
      cases hc
      exact absurd hp res.not_pending

theorem OneCharged.step {s s' : State} {a : Action} (b : Book s) (bound : Bound s)
    (h : OneCharged s) (ok : bindSafe s a = true) (hs : step s a = some s') : OneCharged s' := by
  have still : ∀ {s' : State}, s'.db = s.db → s'.requests = s.requests → OneCharged s' := by
    intro s' hdb hreq
    refine h.frame (fun n r hn => .inl (hreq ▸ hn)) (fun k c hc _ => ?_) fun k he => ?_
    · exact ⟨hdb ▸ hc, by rw [hdb]⟩
    · rwa [hdb]
  cases a with
  | request w =>
    cases hs
    refine h.frame (fun n r hn => ?_) (fun _ _ hc _ => ⟨hc, rfl⟩) fun _ he => he
    rcases Table.of_getElem?_concat hn with old | ⟨-, rfl⟩
    · exact .inl old
    · exact .inr rfl
  | route i act =>
    obtain ⟨r, db, r', handed, hr, hstep, rfl⟩ := step_route hs
    exact h.route b bound hr hstep ok
  | tick act => exact h.tickStep hs
  | land v sig slot bt =>
    obtain ⟨-, -, -, -, -, p, rfl⟩ := step_land hs
    exact still rfl rfl
  | clock ms => cases hs; exact still rfl rfl
  | blocks n => cases hs; exact still rfl rfl
  | program p => cases hs; exact still rfl rfl
  | harvest batchId txHash =>
    cases hs
    refine h.frame (fun _ _ hn => .inl hn) (fun _ _ hc _ => ⟨hc, boundRows_harvest⟩) fun k he => ?_
    exact (congrArg Prod.snd boundRows_harvest).trans he
  | epoch r =>
    cases hs
    have rows : ∀ k, boundRows (upsertSettledEpoch s.db r) k = boundRows s.db k :=
      fun k => boundRows_congr (upsertSettledEpoch_tickets s.db r)
    refine h.frame (fun _ _ hn => .inl hn) (fun k c hc _ => ⟨?_, rows k⟩) fun k he => ?_
    · rwa [Db.claim?, upsertSettledEpoch_payoutClaims] at hc
    · exact (congrArg Prod.snd (rows k)).trans he

/-- Two claims of one wallet are never charged at once, so no stamp makes a twin. -/
theorem OneCharged.twinSafe {s : State} (b : Book s) (bound : Bound s) (h : OneCharged s)
    (a : Action) : twinSafe s a = true := by
  unfold Payout.twinSafe
  cases hv : stamping s a with
  | none => rfl
  | some v =>
    obtain ⟨i, hr⟩ : ∃ i : Nat, s.requests[i]? = some (.built v) := by
      unfold stamping at hv
      split at hv
      · split at hv <;> cases hv
        rename_i hr
        exact ⟨_, hr⟩
      · cases hv
    rw [Option.all_some, Bool.or_eq_true, bne_iff_ne, Bool.not_eq_true']
    by_contra twin
    rw [not_or, not_not, Bool.not_eq_false] at twin
    obtain ⟨pending, twin⟩ := twin
    obtain ⟨c, hc, htwin⟩ := List.any_eq_true.1 twin
    simp only [Bool.and_eq_true, beq_iff_eq, bne_iff_ne] at htwin
    obtain ⟨⟨⟨hl, hw⟩, -⟩, hne⟩ := htwin
    have row := Table.findUnique_of_mem b.ids hc
    have hcharged : charged s c = true := charged_iff.2
      ⟨(live_iff.1 hl).1, h.bound _ c row hl, .inl (live_iff.1 hl).2⟩
    obtain ⟨own, ho, hp⟩ := status?_eq_some.1 pending
    obtain ⟨j, hj, ha⟩ := b.requestRow i _ v.claimId hr rfl
    rw [issue?, ho] at hj
    cases hj
    have hid : own.id = v.claimId := Table.key_of_findUnique ho
    have hold : Holds s v.claimId v.amount v.tickets := .inl ⟨i, by rw [hr]; rfl⟩
    have rows := bound.held _ _ _ own hold ho fun released => released.1 hp
    have ownCharged : charged s own = true := by
      refine charged_iff.2 ⟨hp, ?_, .inr ⟨i, ?_⟩⟩
      · rw [hid]
        exact boundIds_ne_nil rows (bound.positive _ _ _ hold)
      · rw [hr, hid]
        rfl
    exact hne (h.one _ _ c own row ho hcharged ownCharged (hw.trans ha.1.symm))

/-- **One live voucher per wallet** in every run in which no handler binds tickets while
another claim of the wallet is charged. -/
theorem one_live_voucher {s : State} (h : machine.ReachableBy (fun s a => bindSafe s a = true) s) :
    OneLive s := by
  have inv : Book s ∧ Attribution s ∧ Bound s ∧ OneCharged s := by
    refine h.invariant (I := fun s => Book s ∧ Attribution s ∧ Bound s ∧ OneCharged s) ?_ ?_
    · exact fun s hi => ⟨.initial hi, .initial hi, .initial hi, .initial hi⟩
    · rintro s a s' ⟨b, att, bound, one⟩ ok hs
      exact ⟨b.step hs, att.step b (one.twinSafe b bound a) hs, bound.step b att hs,
        one.step b bound ok hs⟩
  exact inv.2.2.2.oneLive inv.1

/-- A wallet with one harvested ticket and one whose harvest is under way. -/
def harvesting : State :=
  { oneTicket with
    db := { oneTicket.db with
      tickets := oneTicket.db.tickets ++
        [{ id := "u", orderHash := "order", bonusBall := 2, normalBalls := [1, 2, 3, 4, 6],
           winStatus := .WON_UNCLAIMED, winAmount := 50, harvestBatchId := some "batch" }] } }

theorem initial_harvesting : Initial harvesting := by
  constructor <;> simp [harvesting, oneTicket]

/-- Two handlers look for a live claim, and neither has created its own yet. -/
def bothLook : List Action :=
  [.request "w", .request "w", .route 0 (.gate false), .route 0 .findExisting,
    .route 1 (.gate false), .route 1 .findExisting]

/-- The other steps of a handler. -/
def issueVoucher (i : Nat) (id : Uuid) (l : Nat) : List Action :=
  [.readRevealed, .create id, .bind, .sum, .ceiling true, .build (some l), .stamp false,
    .handOut].map (.route i)

/-- The second ticket is harvested between the two binds, and both handlers hand out. -/
theorem two_live_vouchers : ¬ ∀ s, machine.Reachable s → OneLive s := by
  intro all
  obtain ⟨s, hs, hp⟩ := Machine.exists_reachable_of_run (M := machine) initial_harvesting
    (bothLook ++ issueVoucher 0 "A" 1150 ++ [.harvest "batch" "0xharvest"] ++
      issueVoucher 1 "B" 1151)
    (fun s => (s.db.payoutClaims.filter fun c => c.wallet == "w" && live c).length == 2)
    (by decide)
  have := all s hs "w"
  rw [beq_iff_eq.1 hp] at this
  omega

/-- Without the harvest the second handler binds nothing and answers 404. -/
theorem one_live_voucher_raced : ∃ s, s.db.payoutClaims.length = 1 ∧ OneLive s := by
  obtain ⟨s, hs, hp⟩ := Machine.exists_reachableBy_of_runBy (M := machine) bindSafe
    initial_harvesting
    (bothLook ++ issueVoucher 0 "A" 1150 ++
      [.readRevealed, .create "B", .bind, .sum, .delete].map (.route 1))
    (fun s => s.db.payoutClaims.length == 1) (by decide)
  exact ⟨s, beq_iff_eq.1 hp, one_live_voucher hs⟩

end LordsPot.Payout
