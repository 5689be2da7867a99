import LordsPot.Payout.Sweep
import LordsPot.Payout.System

/-!
# When a complete sweep is complete

`complete = true` is read as proof that a claim that was not found never landed. It is
proof of that exactly when every transaction of the window that carries a claim is in
front of the first one too old and of the first short page, and its decode, cached or
fetched, came back with its events: a transaction the node does not have, or has without
its logs, decodes to no claim at all, and the empty decode of the second kind is cached.
-/

namespace LordsPot.Payout

open Collect

section Completeness

variable (parseLogs : List String → List AnchorEvent) (chain : Signature → List String)

/-- A complete sweep contains the winnings events of every transaction in the window. -/
def SweepComplete (node : Node) (history : List SignatureInfo) (cache : Cache)
    (notBefore : Nat) : Prop :=
  (findLandedClaims parseLogs chain node history cache notBefore).1.complete = true →
    ∀ s ∈ history, (∀ bt, s.blockTime = some bt → notBefore ≤ bt) →
      ∀ ev ∈ winningsClaimed parseLogs chain s.signature,
        collected s ev ∈ (findLandedClaims parseLogs chain node history cache notBefore).1.claims

/-! ## What decides it

The prior cache, the history, and the node's answers: how many signatures it returns for each page and
what it has for each signature.
-/

/-- The node fills every page there may be, and none of these transactions is too old: the walk gives
up. -/
def TooLong (node : Node) (history : List SignatureInfo) (notBefore : Nat) : Prop :=
  (∀ page < MAX_PAGES, PAGE ≤ node.pageLen page) ∧ MAX_PAGES * PAGE ≤ history.length ∧
    ∀ s ∈ history.take (MAX_PAGES * PAGE), tooOld notBefore s = false

/-- The node returns the i-th signature: it fills the pages before its own, and reaches it there. -/
def onPage (node : Node) (i : Nat) : Prop :=
  i < MAX_PAGES * PAGE ∧ (∀ page < i / PAGE, PAGE ≤ node.pageLen page) ∧
    i % PAGE < node.pageLen (i / PAGE)

/-- What the prior cache still has for a signature when `n` more entries have been made. -/
def kept (cache : Cache) (n : Nat) (signature : Signature) : Option (List (Wallet × Nat)) :=
  (cache.drop (cache.length + n - CLAIM_CACHE_MAX)).lookup signature

/-- How many entries these signatures make: the node knows the transaction, and the prior cache does not
have it, or no longer. -/
def additions (node : Node) (cache : Cache) (sigs : List SignatureInfo) : Nat :=
  sigs.foldl (fun n s => if (kept cache n s.signature).isNone && node.getTransaction s.signature != .null
    then n + 1 else n) 0

/-- A decode is found with its events, or is not found and the node returns the transaction with its
logs. -/
def reads (node : Node) (found : Option (List (Wallet × Nat))) (signature : Signature) : Bool :=
  match found with
  | some events => !events.isEmpty
  | none => node.getTransaction signature == .full

/-- Every transaction of the window with a claim is returned by the node, is not behind one that is too
old, and is in the prior cache with its events or is not there and comes back with its logs. -/
def Covered (node : Node) (history : List SignatureInfo) (cache : Cache) (notBefore : Nat) : Prop :=
  TooLong node history notBefore ∨ ∀ i s, history[i]? = some s → tooOld notBefore s = false →
    winningsClaimed parseLogs chain s.signature ≠ [] →
      onPage node i ∧ (s.blockTime = none → ∀ s' ∈ history.take i, tooOld notBefore s' = false) ∧
        reads node (kept cache (additions node cache (history.take i)) s.signature) s.signature = true

variable {parseLogs chain} {node : Node} {history : List SignatureInfo} {cache : Cache}
  {notBefore : Nat}

/-- Whether the walk ends before the page ceiling. -/
def exhausted (node : Node) (history : List SignatureInfo) (notBefore : Nat) : Bool :=
  (offered node MAX_PAGES 0 history.length).2 ||
    (history.take (offered node MAX_PAGES 0 history.length).1).any (tooOld notBefore)

/-- The cache in which the sweep decodes the i-th signature, having decoded those before. -/
def cacheAt (parseLogs : List String → List AnchorEvent) (chain : Signature → List String) (node : Node)
    (history : List SignatureInfo) (cache : Cache) (i : Nat) : Cache :=
  (collect (decodeEntry parseLogs chain node) (history.take i) cache).2

/-! ## The pages -/

/-- The node fills so many pages from this one on. -/
theorem full_succ {pages page : Nat} : (∀ q < pages + 1, PAGE ≤ node.pageLen (page + q)) ↔
    PAGE ≤ node.pageLen page ∧ ∀ q < pages, PAGE ≤ node.pageLen (page + 1 + q) := by
  rw [Nat.forall_lt_succ_left, Nat.add_zero]
  simp only [Nat.add_assoc, Nat.add_comm 1]

theorem offered_short {pages page left : Nat} : (offered node pages page left).2 = false ↔
    (∀ q < pages, PAGE ≤ node.pageLen (page + q)) ∧ pages * PAGE ≤ left := by
  induction pages generalizing page left with
  | zero => simp [offered]
  | succ pages ih =>
    simp only [offered]
    rw [full_succ, Nat.succ_mul]
    split
    · simp only [Bool.true_eq_false, false_iff]
      rintro ⟨⟨full, -⟩, long⟩
      omega
    · rw [ih]
      constructor
      · rintro ⟨later, long⟩
        exact ⟨⟨by omega, later⟩, by omega⟩
      · rintro ⟨⟨-, later⟩, long⟩
        exact ⟨later, by omega⟩

theorem offered_full {pages page left : Nat} (full : (offered node pages page left).2 = false) :
    (offered node pages page left).1 = pages * PAGE := by
  induction pages generalizing page left with
  | zero => simp [offered]
  | succ pages ih =>
    simp only [offered] at full ⊢
    split
    · rename_i short
      rw [if_pos short] at full
      cases full
    · rename_i long
      rw [if_neg long] at full
      rw [ih full, Nat.succ_mul, Nat.add_comm]

/-- The walk ends unless it is too long. -/
theorem exhausted_eq_false : exhausted node history notBefore = false ↔ TooLong node history notBefore := by
  rw [exhausted, Bool.or_eq_false_iff, TooLong, offered_short]
  simp only [Nat.zero_add]
  constructor
  · rintro ⟨⟨full, long⟩, fresh⟩
    have all := offered_full (offered_short.2 ⟨fun q lt => (Nat.zero_add q).symm ▸ full q lt, long⟩)
    rw [all] at fresh
    exact ⟨full, long, fun s hs => by simpa using List.any_eq_false.1 fresh s hs⟩
  · rintro ⟨full, long, fresh⟩
    refine ⟨⟨full, long⟩, ?_⟩
    rw [offered_full (offered_short.2 ⟨fun q lt => (Nat.zero_add q).symm ▸ full q lt, long⟩)]
    exact List.any_eq_false.2 fun s hs => by simpa using fresh s hs

theorem lt_offered {pages page left i : Nat} (inside : i < left) :
    i < (offered node pages page left).1 ↔ i < pages * PAGE ∧
      (∀ q < i / PAGE, PAGE ≤ node.pageLen (page + q)) ∧ i % PAGE < node.pageLen (page + i / PAGE) := by
  have some : 0 < PAGE := by decide
  induction pages generalizing page left i with
  | zero => simp [offered]
  | succ pages ih =>
    simp only [offered]
    by_cases here : i < PAGE
    · rw [Nat.div_eq_of_lt here, Nat.mod_eq_of_lt here]
      have within : i < (pages + 1) * PAGE := by rw [Nat.succ_mul]; omega
      simp only [within, Nat.not_lt_zero, false_implies, implies_true, true_and, Nat.add_zero]
      split <;> omega
    · obtain ⟨j, rfl⟩ : ∃ j, i = j + PAGE := ⟨i - PAGE, by omega⟩
      rw [Nat.add_div_right _ some, Nat.add_mod_right, Nat.succ_mul, Nat.add_lt_add_iff_right, full_succ]
      split
      · rename_i short
        constructor
        · intro lt
          omega
        · rintro ⟨-, ⟨full, -⟩, -⟩
          omega
      · rename_i long
        have full : PAGE ≤ node.pageLen page := by omega
        rw [Nat.add_comm PAGE, Nat.add_lt_add_iff_right]
        refine (ih (by omega)).trans ?_
        rw [Nat.add_assoc page, Nat.add_comm 1]
        simp only [full, true_and]

theorem onPage_iff {i : Nat} (inside : i < history.length) :
    i < (offered node MAX_PAGES 0 history.length).1 ↔ onPage node i := by
  rw [lt_offered inside, onPage]
  simp only [Nat.zero_add]

/-! ## The cache -/

/-- A cached decode is the transaction's events or empty. -/
def CacheOk (parseLogs : List String → List AnchorEvent) (chain : Signature → List String)
    (cache : Cache) : Prop :=
  ∀ entry ∈ cache, entry.2 = [] ∨ entry.2 = winningsClaimed parseLogs chain entry.1

theorem CacheOk.remember (h : CacheOk parseLogs chain cache) {signature : Signature}
    {events : List (Wallet × Nat)}
    (new : events = [] ∨ events = winningsClaimed parseLogs chain signature) :
    CacheOk parseLogs chain (remember cache signature events) := by
  intro entry he
  rcases List.mem_append.1 he with he | he
  · split at he
    · exact h entry (List.mem_of_mem_tail he)
    · exact h entry he
  · cases List.mem_singleton.1 he
    exact new

theorem CacheOk.decodeCached (h : CacheOk parseLogs chain cache) (node : Node) (signature : Signature) :
    CacheOk parseLogs chain (decodeCached parseLogs chain node signature cache).2 := by
  unfold Payout.decodeCached
  split
  · exact h
  · split
    · exact h
    · exact h.remember (.inl rfl)
    · exact h.remember (.inr rfl)

/-- What every decode keeps holds of the caches that sweeps leave. -/
theorem LeftBySweeps.state {I : Cache → Prop} (empty : I [])
    (keep : ∀ node signature cache, I cache → I (decodeCached parseLogs chain node signature cache).2)
    (h : LeftBySweeps parseLogs chain cache) : I cache := by
  have walk : ∀ (node : Node) (history : List SignatureInfo) (notBefore pages page : Nat)
      (before : Option Signature) (cache : Cache) (acc : List LandedClaim), I cache →
      I (walkPages parseLogs chain node history notBefore pages page before cache acc).2 := by
    intro node history notBefore pages
    induction pages with
    | zero => exact fun _ _ _ _ h => h
    | succ pages ih =>
      intro page before cache acc h
      have next := collect_state (f := decodeEntry parseLogs chain node) (I := I)
        (fun s cache h => keep node s.signature cache h)
        ((getSignaturesForAddress node history page before).takeWhile fun s => !tooOld notBefore s) h
      simp only [Payout.walkPages, scanPage_eq]
      split
      · exact h
      · split
        · exact next
        · split
          · exact next
          · exact ih _ _ _ _ next
  induction h with
  | empty => exact empty
  | sweep node history notBefore _ ih => exact walk _ _ _ _ _ _ _ _ ih

/-- Earlier sweeps leave such a cache. -/
theorem LeftBySweeps.cacheOk (h : LeftBySweeps parseLogs chain cache) : CacheOk parseLogs chain cache :=
  h.state (fun _ he => by cases he) fun node signature _ ok => ok.decodeCached node signature

theorem LeftBySweeps.cacheAt_ok (h : LeftBySweeps parseLogs chain cache) (i : Nat) :
    CacheOk parseLogs chain (cacheAt parseLogs chain node history cache i) :=
  collect_state (I := CacheOk parseLogs chain) (fun s _ ok => ok.decodeCached node s.signature) _ h.cacheOk

theorem length_remember (small : cache.length ≤ CLAIM_CACHE_MAX) (signature : Signature)
    (events : List (Wallet × Nat)) : (remember cache signature events).length ≤ CLAIM_CACHE_MAX := by
  have some : 0 < CLAIM_CACHE_MAX := by decide
  rw [remember, List.length_append, List.length_singleton]
  split
  · rw [List.length_tail]
    omega
  · omega

theorem LeftBySweeps.length_le (h : LeftBySweeps parseLogs chain cache) :
    cache.length ≤ CLAIM_CACHE_MAX := by
  refine h.state (I := fun cache => cache.length ≤ CLAIM_CACHE_MAX) (Nat.zero_le _)
    fun node signature cache small => ?_
  unfold decodeCached
  split
  · exact small
  · split
    · exact small
    · exact length_remember small ..
    · exact length_remember small ..

/-- The prior cache with the entries made since, of which the oldest have made room. -/
def grown (cache added : Cache) : Cache :=
  (cache ++ added).drop (cache.length + added.length - CLAIM_CACHE_MAX)

/-- What it has for a signature that has not been added is what is kept. -/
theorem lookup_grown {added : Cache} {signature : Signature}
    (fresh : signature ∉ added.map Prod.fst) :
    (grown cache added).lookup signature = kept cache added.length signature := by
  have none : ∀ n, (added.drop n).lookup signature = none := by
    intro n
    refine List.lookup_eq_none_iff.2 fun entry he => bne_iff_ne.2 fun same => fresh ?_
    exact List.mem_map.2 ⟨entry, List.mem_of_mem_drop he, same.symm⟩
  rw [grown, kept, List.drop_append, List.lookup_append, none, Option.or_none]

/-- Making room for one more keeps the newest. -/
theorem newest_append {α : Type} {most : Nat} (some : 0 < most) (xs : List α) (x : α) :
    (if most ≤ (xs.drop (xs.length - most)).length then (xs.drop (xs.length - most)).tail
      else xs.drop (xs.length - most)) ++ [x] = (xs ++ [x]).drop (xs.length + 1 - most) := by
  rw [List.length_drop]
  split
  · rename_i full
    rw [List.tail_drop, List.drop_append_of_le_length (by omega)]
    congr 2
    omega
  · rename_i room
    rw [List.drop_append_of_le_length (by omega)]
    congr 2
    omega

theorem remember_grown (added : Cache) (signature : Signature) (events : List (Wallet × Nat)) :
    remember (grown cache added) signature events = grown cache (added ++ [(signature, events)]) := by
  have some : 0 < CLAIM_CACHE_MAX := by decide
  have newest := newest_append some (cache ++ added) (signature, events)
  rw [List.length_append] at newest
  rw [grown, remember, newest, grown, List.append_assoc, List.length_append, List.length_singleton,
    Nat.add_assoc]

theorem additions_append (sigs : List SignatureInfo) (s : SignatureInfo) :
    additions node cache (sigs ++ [s]) =
      if (kept cache (additions node cache sigs) s.signature).isNone && node.getTransaction s.signature != .null
      then additions node cache sigs + 1 else additions node cache sigs := by
  rw [additions, List.foldl_append, List.foldl_cons, List.foldl_nil, ← additions]

/-- What the sweep has added after some signatures. -/
theorem collect_grown (small : cache.length ≤ CLAIM_CACHE_MAX) {sigs : List SignatureInfo}
    (distinct : (sigs.map (·.signature)).Nodup) :
    ∃ added, (collect (decodeEntry parseLogs chain node) sigs cache).2 = grown cache added ∧
      added.length = additions node cache sigs ∧ added.map Prod.fst ⊆ sigs.map (·.signature) := by
  induction sigs using List.reverseRecOn with
  | nil =>
    refine ⟨[], ?_, rfl, List.Subset.refl _⟩
    have room : cache.length + ([] : Cache).length - CLAIM_CACHE_MAX = 0 := Nat.sub_eq_zero_of_le small
    rw [grown, room, List.append_nil, List.drop_zero, collect_nil]
  | append_singleton sigs s ih =>
    rw [List.map_append, List.map_singleton, List.nodup_append] at distinct
    obtain ⟨added, state, count, names⟩ := ih distinct.1
    have fresh : s.signature ∉ added.map Prod.fst := fun mem =>
      distinct.2.2 _ (names mem) _ (List.mem_singleton_self _) rfl
    have step : (collect (decodeEntry parseLogs chain node) (sigs ++ [s]) cache).2 =
        (decodeCached parseLogs chain node s.signature (grown cache added)).2 := by
      rw [collect_append, ← state]
      rfl
    rw [step, additions_append, ← count, decodeCached, lookup_grown fresh, List.map_append]
    cases kept cache added.length s.signature with
    | some events => exact ⟨added, by simp only, by simp, List.subset_append_of_subset_left _ names⟩
    | none =>
      have more : ∀ events : List (Wallet × Nat),
          (added ++ [(s.signature, events)]).map Prod.fst ⊆ sigs.map (·.signature) ++ [s].map (·.signature) := by
        intro events
        rw [List.map_append]
        exact List.append_subset.2 ⟨List.subset_append_of_subset_left _ names, List.subset_append_right _ _⟩
      cases node.getTransaction s.signature with
      | null => exact ⟨added, by simp only, by simp, List.subset_append_of_subset_left _ names⟩
      | withoutLogs => exact ⟨_, remember_grown .., by simp, more _⟩
      | full => exact ⟨_, remember_grown .., by simp, more _⟩

/-- **The cache at a signature** has what the prior one still keeps of it. -/
theorem lookup_cacheAt (small : cache.length ≤ CLAIM_CACHE_MAX) (distinct : (history.map (·.signature)).Nodup)
    {i : Nat} {s : SignatureInfo} (hs : history[i]? = some s) :
    (cacheAt parseLogs chain node history cache i).lookup s.signature =
      kept cache (additions node cache (history.take i)) s.signature := by
  have here : history = history.take i ++ s :: history.drop (i + 1) := by
    obtain ⟨lt, rfl⟩ := List.getElem?_eq_some_iff.1 hs
    rw [← List.drop_eq_getElem_cons lt, List.take_append_drop]
  rw [here, List.map_append, List.nodup_append] at distinct
  obtain ⟨added, state, count, names⟩ := @collect_grown parseLogs chain node _ small _ distinct.1
  rw [cacheAt, state, lookup_grown, count]
  exact fun mem => distinct.2.2 _ (names mem) s.signature (by simp) rfl

/-! ## The sweep -/

theorem findLandedClaims_eq (distinct : (history.map (·.signature)).Nodup) :
    findLandedClaims parseLogs chain node history cache notBefore =
      let reach := history.take (offered node MAX_PAGES 0 history.length).1
      let fresh := collect (decodeEntry parseLogs chain node)
        (reach.takeWhile fun s => !tooOld notBefore s) cache
      (⟨fresh.1, exhausted node history notBefore⟩, fresh.2) := by
  rw [findLandedClaims, walkPages_eq distinct MAX_PAGES 0 none cache [] rfl ⟨[], rfl⟩]
  rfl

/-- What the decode of a signature gives in a cache that earlier sweeps left. -/
theorem decodeCached_eq (h : CacheOk parseLogs chain cache) {signature : Signature} :
    (decodeCached parseLogs chain node signature cache).1 =
      if reads node (cache.lookup signature) signature then winningsClaimed parseLogs chain signature
      else [] := by
  unfold decodeCached
  cases hc : cache.lookup signature with
  | some events =>
    obtain ⟨l₁, l₂, rfl, -⟩ := List.lookup_eq_some_iff.1 hc
    rcases h (signature, events) (by simp) with none | all
    · simp only at none
      simp [reads, none]
    · simp only at all
      simp only [reads, all]
      split
      · rfl
      · rename_i empty
        simpa using empty
  | none => cases answer : node.getTransaction signature <;> simp [reads, answer]

/-- An entry is collected when its position is reached and its decode gives the event. -/
theorem mem_findLandedClaims (distinct : (history.map (·.signature)).Nodup) {c : LandedClaim} :
    c ∈ (findLandedClaims parseLogs chain node history cache notBefore).1.claims ↔
      ∃ i s, history[i]? = some s ∧ i < (offered node MAX_PAGES 0 history.length).1 ∧
        (∀ s' ∈ history.take (i + 1), tooOld notBefore s' = false) ∧
        ∃ ev ∈ (decodeCached parseLogs chain node s.signature
          (cacheAt parseLogs chain node history cache i)).1, collected s ev = c := by
  rw [findLandedClaims_eq distinct]
  simp only [mem_collect]
  refine exists_congr fun i => exists_congr fun s => ?_
  constructor
  · rintro ⟨hs, hc⟩
    have hi := (List.getElem?_eq_some_iff.1 hs).1
    rw [take_takeWhile_take hi.le] at hc
    obtain ⟨hs, hn, fresh⟩ := getElem?_takeWhile_take.1 hs
    exact ⟨hs, hn, fun s' hs' => by simpa using fresh s' hs', List.mem_map.1 hc⟩
  · rintro ⟨hs, hn, fresh, hc⟩
    have hs' := (getElem?_takeWhile_take (p := fun s => !tooOld notBefore s)).2
      ⟨hs, hn, fun s' hs' => by simpa using fresh s' hs'⟩
    have hi := (List.getElem?_eq_some_iff.1 hs').1
    refine ⟨hs', ?_⟩
    rw [take_takeWhile_take hi.le]
    exact List.mem_map.2 hc

/-- A transaction that is not too old is in the window. -/
theorem tooOld_eq_false {s : SignatureInfo} : tooOld notBefore s = false ↔
    ∀ bt, s.blockTime = some bt → notBefore ≤ bt := by
  unfold tooOld
  cases s.blockTime <;> simp

/-- Block times of a history, newest first, do not increase where they are present. -/
def NewestFirst (history : List SignatureInfo) : Prop :=
  history.Pairwise fun newer older => ∀ t t', newer.blockTime = some t → older.blockTime = some t' →
    t' ≤ t

/-- A transaction with a block time in the window is behind none that is too old. -/
theorem not_tooOld_of_newer (newest : NewestFirst history) {i : Nat} {s : SignatureInfo}
    (hs : history[i]? = some s) {bt : Nat} (hbt : s.blockTime = some bt) (window : notBefore ≤ bt)
    {s' : SignatureInfo} (hs' : s' ∈ history.take i) : tooOld notBefore s' = false := by
  unfold tooOld
  split
  · rfl
  · rename_i bt' hbt'
    obtain ⟨j, hj⟩ := List.mem_iff_getElem?.1 hs'
    obtain ⟨hlt, hget⟩ := List.getElem?_eq_some_iff.1 hs
    rw [List.getElem?_take] at hj
    split at hj
    · rename_i hji
      obtain ⟨hlt', hget'⟩ := List.getElem?_eq_some_iff.1 hj
      have := List.pairwise_iff_getElem.1 newest j i hlt' hlt hji bt' bt (hget' ▸ hbt') (hget ▸ hbt)
      rw [decide_eq_false_iff_not]
      omega
    · cases hj

/-- A sweep that ends and covers the window finds its claims. -/
theorem sweepComplete_of_covered (distinct : (history.map (·.signature)).Nodup)
    (newest : NewestFirst history) (left : LeftBySweeps parseLogs chain cache)
    (covered : Covered parseLogs chain node history cache notBefore) :
    SweepComplete parseLogs chain node history cache notBefore := by
  intro ended s hmem inside ev hev
  rw [findLandedClaims_eq distinct] at ended
  rcases covered with long | covered
  · rw [exhausted_eq_false.2 long] at ended
    cases ended
  · obtain ⟨i, hs⟩ := List.mem_iff_getElem?.1 hmem
    have fresh := tooOld_eq_false.2 inside
    obtain ⟨page, newer, readable⟩ := covered i s hs fresh (List.ne_nil_of_mem hev)
    rw [← lookup_cacheAt left.length_le distinct hs] at readable
    have reached := (onPage_iff (List.getElem?_eq_some_iff.1 hs).1).2 page
    refine (mem_findLandedClaims distinct).2 ⟨i, s, hs, reached, fun s' hs' => ?_, ev, ?_, rfl⟩
    · rw [List.take_add_one, hs, List.mem_append] at hs'
      rcases hs' with hs' | hs'
      · cases hbt : s.blockTime with
        | none => exact newer hbt s' hs'
        | some bt => exact not_tooOld_of_newer newest hs hbt (inside bt hbt) hs'
      · obtain rfl := List.mem_singleton.1 hs'
        exact fresh
    · rw [decodeCached_eq (left.cacheAt_ok i), if_pos readable]
      exact hev

/-- A sweep that ends and finds the claims of the window has covered it. -/
theorem covered_of_sweepComplete (distinct : (history.map (·.signature)).Nodup)
    (left : LeftBySweeps parseLogs chain cache)
    (all : SweepComplete parseLogs chain node history cache notBefore) :
    Covered parseLogs chain node history cache notBefore := by
  cases ended : exhausted node history notBefore with
  | false => exact .inl (exhausted_eq_false.1 ended)
  | true =>
    refine .inr fun i s hs fresh claims => ?_
    obtain ⟨ev, hev⟩ := List.exists_mem_of_ne_nil _ claims
    have found := all (by rw [findLandedClaims_eq distinct, ended]) s (List.mem_of_getElem? hs)
      (tooOld_eq_false.1 fresh) ev hev
    obtain ⟨j, s', hs', hn, newer, ev', hev', he⟩ := (mem_findLandedClaims distinct).1 found
    have same : s' = s := List.inj_on_of_nodup_map distinct (List.mem_of_getElem? hs')
      (List.mem_of_getElem? hs) (congrArg LandedClaim.signature he)
    subst same
    have hj := (List.getElem?_eq_some_iff.1 hs').1
    obtain rfl : j = i := (List.getElem?_inj hj (List.Nodup.of_map _ distinct)).1 (hs'.trans hs.symm)
    refine ⟨(onPage_iff hj).1 hn, fun _ s'' hs'' => newer s'' ?_, ?_⟩
    · exact (List.take_subset_take_left _ (Nat.le_succ j)) hs''
    · have entry : (cacheAt parseLogs chain node history cache j).lookup s'.signature = _ :=
        lookup_cacheAt left.length_le distinct hs
      rw [← entry]
      rw [decodeCached_eq (left.cacheAt_ok j)] at hev'
      by_contra unread
      rw [if_neg unread] at hev'
      cases hev'

/-- **A complete sweep is complete** if and only if every transaction of the window with a
claim is covered. -/
theorem sweepComplete_iff_covered (distinct : (history.map (·.signature)).Nodup)
    (newest : NewestFirst history) (left : LeftBySweeps parseLogs chain cache) :
    SweepComplete parseLogs chain node history cache notBefore ↔
      Covered parseLogs chain node history cache notBefore :=
  ⟨covered_of_sweepComplete distinct left, sweepComplete_of_covered distinct newest left⟩

/-- A covered sweep of a history that records the landings gives the confirmer's machine a
truthful answer. -/
theorem truthful_of_covered (distinct : (history.map (·.signature)).Nodup)
    (newest : NewestFirst history) (left : LeftBySweeps parseLogs chain cache)
    (covered : Covered parseLogs chain node history cache notBefore) {before landed : List Landing}
    (real : ∀ s ∈ history, ∀ ev ∈ winningsClaimed parseLogs chain s.signature,
      ∃ l ∈ landed, l.claim = collected s ev)
    (recorded : ∀ l ∈ before, ∃ s ∈ history, ∃ ev ∈ winningsClaimed parseLogs chain s.signature,
      l.claim = collected s ev) :
    truthful notBefore before landed
      (findLandedClaims parseLogs chain node history cache notBefore).1 = true := by
  have complete := sweepComplete_of_covered distinct newest left covered
  simp only [truthful, Bool.and_eq_true, List.all_eq_true, List.any_eq_true, beq_iff_eq,
    Bool.or_eq_true, Bool.not_eq_true', List.contains_iff_mem]
  constructor
  · intro c hc
    obtain ⟨i, s, hs, -, -, ev, hev, rfl⟩ := (mem_findLandedClaims distinct).1 hc
    refine real s (List.mem_of_getElem? hs) ev ?_
    rw [decodeCached_eq (left.cacheAt_ok i)] at hev
    split at hev
    · exact hev
    · cases hev
  · cases hcomplete : (findLandedClaims parseLogs chain node history cache notBefore).1.complete with
    | false => exact .inl rfl
    | true =>
      refine .inr fun l hl => ?_
      obtain ⟨s, hs, ev, hev, he⟩ := recorded l hl
      cases hw : inWindow notBefore l with
      | false => exact .inl rfl
      | true =>
        refine .inr (he ▸ complete hcomplete s hs (fun bt hbt => ?_) ev hev)
        have time : l.blockTime = s.blockTime := congrArg LandedClaim.blockTime he
        rw [inWindow, time, hbt] at hw
        exact of_decide_eq_true hw

end Completeness

/-! ## One claim on chain -/

/-- An admin history of one claim and an older transaction that is no claim. -/
def oneClaim : List SignatureInfo :=
  [{ signature := "claim", slot := 7, blockTime := some 1000 },
    { signature := "fund", slot := 6, blockTime := none }]

def oneClaimLogs (signature : Signature) : List String :=
  if signature = "claim" then ["Program data: winnings"] else []

def parseOneClaim (logs : List String) : List AnchorEvent :=
  logs.map fun _ => { name := "winningsClaimedEvent", user := "w", amount := 100 }

/-- A node that has not caught up with the claim: the sweep is complete and empty. -/
theorem complete_sweep_misses_claim : ¬ ∀ parseLogs chain node history cache notBefore,
    (history.map fun s : SignatureInfo => s.signature).Nodup → NewestFirst history →
      LeftBySweeps parseLogs chain cache →
        SweepComplete parseLogs chain node history cache notBefore := by
  intro all
  have found := all parseOneClaim oneClaimLogs ⟨fun _ => 200, fun _ => .null⟩ oneClaim [] 900
    (by decide) (by simp [NewestFirst, oneClaim]) .empty (by decide)
    ⟨"claim", 7, false, some 1000⟩ (by decide) (by simp) ("w", 100) (by decide)
  revert found
  decide

/-- The cache holds the claim from an earlier sweep, and the node lags on the other transaction: the sweep
contains the claim. -/
theorem complete_sweep_finds_claim : SweepComplete parseOneClaim oneClaimLogs ⟨fun _ => 200, fun _ => .null⟩
    oneClaim [("claim", [("w", 100)])] 900 := by
  have earlier : LeftBySweeps parseOneClaim oneClaimLogs [("claim", [("w", 100)])] :=
    .sweep ⟨fun _ => 200, fun signature => if signature = "claim" then .full else .null⟩ oneClaim 900 .empty
  have newest : NewestFirst oneClaim := by simp [NewestFirst, oneClaim]
  refine (sweepComplete_iff_covered (by decide) newest earlier).2 (.inr fun i s hs _ claims => ?_)
  have here : i = 0 := by
    by_contra other
    have two : oneClaim.length = 2 := rfl
    obtain ⟨lt, rfl⟩ := List.getElem?_eq_some_iff.1 hs
    obtain rfl : i = 1 := by omega
    exact claims rfl
  subst here
  cases hs
  exact ⟨⟨by decide, by decide, by decide⟩, fun none => (by cases none), by decide⟩

end LordsPot.Payout
