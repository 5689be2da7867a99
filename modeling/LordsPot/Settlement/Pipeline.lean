import LordsPot.Megapot.Payload
import LordsPot.Settlement.Worker

/-!
# From a payload to a grade

The prize table is written by one service and read by another. `upsertSettledEpoch` drops tier 0,
takes the referral share off every payout and stores texts; `parsePrizeTiers` insists on integers
and digits. A table that the reader refuses leaves its epoch ungraded, and its row is never
fetched again. One that it takes may still pay a ticket what the payload does not say: the reader keeps
the last of two entries of one tier, and `Number` makes a tier of ids that are none.
-/

namespace LordsPot.Settlement

open Megapot (MegapotRoundResponse FormattedPrizeTier PrizeTiers WinningNumbers applyReferralShare bigInt
  isNumber payoutAmount processPrizeTier processPrizeTiers settledRound truthy)

/-! ## Texts of amounts -/

theorem isDigits_toString (n : Nat) : isDigits (toString n) = true := by
  have digits : (toString n).toList = Nat.toDigits 10 n := by simp
  have nonempty : (toString n).isEmpty = false := by
    rw [← Bool.not_eq_true, String.isEmpty_iff, ← String.toList_eq_nil_iff, digits]
    exact Nat.toDigits_ne_nil
  rw [isDigits, nonempty, digits, Bool.not_false, Bool.true_and, List.all_eq_true]
  intro c hc
  exact Nat.isDigit_of_mem_toDigits (by decide) (by decide) hc

theorem digitsValue_toString (n : Nat) : digitsValue (toString n) = n := by
  have digits : (toString n).toList = Nat.toDigits 10 n := by simp
  have value := Nat.ofDigitChars_ten_toDigits (n := n)
  rwa [Nat.ofDigitChars_eq_foldl, ← digits] at value

/-- The text of a negative number has a sign. -/
theorem isDigits_negative {n : Int} (neg : n < 0) : isDigits (toString n) = false := by
  have sign : (toString n).toList = '-' :: (Nat.toDigits 10 (-n).toNat) := by
    simp [Int.repr_eq_if, Int.not_le.2 neg]
  rw [isDigits, sign]
  simp

/-! ## The referral share -/

theorem applyReferralShare_nonneg {gross : Int} (h : 0 ≤ gross) :
    applyReferralShare gross = gross - gross * 1000 / 10000 := by
  have product : 0 ≤ gross * 1000 := by omega
  rw [applyReferralShare, Megapot.REFERRAL_WIN_SHARE_BPS, Int.tdiv_eq_ediv_of_nonneg product]

/-- What is left of a payout: nothing of nothing, else something, and no more than all of it. -/
theorem applyReferralShare_bounds {gross : Int} (h : 0 ≤ gross) :
    0 ≤ applyReferralShare gross ∧ applyReferralShare gross ≤ gross ∧
      (applyReferralShare gross = 0 ↔ gross = 0) := by
  rw [applyReferralShare_nonneg h]
  omega

theorem applyReferralShare_negative {gross : Int} (h : gross < 0) : applyReferralShare gross < 0 := by
  have cut : (gross * 1000).tdiv 10000 = -((-gross * 1000) / 10000) := by
    have product : 0 ≤ -gross * 1000 := by omega
    rw [← Int.tdiv_eq_ediv_of_nonneg product, ← Int.neg_tdiv]
    congr 1
    omega
  rw [applyReferralShare, Megapot.REFERRAL_WIN_SHARE_BPS, cut]
  omega

/-! ## The entries of a table -/

/-- The payout of an entry in units. -/
def payout (tier : Json) : Option Int :=
  match tier with
  | .obj fields => (payoutAmount fields).bind bigInt
  | _ => none

/-- The entries that are not dropped. -/
def keptTiers (prizeTiers : Json) : List Json :=
  match prizeTiers with
  | .arr tiers => tiers.filter fun tier => !isNumber (property tier "tier_id") 0
  | _ => []

/-! ## What a payload says

A payload names a tier by its number or by the text of it, and states a payout as a number or as a text
of one. What is written otherwise names no tier and states nothing, whatever the services make of it.
-/

/-- The entry is one for this tier. -/
def names (tierId : Nat) (tier : Json) : Bool :=
  match property tier "tier_id" with
  | some (.num n) => n == .int tierId
  | some (.str s) => s == toString tierId
  | _ => false

/-- The payout that an entry states. -/
def stated (tier : Json) : Option Int :=
  match tier with
  | .obj fields => match payoutAmount fields with
    | some (.num n) => bigInt (.num n)
    | some (.str s) => bigInt (.str s)
    | _ => none
  | _ => none

/-- The entries for a tier. -/
def entriesFor (prizeTiers : Json) (tierId : Nat) : List Json :=
  match prizeTiers with
  | .arr tiers => tiers.filter (names tierId)
  | _ => []

/-- What the payload pays for a tier: nothing for tier 0 and for a tier without an entry, else what all
its entries state. A tier whose entries differ has no payout. -/
def Pays (prizeTiers : Json) (tierId : Nat) (gross : Int) : Prop :=
  if tierId = 0 ∨ entriesFor prizeTiers tierId = [] then gross = 0
  else ∀ tier ∈ entriesFor prizeTiers tierId, stated tier = some gross

/-- The tier of a ticket in the drawing of a payload. -/
def drawnTier (winning : WinningNumbers) (t : GradableTicket) : Nat :=
  calcTierId t.normalBalls t.bonusBall winning.normals winning.bonusball

section Table

variable (stringToNumber : String → JsNumber)

/-- The stored table is accepted, and every ticket is graded with the net of what the payload pays for
its tier. -/
def GradedAs (prizeTiers : Json) (winning : WinningNumbers) (epoch : EpochRead) : Prop :=
  ∃ tiers, parsePrizeTiers stringToNumber epoch.prizeTiers = .ok tiers ∧ ∀ t : GradableTicket,
    ∃ gross, Pays prizeTiers (drawnTier winning t) gross ∧
      (gradeTicket epoch tiers t = none ↔ gross = 0) ∧
      ∀ prize amount, gradeTicket epoch tiers t = some (prize, amount) →
        (amount : Int) = gross - gross * 1000 / 10000 ∧ 1 ≤ amount ∧ (amount : Int) ≤ gross

/-- The tier that `Number` makes of an entry's id. -/
def tierNumber (tier : Json) : Option JsNumber :=
  (property tier "tier_id").map (number stringToNumber)

/-- The last entry that is read as this tier. -/
def lastTier? (tiers : List Json) (tierId : Int) : Option Json :=
  tiers.reverse.find? fun tier => tierNumber stringToNumber tier == some (.int tierId)

/-- The payout of the last entry that is kept and read as this tier. -/
def lastPayout (prizeTiers : Json) (tierId : Int) : Int :=
  ((lastTier? stringToNumber (keptTiers prizeTiers) tierId).bind payout).getD 0

/-- An entry the reader takes: an integer for its tier, and a payout that is not negative. -/
def readable (tier : Json) : Bool :=
  (tierNumber stringToNumber tier).any (fun n => n matches .int _) && (payout tier).any (0 ≤ ·)

/-- A table both services agree on with the payload: something is kept, all of it is readable, and the
last entry that is read as the tier of some ticket comes to the net of what the payload pays for it. -/
structure Sound (prizeTiers : Json) (winning : WinningNumbers) : Prop where
  kept : keptTiers prizeTiers ≠ []
  readable : ∀ tier ∈ keptTiers prizeTiers, readable stringToNumber tier = true
  agrees : ∀ t : GradableTicket, ∃ gross, Pays prizeTiers (drawnTier winning t) gross ∧
    applyReferralShare gross = applyReferralShare (lastPayout stringToNumber prizeTiers (drawnTier winning t))

end Table

/-! ## What the writer stores -/

/-- What is stored of an entry. -/
def format (tier : Json) : FormattedPrizeTier where
  tierId := property tier "tier_id"
  amount := toString (applyReferralShare ((payout tier).getD 0))
  ticketCount := (property tier "ticket_count").getD .null

theorem processPrizeTier_some {acc acc' : PrizeTiers} {tier : Json}
    (h : processPrizeTier acc tier = some acc') :
    (isNumber (property tier "tier_id") 0 = true ∧ acc' = acc) ∨
      (isNumber (property tier "tier_id") 0 = false ∧ (payout tier).isSome = true ∧
        acc'.formattedPrizeTiers = acc.formattedPrizeTiers ++ [format tier]) := by
  cases tier with
  | obj fields =>
    simp only [processPrizeTier] at h
    simp only [property]
    split at h
    · rename_i zero
      exact .inl ⟨zero, (Option.some.inj h).symm⟩
    · rename_i other
      obtain ⟨rawAmount, raw, h⟩ := Option.bind_eq_some_iff.1 h
      obtain ⟨ticketCount, tickets, h⟩ := Option.bind_eq_some_iff.1 h
      obtain ⟨count, -, h⟩ := Option.bind_eq_some_iff.1 h
      cases h
      have paid : payout (.obj fields) = some rawAmount := raw
      refine .inr ⟨Bool.eq_false_iff.2 other, ?_, ?_⟩
      · rw [paid, Option.isSome_some]
      · simp [format, paid, property, tickets]
  | _ => cases h

theorem processPrizeTiers_some {tiers : List Json} {acc acc' : PrizeTiers}
    (h : tiers.foldlM processPrizeTier acc = some acc') :
    (∀ tier ∈ keptTiers (.arr tiers), (payout tier).isSome) ∧
      acc'.formattedPrizeTiers =
        acc.formattedPrizeTiers ++ (keptTiers (.arr tiers)).map format := by
  induction tiers generalizing acc with
  | nil =>
    cases h
    simp [keptTiers]
  | cons tier tiers ih =>
    rw [List.foldlM_cons] at h
    obtain ⟨next, first, later⟩ := Option.bind_eq_some_iff.1 h
    obtain ⟨paid, stored⟩ := ih later
    simp only [keptTiers] at paid stored ⊢
    rcases processPrizeTier_some first with ⟨zero, rfl⟩ | ⟨other, now, added⟩
    · rw [List.filter_cons_of_neg (by simp [zero])]
      exact ⟨paid, stored⟩
    · rw [List.filter_cons_of_pos (by simp [other])]
      constructor
      · exact List.forall_mem_cons.2 ⟨now, paid⟩
      · rw [stored, added, List.map_cons, List.append_assoc, List.singleton_append]

/-- A round that is written has the numbers of its payload, and a table whose kept entries all have a
payout. -/
theorem settledRound_some {data : MegapotRoundResponse} {round : SettledRound}
    (h : settledRound data = some (some round)) :
    (∃ winning, data.winningNumbers = some winning ∧ round.winningNormals = winning.normals ∧
      round.winningBonusBall = winning.bonusball) ∧
    (∀ tier ∈ keptTiers data.prizeTiers, (payout tier).isSome) ∧
      round.prizeTiers = .arr ((keptTiers data.prizeTiers).map fun tier => (format tier).toJson) := by
  unfold settledRound at h
  split at h
  · cases h
  split at h
  · cases h
  rename_i winningNumbers drawn
  obtain ⟨tiers, processed, h⟩ := Option.bind_eq_some_iff.1 h
  obtain ⟨rawTopPrize, -, h⟩ := Option.bind_eq_some_iff.1 h
  cases h
  unfold MegapotRoundResponse.drawing? at drawn
  split at drawn
  · rename_i both
    refine ⟨⟨winningNumbers, drawn, rfl, rfl⟩, ?_⟩
    have posted : truthy data.prizeTiers = true := (Bool.and_eq_true_iff.1 both).2
    unfold processPrizeTiers at processed
    rw [posted, Bool.not_true, if_neg Bool.false_ne_true] at processed
    cases table : data.prizeTiers with
    | arr entries =>
      rw [table] at processed
      obtain ⟨paid, stored⟩ := processPrizeTiers_some processed
      refine ⟨paid, ?_⟩
      simp [stored]
    | _ =>
      rw [table] at processed
      cases processed
  · cases drawn

/-! ## What the reader makes of it -/

section Read

variable {stringToNumber : String → JsNumber}

theorem readable_iff {tier : Json} : readable stringToNumber tier = true ↔
    ∃ n gross, tierNumber stringToNumber tier = some (.int n) ∧ payout tier = some gross ∧ 0 ≤ gross := by
  rw [readable, Bool.and_eq_true, Option.any_eq_true, Option.any_eq_true]
  constructor
  · rintro ⟨⟨number, read, integer⟩, gross, paid, nonneg⟩
    cases number with
    | int n => exact ⟨n, gross, read, paid, by simpa using nonneg⟩
    | other => cases integer
  · rintro ⟨n, gross, read, paid, nonneg⟩
    exact ⟨⟨_, read, rfl⟩, gross, paid, by simpa using nonneg⟩

theorem Tiers.get_set (tiers : Tiers) (n tierId : Int) (amount : Nat) :
    (tiers.set n amount).get tierId = if n = tierId then some amount else tiers.get tierId := by
  rw [Tiers.set, Tiers.get, List.lookup_cons]
  by_cases same : n = tierId
  · simp [same]
  · simp [same, Tiers.get, beq_false_of_ne (Ne.symm same)]

theorem lastTier?_cons (tier : Json) (entries : List Json) (tierId : Int) :
    lastTier? stringToNumber (tier :: entries) tierId = (lastTier? stringToNumber entries tierId).or
      (if tierNumber stringToNumber tier = some (.int tierId) then some tier else none) := by
  simp [lastTier?, List.find?_singleton]

/-- The units an entry is stored with. -/
def netPayout (tier : Json) : Nat := (applyReferralShare ((payout tier).getD 0)).toNat

theorem property_tierId (tier : Json) :
    property (format tier).toJson "tierId" = property tier "tier_id" := by
  rw [FormattedPrizeTier.toJson, property]
  show List.lookup _ ((Option.map _ (property tier "tier_id")).toList ++ _) = _
  cases property tier "tier_id" <;> rfl

theorem property_amount (tier : Json) : property (format tier).toJson "amount" =
    some (.str (toString (applyReferralShare ((payout tier).getD 0)))) := by
  rw [FormattedPrizeTier.toJson, property]
  show List.lookup _ ((Option.map _ (property tier "tier_id")).toList ++ _) = _
  cases property tier "tier_id" <;> rfl

/-- A stored entry is taken exactly when it is readable. -/
theorem parseTier_format {tiers tiers' : Tiers} {tier : Json} {gross : Int}
    (paid : payout tier = some gross) :
    parseTier stringToNumber tiers (format tier).toJson = .ok tiers' ↔
      ∃ n, tierNumber stringToNumber tier = some (.int n) ∧ 0 ≤ gross ∧
        tiers' = tiers.set n (netPayout tier) := by
  unfold parseTier
  rw [property_tierId, property_amount, tierNumber, netPayout, paid, Option.getD_some]
  rcases Int.lt_or_le gross 0 with negative | nonneg
  · have refused := isDigits_negative (applyReferralShare_negative negative)
    constructor
    · intro h
      split at h
      · rename_i text
        cases text
        rw [refused] at h
        cases h
      · cases h
    · rintro ⟨n, -, nonneg, -⟩
      omega
  · obtain ⟨net, amount⟩ : ∃ net : Nat, applyReferralShare gross = net :=
      Int.eq_ofNat_of_zero_le (applyReferralShare_bounds nonneg).1
    rw [amount, show toString (net : Int) = toString net from rfl]
    cases (property tier "tier_id").map (number stringToNumber) with
    | none => simp
    | some read =>
      cases read with
      | int n =>
        simp only [isDigits_toString, digitsValue_toString, if_true, Except.ok.injEq, Option.some.injEq,
          JsNumber.int.injEq, Int.toNat_natCast]
        constructor
        · rintro rfl
          exact ⟨n, rfl, nonneg, rfl⟩
        · rintro ⟨n, rfl, -, rfl⟩
          rfl
      | other => simp

/-- A list of readable entries is taken. -/
theorem parse_format_ok {entries : List Json} (taken : ∀ tier ∈ entries, readable stringToNumber tier = true)
    (tiers : Tiers) : ∃ tiers', (entries.map fun tier => (format tier).toJson).foldlM
      (parseTier stringToNumber) tiers = .ok tiers' := by
  induction entries generalizing tiers with
  | nil => exact ⟨tiers, rfl⟩
  | cons tier entries ih =>
    obtain ⟨here, later⟩ := List.forall_mem_cons.1 taken
    obtain ⟨n, gross, read, paid, nonneg⟩ := readable_iff.1 here
    rw [List.map_cons, List.foldlM_cons, (parseTier_format paid).2 ⟨n, read, nonneg, rfl⟩]
    exact ih later _

/-- A list that is taken has readable entries only, and the last one of a tier counts. -/
theorem of_parse_format (tiers : Tiers) {entries : List Json}
    (paid : ∀ tier ∈ entries, (payout tier).isSome = true) {tiers' : Tiers}
    (h : (entries.map fun tier => (format tier).toJson).foldlM
      (parseTier stringToNumber) tiers = .ok tiers') :
    (∀ tier ∈ entries, readable stringToNumber tier = true) ∧ ∀ tierId,
      tiers'.get tierId =
        ((lastTier? stringToNumber entries tierId).map netPayout).or (tiers.get tierId) := by
  induction entries generalizing tiers with
  | nil =>
    cases h
    exact ⟨fun _ mem => absurd mem List.not_mem_nil, fun _ => rfl⟩
  | cons tier entries ih =>
    obtain ⟨here, paid⟩ := List.forall_mem_cons.1 paid
    obtain ⟨gross, here⟩ := Option.isSome_iff_exists.1 here
    rw [List.map_cons, List.foldlM_cons] at h
    cases first : parseTier stringToNumber tiers (format tier).toJson with
    | error e =>
      rw [first] at h
      cases h
    | ok next =>
      rw [first] at h
      obtain ⟨later, gets⟩ := ih next paid h
      obtain ⟨n, read, nonneg, rfl⟩ := (parseTier_format here).1 first
      refine ⟨List.forall_mem_cons.2 ⟨readable_iff.2 ⟨n, gross, read, here, nonneg⟩, later⟩, ?_⟩
      intro tierId
      rw [gets, lastTier?_cons, Tiers.get_set, read]
      cases lastTier? stringToNumber entries tierId with
      | some last => rfl
      | none =>
        by_cases same : n = tierId
        · simp [same]
        · simp [same]

/-- The stored table is taken exactly when something is kept and all of it is readable. -/
theorem parsePrizeTiers_stored {prizeTiers : Json}
    (paid : ∀ tier ∈ keptTiers prizeTiers, (payout tier).isSome = true) {tiers : Tiers}
    (h : parsePrizeTiers stringToNumber
      (.arr ((keptTiers prizeTiers).map fun tier => (format tier).toJson)) = .ok tiers) :
    keptTiers prizeTiers ≠ [] ∧ (∀ tier ∈ keptTiers prizeTiers, readable stringToNumber tier = true) ∧
      ∀ tierId, tiers.get tierId =
        (lastTier? stringToNumber (keptTiers prizeTiers) tierId).map netPayout := by
  generalize keptTiers prizeTiers = kept at paid h ⊢
  cases kept with
  | nil => cases h
  | cons tier entries =>
    obtain ⟨taken, gets⟩ := of_parse_format [] paid h
    refine ⟨fun empty => List.cons_ne_nil _ _ empty, taken, fun tierId => ?_⟩
    rw [gets, Tiers.get, List.lookup_nil, Option.or_none]

theorem mem_of_lastTier? {entries : List Json} {tierId : Int} {tier : Json}
    (h : lastTier? stringToNumber entries tierId = some tier) : tier ∈ entries :=
  List.mem_reverse.1 (List.mem_of_find?_eq_some h)

/-- The units of a readable entry. -/
theorem netPayout_readable {tier : Json} (taken : readable stringToNumber tier = true) :
    ∃ gross, payout tier = some gross ∧ 0 ≤ gross ∧ (netPayout tier : Int) = applyReferralShare gross := by
  obtain ⟨n, gross, -, paid, nonneg⟩ := readable_iff.1 taken
  refine ⟨gross, paid, nonneg, ?_⟩
  rw [netPayout, paid, Option.getD_some, Int.toNat_of_nonneg (applyReferralShare_bounds nonneg).1]

theorem gradeTicket_eq_none {epoch : EpochRead} {tiers : Tiers} {t : GradableTicket} :
    gradeTicket epoch tiers t = none ↔ (tiers.get
      (calcTierId t.normalBalls t.bonusBall epoch.winningNormals epoch.winningBonusBall)).getD 0 = 0 := by
  simp only [gradeTicket]
  split
  · simp [*]
  · simp [*]

theorem gradeTicket_eq_some {epoch : EpochRead} {tiers : Tiers} {t : GradableTicket} {prize : Prize}
    {amount : Nat} (h : gradeTicket epoch tiers t = some (prize, amount)) : amount = (tiers.get
      (calcTierId t.normalBalls t.bonusBall epoch.winningNormals epoch.winningBonusBall)).getD 0 ∧
    amount ≠ 0 := by
  simp only [gradeTicket] at h
  split at h
  · cases h
  · rename_i won
    cases h
    exact ⟨rfl, won⟩

/-- A ticket whose tier is stored with the net of a payout is graded by that payout. -/
theorem gradeTicket_net {epoch : EpochRead} {tiers : Tiers} {t : GradableTicket} {gross : Int}
    (nonneg : 0 ≤ gross) (net : (((tiers.get
      (calcTierId t.normalBalls t.bonusBall epoch.winningNormals epoch.winningBonusBall)).getD 0 : Nat) : Int) =
        applyReferralShare gross) :
    (gradeTicket epoch tiers t = none ↔ gross = 0) ∧
    ∀ prize amount, gradeTicket epoch tiers t = some (prize, amount) →
      (amount : Int) = gross - gross * 1000 / 10000 ∧ 1 ≤ amount ∧ (amount : Int) ≤ gross := by
  obtain ⟨-, most, zero⟩ := applyReferralShare_bounds nonneg
  rw [← net] at most zero
  rw [applyReferralShare_nonneg nonneg] at net
  constructor
  · rw [gradeTicket_eq_none]
    omega
  · intro prize amount h
    obtain ⟨rfl, won⟩ := gradeTicket_eq_some h
    exact ⟨net, Nat.one_le_iff_ne_zero.2 won, most⟩

end Read

/-! ## What the payload says of what is kept -/

theorem payout_of_stated {tier : Json} {gross : Int} (h : stated tier = some gross) :
    payout tier = some gross := by
  unfold stated at h
  split at h
  · rename_i fields
    split at h
    · rename_i n amount
      rw [payout, amount]
      exact h
    · rename_i s amount
      rw [payout, amount]
      exact h
    · cases h
  · cases h

theorem named_of_mem {prizeTiers tier : Json} {tierId : Nat} (h : tier ∈ entriesFor prizeTiers tierId) :
    names tierId tier = true := by
  unfold entriesFor at h
  split at h
  · exact (List.mem_filter.1 h).2
  · cases h

/-- The entries for a tier other than 0 are kept. -/
theorem kept_of_names {prizeTiers : Json} {tierId : Nat} (some : tierId ≠ 0) {tier : Json}
    (h : tier ∈ entriesFor prizeTiers tierId) : tier ∈ keptTiers prizeTiers := by
  unfold entriesFor at h
  split at h
  · rename_i tiers
    obtain ⟨mem, named⟩ := List.mem_filter.1 h
    refine List.mem_filter.2 ⟨mem, ?_⟩
    unfold names at named
    split at named
    · rename_i n id
      rw [id, beq_iff_eq.1 named]
      simpa [isNumber] using some
    · rename_i s id
      rw [id]
      rfl
    · cases named
  · cases h

/-- What the payload pays for a tier is not negative when the reader takes what is kept. -/
theorem Pays.nonneg {prizeTiers : Json} {tierId : Nat} {gross : Int} (h : Pays prizeTiers tierId gross)
    (taken : ∀ tier ∈ keptTiers prizeTiers, readable stringToNumber tier = true) : 0 ≤ gross := by
  unfold Pays at h
  split at h
  · omega
  · rename_i other
    rw [not_or] at other
    obtain ⟨tier, mem⟩ := List.exists_mem_of_ne_nil _ other.2
    obtain ⟨-, gross', -, pays, nonneg⟩ := readable_iff.1 (taken tier (kept_of_names other.1 mem))
    rw [payout_of_stated (h tier mem)] at pays
    cases pays
    exact nonneg

/-- The reader has the net of the last payout. -/
theorem net_lastPayout {prizeTiers : Json} {tiers : Tiers}
    (taken : ∀ tier ∈ keptTiers prizeTiers, readable stringToNumber tier = true) (tierId : Int)
    (gets : tiers.get tierId =
      (lastTier? stringToNumber (keptTiers prizeTiers) tierId).map netPayout) :
    (((tiers.get tierId).getD 0 : Nat) : Int) =
      applyReferralShare (lastPayout stringToNumber prizeTiers tierId) := by
  rw [gets, lastPayout]
  cases last : lastTier? stringToNumber (keptTiers prizeTiers) tierId with
  | none => rfl
  | some tier =>
    obtain ⟨gross, pays, -, net⟩ := netPayout_readable (taken tier (mem_of_lastTier? last))
    rw [Option.map_some, Option.getD_some, Option.bind_some, pays, Option.getD_some, net]

theorem names_iff {tier : Json} {n : Int} (id : property tier "tier_id" = some (.num (.int n)))
    (tierId : Nat) : names tierId tier = true ↔ n = tierId := by
  simp [names, id]

theorem tierNumber_iff {tier : Json} {n : Int} (id : property tier "tier_id" = some (.num (.int n)))
    (tierId : Nat) : (tierNumber stringToNumber tier == some (.int tierId)) = true ↔ n = tierId := by
  rw [tierNumber, id, Option.map_some, number, beq_iff_eq, Option.some.injEq, JsNumber.int.injEq]

/-- What is kept is of the payload, and not of tier 0. -/
theorem mem_keptTiers {prizeTiers tier : Json} (h : tier ∈ keptTiers prizeTiers) :
    isNumber (property tier "tier_id") 0 = false ∧
      ∀ tierId, names tierId tier = true → tier ∈ entriesFor prizeTiers tierId := by
  unfold keptTiers at h
  split at h
  · obtain ⟨mem, other⟩ := List.mem_filter.1 h
    exact ⟨by simpa using other, fun tierId named => List.mem_filter.2 ⟨mem, named⟩⟩
  · cases h

/-- A table of numbered tiers, each paying one amount, is sound. -/
theorem sound_of_numbers {prizeTiers : Json} (winning : WinningNumbers) (kept : keptTiers prizeTiers ≠ [])
    (numbers : ∀ tier ∈ keptTiers prizeTiers, ∃ n, property tier "tier_id" = some (.num (.int n)))
    (paid : ∀ tier ∈ keptTiers prizeTiers, ∃ gross, stated tier = some gross ∧ 0 ≤ gross)
    (once : ∀ tier ∈ keptTiers prizeTiers, ∀ tier' ∈ keptTiers prizeTiers, ∀ n,
      property tier "tier_id" = some (.num (.int n)) → property tier' "tier_id" = some (.num (.int n)) →
        stated tier = stated tier') : Sound stringToNumber prizeTiers winning where
  kept := kept
  readable tier mem := by
    obtain ⟨n, id⟩ := numbers tier mem
    obtain ⟨gross, states, nonneg⟩ := paid tier mem
    exact readable_iff.2 ⟨n, gross, by rw [tierNumber, id]; rfl, payout_of_stated states, nonneg⟩
  agrees t := by
    generalize drawnTier winning t = tierId
    refine ⟨lastPayout stringToNumber prizeTiers tierId, ?_, rfl⟩
    rw [Pays, lastPayout]
    cases last : lastTier? stringToNumber (keptTiers prizeTiers) tierId with
    | none =>
      have nothing : tierId = 0 ∨ entriesFor prizeTiers tierId = [] := by
        by_contra other
        rw [not_or] at other
        obtain ⟨tier, mem⟩ := List.exists_mem_of_ne_nil _ other.2
        have here := kept_of_names other.1 mem
        obtain ⟨n, id⟩ := numbers tier here
        have unread := List.find?_eq_none.1 last tier (List.mem_reverse.2 here)
        exact unread ((tierNumber_iff id tierId).2 ((names_iff id tierId).1 (named_of_mem mem)))
      rw [if_pos nothing]
      rfl
    | some tier =>
      have here := mem_of_lastTier? last
      obtain ⟨n, id⟩ := numbers tier here
      obtain ⟨gross, states, -⟩ := paid tier here
      have read := List.find?_some last
      obtain rfl : n = tierId := (tierNumber_iff id tierId).1 read
      obtain ⟨other, listed⟩ := mem_keptTiers here
      have mem := listed tierId ((names_iff id tierId).2 rfl)
      have drawn : ¬ (tierId = 0 ∨ entriesFor prizeTiers tierId = []) := by
        rintro (zero | none)
        · rw [id, zero] at other
          cases other
        · rw [none] at mem
          cases mem
      rw [if_neg drawn]
      intro tier' mem'
      rw [not_or] at drawn
      have here' := kept_of_names drawn.1 mem'
      obtain ⟨n', id'⟩ := numbers tier' here'
      obtain rfl := (names_iff id' tierId).1 (named_of_mem mem')
      rw [once tier' here' tier here _ id' id, states, Option.bind_some, payout_of_stated states,
        Option.getD_some]

/-! ## The pipeline -/

/-- The row has the table and the numbers of the round. -/
structure Stored (round : SettledRound) (e : MegapotEpoch) : Prop where
  prizeTiers : e.prizeTiers = round.prizeTiers
  winningNormals : e.winningNormals = round.winningNormals
  winningBonusBall : e.winningBonusBall = round.winningBonusBall

/-- The row of a round is what was written. -/
theorem row_of_upsert {db : Db} {round : SettledRound} {e : MegapotEpoch}
    (he : e ∈ (upsertSettledEpoch db round).megapotEpochs) (same : e.megapotId = round.megapotId) :
    Stored round e := by
  unfold upsertSettledEpoch at he
  split at he
  · obtain ⟨old, -, rfl⟩ := Table.mem_updateMany.1 he
    split
    · exact ⟨rfl, rfl, rfl⟩
    · rename_i other
      rw [if_neg other] at same
      exact absurd (beq_iff_eq.2 same) other
  · rename_i absent
    rcases List.mem_append.1 he with old | new
    · exact absurd (List.any_eq_true.2 ⟨e, old, by simpa using same⟩) absent
    · cases List.mem_singleton.1 new
      exact ⟨rfl, rfl, rfl⟩

section Epoch

variable {stringToNumber : String → JsNumber} {prizeTiers : Json} {winning : WinningNumbers}
  {epoch : EpochRead}

/-- Where every ticket is graded as the payload says, the reader has taken the table, and the last entry
of each tier is what the payload pays. -/
theorem sound_of_gradedAs (paid : ∀ tier ∈ keptTiers prizeTiers, (payout tier).isSome = true)
    (table : epoch.prizeTiers = .arr ((keptTiers prizeTiers).map fun tier => (format tier).toJson))
    (tier : ∀ t : GradableTicket, calcTierId t.normalBalls t.bonusBall epoch.winningNormals
      epoch.winningBonusBall = drawnTier winning t)
    (graded : GradedAs stringToNumber prizeTiers winning epoch) :
    Sound stringToNumber prizeTiers winning := by
  obtain ⟨tiers, parsed, grades⟩ := graded
  rw [table] at parsed
  obtain ⟨nonempty, taken, gets⟩ := parsePrizeTiers_stored paid parsed
  refine ⟨nonempty, taken, fun t => ?_⟩
  obtain ⟨gross, pays, lost, won⟩ := grades t
  have nonneg := pays.nonneg taken
  refine ⟨gross, pays, ?_⟩
  rw [← net_lastPayout taken _ (gets _), ← tier t]
  cases grade : gradeTicket epoch tiers t with
  | none =>
    rw [lost.1 grade, gradeTicket_eq_none.1 grade]
    rfl
  | some winner =>
    obtain ⟨prize, amount⟩ := winner
    rw [← (gradeTicket_eq_some grade).1, (won prize amount grade).1, applyReferralShare_nonneg nonneg]

/-- A sound table is taken, and the units under each ticket's tier are the net of what the payload pays. -/
theorem gradedAs_of_sound (paid : ∀ tier ∈ keptTiers prizeTiers, (payout tier).isSome = true)
    (table : epoch.prizeTiers = .arr ((keptTiers prizeTiers).map fun tier => (format tier).toJson))
    (tier : ∀ t : GradableTicket, calcTierId t.normalBalls t.bonusBall epoch.winningNormals
      epoch.winningBonusBall = drawnTier winning t)
    (sound : Sound stringToNumber prizeTiers winning) :
    GradedAs stringToNumber prizeTiers winning epoch := by
  obtain ⟨nonempty, taken, agrees⟩ := sound
  obtain ⟨tiers, parsed⟩ : ∃ tiers, parsePrizeTiers stringToNumber
      (.arr ((keptTiers prizeTiers).map fun tier => (format tier).toJson)) = .ok tiers := by
    obtain ⟨tiers, fold⟩ := parse_format_ok taken []
    obtain ⟨tier, entries, shape⟩ := List.exists_cons_of_ne_nil nonempty
    rw [shape] at fold ⊢
    exact ⟨tiers, fold⟩
  obtain ⟨-, -, gets⟩ := parsePrizeTiers_stored paid parsed
  refine ⟨tiers, table ▸ parsed, fun t => ?_⟩
  obtain ⟨gross, pays, net⟩ := agrees t
  refine ⟨gross, pays, gradeTicket_net (pays.nonneg taken) ?_⟩
  rw [tier t, net_lastPayout taken _ (gets _), net]

end Epoch

/-- **The prize table pipeline**: the row of a round is accepted, and every ticket is graded with the net
of what the payload pays for the tier it has by the payload's numbers, exactly when the table is sound. -/
theorem graded_iff_sound (stringToNumber : String → JsNumber) (data : MegapotRoundResponse)
    (round : SettledRound) (db : Db) (e : MegapotEpoch)
    (written : settledRound data = some (some round))
    (row : e ∈ (upsertSettledEpoch db round).megapotEpochs) (same : e.megapotId = round.megapotId) :
    ∃ winning, data.winningNumbers = some winning ∧
      (GradedAs stringToNumber data.prizeTiers winning (readEpoch e) ↔
        Sound stringToNumber data.prizeTiers winning) := by
  obtain ⟨⟨winning, drawn, normals, bonusBall⟩, paid, table⟩ := settledRound_some written
  have stored := row_of_upsert row same
  refine ⟨winning, drawn, ?_⟩
  have table : (readEpoch e).prizeTiers =
      .arr ((keptTiers data.prizeTiers).map fun tier => (format tier).toJson) :=
    stored.prizeTiers.trans table
  have tier : ∀ t : GradableTicket, calcTierId t.normalBalls t.bonusBall (readEpoch e).winningNormals
      (readEpoch e).winningBonusBall = drawnTier winning t := by
    intro t
    rw [drawnTier, ← normals, ← bonusBall, ← stored.winningNormals, ← stored.winningBonusBall]
    rfl
  exact ⟨sound_of_gradedAs paid table tier, gradedAs_of_sound paid table tier⟩

/-- A settled round with a top prize of 29 units. -/
def roundOf (tiers : List Json) : MegapotRoundResponse where
  id := 7
  status := "settled"
  topPrizeAmount := .obj [("amount", .str "29")]
  winningNumbers := some { normals := [3, 9, 14, 20, 27], bonusball := 4 }
  prizeTiers := .arr tiers

def tierOf (tierId : Int) (amount : String) (ticketCount : Int) : Json :=
  .obj [("tier_id", .num (.int tierId)), ("payout", .obj [("amount", .str amount)]),
    ("ticket_count", .num (.int ticketCount))]

/-- What is written of such a round. -/
def roundWritten (totalPaidAmount jackpot : Int) (tiers : List FormattedPrizeTier) : SettledRound where
  megapotId := 7
  totalPaidAmount := totalPaidAmount
  jackpot := jackpot
  topPrizeAmount := 27
  winningNormals := [3, 9, 14, 20, 27]
  winningBonusBall := 4
  prizeTiers := .arr (tiers.map FormattedPrizeTier.toJson)

def rowOf (round : SettledRound) : MegapotEpoch :=
  upsertPayload round { megapotId := round.megapotId, createdAt := round.createdAt }

/-- A payload with two entries for the jackpot, of which the reader takes the second, pays nothing definite
for it. -/
example (gross : Int) : ¬ Pays (.arr [tierOf 11 "1000000" 1, tierOf 11 "0" 0]) 11 gross := by
  intro pays
  have both : entriesFor (.arr [tierOf 11 "1000000" 1, tierOf 11 "0" 0]) 11 =
      [tierOf 11 "1000000" 1, tierOf 11 "0" 0] := rfl
  rw [Pays, both, if_neg (by simp)] at pays
  have first : stated (tierOf 11 "1000000" 1) = some 1000000 := rfl
  have second : stated (tierOf 11 "0" 0) = some 0 := rfl
  cases (first.symm.trans (pays _ (by simp))).trans (second.symm.trans (pays _ (by simp))).symm

set_option maxRecDepth 4000 in
/-- A table of tiers 1 and 11 besides tier 0. -/
theorem graded_iff_sound_won : GradedAs (fun _ => .other) (roundOf
    [tierOf 0 "0" 90, tierOf 1 "9" 3, tierOf 11 "29" 0]).prizeTiers
    { normals := [3, 9, 14, 20, 27], bonusball := 4 }
    (readEpoch (rowOf (roundWritten 27 27
      [{ tierId := some (.num (.int 1)), amount := "9", ticketCount := .num (.int 3) },
        { tierId := some (.num (.int 11)), amount := "27", ticketCount := .num (.int 0) }]))) := by
  obtain ⟨winning, drawn, iff⟩ := graded_iff_sound (fun _ => .other)
    (roundOf [tierOf 0 "0" 90, tierOf 1 "9" 3, tierOf 11 "29" 0]) _ {} _ rfl List.mem_cons_self rfl
  cases drawn
  have kept : keptTiers (roundOf [tierOf 0 "0" 90, tierOf 1 "9" 3, tierOf 11 "29" 0]).prizeTiers =
      [tierOf 1 "9" 3, tierOf 11 "29" 0] := rfl
  refine iff.2 (sound_of_numbers _ ?_ ?_ ?_ ?_)
  · rw [kept]
    exact List.cons_ne_nil _ _
  · rw [kept]
    simp [tierOf, property]
  · rw [kept]
    simp only [List.forall_mem_cons]
    exact ⟨⟨9, rfl, by decide⟩, ⟨29, rfl, by decide⟩, fun _ mem => absurd mem List.not_mem_nil⟩
  · rw [kept]
    simp [tierOf, property]

set_option maxRecDepth 4000 in
/-- A round whose table holds tier 0 only gets a row that the reader refuses. -/
theorem not_all_graded : ¬ ∀ (stringToNumber : String → JsNumber) (data : MegapotRoundResponse)
    (round : SettledRound) (db : Db) (e : MegapotEpoch), settledRound data = some (some round) →
    e ∈ (upsertSettledEpoch db round).megapotEpochs → e.megapotId = round.megapotId →
    ∃ winning, data.winningNumbers = some winning ∧
      GradedAs stringToNumber data.prizeTiers winning (readEpoch e) := by
  intro all
  obtain ⟨_, -, tiers, parsed, -⟩ := all (fun _ => .other) (roundOf [tierOf 0 "0" 90]) (roundWritten 0 0 [])
    {} (rowOf (roundWritten 0 0 [])) rfl List.mem_cons_self rfl
  cases parsed

end LordsPot.Settlement
