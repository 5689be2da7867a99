import LordsPot.Settlement.Tiers

/-!
# The prize table as it was meant

`parsePrizeTiers` reads a tier id through `Number` and writes it into a map. `Number` makes an
integer of null, of a boolean, of an empty text and of an array of one, and the map keeps the
last of two entries with one id. Where every id is a number and no id comes twice, the map is
the table.
-/

namespace LordsPot.Settlement

section Parse

variable (stringToNumber : String → JsNumber)

/-- The integer that `Number` makes of an entry's `tierId`. -/
def tierIdOf (entry : Json) : Option Int :=
  match (property entry "tierId").map (number stringToNumber) with
  | some (.int tierId) => some tierId
  | _ => none

/-- The value of an entry's `amount` when it is a text of digits. -/
def amountOf (entry : Json) : Option Nat :=
  match property entry "amount" with
  | some (.str amount) => if isDigits amount then some (digitsValue amount) else none
  | _ => none

/-- The entry has a `tierId` that is a number and an integer before any coercion. -/
def genuine (entry : Json) : Bool :=
  match property entry "tierId" with
  | some (.num (.int _)) => true
  | _ => false

/-- What the entry sets in the map. -/
def entryTier (entry : Json) : Option (Int × Nat) :=
  match tierIdOf stringToNumber entry, amountOf entry with
  | some tierId, some amount => some (tierId, amount)
  | _, _ => none

variable {stringToNumber}

theorem entryTier_eq_some {entry : Json} {tierId : Int} {amount : Nat} :
    entryTier stringToNumber entry = some (tierId, amount) ↔
      tierIdOf stringToNumber entry = some tierId ∧ amountOf entry = some amount := by
  rw [entryTier]
  cases tierIdOf stringToNumber entry <;> cases amountOf entry <;> simp

/-- An entry is either written or refused. -/
theorem parseTier_eq (tiers : Tiers) (entry : Json) :
    parseTier stringToNumber tiers entry = match entryTier stringToNumber entry with
      | some (tierId, amount) => .ok (tiers.set tierId amount)
      | none => .error (.malformed entry) := by
  rw [parseTier, entryTier, tierIdOf, amountOf]
  rcases (property entry "tierId").map (number stringToNumber) with _ | tierId | _ <;>
    rcases property entry "amount" with _ | _ | _ | _ | amount | _ | _ <;> try rfl
  simp only
  split <;> rfl

/-- A run of entries is accepted when each is, and the map lists them from the last on. -/
theorem foldlM_parseTier {entries : List Json} {tiers tiers' : Tiers} :
    entries.foldlM (parseTier stringToNumber) tiers = .ok tiers' ↔
      (∀ entry ∈ entries, (entryTier stringToNumber entry).isSome = true) ∧
        tiers' = (entries.filterMap (entryTier stringToNumber)).reverse ++ tiers := by
  induction entries generalizing tiers with
  | nil =>
    simp only [List.foldlM_nil, List.filterMap_nil, List.reverse_nil, List.nil_append]
    constructor
    · intro h
      cases h
      exact ⟨fun _ h => (by cases h), rfl⟩
    · rintro ⟨-, rfl⟩
      rfl
  | cons entry entries ih =>
    rw [List.foldlM_cons, parseTier_eq]
    cases written : entryTier stringToNumber entry with
    | none =>
      constructor
      · intro h
        cases h
      · rintro ⟨all, -⟩
        have here := all entry (List.mem_cons_self ..)
        rw [written] at here
        cases here
    | some tier =>
      have step : (Except.ok (Tiers.set tiers tier.1 tier.2) >>= fun tiers =>
          entries.foldlM (parseTier stringToNumber) tiers) =
          entries.foldlM (parseTier stringToNumber) (tiers.set tier.1 tier.2) := rfl
      simp only [step, ih, List.filterMap_cons, written, List.reverse_cons, List.append_assoc,
        List.forall_mem_cons, Option.isSome_some, true_and]
      rfl

/-- An accepted value is an array of one entry and more, and the map lists what they set. -/
theorem parsePrizeTiers_ok {json : Json} {tiers : Tiers} :
    parsePrizeTiers stringToNumber json = .ok tiers ↔ ∃ entries, json = .arr entries ∧
      entries ≠ [] ∧ (∀ entry ∈ entries, (entryTier stringToNumber entry).isSome = true) ∧
        tiers = (entries.filterMap (entryTier stringToNumber)).reverse := by
  unfold parsePrizeTiers
  split
  · rename_i entry entries
    rw [foldlM_parseTier, List.append_nil]
    constructor
    · rintro ⟨all, rfl⟩
      exact ⟨_, rfl, List.cons_ne_nil _ _, all, rfl⟩
    · rintro ⟨_, h, -, all, rfl⟩
      cases h
      exact ⟨all, rfl⟩
  · rename_i other
    constructor
    · intro h
      cases h
    · rintro ⟨_ | ⟨entry, entries⟩, rfl, nonempty, -⟩
      · exact absurd rfl nonempty
      · exact absurd rfl (other entry entries)

end Parse

/-- Distinct keys are looked up where they are. -/
theorem Tiers.get_of_mem {tiers : Tiers} (distinct : (tiers.map Prod.fst).Nodup) {tierId : Int}
    {amount : Nat} (h : (tierId, amount) ∈ tiers) : tiers.get tierId = some amount := by
  induction tiers with
  | nil => cases h
  | cons tier tiers ih =>
    rw [List.map_cons, List.nodup_cons] at distinct
    rw [Tiers.get, List.lookup_cons]
    rcases List.mem_cons.1 h with rfl | later
    · simp
    · have other : (tierId == tier.1) = false := by
        rw [beq_eq_false_iff_ne]
        rintro rfl
        exact distinct.1 (List.mem_map.2 ⟨_, later, rfl⟩)
      rw [other]
      exact ih distinct.2 later

section Faithful

variable (stringToNumber : String → JsNumber)

/-- What is accepted is a table of integer ids, each once; the map sends each entry's id to its
amount, and no ticket with a prize in the table is a loser. -/
def Faithful (json : Json) : Prop :=
  ∀ tiers, parsePrizeTiers stringToNumber json = .ok tiers →
    ∃ entries, json = .arr entries ∧ entries ≠ [] ∧
      (∀ entry ∈ entries, genuine entry = true) ∧
      (entries.map (tierIdOf stringToNumber)).Nodup ∧
      (∀ entry ∈ entries, ∃ tierId amount, tierIdOf stringToNumber entry = some tierId ∧
        amountOf entry = some amount ∧ tiers.get tierId = some amount) ∧
      ∀ (epoch : EpochRead) (t : GradableTicket), ∀ entry ∈ entries,
        tierIdOf stringToNumber entry = some (calcTierId t.normalBalls t.bonusBall
          epoch.winningNormals epoch.winningBonusBall : Int) →
        amountOf entry ≠ some 0 → gradeTicket epoch tiers t ≠ none

/-- An array whose entries all have a tier id that `Number` makes an integer and an amount in
digits has only ids that are integers, and none of them twice. -/
def Unambiguous (json : Json) : Prop :=
  ∀ entries, json = .arr entries →
    (∀ entry ∈ entries, (tierIdOf stringToNumber entry).isSome = true ∧
      (amountOf entry).isSome = true) →
    (∀ entry ∈ entries, genuine entry = true) ∧ (entries.map (tierIdOf stringToNumber)).Nodup

variable {stringToNumber}

theorem isSome_entryTier {entry : Json} : (entryTier stringToNumber entry).isSome = true ↔
    (tierIdOf stringToNumber entry).isSome = true ∧ (amountOf entry).isSome = true := by
  rw [entryTier]
  cases tierIdOf stringToNumber entry <;> cases amountOf entry <;> simp

/-- The ids the map lists are those of the entries. -/
theorem map_fst_tiers {entries : List Json}
    (all : ∀ entry ∈ entries, (entryTier stringToNumber entry).isSome = true) :
    ((entries.filterMap (entryTier stringToNumber)).map Prod.fst).map some =
      entries.map (tierIdOf stringToNumber) := by
  induction entries with
  | nil => rfl
  | cons entry entries ih =>
    obtain ⟨⟨tierId, amount⟩, written⟩ := Option.isSome_iff_exists.1 (all entry (List.mem_cons_self ..))
    have here := (entryTier_eq_some.1 written).1
    have rest := ih fun e he => all e (List.mem_cons_of_mem _ he)
    simp only [List.filterMap_cons, written, List.map_cons, here, rest]

theorem distinct_tiers {entries : List Json}
    (all : ∀ entry ∈ entries, (entryTier stringToNumber entry).isSome = true)
    (distinct : (entries.map (tierIdOf stringToNumber)).Nodup) :
    ((entries.filterMap (entryTier stringToNumber)).reverse.map Prod.fst).Nodup := by
  rw [← map_fst_tiers all] at distinct
  rw [List.map_reverse, List.nodup_reverse]
  exact distinct.of_map

/-- A tier with a prize has no loser. -/
theorem gradeTicket_of_get {epoch : EpochRead} {tiers : Tiers} {t : GradableTicket} {amount : Nat}
    (prize : tiers.get (calcTierId t.normalBalls t.bonusBall epoch.winningNormals
      epoch.winningBonusBall) = some amount) (pos : amount ≠ 0) : gradeTicket epoch tiers t ≠ none := by
  simp [gradeTicket, prize, pos]

/-- **A table is read as it was meant** exactly when it is unambiguous. -/
theorem faithful_iff (json : Json) :
    Faithful stringToNumber json ↔ Unambiguous stringToNumber json := by
  constructor
  · rintro faithful entries rfl wellFormed
    obtain rfl | nonempty := eq_or_ne entries []
    · exact ⟨fun _ h => (by cases h), List.nodup_nil⟩
    · have all : ∀ entry ∈ entries, (entryTier stringToNumber entry).isSome = true :=
        fun entry he => isSome_entryTier.2 (wellFormed entry he)
      obtain ⟨_, same, -, integers, distinct, -⟩ := faithful _
        (parsePrizeTiers_ok.2 ⟨entries, rfl, nonempty, all, rfl⟩)
      cases same
      exact ⟨integers, distinct⟩
  · intro unambiguous tiers accepted
    obtain ⟨entries, rfl, nonempty, all, rfl⟩ := parsePrizeTiers_ok.1 accepted
    obtain ⟨integers, distinct⟩ := unambiguous entries rfl fun entry he => isSome_entryTier.1 (all entry he)
    have looked : ∀ entry ∈ entries, ∀ tierId amount,
        entryTier stringToNumber entry = some (tierId, amount) →
        Tiers.get (entries.filterMap (entryTier stringToNumber)).reverse tierId = some amount := by
      intro entry he tierId amount written
      refine Tiers.get_of_mem (distinct_tiers all distinct) ?_
      rw [List.mem_reverse, List.mem_filterMap]
      exact ⟨entry, he, written⟩
    refine ⟨entries, rfl, nonempty, integers, distinct, ?_, ?_⟩
    · intro entry he
      obtain ⟨⟨tierId, amount⟩, written⟩ := Option.isSome_iff_exists.1 (all entry he)
      obtain ⟨id, value⟩ := entryTier_eq_some.1 written
      exact ⟨tierId, amount, id, value, looked entry he tierId amount written⟩
    · intro epoch t entry he tier prize
      obtain ⟨⟨tierId, amount⟩, written⟩ := Option.isSome_iff_exists.1 (all entry he)
      obtain ⟨id, value⟩ := entryTier_eq_some.1 written
      obtain rfl : tierId = _ := Option.some.inj (id.symm.trans tier)
      exact gradeTicket_of_get (looked entry he _ amount written) fun zero => prize (by rw [value, zero])

/-- Two entries for the jackpot: the second, of nothing, replaces the first. -/
def repeatedTier : Json :=
  .arr [.obj [("tierId", .num (.int 11)), ("amount", .str "1000000")],
    .obj [("tierId", .num (.int 11)), ("amount", .str "0")]]

theorem unfaithful_repeatedTier : ¬ ∀ (stringToNumber : String → JsNumber) (json : Json),
    Faithful stringToNumber json := by
  intro all
  obtain ⟨_, same, -, -, distinct, -⟩ := all (fun _ => .other) repeatedTier _ rfl
  cases same
  exact absurd distinct (by decide)

end Faithful

end LordsPot.Settlement
