import LordsPot.Schema

/-!
# Prize tiers and grades

`parsePrizeTiers` and `calcTierId`, and the writes of one page of `settleEpoch`: the losers'
update, and one update for each group of winners of one status and amount.
-/

namespace LordsPot.Settlement

/-! ## The prize table -/

inductive PrizeTiersError where
  | notArray
  | malformed (entry : Json)
  deriving Repr

/-- `prizeTiers` as a map; an entry set later replaces one set before. -/
abbrev Tiers := List (Int × Nat)

def Tiers.set (tiers : Tiers) (tierId : Int) (amount : Nat) : Tiers :=
  (tierId, amount) :: tiers

def Tiers.get (tiers : Tiers) (tierId : Int) : Option Nat := tiers.lookup tierId

section Parse

-- What `Number` makes of a string.
variable (stringToNumber : String → JsNumber)

/-- `Number` of a value that is not undefined. An array becomes the text of its elements
joined by commas, so one of two elements or more is no number. -/
def number : Json → JsNumber
  | .null => .int 0
  | .bool b => .int (if b then 1 else 0)
  | .num n => n
  | .str s => stringToNumber s
  | .arr items => match items with
    | [] => stringToNumber ""
    | [.bool _] => .other
    | [item] => number item
    | _ => .other
  | .obj _ => .other

/-- `entry?.name`; none when it is undefined. -/
def property (entry : Json) (name : String) : Option Json :=
  match entry with
  | .obj fields => fields.lookup name
  | _ => none

/-- `/^\d+$/`. -/
def isDigits (s : String) : Bool := !s.isEmpty && s.toList.all (·.isDigit)

/-- `BigInt` of a text of digits. -/
def digitsValue (s : String) : Nat := s.toList.foldl (fun n c => 10 * n + (c.toNat - '0'.toNat)) 0

/-- One entry of the table. -/
def parseTier (tiers : Tiers) (entry : Json) : Except PrizeTiersError Tiers :=
  match (property entry "tierId").map (number stringToNumber), property entry "amount" with
  | some (.int tierId), some (.str amount) =>
    if isDigits amount then .ok (tiers.set tierId (digitsValue amount)) else .error (.malformed entry)
  | _, _ => .error (.malformed entry)

def parsePrizeTiers (json : Json) : Except PrizeTiersError Tiers :=
  match json with
  | .arr (entry :: entries) => (entry :: entries).foldlM (parseTier stringToNumber) []
  | _ => .error .notArray

end Parse

/-! ## Grades -/

structure GradableTicket where
  id : Uuid
  normalBalls : List Nat
  bonusBall : Nat
  deriving Repr, DecidableEq

def selectGradable (t : Ticket) : GradableTicket :=
  { id := t.id, normalBalls := t.normalBalls, bonusBall := t.bonusBall }

/-- The columns of a `MegapotEpoch` row that a tick reads. -/
structure EpochRead where
  megapotId : Nat
  winningNormals : List Nat
  winningBonusBall : Nat
  prizeTiers : Json
  deriving Repr

def calcTierId (normalBalls : List Nat) (bonusBall : Nat) (winningNormals : List Nat)
    (winningBonusBall : Nat) : Nat :=
  2 * normalBalls.countP (fun ball => winningNormals.contains ball) +
    if bonusBall = winningBonusBall then 1 else 0

def FREE_TICKET_TIERS : List Nat := [1, 4]

/-- The status of a winner. -/
inductive Prize where
  | WON_UNCLAIMED | WON_FREE_TICKET
  deriving Repr, DecidableEq

def Prize.winStatus : Prize → WinStatus
  | .WON_UNCLAIMED => .WON_UNCLAIMED
  | .WON_FREE_TICKET => .WON_FREE_TICKET

/-- A ticket's prize and amount; none for a loser. -/
def gradeTicket (epoch : EpochRead) (tiers : Tiers) (t : GradableTicket) : Option (Prize × Nat) :=
  let tierId := calcTierId t.normalBalls t.bonusBall epoch.winningNormals epoch.winningBonusBall
  let gross := (tiers.get tierId).getD 0
  if gross = 0 then none
  else some (if FREE_TICKET_TIERS.contains tierId then .WON_FREE_TICKET else .WON_UNCLAIMED, gross)

/-- An entry of `winnersByGroup`. -/
structure Group where
  status : Prize
  amount : Nat
  ids : List Uuid
  deriving Repr, DecidableEq

/-- The losers and the winners of a page. -/
structure Grades where
  losers : List Uuid := []
  winnersByGroup : List Group := []
  deriving Repr, DecidableEq

def addWinner (status : Prize) (amount : Nat) (id : Uuid) : List Group → List Group
  | [] => [{ status := status, amount := amount, ids := [id] }]
  | g :: groups =>
    if g.status = status ∧ g.amount = amount then { g with ids := g.ids ++ [id] } :: groups
    else g :: addWinner status amount id groups

def Grades.add (epoch : EpochRead) (tiers : Tiers) (grades : Grades) (t : GradableTicket) : Grades :=
  match gradeTicket epoch tiers t with
  | none => { grades with losers := grades.losers ++ [t.id] }
  | some (status, amount) =>
    { grades with winnersByGroup := addWinner status amount t.id grades.winnersByGroup }

def gradePage (epoch : EpochRead) (tiers : Tiers) (page : List GradableTicket) : Grades :=
  page.foldl (Grades.add epoch tiers) {}

/-- The guarded update of the losers. -/
def markLosers (losers : List Uuid) (rows : List Ticket) : List Ticket :=
  Table.updateMany (fun t => losers.contains t.id && t.winStatus == .DRAW_PENDING)
    (fun t => { t with winStatus := .LOST }) rows

/-- The guarded update of a group of winners. -/
def markWinners (g : Group) (rows : List Ticket) : List Ticket :=
  Table.updateMany (fun t => g.ids.contains t.id && t.winStatus == .DRAW_PENDING)
    (fun t => { t with winStatus := g.status.winStatus, winAmount := g.amount,
                       isFreeTicketTier := g.status = .WON_FREE_TICKET }) rows

/-- The transaction that settles a page. -/
def settlePage (db : Db) (grades : Grades) : Db :=
  { db with
    tickets := grades.winnersByGroup.foldl (fun rows g => markWinners g rows)
      (markLosers grades.losers db.tickets) }

/-- Rows of a settled page: what each guarded update does to a pending row, one after another. -/
theorem settlePage_rows {R : Ticket → Ticket → Prop} (refl : ∀ t, R t t)
    (trans : ∀ {t u v}, R t u → R u v → R t v)
    (lost : ∀ t, t.winStatus = .DRAW_PENDING → R t { t with winStatus := .LOST })
    (won : ∀ (t : Ticket) (g : Group), t.winStatus = .DRAW_PENDING → R t { t with
      winStatus := g.status.winStatus, winAmount := g.amount,
      isFreeTicketTier := g.status = .WON_FREE_TICKET })
    {db : Db} {grades : Grades} : ∀ t' ∈ (settlePage db grades).tickets, ∃ t ∈ db.tickets, R t t' := by
  have guarded : ∀ (ids : List Uuid) (f : Ticket → Ticket) (rows : List Ticket),
      (∀ t, t.winStatus = .DRAW_PENDING → R t (f t)) →
      ∀ t' ∈ Table.updateMany (fun t => ids.contains t.id && t.winStatus == .DRAW_PENDING) f rows,
        ∃ t ∈ rows, R t t' := by
    intro ids f rows change t' ht'
    obtain ⟨t, ht, rfl⟩ := Table.mem_updateMany.1 ht'
    refine ⟨t, ht, ?_⟩
    split
    · rename_i hit
      rw [Bool.and_eq_true, beq_iff_eq] at hit
      exact change t hit.2
    · exact refl t
  have groups : ∀ (groups : List Group) (rows : List Ticket),
      ∀ t' ∈ groups.foldl (fun rows g => markWinners g rows) rows, ∃ t ∈ rows, R t t' := by
    intro groups
    induction groups with
    | nil => exact fun rows t ht => ⟨t, ht, refl t⟩
    | cons g groups ih =>
      intro rows t' ht'
      obtain ⟨u, hu, later⟩ := ih _ t' ht'
      obtain ⟨t, ht, first⟩ := guarded _ _ rows (won · g) u hu
      exact ⟨t, ht, trans first later⟩
  intro t' ht'
  obtain ⟨u, hu, winners⟩ := groups _ _ t' ht'
  obtain ⟨t, ht, losers⟩ := guarded _ _ _ lost u hu
  exact ⟨t, ht, trans losers winners⟩

/-! ## A page leaves nothing pending -/

/-- The ticket is in the losers' update or in that of a group. -/
def Grades.Has (grades : Grades) (id : Uuid) : Prop :=
  id ∈ grades.losers ∨ ∃ g ∈ grades.winnersByGroup, id ∈ g.ids

theorem mem_addWinner {status : Prize} {amount : Nat} {id x : Uuid} {groups : List Group}
    (h : x = id ∨ ∃ g ∈ groups, x ∈ g.ids) : ∃ g ∈ addWinner status amount id groups, x ∈ g.ids := by
  induction groups with
  | nil =>
    rcases h with rfl | ⟨g, hg, -⟩
    · exact ⟨_, List.mem_cons_self, List.mem_cons_self⟩
    · cases hg
  | cons g groups ih =>
    rw [addWinner]
    split
    · rcases h with rfl | ⟨g', hg', hx⟩
      · exact ⟨_, List.mem_cons_self, List.mem_append_right _ List.mem_cons_self⟩
      · rcases List.mem_cons.1 hg' with rfl | later
        · exact ⟨_, List.mem_cons_self, List.mem_append_left _ hx⟩
        · exact ⟨g', List.mem_cons_of_mem _ later, hx⟩
    · rcases h with rfl | ⟨g', hg', hx⟩
      · obtain ⟨g', hg', hx⟩ := ih (.inl rfl)
        exact ⟨g', List.mem_cons_of_mem _ hg', hx⟩
      · rcases List.mem_cons.1 hg' with rfl | later
        · exact ⟨g', List.mem_cons_self, hx⟩
        · obtain ⟨g'', hg'', hx⟩ := ih (.inr ⟨g', later, hx⟩)
          exact ⟨g'', List.mem_cons_of_mem _ hg'', hx⟩

theorem Grades.has_add {epoch : EpochRead} {tiers : Tiers} {grades : Grades} {t : GradableTicket}
    {id : Uuid} (h : id = t.id ∨ grades.Has id) : (grades.add epoch tiers t).Has id := by
  unfold Grades.add
  split
  · rcases h with rfl | h
    · exact .inl (List.mem_append_right _ List.mem_cons_self)
    · exact h.imp_left (List.mem_append_left _)
  · rcases h with rfl | h | h
    · exact .inr (mem_addWinner (.inl rfl))
    · exact .inl h
    · exact .inr (mem_addWinner (.inr h))

/-- Every ticket of a page is graded. -/
theorem has_gradePage (epoch : EpochRead) (tiers : Tiers) {page : List GradableTicket} {id : Uuid}
    (h : id ∈ page.map (·.id)) : (gradePage epoch tiers page).Has id := by
  have run : ∀ grades : Grades, id ∈ page.map (·.id) ∨ grades.Has id →
      (page.foldl (Grades.add epoch tiers) grades).Has id := by
    clear h
    induction page with
    | nil => exact fun grades h => h.resolve_left List.not_mem_nil
    | cons t page ih =>
      intro grades h
      refine ih _ ?_
      rcases h with h | h
      · rcases List.mem_cons.1 h with here | later
        · exact .inr (Grades.has_add (.inl here))
        · exact .inl later
      · exact .inr (Grades.has_add (.inr h))
  exact run {} (.inl h)

/-- A row after a guarded update: itself, or no longer pending. -/
structure GradedRow (hit : Uuid → Prop) (t t' : Ticket) : Prop where
  id : t'.id = t.id
  order : t'.orderHash = t.orderHash
  pending : t'.winStatus = .DRAW_PENDING → t.winStatus = .DRAW_PENDING ∧ ¬ hit t.id

theorem mem_guarded {ids : List Uuid} {f : Ticket → Ticket} {rows : List Ticket}
    (keep : ∀ t, (f t).id = t.id ∧ (f t).orderHash = t.orderHash ∧ (f t).winStatus ≠ .DRAW_PENDING)
    {t' : Ticket} (h : t' ∈ Table.updateMany
      (fun t => ids.contains t.id && t.winStatus == .DRAW_PENDING) f rows) :
    ∃ t ∈ rows, GradedRow (· ∈ ids) t t' := by
  obtain ⟨t, ht, rfl⟩ := Table.mem_updateMany.1 h
  refine ⟨t, ht, ?_⟩
  split
  · exact ⟨(keep t).1, (keep t).2.1, fun hp => absurd hp (keep t).2.2⟩
  · rename_i hq
    refine ⟨rfl, rfl, fun hp => ⟨hp, fun mem => hq ?_⟩⟩
    rw [Bool.and_eq_true, beq_iff_eq]
    exact ⟨List.contains_iff_mem.2 mem, hp⟩

theorem mem_markLosers {losers : List Uuid} {rows : List Ticket} {t' : Ticket}
    (h : t' ∈ markLosers losers rows) : ∃ t ∈ rows, GradedRow (· ∈ losers) t t' :=
  mem_guarded (f := fun t => { t with winStatus := .LOST }) (fun _ => ⟨rfl, rfl, nofun⟩) h

theorem mem_markWinners {g : Group} {rows : List Ticket} {t' : Ticket}
    (h : t' ∈ markWinners g rows) : ∃ t ∈ rows, GradedRow (· ∈ g.ids) t t' :=
  mem_guarded (f := fun t => { t with winStatus := g.status.winStatus, winAmount := g.amount,
                                      isFreeTicketTier := g.status = .WON_FREE_TICKET })
    (fun _ => ⟨rfl, rfl, by cases g.status <;> nofun⟩) h

theorem mem_markGroups {groups : List Group} {rows : List Ticket} {t' : Ticket}
    (h : t' ∈ groups.foldl (fun rows g => markWinners g rows) rows) :
    ∃ t ∈ rows, GradedRow (fun id => ∃ g ∈ groups, id ∈ g.ids) t t' := by
  induction groups generalizing rows with
  | nil => exact ⟨t', h, rfl, rfl, fun hp => ⟨hp, nofun⟩⟩
  | cons g groups ih =>
    obtain ⟨u, hu, later⟩ := ih h
    obtain ⟨t, ht, now⟩ := mem_markWinners hu
    refine ⟨t, ht, later.id.trans now.id, later.order.trans now.order, fun hp => ?_⟩
    obtain ⟨hu, others⟩ := later.pending hp
    obtain ⟨ht, own⟩ := now.pending hu
    refine ⟨ht, ?_⟩
    rintro ⟨g', hg', mem⟩
    rcases List.mem_cons.1 hg' with rfl | tail
    · exact own mem
    · exact others ⟨g', tail, now.id ▸ mem⟩

/-- What is pending after a page was pending before, and is not of the page. -/
theorem mem_settlePage {db : Db} {epoch : EpochRead} {tiers : Tiers} {page : List GradableTicket}
    {t' : Ticket} (h : t' ∈ (settlePage db (gradePage epoch tiers page)).tickets) :
    ∃ t ∈ db.tickets, GradedRow (· ∈ page.map (·.id)) t t' := by
  obtain ⟨u, hu, winners⟩ := mem_markGroups h
  obtain ⟨t, ht, losers⟩ := mem_markLosers hu
  refine ⟨t, ht, winners.id.trans losers.id, winners.order.trans losers.order, fun hp => ?_⟩
  obtain ⟨hu, noGroup⟩ := winners.pending hp
  obtain ⟨ht, noLoser⟩ := losers.pending hu
  refine ⟨ht, fun mem => ?_⟩
  rcases has_gradePage epoch tiers mem with lost | won
  · exact noLoser lost
  · exact noGroup (losers.id ▸ won)

end LordsPot.Settlement
