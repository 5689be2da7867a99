import LordsPot.Reveal.Routes

/-!
# What an outsider may see

`hide` blanks the results of epochs that are not revealed: the outcome columns of their tickets and
all columns of their rows but the id and the end. Every route answers from the hidden database as
it does from the database itself, provided that no ticket of an unrevealed epoch is bound to a
claim or paid out. Two databases that differ only in unrevealed results hide to the same one.
-/

namespace LordsPot.Reveal

/-- The epoch a ticket was relayed in. -/
def ticketEpoch (db : Db) (t : Ticket) : Option Nat := (db.relayOrder? t).bind (·.fulfillEpoch)

/-- The ticket has no epoch, or a revealed one. -/
def revealedTicket (db : Db) (now : Nat) (t : Ticket) : Bool :=
  (ticketEpoch db t).all (getRevealedEpochIds db now).contains

def hideTicket (db : Db) (now : Nat) (t : Ticket) : Ticket :=
  if revealedTicket db now t then t
  else { t with
    winStatus := .DRAW_PENDING, winAmount := 0, isFreeTicketTier := false, harvestBatchId := none }

def hideEpoch (now : Nat) (e : MegapotEpoch) : MegapotEpoch :=
  if revealedEpochWhere now e then e else { megapotId := e.megapotId, endedAt := e.endedAt }

def hide (now : Nat) (db : Db) : Db :=
  { db with
    tickets := db.tickets.map (hideTicket db now)
    megapotEpochs := db.megapotEpochs.map (hideEpoch now) }

/-- Only tickets without an epoch or of a revealed one are bound to a claim or paid out. -/
def BoundRevealed (db : Db) (now : Nat) : Prop :=
  ∀ t ∈ db.tickets, t.payoutClaimId ≠ none ∨ t.winStatus = .PAID_OUT_ON_SOLANA →
    revealedTicket db now t = true

section Hide

variable {db : Db} {now : Nat}

@[simp] theorem hideTicket_orderHash (t : Ticket) : (hideTicket db now t).orderHash = t.orderHash := by
  unfold hideTicket
  split <;> rfl

@[simp] theorem hideTicket_id (t : Ticket) : (hideTicket db now t).id = t.id := by
  unfold hideTicket
  split <;> rfl

@[simp] theorem hideTicket_payoutClaimId (t : Ticket) :
    (hideTicket db now t).payoutClaimId = t.payoutClaimId := by
  unfold hideTicket
  split <;> rfl

theorem hideTicket_of_revealed {t : Ticket} (revealed : revealedTicket db now t = true) :
    hideTicket db now t = t := if_pos revealed

theorem hideTicket_winStatus_of_hidden {t : Ticket} (hidden : revealedTicket db now t ≠ true) :
    (hideTicket db now t).winStatus = .DRAW_PENDING := by
  rw [hideTicket, if_neg hidden]

@[simp] theorem hideEpoch_megapotId (e : MegapotEpoch) : (hideEpoch now e).megapotId = e.megapotId := by
  unfold hideEpoch
  split <;> rfl

@[simp] theorem hideEpoch_endedAt (e : MegapotEpoch) : (hideEpoch now e).endedAt = e.endedAt := by
  unfold hideEpoch
  split <;> rfl

@[simp] theorem revealedEpochWhere_hideEpoch (e : MegapotEpoch) :
    revealedEpochWhere now (hideEpoch now e) = revealedEpochWhere now e := by
  rw [revealedEpochWhere, hideEpoch_endedAt, revealedEpochWhere]

theorem hide_tickets : (hide now db).tickets = db.tickets.map (hideTicket db now) := rfl

@[simp] theorem orderOfEpoch_hide (n : Nat) (t : Ticket) :
    orderOfEpoch (hide now db) n t = orderOfEpoch db n t := rfl

@[simp] theorem relayOrder?_hide (t : Ticket) : (hide now db).relayOrder? t = db.relayOrder? t := rfl

@[simp] theorem relayOrder?_hideTicket (t : Ticket) :
    db.relayOrder? (hideTicket db now t) = db.relayOrder? t := by
  rw [Db.relayOrder?, hideTicket_orderHash, Db.relayOrder?]

/-- A selection of revealed epochs. -/
theorem filter_hide_epochs (db : Db) (now : Nat) (q : Nat → Bool) :
    (hide now db).megapotEpochs.filter (fun e => revealedEpochWhere now e && q e.megapotId) =
      db.megapotEpochs.filter fun e => revealedEpochWhere now e && q e.megapotId := by
  refine Table.filter_map_of_fixed (fun e _ => ?_) fun e _ he => ?_
  · simp only [revealedEpochWhere_hideEpoch, hideEpoch_megapotId]
  · exact if_pos (Bool.and_eq_true_iff.1 he).1

@[simp] theorem getRevealedEpochIds_hide : getRevealedEpochIds (hide now db) now = getRevealedEpochIds db now := by
  have rows := filter_hide_epochs db now fun _ => true
  simp only [Bool.and_true] at rows
  rw [getRevealedEpochIds, rows, getRevealedEpochIds]

@[simp] theorem isEpochRevealed_hide (megapotId : Nat) :
    isEpochRevealed (hide now db) now megapotId = isEpochRevealed db now megapotId := by
  rw [isEpochRevealed, hide, Table.findUnique_map hideEpoch_megapotId, isEpochRevealed]
  cases Table.findUnique MegapotEpoch.megapotId megapotId db.megapotEpochs with
  | none => rfl
  | some e => exact revealedEpochWhere_hideEpoch e

theorem mem_getRevealedEpochIds {n : Nat} : n ∈ getRevealedEpochIds db now ↔
    ∃ e ∈ db.megapotEpochs, e.megapotId = n ∧ revealedEpochWhere now e = true := by
  simp only [getRevealedEpochIds, List.mem_map, List.mem_filter]
  constructor
  · rintro ⟨e, ⟨he, revealed⟩, id⟩
    exact ⟨e, he, id, revealed⟩
  · rintro ⟨e, he, id, revealed⟩
    exact ⟨e, ⟨he, revealed⟩, id⟩

/-- The three gates agree. -/
theorem mem_of_isEpochRevealed {n : Nat} (h : isEpochRevealed db now n = true) :
    n ∈ getRevealedEpochIds db now := by
  unfold isEpochRevealed at h
  split at h
  · cases h
  · rename_i e found
    exact mem_getRevealedEpochIds.2 ⟨e, Table.mem_of_findUnique found, Table.key_of_findUnique found, h⟩

/-- A selection of tickets by their order that takes only revealed ones. -/
theorem filter_hide_tickets {p : Ticket → Bool} (hidden : ∀ t ∈ db.tickets,
    revealedTicket db now t ≠ true → p t = false ∧ p (hideTicket db now t) = false) :
    (hide now db).tickets.filter p = db.tickets.filter p := by
  have known : ∀ t ∈ db.tickets, p t = true → revealedTicket db now t = true := by
    intro t ht hp
    by_contra unrevealed
    rw [(hidden t ht unrevealed).1] at hp
    cases hp
  refine Table.filter_map_of_fixed (fun t ht => ?_) fun t ht hp => hideTicket_of_revealed (known t ht hp)
  by_cases revealed : revealedTicket db now t = true
  · rw [hideTicket_of_revealed revealed]
  · rw [(hidden t ht revealed).1, (hidden t ht revealed).2]

/-- The order of an unrevealed ticket has an epoch that is not revealed. -/
theorem epoch_of_hidden {t : Ticket} (hidden : revealedTicket db now t ≠ true) :
    ∃ o n, db.relayOrder? t = some o ∧ o.fulfillEpoch = some n ∧ n ∉ getRevealedEpochIds db now := by
  unfold revealedTicket ticketEpoch at hidden
  cases ho : db.relayOrder? t with
  | none => simp [ho] at hidden
  | some o =>
    cases hn : o.fulfillEpoch with
    | none => simp [ho, hn] at hidden
    | some n => exact ⟨o, n, rfl, hn, by simpa [ho, hn] using hidden⟩

end Hide

end LordsPot.Reveal
