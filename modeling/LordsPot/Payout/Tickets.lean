import LordsPot.Payout.Held

/-!
# The ticket rows of the payout path

Every step binds tickets for a handler, unbinds a claim's, marks them paid out, or leaves the
rows alone. Orders and epochs are never written.
-/

namespace LordsPot.Payout

/-- The revealed epochs a handler has read and will bind by. -/
def Request.epochs? : Request → Option (List Nat)
  | .revealed _ epochs | .created _ _ epochs => some epochs
  | _ => none

/-- What a step makes of the ticket rows. -/
inductive TicketWrite (s : State) : List Ticket → Prop where
  | nothing : TicketWrite s s.db.tickets
  | bind {i : Nat} {w : Wallet} {k : Uuid} {epochs : List Nat}
      (handler : s.requests[i]? = some (.created w k epochs)) :
      TicketWrite s (bindTickets s.db w epochs k).tickets
  | unbind {k : Uuid} : TicketWrite s (unbindTickets s.db k).tickets
  | payOut {k : Uuid} :
      TicketWrite s (Table.updateMany (fun t => boundTo k t && t.winStatus == .CLAIMED_ON_BASE)
        (fun t => { t with winStatus := .PAID_OUT_ON_SOLANA }) s.db.tickets)

/-- The ticket rows a step writes, and the tables it leaves alone. -/
structure Written (s : State) (db' : Db) : Prop where
  tickets : TicketWrite s db'.tickets
  orders : db'.relayOrders = s.db.relayOrders
  epochs : db'.megapotEpochs = s.db.megapotEpochs

section Steps

variable {s s' : State}

theorem Written.same : Written s s.db := ⟨.nothing, rfl, rfl⟩

theorem routeStep_written {i : Nat} {r r' : Request} {act : RouteAct} {db' : Db}
    {handed : Option Voucher} (hr : s.requests[i]? = some r)
    (hs : routeStep s.now s.program s.adminKey s.db r act = some (db', r', handed)) :
    Written s db' := by
  cases routeMove hs with
  | create | stamp => exact ⟨.nothing, rfl, rfl⟩
  | bind => exact ⟨.bind hr, rfl, rfl⟩
  | release | delete => exact ⟨.unbind, rfl, rfl⟩
  | _ => exact .same

/-- A handler binds by the epochs that were revealed when it read them. -/
theorem routeStep_epochs {now : Nat} {program : Program} {adminKey : Wallet} {db db' : Db}
    {r r' : Request} {act : RouteAct} {handed : Option Voucher}
    (hs : routeStep now program adminKey db r act = some (db', r', handed)) {epochs : List Nat}
    (he : r'.epochs? = some epochs) : r.epochs? = some epochs ∨ epochs = getRevealedEpochIds db now := by
  cases routeMove hs with
  | reveal => cases he; exact .inr rfl
  | create => exact .inl he
  | _ => cases he

theorem resolve_written (j : Uuid) (v : Verdict) : Written s (resolve s.db j s.now v) := by
  rcases resolve_cases s.db j s.now v with same | ⟨status, reason, released⟩ | ⟨hit, -, confirmed⟩
  · rw [same]
    exact .same
  · rw [released]
    unfold releaseClaim
    split
    · exact ⟨.unbind, rfl, rfl⟩
    · exact .same
  · rw [confirmed]
    unfold confirmClaim
    split
    · exact ⟨.payOut, rfl, rfl⟩
    · exact .same

end Steps

end LordsPot.Payout
