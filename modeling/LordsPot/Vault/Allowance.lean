import LordsPot.Vault.Orders

/-!
# Only the current pair is approved

Each setter revokes the allowance of one address, grants that of another, and then makes it the current
one. A forced approval sets one allowance or reverts; tokens otherwise only take from allowances. So
nothing but the current USDC and the current Megapot is ever approved once no setter is at work.
-/

namespace LordsPot.Vault

open Transition Rollback

/-- Only the current pair has an allowance. -/
def OnlyCurrent (w : World) : Prop :=
  ∀ token spender, w.allowance token spender ≠ 0 →
    token = w.vaultInfo.usdcAddress ∧ spender = w.vaultInfo.megapotAddress

/-- No pair has an allowance. -/
def NoneApproved (w : World) : Prop := ∀ token spender, w.allowance token spender = 0

/-- What holds while a setter is at one of its approvals. -/
def AtApproval (w : World) : Waits → Prop
  | .revokingMegapot token oldMegapot _ => OnlyCurrent w ∧ token = w.vaultInfo.usdcAddress ∧
      oldMegapot = w.vaultInfo.megapotAddress
  | .grantingMegapot token _ _ => NoneApproved w ∧ token = w.vaultInfo.usdcAddress
  | .revokingUsdc oldUsdc _ currentMegapot => OnlyCurrent w ∧ oldUsdc = w.vaultInfo.usdcAddress ∧
      currentMegapot = w.vaultInfo.megapotAddress
  | .grantingUsdc _ _ currentMegapot => NoneApproved w ∧ currentMegapot = w.vaultInfo.megapotAddress
  | _ => OnlyCurrent w

/-- At most one setter is at work, and the allowances are as it has left them. -/
def Approved (w : World) (waits : List Waits) : Prop :=
  match waits.filter Waits.approving with
  | [] => OnlyCurrent w
  | [setter] => AtApproval w setter
  | _ => False

/-- A forced approval sets an allowance or reverts; it is no occasion for another setter. -/
def allowedCall (waits : List Waits) : VaultCall → Bool
  | .setVaultMegapotAddress _ | .setVaultUsdcAddress _ => (waits.filter Waits.approving).isEmpty
  | _ => true

def approvalsPlain (s : State) : Action → Bool
  | .call _ call => allowedCall (waiting s.stack) call
  | _ => true

section Functions

variable {w w' : World} {msgSender : Address} {call : VaultCall} {waits : Waits} {next : Option Waits}
  {returned : List Nat} {below : List Waits}

theorem setAllowance_allowance (w : World) (token spender value token' spender' : Nat) :
    (w.setAllowance token spender value).allowance token' spender' =
      if token' = token ∧ spender' = spender then value else w.allowance token' spender' := by
  rw [World.setAllowance]
  by_cases t : token' = token
  · subst t
    by_cases s : spender' = spender
    · subst s
      simp
    · simp [s]
  · simp [t]

/-- Allowances and the current pair are as they were. -/
structure PairSame (w w' : World) : Prop where
  allowance : w'.allowance = w.allowance
  usdc : w'.vaultInfo.usdcAddress = w.vaultInfo.usdcAddress
  megapot : w'.vaultInfo.megapotAddress = w.vaultInfo.megapotAddress

theorem PairSame.onlyCurrent (same : PairSame w w') (h : OnlyCurrent w) : OnlyCurrent w' := by
  intro token spender approved
  rw [same.allowance] at approved
  rw [same.usdc, same.megapot]
  exact h token spender approved

theorem PairSame.atApproval (same : PairSame w w') (h : AtApproval w waits) : AtApproval w' waits := by
  have none : NoneApproved w → NoneApproved w' := fun h token spender => by
    rw [same.allowance]
    exact h token spender
  cases waits with
  | revokingMegapot => exact ⟨same.onlyCurrent h.1, same.usdc ▸ h.2.1, same.megapot ▸ h.2.2⟩
  | grantingMegapot => exact ⟨none h.1, same.usdc ▸ h.2⟩
  | revokingUsdc => exact ⟨same.onlyCurrent h.1, same.usdc ▸ h.2.1, same.megapot ▸ h.2.2⟩
  | grantingUsdc => exact ⟨none h.1, same.megapot ▸ h.2⟩
  | _ => exact same.onlyCurrent h

theorem approved_idle (idle : waits.approving = false) :
    Approved w (waits :: below) ↔ Approved w below := by
  rw [Approved, List.filter_cons_of_neg (by simp [idle]), ← Approved]

theorem approved_setter (setter : waits.approving = true) :
    Approved w (waits :: below) ↔ AtApproval w waits ∧ below.filter Waits.approving = [] := by
  rw [Approved, List.filter_cons_of_pos setter]
  cases below.filter Waits.approving with
  | nil => simp
  | cons first more => simp

theorem approved_none (none : below.filter Waits.approving = []) :
    Approved w below ↔ OnlyCurrent w := by
  rw [Approved, none]

theorem Approved.same (h : Approved w below) (same : PairSame w w') : Approved w' below := by
  unfold Approved at h ⊢
  split at h
  · exact same.onlyCurrent h
  · exact same.atApproval h
  · exact h

/-- A call that waits for something else than an approval, or has ended. -/
theorem Approved.toList (h : Approved w below) (idle : next.all (!·.approving) = true) :
    Approved w (next.toList ++ below) := by
  cases next with
  | none => exact h
  | some waits => exact (approved_idle (by simpa using idle)).2 h

/-- A call that is entered changes neither; a setter starts by revoking the current pair. -/
theorem enter_pair (h : enter w msgSender call = some (w', next)) :
    PairSame w w' ∧ (next.all (!·.approving) = true ∨
      (∀ below, allowedCall below call = true → below.filter Waits.approving = []) ∧
        ((∃ new, next = some (.revokingMegapot w.vaultInfo.usdcAddress w.vaultInfo.megapotAddress new)) ∨
          ∃ new, next = some (.revokingUsdc w.vaultInfo.usdcAddress new w.vaultInfo.megapotAddress))) := by
  cases call with
  | setVaultMegapotAddress new =>
    simp only [enter] at h
    repeat' split at h
    all_goals cases h
    exact ⟨⟨rfl, rfl, rfl⟩, .inr ⟨fun below => List.isEmpty_iff.1, .inl ⟨new, rfl⟩⟩⟩
  | setVaultUsdcAddress new =>
    simp only [enter] at h
    repeat' split at h
    all_goals cases h
    exact ⟨⟨rfl, rfl, rfl⟩, .inr ⟨fun below => List.isEmpty_iff.1, .inr ⟨new, rfl⟩⟩⟩
  | _ =>
    simp only [enter] at h
    repeat' split at h
    all_goals first
      | cases h; done
      | cases h; exact ⟨⟨rfl, rfl, rfl⟩, .inl rfl⟩

/-- A call that is not at an approval goes on without one. -/
theorem resume_pair (h : resume w returned waits = some (w', next)) (idle : waits.approving = false) :
    PairSame w w' ∧ next.all (!·.approving) = true := by
  cases waits with
  | balanceBefore ticketCount =>
    obtain ⟨balance, -, h⟩ := Option.map_eq_some_iff.1 h
    cases h
    exact ⟨⟨rfl, rfl, rfl⟩, rfl⟩
  | balanceAfter ticketCount balanceBefore =>
    obtain ⟨balance, -, h⟩ := Option.bind_eq_some_iff.1 h
    split at h
    · cases h
    · cases h
      exact ⟨⟨rfl, rfl, rfl⟩, rfl⟩
  | revokingMegapot | grantingMegapot | revokingUsdc | grantingUsdc => cases idle
  | _ =>
    cases h
    exact ⟨⟨rfl, rfl, rfl⟩, rfl⟩

/-- The only allowance is taken away. -/
theorem noneApproved_revoked (h : OnlyCurrent w) : NoneApproved
    (w.setAllowance w.vaultInfo.usdcAddress w.vaultInfo.megapotAddress 0) := by
  intro token spender
  rw [setAllowance_allowance]
  split
  · rfl
  · rename_i other
    by_contra approved
    exact other (h token spender approved)

/-- One allowance is granted where there was none. -/
theorem granted {token spender : Address} (h : NoneApproved w) {token' spender' : Address}
    (approved : (w.setAllowance token spender MAX_UINT256).allowance token' spender' ≠ 0) :
    token' = token ∧ spender' = spender := by
  rw [setAllowance_allowance] at approved
  split at approved
  · rename_i this
    exact this
  · exact absurd (h token' spender') approved

theorem Approved.enter (h : Approved w below) (allowed : allowedCall below call = true)
    (entered : enter w msgSender call = some (w', next)) : Approved w' (next.toList ++ below) := by
  obtain ⟨same, idle | ⟨alone, setter⟩⟩ := enter_pair entered
  · exact (h.same same).toList idle
  · have none := alone below allowed
    have current := same.onlyCurrent ((approved_none none).1 h)
    rcases setter with ⟨new, rfl⟩ | ⟨new, rfl⟩
    · exact (approved_setter rfl).2 ⟨⟨current, same.usdc.symm, same.megapot.symm⟩, none⟩
    · exact (approved_setter rfl).2 ⟨⟨current, same.usdc.symm, same.megapot.symm⟩, none⟩

theorem Approved.resume (h : Approved w (waits :: below))
    (went : resume w returned waits = some (w', next)) : Approved w' (next.toList ++ below) := by
  cases setter : waits.approving with
  | false =>
    obtain ⟨same, idle⟩ := resume_pair went setter
    exact (((approved_idle setter).1 h).same same).toList idle
  | true =>
    obtain ⟨now, none⟩ := (approved_setter setter).1 h
    cases waits with
    | revokingMegapot token oldMegapot newMegapot =>
      cases went
      obtain ⟨current, rfl, rfl⟩ := now
      exact (approved_setter rfl).2 ⟨⟨noneApproved_revoked current, rfl⟩, none⟩
    | grantingMegapot token oldMegapot newMegapot =>
      cases went
      obtain ⟨zero, rfl⟩ := now
      exact (approved_none none).2 fun token spender approved => granted zero approved
    | revokingUsdc oldUsdc newUsdc currentMegapot =>
      cases went
      obtain ⟨current, rfl, rfl⟩ := now
      exact (approved_setter rfl).2 ⟨⟨noneApproved_revoked current, rfl⟩, none⟩
    | grantingUsdc oldUsdc newUsdc currentMegapot =>
      cases went
      obtain ⟨zero, rfl⟩ := now
      exact (approved_none none).2 fun token spender approved => granted zero approved
    | _ => cases setter

/-- A token takes from an allowance. -/
theorem Approved.spend (h : Approved w below) (token spender amount : Nat) :
    Approved (w.setAllowance token spender (w.allowance token spender - amount)) below := by
  have less : ∀ token' spender', w.allowance token' spender' = 0 →
      (w.setAllowance token spender (w.allowance token spender - amount)).allowance token' spender' = 0 := by
    intro token' spender' zero
    rw [setAllowance_allowance]
    split
    · rename_i this
      rw [← this.1, ← this.2, zero, Nat.zero_sub]
    · exact zero
  have current : OnlyCurrent w →
      OnlyCurrent (w.setAllowance token spender (w.allowance token spender - amount)) :=
    fun only token' spender' approved => only token' spender' fun zero => approved (less _ _ zero)
  have none : NoneApproved w →
      NoneApproved (w.setAllowance token spender (w.allowance token spender - amount)) :=
    fun zero token' spender' => less _ _ (zero token' spender')
  unfold Approved at h ⊢
  split at h
  · exact current h
  · rename_i setter _
    cases setter with
    | revokingMegapot => exact ⟨current h.1, h.2⟩
    | grantingMegapot => exact ⟨none h.1, h.2⟩
    | revokingUsdc => exact ⟨current h.1, h.2⟩
    | grantingUsdc => exact ⟨none h.1, h.2⟩
    | _ => exact current h
  · exact h

end Functions

theorem approved_initial {s : State} (h : Initial s) : Sound Approved (fun _ _ => True) s.world s.stack := by
  obtain ⟨empty, initialOwner, relayer, megapotAddress, usdcAddress, referrerAddress, built⟩ := h
  rw [empty]
  unfold constructed at built
  split at built
  · cases built
  · rw [← Option.some.inj built]
    intro token spender approved
    exact granted (fun _ _ => rfl) approved

/-- **The allowance invariant.** Whenever no call is open, the vault's allowance is zero for every pair
but the current USDC and the current Megapot. -/
theorem allowance_current (s : State)
    (h : machine.ReachableBy (fun s a => approvalsPlain s a = true) s) (committed : s.stack = []) :
    ∀ token spender, s.world.allowance token spender ≠ 0 →
      token = s.world.vaultInfo.usdcAddress ∧ spender = s.world.vaultInfo.megapotAddress := by
  have sound : Sound Approved (fun _ _ => True) s.world s.stack := by
    refine h.invariant (fun s => approved_initial) fun s a s' ih ok hs => ?_
    have hs : step s a = some s' := hs
    refine sound_step (fun below call => allowedCall below call = true) ih ?_ ?_ ?_ ?_ ?_ hs
    · rintro msgSender call rfl
      exact ok
    · intro w w' below msgSender call next now allowed entered
      exact ⟨now.enter allowed entered, fun _ _ => trivial⟩
    · intro w w' below waits returned next now went
      exact ⟨now.resume went, fun _ _ _ _ => trivial⟩
    · intro w below now
      exact ⟨(approved_idle rfl).2 now, trivial⟩
    · intro w below token spender amount now
      exact now.spend token spender amount
  rw [committed] at sound
  exact sound.now

/-- Megapot is changed and changed back, with a withdrawal in between. -/
def changedBack : List Action :=
  [.call 1 (.setVaultMegapotAddress 10), .ret [1], .ret [1], .call 1 (.withdrawUsdc 1 5),
    .spend 8 10 5, .ret [1], .call 1 (.setVaultMegapotAddress 9), .ret [1], .ret [1]]

theorem allowance_current_changedBack : ∃ s : State,
    s.world.vaultInfo.megapotAddress = 9 ∧ s.world.allowance 8 10 = 0 := by
  obtain ⟨s, reached, run⟩ := Machine.exists_reachableBy_of_runBy (M := machine) approvalsPlain
    initial_selfRelayed changedBack
    (fun s => s.stack.isEmpty && s.world.vaultInfo.megapotAddress == 9) (by decide +kernel)
  simp only [Bool.and_eq_true, List.isEmpty_iff, beq_iff_eq] at run
  obtain ⟨committed, current⟩ := run
  refine ⟨s, current, ?_⟩
  by_contra approved
  have pair := allowance_current s reached committed 8 10 approved
  rw [current] at pair
  exact absurd pair.2 (by decide)

end LordsPot.Vault
