import Mathlib.Data.List.Infix
import LordsPot.Library.Machine
import LordsPot.Solana

/-!
# The backup indexer

`pollMissedTransactions` as the steps between its awaits, with signatures arriving and
orders being created in between. Polls may overlap: the cron timer starts one whether or
not the last has ended. A completed poll moves the cursor to the newest signature it was
given, whatever it did with the others.
-/

namespace LordsPot.Ingest

open Transition

def LIMIT : Nat := 50

/-- Where a poll stands; `sigs` is what it was given and `todo` what is left, oldest first. -/
inductive Poll where
  | cursorRead (cursor : Option Signature)
  | looping (sigs todo : List SignatureInfo)
  | fetching (sigs : List SignatureInfo) (sig : SignatureInfo) (todo : List SignatureInfo)
  | adding (sigs : List SignatureInfo) (sig : SignatureInfo) (todo : List SignatureInfo)
  | ended
  deriving Repr, DecidableEq

/-- `history` is the vault account's, newest first; `enqueued` every job ever added. -/
structure State where
  history : List SignatureInfo := []
  cursor : Option Signature := none
  orders : List Signature := []
  enqueued : List Signature := []
  polls : List Poll := []
  deriving Repr, DecidableEq

inductive PollAct where
  | list
  /-- Skip a failed or known signature, or go on to fetch it. -/
  | check
  | fetch (answer : Answer)
  | add
  | finish
  /-- An await throws, or the process dies. -/
  | abort
  deriving Repr, DecidableEq

inductive Action where
  | arrive (sig : SignatureInfo)
  /-- `ticketWorker` creates the order of a signature. -/
  | order (signature : Signature)
  | begin
  | poll (i : Nat) (act : PollAct)
  deriving Repr, DecidableEq

/-- The signatures after the cursor, newest first. -/
def afterCursor (history : List SignatureInfo) : Option Signature → List SignatureInfo
  | none => history
  | some cursor => history.takeWhile (·.signature != cursor)

/-- The signatures at or before the cursor. -/
def atOrBefore (history : List SignatureInfo) : Option Signature → List SignatureInfo
  | none => []
  | some cursor => history.dropWhile (·.signature != cursor)

/-- `getSignaturesForAddress(vaultAta, { limit: 50, until })`. -/
def getSignaturesForAddress (history : List SignatureInfo) (until? : Option Signature) :
    List SignatureInfo :=
  (afterCursor history until?).take LIMIT

/-- `logs.some((l) => l.includes('Instruction: BuyTicket'))`. -/
def buysTicket (logs : List String) : Bool := logs.any (includes · "Instruction: BuyTicket")

section

variable (chain : Signature → List String)

def pollStep (s : State) : Poll → PollAct → Option (State × Poll)
  | .cursorRead cursor, .list =>
      let sigs := getSignaturesForAddress s.history cursor
      some (s, .looping sigs sigs.reverse)
  | .looping sigs (sig :: todo), .check =>
      if sig.err || s.orders.contains sig.signature then some (s, .looping sigs todo)
      else some (s, .fetching sigs sig todo)
  | .fetching sigs sig todo, .fetch answer =>
      if buysTicket (answer.logMessages (chain sig.signature)) then some (s, .adding sigs sig todo)
      else some (s, .looping sigs todo)
  | .adding sigs sig todo, .add =>
      some ({ s with enqueued := sig.signature :: s.enqueued }, .looping sigs todo)
  | .looping sigs [], .finish =>
      match sigs with
      | [] => some (s, .ended)
      | newest :: _ => some ({ s with cursor := some newest.signature }, .ended)
  | _, .abort => some (s, .ended)
  | _, _ => none

def step (s : State) : Action → Option State
  | .arrive sig =>
      if s.history.all (·.signature != sig.signature) then
        some { s with history := sig :: s.history }
      else none
  | .order signature => some { s with orders := signature :: s.orders }
  | .begin => some { s with polls := s.polls ++ [.cursorRead s.cursor] }
  | .poll i act => do
      let p ← s.polls[i]?
      let (s', p') ← pollStep chain s p act
      pure { s' with polls := s.polls.set i p' }

/-- Any history and orders, and a database that has seen no poll. -/
structure Initial (s : State) : Prop where
  distinct : (s.history.map (·.signature)).Nodup
  noCursor : s.cursor = none
  noPolls : s.polls = []

def machine : Machine State Action := ⟨Initial, step chain⟩

/-! ## What must not be lost -/

/-- A successful `BuyTicket` transaction. -/
def purchase (sig : SignatureInfo) : Bool := !sig.err && buysTicket (chain sig.signature)

/-- It has an order, or a job that will create one. -/
def handled (s : State) (sig : SignatureInfo) : Bool :=
  s.orders.contains sig.signature || s.enqueued.contains sig.signature

/-- Every purchase at or before the cursor is handled. -/
def NothingLost (s : State) : Prop :=
  ∀ sig ∈ atOrBefore s.history s.cursor, purchase chain sig = true → handled s sig = true

/-- The page limit cuts off no purchase that is not handled, and a purchase that is fetched
comes with its logs. -/
def pollStepSafe (s : State) : Poll → PollAct → Bool
  | .cursorRead cursor, .list =>
      ((afterCursor s.history cursor).drop LIMIT).all fun sig => !purchase chain sig || handled s sig
  | .fetching _ sig _, .fetch answer => !purchase chain sig || handled s sig || answer == .full
  | _, _ => true

def pollSafe (s : State) : Action → Bool
  | .poll i act => (s.polls[i]?).all fun p => pollStepSafe chain s p act
  | _ => true

/-! ## What a poll in flight knows -/

/-- What the poll was given is a stretch of the history with nothing lost behind it, and
what it has left behind in the stretch is handled. -/
def Given (s : State) (sigs todo : List SignatureInfo) : Prop :=
  ∃ newer older, s.history = newer ++ (sigs ++ older) ∧
    (∀ sig ∈ older, purchase chain sig = true → handled s sig = true) ∧
    ∀ sig ∈ sigs, purchase chain sig = true → handled s sig = true ∨ sig ∈ todo

def PollOk (s : State) : Poll → Prop
  | .cursorRead cursor => (∀ k, cursor = some k → k ∈ s.history.map (·.signature)) ∧
      ∀ sig ∈ atOrBefore s.history cursor, purchase chain sig = true → handled s sig = true
  | .looping sigs todo => Given chain s sigs todo
  | .fetching sigs sig todo | .adding sigs sig todo => Given chain s sigs (sig :: todo)
  | .ended => True

structure Inv (s : State) : Prop where
  distinct : (s.history.map (·.signature)).Nodup
  cursor : PollOk chain s (.cursorRead s.cursor)
  polls : ∀ p ∈ s.polls, PollOk chain s p

end

section

variable {chain : Signature → List String} {s s' : State}

/-- New signatures do not change what is at or before an old one. -/
theorem atOrBefore_append {newer history : List SignatureInfo}
    (distinct : ((newer ++ history).map (·.signature)).Nodup) {cursor : Option Signature}
    (old : ∀ k, cursor = some k → k ∈ history.map (·.signature)) :
    atOrBefore (newer ++ history) cursor = atOrBefore history cursor := by
  cases cursor with
  | none => rfl
  | some k =>
    obtain ⟨sig, hsig, rfl⟩ := List.mem_map.1 (old k rfl)
    obtain ⟨front, back, rfl⟩ := List.append_of_mem hsig
    rw [atOrBefore, atOrBefore, ← List.append_assoc] at *
    rw [dropWhile_signature distinct]
    rw [List.append_assoc, List.map_append] at distinct
    rw [dropWhile_signature distinct.of_append_right]

/-- The history grows at its newer end, and what is handled stays handled. -/
structure Grows (s s' : State) : Prop where
  history : ∃ newer, s'.history = newer ++ s.history
  handled : ∀ sig, handled s sig = true → handled s' sig = true

theorem Given.grows (g : Grows s s') {sigs todo : List SignatureInfo} (h : Given chain s sigs todo) :
    Given chain s' sigs todo := by
  obtain ⟨newest, hnewest⟩ := g.history
  obtain ⟨newer, older, hh, behind, left⟩ := h
  refine ⟨newest ++ newer, older, by rw [hnewest, hh, List.append_assoc], ?_, ?_⟩
  · exact fun sig hs hp => g.handled sig (behind sig hs hp)
  · exact fun sig hs hp => (left sig hs hp).imp (g.handled sig) id

theorem PollOk.grows (g : Grows s s') (distinct : (s'.history.map (·.signature)).Nodup) {p : Poll}
    (h : PollOk chain s p) : PollOk chain s' p := by
  cases p with
  | cursorRead cursor =>
    obtain ⟨newest, hnewest⟩ := g.history
    obtain ⟨known, behind⟩ := h
    rw [hnewest] at distinct
    refine ⟨fun k hk => ?_, fun sig hs hp => ?_⟩
    · rw [hnewest, List.map_append]
      exact List.mem_append_right _ (known k hk)
    · rw [hnewest, atOrBefore_append distinct known] at hs
      exact g.handled sig (behind sig hs hp)
  | looping sigs todo => exact Given.grows g h
  | fetching sigs sig todo => exact Given.grows g h
  | adding sigs sig todo => exact Given.grows g h
  | ended => trivial

/-- The poll moves past a signature that is no purchase or is handled. -/
theorem Given.skip {sigs todo : List SignatureInfo} {sig : SignatureInfo}
    (h : Given chain s sigs (sig :: todo))
    (done : purchase chain sig = true → handled s sig = true) : Given chain s sigs todo := by
  obtain ⟨newer, older, hh, behind, left⟩ := h
  refine ⟨newer, older, hh, behind, fun x hx hp => ?_⟩
  rcases left x hx hp with handled | hx
  · exact .inl handled
  · rcases List.mem_cons.1 hx with rfl | hx
    · exact .inl (done hp)
    · exact .inr hx

/-- What the listing gives: the page limit must cut off nothing that is not handled. -/
theorem given_list {cursor : Option Signature} (h : PollOk chain s (.cursorRead cursor))
    (cut : ∀ sig ∈ (afterCursor s.history cursor).drop LIMIT, purchase chain sig = true →
      handled s sig = true) :
    Given chain s (getSignaturesForAddress s.history cursor)
      (getSignaturesForAddress s.history cursor).reverse := by
  have split : s.history = afterCursor s.history cursor ++ atOrBefore s.history cursor := by
    cases cursor with
    | none => exact (List.append_nil _).symm
    | some k => exact List.takeWhile_append_dropWhile.symm
  refine ⟨[], (afterCursor s.history cursor).drop LIMIT ++ atOrBefore s.history cursor, ?_, ?_, ?_⟩
  · rw [List.nil_append, getSignaturesForAddress, ← List.append_assoc, List.take_append_drop]
    exact split
  · intro sig hs hp
    rcases List.mem_append.1 hs with hs | hs
    · exact cut sig hs hp
    · exact h.2 sig hs hp
  · exact fun sig hs _ => .inr (List.mem_reverse.2 hs)

/-- A poll that has left nothing may move the cursor to its newest signature. -/
theorem cursorOk_finish (distinct : (s.history.map (·.signature)).Nodup) {newest : SignatureInfo}
    {sigs : List SignatureInfo} (h : Given chain s (newest :: sigs) []) :
    PollOk chain s (.cursorRead (some newest.signature)) := by
  obtain ⟨newer, older, hh, behind, left⟩ := h
  refine ⟨fun k hk => ?_, fun sig hs hp => ?_⟩
  · cases hk
    rw [hh]
    simp
  · rw [atOrBefore, hh] at hs
    rw [hh, List.cons_append] at distinct
    rw [List.cons_append, dropWhile_signature distinct, ← List.cons_append] at hs
    rcases List.mem_append.1 hs with hs | hs
    · exact (left sig hs hp).resolve_right (List.not_mem_nil)
    · exact behind sig hs hp

/-- **The poll rule**: a safe step of a poll keeps what the poll and the cursor promise. -/
theorem pollStep_ok {p p' : Poll} {act : PollAct}
    (distinct : (s.history.map (·.signature)).Nodup) (cursor : PollOk chain s (.cursorRead s.cursor))
    (h : PollOk chain s p) (ok : pollStepSafe chain s p act = true)
    (hs : pollStep chain s p act = some (s', p')) :
    s'.history = s.history ∧ Grows s s' ∧ PollOk chain s' (.cursorRead s'.cursor) ∧
      PollOk chain s' p' := by
  have still : Grows s s := ⟨⟨[], rfl⟩, fun _ h => h⟩
  unfold pollStep at hs
  split at hs
  case h_1 c =>
    cases hs
    refine ⟨rfl, still, cursor, given_list h fun sig hsig hp => ?_⟩
    have := List.all_eq_true.1 ok sig hsig
    simpa [hp] using this
  case h_2 sigs sig todo =>
    split at hs
    · rename_i skip
      cases hs
      refine ⟨rfl, still, cursor, h.skip fun hp => ?_⟩
      rw [Bool.or_eq_true] at skip
      rcases skip with err | known
      · rw [purchase, err] at hp
        cases hp
      · rw [handled, known, Bool.true_or]
    · cases hs
      exact ⟨rfl, still, cursor, h⟩
  case h_3 sigs sig todo answer =>
    split at hs
    · cases hs
      exact ⟨rfl, still, cursor, h⟩
    · rename_i unread
      cases hs
      refine ⟨rfl, still, cursor, h.skip fun hp => ?_⟩
      simp only [pollStepSafe, hp, Bool.not_true, Bool.false_or, Bool.or_eq_true, beq_iff_eq] at ok
      rcases ok with handled | rfl
      · exact handled
      · rw [purchase, Bool.and_eq_true] at hp
        exact absurd hp.2 unread
  case h_4 sigs sig todo =>
    cases hs
    have grows : Grows s { s with enqueued := sig.signature :: s.enqueued } := by
      refine ⟨⟨[], rfl⟩, fun x hx => ?_⟩
      rw [handled, Bool.or_eq_true] at hx ⊢
      refine hx.imp id fun hx => ?_
      rw [List.contains_cons, hx, Bool.or_true]
    refine ⟨rfl, grows, PollOk.grows grows distinct cursor, ?_⟩
    refine (Given.grows grows h).skip fun _ => ?_
    simp [handled]
  case h_5 sigs =>
    split at hs
    · cases hs
      exact ⟨rfl, still, cursor, trivial⟩
    · rename_i newest older
      cases hs
      exact ⟨rfl, ⟨⟨[], rfl⟩, fun _ h => h⟩, cursorOk_finish (s := s) distinct h, trivial⟩
  case h_6 =>
    cases hs
    exact ⟨rfl, still, cursor, trivial⟩
  case h_7 => cases hs

theorem Inv.initial (h : Initial s) : Inv chain s where
  distinct := h.distinct
  cursor := by
    rw [h.noCursor]
    exact ⟨nofun, fun _ hs => by cases hs⟩
  polls p hp := by
    rw [h.noPolls] at hp
    cases hp

theorem Inv.step {a : Action} (h : Inv chain s) (ok : pollSafe chain s a = true)
    (hs : step chain s a = some s') : Inv chain s' := by
  have grown : ∀ {s' : State}, Grows s s' → s'.cursor = s.cursor →
      (s'.history.map (·.signature)).Nodup → (∀ p ∈ s'.polls, p ∈ s.polls ∨ p = .cursorRead s.cursor) →
      Inv chain s' := by
    intro s' g hc distinct polls
    have cursor := PollOk.grows g distinct h.cursor
    refine ⟨distinct, hc ▸ cursor, fun p hp => ?_⟩
    rcases polls p hp with old | rfl
    · exact PollOk.grows g distinct (h.polls p old)
    · exact cursor
  cases a with
  | arrive sig =>
    simp only [Ingest.step] at hs
    split at hs
    · rename_i fresh
      cases hs
      refine grown ⟨⟨[sig], rfl⟩, fun _ h => h⟩ rfl ?_ fun p hp => .inl hp
      refine List.nodup_cons.2 ⟨fun hm => ?_, h.distinct⟩
      obtain ⟨x, hx, he⟩ := List.mem_map.1 hm
      simpa [he] using List.all_eq_true.1 fresh x hx
    · cases hs
  | order signature =>
    cases hs
    refine grown ⟨⟨[], rfl⟩, fun x hx => ?_⟩ rfl h.distinct fun p hp => .inl hp
    rw [handled, Bool.or_eq_true] at hx ⊢
    refine hx.imp (fun hx => ?_) id
    rw [List.contains_cons, hx, Bool.or_true]
  | begin =>
    cases hs
    refine grown ⟨⟨[], rfl⟩, fun _ h => h⟩ rfl h.distinct fun p hp => ?_
    exact (List.mem_append.1 hp).imp id List.mem_singleton.1
  | poll i act =>
    obtain ⟨p, hp, hs⟩ := Option.bind_eq_some_iff.1 hs
    obtain ⟨⟨s₁, p'⟩, hstep, hs⟩ := Option.bind_eq_some_iff.1 hs
    cases hs
    rw [pollSafe, hp, Option.all_some] at ok
    obtain ⟨hh, grows, cursor, next⟩ :=
      pollStep_ok h.distinct h.cursor (h.polls p (List.mem_of_getElem? hp)) ok hstep
    have distinct : (s₁.history.map (·.signature)).Nodup := hh ▸ h.distinct
    refine ⟨distinct, cursor, fun q hq => ?_⟩
    rcases List.mem_or_eq_of_mem_set hq with old | rfl
    · exact PollOk.grows ⟨grows.history, grows.handled⟩ distinct (h.polls q old)
    · exact next

/-- **The backup indexer loses nothing** in every run in which the page limit cuts off no
purchase that is not handled and every purchase that is fetched comes with its logs. -/
theorem nothing_lost (h : (machine chain).ReachableBy (fun s a => pollSafe chain s a = true) s) :
    NothingLost chain s :=
  have inv : Inv chain s :=
    h.invariant (fun _ hi => Inv.initial hi) fun _ _ _ inv ok hs => inv.step ok hs
  inv.cursor.2

end

/-- Two purchases no webhook has reported. -/
def twoPurchases : State := { history := [{ signature := "b" }, { signature := "a" }] }

def boughtTickets (_ : Signature) : List String := ["Program log: Instruction: BuyTicket"]

/-- A poll that fetches both, with the node's answer for the older one. -/
def pollBoth (answer : Answer) : List Action :=
  .begin :: [.list, .check, .fetch answer].map (.poll 0)

/-- The node does not have the older purchase yet: it is skipped, and the cursor moves on. -/
theorem purchase_lost : ¬ ∀ chain s, (machine chain).Reachable s → NothingLost chain s := by
  intro all
  obtain ⟨s, hs, hp⟩ := Machine.exists_reachable_of_run (M := machine boughtTickets)
    (s := twoPurchases) ⟨by decide, rfl, rfl⟩
    (pollBoth .null ++ [.check, .fetch .full, .add, .finish].map (.poll 0))
    (fun s => (atOrBefore s.history s.cursor).any fun sig =>
      purchase boughtTickets sig && !handled s sig) (by decide +kernel)
  obtain ⟨sig, hsig, hp⟩ := List.any_eq_true.1 hp
  rw [Bool.and_eq_true] at hp
  have := all boughtTickets s hs sig hsig hp.1
  simp [this] at hp

/-- The node has both: both are enqueued before the cursor moves. -/
theorem nothing_lost_both : ∃ s, s.cursor = some "b" ∧ NothingLost boughtTickets s := by
  obtain ⟨s, hs, hp⟩ := Machine.exists_reachableBy_of_runBy (M := machine boughtTickets)
    (pollSafe boughtTickets) (s := twoPurchases) ⟨by decide, rfl, rfl⟩
    (pollBoth .full ++ [.add, .check, .fetch .full, .add, .finish].map (.poll 0))
    (fun s => s.cursor == some "b") (by decide +kernel)
  exact ⟨s, beq_iff_eq.1 hp, nothing_lost hs⟩

end LordsPot.Ingest
