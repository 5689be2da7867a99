import LordsPot.Harvest.Effect

/-!
# Who fills a batch

A batch is filled by the tick that made its row and by no other, and until then nothing is bound
to it. This holds in every reachable state, however the ticks overlap.
-/

namespace LordsPot.Harvest

open Transition

/-- The batch whose row the tick has made and not yet filled. -/
def Tick.creates? : Tick → Option Uuid
  | .created b _ _ | .deleting b _ => some b
  | _ => none

/-- What a step of a tick at `t` does to a ticket row. -/
structure RowRule (t t' : Tick) (x x' : Ticket) : Prop where
  rest : x' = { x with winStatus := x'.winStatus, harvestBatchId := x'.harvestBatchId }
  status : x'.winStatus = x.winStatus ∨
    x.harvestBatchId ≠ none ∧ harvestable x = true ∧ x'.winStatus = .CLAIMED_ON_BASE
  bound : ∀ b, x'.harvestBatchId = some b → x.harvestBatchId = some b ∨
    x.harvestBatchId = none ∧ t'.creates? = none ∧
      ∃ good epochs, t = .created b good epochs ∧ x.id ∈ good.map (·.id)

structure Book (s : State) : Prop where
  ticketIds : (s.db.tickets.map (·.id)).Nodup
  empty : ∀ (i : Nat) (t : Tick) (b : Uuid), s.ticks[i]? = some t → t.creates? = some b →
    ∀ x ∈ s.db.tickets, x.harvestBatchId ≠ some b
  single : ∀ (i j : Nat) (t u : Tick) (b : Uuid), s.ticks[i]? = some t → s.ticks[j]? = some u →
    t.creates? = some b → u.creates? = some b → i = j

section Effect

variable {s s' : State} {t t' : Tick} {act : TickAct}

theorem RowRule.refl (x : Ticket) : RowRule t t' x x := ⟨rfl, .inl rfl, fun _ hb => .inl hb⟩

theorem rowRules_refl (tickets : List Ticket) : List.Forall₂ (RowRule t t') tickets tickets :=
  List.forall₂_same.2 fun x _ => .refl x

theorem rowRules_finalize {db : Db} {b : Uuid} {hash : TxHash} {now : Nat} :
    List.Forall₂ (RowRule t t') db.tickets (finalizeBatchSuccess db b hash now).tickets := by
  refine Table.forall₂_updateMany (fun x _ => .refl x) ?_
  intro x _ hp
  rw [Bool.and_eq_true, beq_iff_eq] at hp
  refine ⟨rfl, .inr ⟨?_, hp.2, rfl⟩, fun _ hb => .inl hb⟩
  rw [hp.1]
  exact Option.some_ne_none b

theorem rowRules_unbind {tickets : List Ticket} {b : Uuid} :
    List.Forall₂ (RowRule t t') tickets (Table.updateMany (·.harvestBatchId == some b)
      (fun x => { x with harvestBatchId := none }) tickets) := by
  refine Table.forall₂_updateMany (fun x _ => .refl x) ?_
  intro x _ _
  refine ⟨rfl, .inl rfl, fun c hc => ?_⟩
  cases hc

/-- A bind of no rows changes none. -/
theorem bindBatch_of_count_eq_zero {db : Db} {b : Uuid} {ids : List Uuid}
    (none : bindCount db ids = 0) : (bindBatch db b ids).tickets = db.tickets := by
  rw [bindCount, List.length_eq_zero_iff, List.filter_eq_nil_iff] at none
  rw [bindBatch, Table.updateMany]
  simp only
  conv_rhs => rw [← List.map_id db.tickets]
  exact List.map_congr_left fun x hx => if_neg (none x hx)

/-- What a tick's step does to the rows. -/
theorem Effect.rows (effect : Effect s t act s' t') :
    List.Forall₂ (RowRule t t') s.db.tickets s'.db.tickets := by
  cases effect with
  | giveUp | confirm => exact rowRules_finalize
  | release | delete => exact rowRules_unbind
  | bind next =>
    rcases next with ⟨none, rfl⟩ | ⟨-, rfl⟩
    · simp only [bindBatch_of_count_eq_zero none]
      exact rowRules_refl _
    · refine Table.forall₂_updateMany (fun x _ => .refl x) ?_
      intro x _ hp
      rw [Bool.and_eq_true, beq_iff_eq, List.contains_iff_mem] at hp
      refine ⟨rfl, .inl rfl, fun c hc => ?_⟩
      cases hc
      exact .inr ⟨hp.2, rfl, _, _, rfl, hp.1⟩
  | _ => exact rowRules_refl _

theorem Effect.ids (effect : Effect s t act s' t') :
    s'.db.tickets.map (·.id) = s.db.tickets.map (·.id) :=
  Table.map_of_forall₂ _ (fun _ _ rule => by rw [rule.rest]) effect.rows

theorem Tick.creates?_of_plain (plain : t.plain = true) : t.creates? = none := by
  cases t with
  | created | deleting => cases plain
  | _ => rfl

/-- A tick holds a batch to fill that it held before, or one that is new. -/
theorem Effect.creates (effect : Effect s t act s' t') {b : Uuid} (hb : t'.creates? = some b) :
    t.creates? = some b ∨ freshBatch s b = true := by
  have not_plain : t'.plain = false := by
    by_contra plain
    rw [Tick.creates?_of_plain (by simpa using plain)] at hb
    cases hb
  cases effect with
  | moves plain => simp [plain] at not_plain
  | submit _ next =>
    rcases next with rfl | plain
    · cases hb
    · simp [plain] at not_plain
  | rehearse _ next =>
    rcases next with rfl | ⟨-, rfl⟩ | plain
    · cases hb
    · cases hb
    · simp [plain] at not_plain
  | quarantine next =>
    rcases next with ⟨-, rfl⟩ | plain
    · cases hb
    · simp [plain] at not_plain
  | create fresh =>
    cases hb
    exact .inr fresh
  | bind next =>
    rcases next with ⟨-, rfl⟩ | ⟨-, rfl⟩
    · exact .inl hb
    · cases hb
  | _ => cases hb

theorem Tick.batchId?_of_creates {b : Uuid} (hb : t.creates? = some b) : t.batchId? = some b := by
  cases t with
  | created | deleting => exact hb
  | _ => cases hb

end Effect

section Steps

variable {s s' s₁ : State}

theorem Book.tick (book : Book s) {i : Nat} {t t' : Tick} {act : TickAct} (ht : s.ticks[i]? = some t)
    (effect : Effect s t act s₁ t') : Book { s₁ with ticks := s.ticks.set i t' } := by
  constructor
  · exact effect.ids ▸ book.ticketIds
  · intro j u b hj hb x' hx' bound
    obtain ⟨x, hx, rule⟩ := Table.exists_of_forall₂_right effect.rows hx'
    rcases Table.of_getElem?_set hj with ⟨rfl, rfl⟩ | ⟨other, hj⟩
    · rcases rule.bound b bound with old | ⟨-, none, -⟩
      · rcases effect.creates hb with held | fresh
        · exact book.empty j t b ht held x hx old
        · simp only [freshBatch, Bool.and_eq_true, List.all_eq_true, bne_iff_ne] at fresh
          exact fresh.1.1.2 x hx old
      · rw [none] at hb
        cases hb
    · rcases rule.bound b bound with old | ⟨-, -, _, _, rfl, -⟩
      · exact book.empty j u b hj hb x hx old
      · exact other (book.single j i u _ b hj ht hb rfl)
  · have apart : ∀ (j : Nat) (u : Tick) (b : Uuid), j ≠ i → s.ticks[j]? = some u →
        t'.creates? = some b → u.creates? ≠ some b := by
      intro j u b other hj hb hu
      rcases effect.creates hb with held | fresh
      · exact other (book.single j i u t b hj ht hu held)
      · simp only [freshBatch, Bool.and_eq_true, List.all_eq_true, bne_iff_ne] at fresh
        exact fresh.2 u (List.mem_of_getElem? hj) (Tick.batchId?_of_creates hu)
    intro j k u v b hj hk hu hv
    rcases Table.of_getElem?_set hj with ⟨sameJ, movedJ⟩ | ⟨otherJ, oldJ⟩
    · rcases Table.of_getElem?_set hk with ⟨sameK, -⟩ | ⟨otherK, oldK⟩
      · exact sameJ.trans sameK.symm
      · exact absurd hv (apart k v b otherK oldK (movedJ ▸ hu))
    · rcases Table.of_getElem?_set hk with ⟨-, movedK⟩ | ⟨otherK, oldK⟩
      · exact absurd hu (apart j u b otherJ oldJ (movedK ▸ hv))
      · exact book.single j k u v b oldJ oldK hu hv

/-- A step of the environment binds nothing. -/
theorem Book.env (book : Book s) (ticks : s'.ticks = s.ticks)
    (rows : s'.db.tickets.map (fun x => (x.id, x.harvestBatchId)) =
      s.db.tickets.map fun x => (x.id, x.harvestBatchId)) : Book s' := by
  have ids : s'.db.tickets.map (·.id) = s.db.tickets.map (·.id) := by
    simpa [List.map_map, Function.comp_def] using congrArg (List.map Prod.fst) rows
  constructor
  · exact ids ▸ book.ticketIds
  · intro i t b hi hb x' hx'
    have mem := List.mem_map_of_mem (f := fun x : Ticket => (x.id, x.harvestBatchId)) hx'
    rw [rows] at mem
    obtain ⟨x, hx, same⟩ := List.mem_map.1 mem
    rw [← (Prod.mk.inj same).2]
    exact book.empty i t b (ticks ▸ hi) hb x hx
  · intro i j t u b hi hj
    rw [ticks] at hi hj
    exact book.single i j t u b hi hj

theorem Book.start (book : Book s) (epochs : List Nat) :
    Book { s with ticks := s.ticks ++ [.next epochs] } := by
  have old : ∀ (i : Nat) (t : Tick) (b : Uuid), (s.ticks ++ [.next epochs])[i]? = some t →
      t.creates? = some b → s.ticks[i]? = some t := by
    intro i t b hi hb
    rcases Table.of_getElem?_concat hi with old | ⟨-, rfl⟩
    · exact old
    · cases hb
  constructor
  · exact book.ticketIds
  · exact fun i t b hi hb => book.empty i t b (old i t b hi hb) hb
  · exact fun i j t u b hi hj ht hu =>
      book.single i j t u b (old i t b hi ht) (old j u b hj hu) ht hu

theorem Book.step (book : Book s) {a : Action} (hs : Harvest.step s a = some s') : Book s' := by
  cases stepMove hs with
  | start => exact book.start _
  | tick here effect => exact book.tick here effect
  | mine | clock | settled | unquarantine => exact book.env rfl rfl
  | grade => exact book.env rfl (Table.map_updateMany _ fun _ _ _ => rfl)

end Steps

theorem Book.initial {s : State} (h : Initial s) : Book s := by
  constructor
  · exact h.ticketIds
  all_goals simp [h.noTicks]

theorem Book.of_reachable {ok : State → Action → Prop} {s : State} (h : machine.ReachableBy ok s) :
    Book s :=
  Machine.ReachableBy.invariant (M := machine) (I := Book) (fun _ => Book.initial)
    (fun _ _ _ book _ hs => book.step hs) h

end LordsPot.Harvest
