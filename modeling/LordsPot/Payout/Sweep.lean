import Mathlib.Data.List.TakeWhile
import LordsPot.Library.Collect
import LordsPot.Payout.Confirmer
import LordsPot.Solana

/-!
# `findLandedClaims`

The walk through the admin key's signature history, newest first: pages of at most
`PAGE` signatures, each signature decoded through the cache, until a transaction older
than the bound, an empty or short page, or the page ceiling. Anchor's event parser is a
parameter, and so are the node's answers: how many signatures it returns for a page and
what it has for a signature.
-/

namespace LordsPot.Payout

open Collect

def PAGE : Nat := 200
def MAX_PAGES : Nat := 25
def CLAIM_CACHE_MAX : Nat := 5000

/-- An event of `parseLogs`, with the fields of a winnings event. -/
structure AnchorEvent where
  name : String
  user : Wallet
  amount : Nat
  deriving Repr, DecidableEq

structure Node where
  /-- How many signatures the node returns for the n-th page, if there are as many. -/
  pageLen : Nat → Nat
  getTransaction : Signature → Answer

/-- `claimDecodeCache`, oldest insertion first. -/
abbrev Cache := List (Signature × List (Wallet × Nat))

section Sweep

variable (parseLogs : List String → List AnchorEvent) (chain : Signature → List String)

/-- The `WinningsClaimedEvent`s of a transaction. -/
def winningsClaimed (signature : Signature) : List (Wallet × Nat) :=
  ((parseLogs (chain signature)).filter fun ev =>
    ev.name == "WinningsClaimedEvent" || ev.name == "winningsClaimedEvent").map
      fun ev => (ev.user, ev.amount)

/-- `claimDecodeCache.set`, after the oldest entry made room. -/
def remember (cache : Cache) (signature : Signature) (events : List (Wallet × Nat)) : Cache :=
  (if CLAIM_CACHE_MAX ≤ cache.length then cache.tail else cache) ++ [(signature, events)]

def decodeCached (node : Node) (signature : Signature) (cache : Cache) :
    List (Wallet × Nat) × Cache :=
  match cache.lookup signature with
  | some events => (events, cache)
  | none =>
    match node.getTransaction signature with
    | .null => ([], cache)
    | .withoutLogs => ([], remember cache signature [])
    | .full => (winningsClaimed parseLogs chain signature,
        remember cache signature (winningsClaimed parseLogs chain signature))

/-- The entry collected for an event. -/
def collected (s : SignatureInfo) (ev : Wallet × Nat) : LandedClaim :=
  { wallet := ev.1, amount := ev.2, signature := s.signature, slot := s.slot,
    blockTime := s.blockTime, failed := s.err }

/-- `s.blockTime != null && s.blockTime < notBeforeUnixTime`. -/
def tooOld (notBefore : Nat) (s : SignatureInfo) : Bool :=
  match s.blockTime with
  | none => false
  | some bt => decide (bt < notBefore)

/-- The body of the inner loop. -/
def decodeEntry (node : Node) (s : SignatureInfo) (cache : Cache) : List LandedClaim × Cache :=
  let (events, cache) := decodeCached parseLogs chain node s.signature cache
  (events.map (collected s), cache)

/-- The inner loop over a page; the last component is `break outer`. -/
def scanPage (node : Node) (notBefore : Nat) : List SignatureInfo → Cache → List LandedClaim →
    List LandedClaim × Cache × Bool
  | [], cache, acc => (acc, cache, false)
  | s :: sigs, cache, acc =>
    if tooOld notBefore s then (acc, cache, true)
    else
      let (claims, cache) := decodeEntry parseLogs chain node s cache
      scanPage node notBefore sigs cache (acc ++ claims)

/-- The signatures older than `before`. -/
def olderThan (history : List SignatureInfo) : Option Signature → List SignatureInfo
  | none => history
  | some before => (history.dropWhile (·.signature != before)).drop 1

/-- `getSignaturesForAddress(admin, { before, limit: PAGE })`. -/
def getSignaturesForAddress (node : Node) (history : List SignatureInfo) (page : Nat)
    (before : Option Signature) : List SignatureInfo :=
  (olderThan history before).take (min (node.pageLen page) PAGE)

/-- The outer loop, with the pages it may still read. -/
def walkPages (node : Node) (history : List SignatureInfo) (notBefore : Nat) : Nat → Nat →
    Option Signature → Cache → List LandedClaim → LandedClaims × Cache
  | 0, _, _, cache, acc => (⟨acc, false⟩, cache)
  | pages + 1, page, before, cache, acc =>
    let sigs := getSignaturesForAddress node history page before
    if sigs.isEmpty then (⟨acc, true⟩, cache)
    else
      let (acc, cache, stop) := scanPage parseLogs chain node notBefore sigs cache acc
      if stop then (⟨acc, true⟩, cache)
      else if sigs.length < PAGE then (⟨acc, true⟩, cache)
      else walkPages node history notBefore pages (page + 1) (sigs.getLast?.map (·.signature)) cache acc

def findLandedClaims (node : Node) (history : List SignatureInfo) (cache : Cache)
    (notBefore : Nat) : LandedClaims × Cache :=
  walkPages parseLogs chain node history notBefore MAX_PAGES 0 none cache []

/-- The caches that earlier sweeps leave. -/
inductive LeftBySweeps : Cache → Prop where
  | empty : LeftBySweeps []
  | sweep {cache : Cache} (node : Node) (history : List SignatureInfo) (notBefore : Nat) :
      LeftBySweeps cache →
      LeftBySweeps (findLandedClaims parseLogs chain node history cache notBefore).2

/-! ## What the walk amounts to -/

variable {parseLogs chain} {node : Node} {notBefore : Nat}

/-- The inner loop decodes up to the first entry that is too old. -/
theorem scanPage_eq (sigs : List SignatureInfo) (cache : Cache) (acc : List LandedClaim) :
    scanPage parseLogs chain node notBefore sigs cache acc =
      (acc ++ (collect (decodeEntry parseLogs chain node)
          (sigs.takeWhile fun s => !tooOld notBefore s) cache).1,
        (collect (decodeEntry parseLogs chain node)
          (sigs.takeWhile fun s => !tooOld notBefore s) cache).2,
        sigs.any (tooOld notBefore)) := by
  induction sigs generalizing cache acc with
  | nil => simp [scanPage]
  | cons s sigs ih =>
    rw [scanPage]
    by_cases h : tooOld notBefore s = true
    · simp [h]
    · rw [if_neg h]
      simp only [Bool.not_eq_true] at h
      simp [ih, h, collect_cons]

/-- How many signatures the pages offer, and whether a page was short. -/
def offered (node : Node) : Nat → Nat → Nat → Nat × Bool
  | 0, _, _ => (0, false)
  | pages + 1, page, left =>
    let len := min (min (node.pageLen page) PAGE) left
    if len < PAGE then (len, true)
    else
      let (n, short) := offered node pages (page + 1) (left - PAGE)
      (PAGE + n, short)

theorem olderThan_last {history done rest : List SignatureInfo} {s : SignatureInfo}
    (distinct : (history.map (·.signature)).Nodup) (h : history = done ++ s :: rest) :
    olderThan history (some s.signature) = rest := by
  subst h
  rw [olderThan, dropWhile_signature distinct]
  rfl

/-- Nothing after the first entry that is too old is taken. -/
theorem takeWhile_append_of_any {xs : List SignatureInfo} (h : xs.any (tooOld notBefore) = true)
    (ys : List SignatureInfo) : ((xs ++ ys).takeWhile fun s => !tooOld notBefore s) =
      xs.takeWhile fun s => !tooOld notBefore s := by
  induction xs with
  | nil => simp at h
  | cons x xs ih =>
    rw [List.cons_append, List.takeWhile_cons, List.takeWhile_cons]
    split
    · rename_i hx
      rw [ih]
      rw [Bool.not_eq_true'] at hx
      simpa [hx] using h
    · rfl

/-- **The walk rule**: the walk decodes what its pages offer, up to the first entry that
is too old, and is complete if it met one or a short page. -/
theorem walkPages_eq {history : List SignatureInfo} (distinct : (history.map (·.signature)).Nodup)
    (pages page : Nat) (before : Option Signature) (cache : Cache) (acc : List LandedClaim)
    {rest : List SignatureInfo} (hrest : olderThan history before = rest)
    (suffix : ∃ done, history = done ++ rest) :
    walkPages parseLogs chain node history notBefore pages page before cache acc =
      let reach := rest.take (offered node pages page rest.length).1
      let fresh := collect (decodeEntry parseLogs chain node)
        (reach.takeWhile fun s => !tooOld notBefore s) cache
      (⟨acc ++ fresh.1,
        (offered node pages page rest.length).2 || reach.any (tooOld notBefore)⟩, fresh.2) := by
  induction pages generalizing page before cache acc rest with
  | zero => simp [walkPages, offered]
  | succ pages ih =>
    have sigs : getSignaturesForAddress node history page before =
        rest.take (min (node.pageLen page) PAGE) := by rw [getSignaturesForAddress, hrest]
    have length : (rest.take (min (node.pageLen page) PAGE)).length =
        min (min (node.pageLen page) PAGE) rest.length := List.length_take
    rw [walkPages, sigs, offered]
    simp only [scanPage_eq, length]
    by_cases short : min (min (node.pageLen page) PAGE) rest.length < PAGE
    · have page_eq : rest.take (min (min (node.pageLen page) PAGE) rest.length) =
          rest.take (min (node.pageLen page) PAGE) := List.take_eq_take_min.symm
      rw [if_pos short, if_pos short]
      simp only [page_eq, Bool.true_or, ite_self]
      split
      · rename_i empty
        simp [List.isEmpty_iff.1 empty]
      · rfl
    · have full : min (node.pageLen page) PAGE = PAGE := by omega
      have long : PAGE ≤ rest.length := by omega
      rw [if_neg short, if_neg short, full]
      have nonempty : (rest.take PAGE).isEmpty = false := by
        rw [List.isEmpty_eq_false_iff, ← List.length_pos_iff, List.length_take]
        have : 0 < PAGE := by decide
        omega
      simp only [nonempty, Bool.false_eq_true, if_false]
      rw [List.take_add, List.any_append]
      cases stop : (rest.take PAGE).any (tooOld notBefore) with
      | true => simp [takeWhile_append_of_any stop]
      | false =>
        have fresh : ∀ s ∈ rest.take PAGE, (!tooOld notBefore s) = true := by
          intro s hs
          rw [Bool.not_eq_true']
          simpa using List.any_eq_false.1 stop s hs
        -- the next page starts after the last signature of this one
        obtain ⟨front, last, split⟩ : ∃ front last, rest.take PAGE = front ++ [last] := by
          refine ⟨_, _, (List.dropLast_append_getLast ?_).symm⟩
          exact List.isEmpty_eq_false_iff.1 nonempty
        have rest_eq : rest = front ++ last :: rest.drop PAGE := by
          calc rest = rest.take PAGE ++ rest.drop PAGE := (List.take_append_drop ..).symm
            _ = front ++ last :: rest.drop PAGE := by rw [split, List.append_assoc]; rfl
        obtain ⟨done, hdone⟩ := suffix
        have behind : history = (done ++ front) ++ last :: rest.drop PAGE := by
          rw [List.append_assoc, ← rest_eq]
          exact hdone
        have next : olderThan history ((rest.take PAGE).getLast?.map (·.signature)) =
            rest.drop PAGE := by
          rw [split, List.getLast?_append, List.getLast?_singleton]
          exact olderThan_last distinct behind
        simp only [Bool.false_eq_true, if_false, Bool.false_or]
        rw [ih (page + 1) _ _ _ next ⟨done ++ front ++ [last], by rw [behind]; simp⟩]
        rw [List.takeWhile_append_of_pos fresh, collect_append, List.length_drop,
          List.takeWhile_eq_self_iff.2 fresh]
        simp only [List.append_assoc]

end Sweep

end LordsPot.Payout
