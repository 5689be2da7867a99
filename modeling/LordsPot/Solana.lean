import Mathlib.Data.List.Infix
import LordsPot.Schema

/-!
# Signature histories

What the Solana RPC gives for an address, newest first, and what it has for one signature.
-/

namespace LordsPot

/-- One entry of `getSignaturesForAddress`; `err` is whether it failed on chain. -/
structure SignatureInfo where
  signature : Signature
  slot : Nat := 0
  err : Bool := false
  blockTime : Option Nat := none
  deriving Repr, DecidableEq

/-- What `getTransaction` answers. -/
inductive Answer where
  /-- The node does not have the transaction yet. -/
  | null
  /-- The transaction, without `meta` or without its log messages. -/
  | withoutLogs
  | full
  deriving Repr, DecidableEq

/-- `tx?.meta?.logMessages ?? []`, where `logs` are the transaction's log messages. -/
def Answer.logMessages (logs : List String) : Answer → List String
  | .full => logs
  | .null | .withoutLogs => []

/-- `text.includes(part)`. -/
def includes (text part : String) : Bool := decide (part.toList <:+: text.toList)

/-- In a history of distinct signatures, what is left from a signature on. -/
theorem dropWhile_signature {newer older : List SignatureInfo} {s : SignatureInfo}
    (distinct : ((newer ++ s :: older).map (·.signature)).Nodup) :
    (newer ++ s :: older).dropWhile (·.signature != s.signature) = s :: older := by
  have differ : ∀ x ∈ newer, (x.signature != s.signature) = true := by
    intro x hx
    rw [bne_iff_ne]
    intro he
    rw [List.map_append, List.nodup_append] at distinct
    exact distinct.2.2 _ (List.mem_map_of_mem hx) _ (List.mem_map_of_mem List.mem_cons_self) he
  rw [List.dropWhile_append_of_pos differ, List.dropWhile_cons_of_neg (by simp)]

end LordsPot
