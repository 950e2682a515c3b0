import Mathlib.Data.List.Basic

/-!
# Accounting for a queue

A ledger remembers everything a queue accepted and everything it delivered. A queue
that only appends what it accepts and only delivers from its front keeps the ledger
balanced: what was delivered, followed by what is still queued, is what was accepted.
-/

namespace Sdpf.Stream

variable {α : Type}

/-- Everything accepted and everything delivered so far, in order. -/
structure Ledger (α : Type) where
  accepted : List α
  delivered : List α
deriving DecidableEq, Repr

/-- One step of a queue: append `accepted` at the back, take `delivered` off the front. -/
def Transfers (queued accepted delivered next : List α) : Prop :=
  queued ++ accepted = delivered ++ next

namespace Ledger

/-- A queue that has not been used. -/
def empty : Ledger α := ⟨[], []⟩

/-- Book one step. -/
def record (ledger : Ledger α) (accepted delivered : List α) : Ledger α :=
  ⟨ledger.accepted ++ accepted, ledger.delivered ++ delivered⟩

/-- Nothing lost, duplicated, reordered or altered. -/
def Balances (ledger : Ledger α) (queued : List α) : Prop :=
  ledger.delivered ++ queued = ledger.accepted

/-- A queue step keeps its ledger balanced. -/
theorem Balances.record {ledger : Ledger α} {queued accepted delivered next : List α}
    (balanced : ledger.Balances queued) (moved : Transfers queued accepted delivered next) :
    (ledger.record accepted delivered).Balances next := by
  unfold Balances at *
  unfold Transfers at moved
  simp only [Ledger.record]
  rw [← balanced, List.append_assoc, List.append_assoc, moved]

end Ledger

end Sdpf.Stream
