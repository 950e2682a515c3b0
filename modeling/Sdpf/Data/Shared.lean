import Mathlib.Data.Finset.Card

/-!
# Objects owned by counted references

An object lives as long as something refers to it: a reference from outside, or one that a
live object has in its fields. Where the last one goes, the object goes, and with it the
references in its fields. A cycle of references is never undone.

`collect` destroys in rounds what nothing refers to. What survives is the largest set whose
members are referred to from outside or from within the set, so that the order in which
objects are destroyed does not matter.
-/

namespace Sdpf.Data

/-- Objects, and the references to them. -/
structure Shared (α : Type) where
  live : Finset α
  /-- The number of references from outside. -/
  outside : α → Nat
  /-- The references that the fields of an object hold. -/
  fields : α → List α

namespace Shared

variable {α : Type} [DecidableEq α] {s : Shared α} {object : α} {kept : Finset α}

/-- Something refers to the object. -/
def Held (s : Shared α) (object : α) : Prop :=
  s.outside object ≠ 0 ∨ ∃ holder ∈ s.live, object ∈ s.fields holder

instance (s : Shared α) : DecidablePred s.Held := fun _ => by
  unfold Held
  infer_instance

/-- Destroy the objects nothing refers to. -/
def prune (s : Shared α) : Shared α := { s with live := s.live.filter s.Held }

/-- Prune a number of times. -/
def pruneTimes : Nat → Shared α → Shared α
  | 0, s => s
  | rounds + 1, s => pruneTimes rounds s.prune

/-- Prune until nothing changes any more. -/
def collect (s : Shared α) : Shared α := pruneTimes s.live.card s

/-- Live objects that are referred to from outside or by one another. -/
def Supported (s : Shared α) (kept : Finset α) : Prop :=
  kept ⊆ s.live ∧
    ∀ object ∈ kept, s.outside object ≠ 0 ∨ ∃ holder ∈ kept, object ∈ s.fields holder

/-- A round of the collection spares what is supported. -/
theorem Supported.prune (supported : s.Supported kept) : s.prune.Supported kept := by
  obtain ⟨live, held⟩ := supported
  refine ⟨fun object member => ?_, held⟩
  refine Finset.mem_filter.mpr ⟨live member, ?_⟩
  rcases held object member with outside | ⟨holder, inside, field⟩
  · exact .inl outside
  · exact .inr ⟨holder, live inside, field⟩

/-- So do several rounds. -/
theorem Supported.pruneTimes (supported : s.Supported kept) (rounds : Nat) :
    (pruneTimes rounds s).Supported kept := by
  induction rounds generalizing s with
  | zero => exact supported
  | succ rounds ih => exact ih supported.prune

/-- A round that destroys nothing leaves nothing to destroy. -/
theorem pruneTimes_of_settled (settled : s.prune = s) (rounds : Nat) : pruneTimes rounds s = s := by
  induction rounds with
  | zero => rfl
  | succ rounds ih =>
      rw [pruneTimes, settled]
      exact ih

/-- A round that destroys nothing changes nothing. -/
theorem prune_of_live (same : s.prune.live = s.live) : s.prune = s :=
  congrArg (fun live => { s with live := live }) same

/-- As many rounds as there are objects are enough. -/
theorem pruneTimes_settled (rounds : Nat) (enough : s.live.card ≤ rounds) :
    (pruneTimes rounds s).prune = pruneTimes rounds s := by
  induction rounds generalizing s with
  | zero =>
      have none : s.live = ∅ := Finset.card_eq_zero.mp (Nat.le_zero.mp enough)
      refine prune_of_live ?_
      rw [pruneTimes, none, prune, none, Finset.filter_empty]
  | succ rounds ih =>
      by_cases settled : s.prune = s
      · rw [pruneTimes_of_settled settled, settled]
      · refine ih ?_
        have different : s.prune.live ≠ s.live := fun same => settled (prune_of_live same)
        have fewer : s.prune.live.card < s.live.card :=
          Finset.card_lt_card ((Finset.filter_subset _ _).ssubset_of_ne different)
        omega

/-- What supports itself after a round did so before. -/
theorem Supported.of_prune (supported : s.prune.Supported kept) : s.Supported kept :=
  ⟨supported.1.trans (Finset.filter_subset _ _), supported.2⟩

/-- Or before several rounds. -/
theorem Supported.of_pruneTimes (rounds : Nat)
    (supported : (Shared.pruneTimes rounds s).Supported kept) : s.Supported kept := by
  induction rounds generalizing s with
  | zero => exact supported
  | succ rounds ih => exact (ih supported).of_prune

/-- What survives is referred to from outside or by what survives. -/
theorem collect_supported : s.Supported s.collect.live := by
  refine .of_pruneTimes s.live.card ⟨Finset.Subset.refl _, fun object member => ?_⟩
  have settled : s.collect.prune = s.collect := pruneTimes_settled _ (Nat.le_refl _)
  rw [← settled] at member
  exact (Finset.mem_filter.mp member).2

/-- An object survives if it belongs to objects that support one another. -/
theorem mem_collect (supported : s.Supported kept) (member : object ∈ kept) :
    object ∈ s.collect.live :=
  (supported.pruneTimes s.live.card).1 member

/-- An object survives with one that refers to it. -/
theorem mem_collect_of_field {holder : α} (live : object ∈ s.live)
    (survives : holder ∈ s.collect.live) (field : object ∈ s.fields holder) :
    object ∈ s.collect.live := by
  refine @mem_collect _ _ s object (insert object s.collect.live) ⟨?_, ?_⟩
    (Finset.mem_insert_self _ _)
  · exact Finset.insert_subset live collect_supported.1
  · intro other member
    rcases Finset.mem_insert.mp member with rfl | inside
    · exact .inr ⟨holder, Finset.mem_insert_of_mem survives, field⟩
    · rcases collect_supported.2 other inside with outside | ⟨keeper, kept, refers⟩
      · exact .inl outside
      · exact .inr ⟨keeper, Finset.mem_insert_of_mem kept, refers⟩

/-- An object survives if it is referred to from outside, or refers to itself. -/
theorem mem_collect_of_root (live : object ∈ s.live)
    (root : s.outside object ≠ 0 ∨ object ∈ s.fields object) : object ∈ s.collect.live := by
  refine @mem_collect _ _ s object {object} ⟨?_, ?_⟩ (Finset.mem_singleton_self _)
  · exact Finset.singleton_subset_iff.mpr live
  · intro other member
    obtain rfl := Finset.mem_singleton.mp member
    rcases root with outside | field
    · exact .inl outside
    · exact .inr ⟨other, Finset.mem_singleton_self _, field⟩

end Shared

end Sdpf.Data
