import Mathlib.Data.Finset.Insert
import Mathlib.Data.Finset.Erase

/-!
# Objects on a heap

Objects are known by addresses that are never handed out twice. A heap says which of them
are live, and whether one that is not was ever used or deleted. Several addresses at a
time are lists, so that a pointer that may be null is a list of at most one.
-/

namespace Sdpf.Data

/-- The live objects, and whether a dead one has been touched. -/
structure Heap where
  /-- The next address. -/
  next : Nat
  live : Finset Nat
  fault : Bool
  known : ∀ address ∈ live, address < next

namespace Heap

/-- Nothing has been allocated. -/
def empty : Heap := ⟨0, ∅, false, fun _ member => absurd member (Finset.notMem_empty _)⟩

/-- `new`; the address is `next`. -/
def new (heap : Heap) : Heap where
  next := heap.next + 1
  live := insert heap.next heap.live
  fault := heap.fault
  known address member := by
    rcases Finset.mem_insert.mp member with rfl | older
    · exact Nat.lt_succ_self _
    · exact Nat.lt_succ_of_lt (heap.known address older)

/-- Allocate an object if there is one to be allocated; otherwise the pointer is null. -/
def newIf (heap : Heap) (wanted : Bool) : Option Nat × Heap :=
  if wanted then (some heap.next, heap.new) else (none, heap)

/-- An object is read or written. -/
def use (heap : Heap) (address : Nat) : Heap :=
  { heap with fault := heap.fault || decide (address ∉ heap.live) }

/-- `delete`. -/
def delete (heap : Heap) (address : Nat) : Heap where
  next := heap.next
  live := heap.live.erase address
  fault := heap.fault || decide (address ∉ heap.live)
  known other member := heap.known other (Finset.mem_of_mem_erase member)

/-- Use some objects. -/
def useAll (heap : Heap) (addresses : List Nat) : Heap := addresses.foldl use heap

/-- Delete some objects. -/
def deleteAll (heap : Heap) (addresses : List Nat) : Heap := addresses.foldl delete heap

variable {heap : Heap} {address : Nat} {addresses : List Nat}

/-- Using objects destroys none. -/
@[simp] theorem useAll_live : (heap.useAll addresses).live = heap.live := by
  induction addresses generalizing heap with
  | nil => rfl
  | cons first rest ih => exact ih

/-- Using objects makes none. -/
@[simp] theorem useAll_next : (heap.useAll addresses).next = heap.next := by
  induction addresses generalizing heap with
  | nil => rfl
  | cons first rest ih => exact ih

/-- Deleting objects makes none. -/
@[simp] theorem deleteAll_next : (heap.deleteAll addresses).next = heap.next := by
  induction addresses generalizing heap with
  | nil => rfl
  | cons first rest ih => exact ih

/-- Uses are in order if the objects are live. -/
theorem useAll_fault : (heap.useAll addresses).fault = false ↔
    heap.fault = false ∧ ∀ address ∈ addresses, address ∈ heap.live := by
  induction addresses generalizing heap with
  | nil => simp [useAll]
  | cons first rest ih =>
      have step : heap.useAll (first :: rest) = (heap.use first).useAll rest := rfl
      rw [step, ih]
      simp [use, and_assoc]

/-- What is alive after a deletion. -/
theorem mem_deleteAll : address ∈ (heap.deleteAll addresses).live ↔
    address ∈ heap.live ∧ address ∉ addresses := by
  induction addresses generalizing heap with
  | nil => simp [deleteAll]
  | cons first rest ih =>
      have step : heap.deleteAll (first :: rest) = (heap.delete first).deleteAll rest := rfl
      rw [step, ih]
      simp only [delete, Finset.mem_erase, List.mem_cons, not_or]
      tauto

/-- Deletions are in order if the objects are live and different. -/
theorem deleteAll_fault (distinct : addresses.Nodup) :
    (heap.deleteAll addresses).fault = false ↔
      heap.fault = false ∧ ∀ address ∈ addresses, address ∈ heap.live := by
  induction addresses generalizing heap with
  | nil => simp [deleteAll]
  | cons first rest ih =>
      have step : heap.deleteAll (first :: rest) = (heap.delete first).deleteAll rest := rfl
      obtain ⟨absent, distinct⟩ := List.nodup_cons.mp distinct
      rw [step, ih distinct]
      simp only [delete, Bool.or_eq_false_iff, decide_eq_false_iff_not, not_not, List.mem_cons,
        forall_eq_or_imp, Finset.mem_erase, and_assoc]
      refine and_congr_right fun _ => and_congr_right fun _ => ?_
      refine forall₂_congr fun other member => and_iff_right ?_
      rintro rfl
      exact absent member

/-- Objects may be deleted one list after the other. -/
theorem deleteAll_append (others : List Nat) :
    heap.deleteAll (addresses ++ others) = (heap.deleteAll addresses).deleteAll others :=
  List.foldl_append

/-- Objects have been added to a heap, and nothing else has changed. -/
structure Extends (before after : Heap) (added : List Nat) : Prop where
  fault : after.fault = before.fault
  next : before.next ≤ after.next
  live : ∀ address, address ∈ after.live ↔ address ∈ before.live ∨ address ∈ added
  fresh : ∀ address ∈ added, before.next ≤ address ∧ address < after.next
  distinct : added.Nodup

namespace Extends

variable {before middle after : Heap} {added more : List Nat}

/-- Nothing has been made. -/
theorem refl : heap.Extends heap [] where
  fault := rfl
  next := Nat.le_refl _
  live := by simp
  fresh := by simp
  distinct := List.nodup_nil

/-- One object has been made. -/
theorem new : heap.Extends heap.new [heap.next] where
  fault := rfl
  next := Nat.le_succ _
  live address := by simp [Heap.new, or_comm]
  fresh address member := by
    obtain rfl := List.mem_singleton.mp member
    exact ⟨Nat.le_refl _, Nat.lt_succ_self _⟩
  distinct := List.nodup_singleton _

/-- One object has been made, if it was wanted. -/
theorem newIf (wanted : Bool) :
    heap.Extends (heap.newIf wanted).2 (heap.newIf wanted).1.toList := by
  cases wanted with
  | false => exact .refl
  | true => exact .new

/-- What was made earlier and what was made later. -/
theorem trans (first : before.Extends middle added) (second : middle.Extends after more) :
    before.Extends after (added ++ more) where
  fault := second.fault.trans first.fault
  next := Nat.le_trans first.next second.next
  live address := by rw [second.live, first.live, List.mem_append, or_assoc]
  fresh address member := by
    rcases List.mem_append.mp member with older | newer
    · obtain ⟨fresh, below⟩ := first.fresh address older
      exact ⟨fresh, Nat.lt_of_lt_of_le below second.next⟩
    · obtain ⟨fresh, below⟩ := second.fresh address newer
      exact ⟨Nat.le_trans first.next fresh, below⟩
  distinct := by
    refine List.nodup_append.mpr
      ⟨first.distinct, second.distinct, fun address older other newer => ?_⟩
    have below := (first.fresh address older).2
    have fresh := (second.fresh other newer).1
    omega

/-- What has been added is deleted again. -/
theorem delete (grown : before.Extends after added) :
    before.Extends (after.deleteAll added) [] where
  fault := by
    have same := @deleteAll_fault after added grown.distinct
    rw [and_iff_left fun address member => (grown.live address).mpr (.inr member)] at same
    rw [← grown.fault]
    exact Bool.eq_iff_iff.mpr (by simpa using not_congr same)
  next := by simpa using grown.next
  live address := by
    rw [mem_deleteAll, grown.live]
    refine ⟨fun both => .inl (both.1.resolve_right both.2), fun older => ?_⟩
    have old := older.resolve_right List.not_mem_nil
    refine ⟨.inl old, fun newer => ?_⟩
    exact absurd (before.known address old) (Nat.not_lt.mpr (grown.fresh address newer).1)
  fresh := by simp
  distinct := List.nodup_nil

end Extends

end Heap

end Sdpf.Data
