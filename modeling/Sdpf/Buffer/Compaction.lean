import Sdpf.Buffer.Capacity
import Mathlib.Order.CompletePartialOrder
import Mathlib.Order.Interval.Set.Disjoint

/-!
# The ranges of the copy that compacts a buffer

`move_readable_data` calls `memcpy`, whose ranges must not overlap. The functions below
follow the operations down to that call and yield its arguments. It is made from two
places, and the ranges are apart exactly when at least as many bytes have been consumed as
are still to be read (`compaction_apart_iff`).
-/

namespace Sdpf.Buffer

open Sdpf.Data Sdpf.Semantics

/-- A call of `memcpy` within one vector: where it reads, where it writes, how much. -/
structure Copy where
  source : Nat
  destination : Nat
  count : Nat
deriving DecidableEq, Repr

namespace Copy

def sourceRange (copy : Copy) : Set Nat := Set.Ico copy.source (copy.source + copy.count)

def destinationRange (copy : Copy) : Set Nat :=
  Set.Ico copy.destination (copy.destination + copy.count)

/-- What `memcpy` requires for its result to be defined. -/
def Apart (copy : Copy) : Prop := Disjoint copy.sourceRange copy.destinationRange

/-- The vector after the call. -/
def apply (copy : Copy) (block : List UInt8) : List UInt8 :=
  store block copy.destination (slice block copy.source copy.count)

/-- A copy to the front is within its contract when it reads behind what it writes. -/
theorem apart_front_iff {source count : Nat} (positive : 0 < count) :
    (Copy.mk source 0 count).Apart ↔ count ≤ source := by
  simp only [Apart, sourceRange, destinationRange, Set.Ico_disjoint_Ico]
  omega

end Copy

namespace IOBuf

/-- The `memcpy` of `move_readable_data`, if it comes to it. -/
def moveReadableDataCopy (b : IOBuf) : Option Copy :=
  if 0 = b.readIndex then
    none
  else if b.readableBytes > 0 then
    some ⟨b.readIndex, 0, b.readableBytes⟩
  else
    none

def makeSpaceCopy (b : IOBuf) (n : Nat) : Option Copy :=
  let newSize := SizeT.add (SizeT.sub (SizeT.sub n b.writableBytes) b.readIndex) b.buff.length
  if newSize > maxSize then
    none
  else
    let multiple := newSize / initialSize + if newSize % initialSize > 0 then 1 else 0
    (b.resize (initialSize * multiple)).moveReadableDataCopy

def ensureWritableCopy (b : IOBuf) (n : Nat) : Option Copy :=
  if n > SizeT.add b.writableBytes b.readIndex then
    b.makeSpaceCopy n
  else if n > b.writableBytes then
    b.moveReadableDataCopy
  else
    none

def writeCopy (b : IOBuf) (data : Option (List UInt8)) : Option Copy :=
  match data with
  | none => none
  | some bytes => if 0 = bytes.length then none else b.ensureWritableCopy bytes.length

/-- The vector is moved by the `memcpy` found, and by nothing else. -/
theorem moveReadableData_buff (b : IOBuf) :
    b.moveReadableData.buff =
      (b.moveReadableDataCopy.elim b.buff fun copy => copy.apply b.buff) := by
  unfold moveReadableData moveReadableDataCopy
  split_ifs with front unread
  · rfl
  · simp only [Option.elim_some, Copy.apply, readable]
  · simp only [Option.elim_none]

/-- `make_space` finds the request too large. -/
def Refuses (b : IOBuf) (n : Nat) : Prop :=
  b.capacity < n + b.readableBytes ∧ maxSize < (n + b.readableBytes) % sizeRange

instance (b : IOBuf) (n : Nat) : Decidable (b.Refuses n) := by
  unfold Refuses
  infer_instance

/-- A request that is neither met behind the write index nor refused finds either nothing
consumed, or at least as many bytes consumed as unread. -/
def Clears (b : IOBuf) (n : Nat) : Prop :=
  b.writableBytes < n → ¬ b.Refuses n → b.readIndex = 0 ∨ b.readableBytes ≤ b.readIndex

instance (b : IOBuf) (n : Nat) : Decidable (b.Clears n) := by
  unfold Clears
  infer_instance

/-- When the readable bytes are copied, they are copied from the read index to the front. -/
theorem moveReadableDataCopy_eq_some_iff {b : IOBuf} {copy : Copy} :
    b.moveReadableDataCopy = some copy ↔
      0 < b.readIndex ∧ 0 < b.readableBytes ∧ copy = ⟨b.readIndex, 0, b.readableBytes⟩ := by
  unfold moveReadableDataCopy
  split_ifs with front unread
  · exact iff_of_false (fun none => by cases none) fun consumed => by omega
  · rw [Option.some.injEq, eq_comm]
    exact ⟨fun same => ⟨by omega, unread, same⟩, fun holds => holds.2.2⟩
  · exact iff_of_false (fun none => by cases none) fun consumed => unread consumed.2.1

namespace Valid

variable {b : IOBuf} {n : Nat} {copy : Copy}

/-- The two ways to `move_readable_data`. -/
theorem ensureWritableCopy_eq_some_iff (valid : b.Valid) :
    b.ensureWritableCopy n = some copy ↔
      b.writableBytes < n ∧ ¬ b.Refuses n ∧ b.moveReadableDataCopy = some copy := by
  have length := valid.readableBytes_length
  have within := valid.readable_le_capacity
  have free : b.writableBytes ≤ b.capacity - b.readable.length := by
    have ordered := valid.ordered
    have bounded := valid.bounded
    rw [valid.writableBytes_eq, valid.length_readable, capacity]
    omega
  unfold ensureWritableCopy
  rw [valid.writable_add_readIndex]
  by_cases excess : n > b.capacity - b.readable.length
  · have tight : b.writableBytes < n := by omega
    have larger : b.capacity < n + b.readableBytes := by omega
    rw [if_pos excess]
    unfold makeSpaceCopy
    rw [valid.newSize_mod, ← length]
    by_cases above : (n + b.readableBytes) % sizeRange > maxSize
    · have refuses : b.Refuses n := ⟨larger, above⟩
      simp only [if_pos above]
      exact iff_of_false (fun none => by cases none) fun granted => granted.2.1 refuses
    · have accepts : ¬ b.Refuses n := fun refuses => above refuses.2
      simp only [if_neg above]
      exact ⟨fun copied => ⟨tight, accepts, copied⟩, fun copied => copied.2.2⟩
  · have accepts : ¬ b.Refuses n := fun refuses => by
      have larger := refuses.1
      omega
    rw [if_neg excess]
    split_ifs with tight
    · exact ⟨fun copied => ⟨tight, accepts, copied⟩, fun copied => copied.2.2⟩
    · exact iff_of_false (fun none => by cases none) fun granted => tight granted.1

/-- A request copies between ranges that are apart exactly if it clears. -/
theorem ensureWritableCopy_apart_iff (valid : b.Valid) :
    (∀ copy, b.ensureWritableCopy n = some copy → copy.Apart) ↔ b.Clears n := by
  simp only [valid.ensureWritableCopy_eq_some_iff, moveReadableDataCopy_eq_some_iff]
  constructor
  · intro apart tight accepts
    by_cases consumed : 0 < b.readIndex ∧ 0 < b.readableBytes
    · have within := apart _ ⟨tight, accepts, consumed.1, consumed.2, rfl⟩
      exact .inr ((Copy.apart_front_iff consumed.2).mp within)
    · omega
  · rintro clears _ ⟨tight, accepts, consumed, unread, rfl⟩
    rcases clears tight accepts with none | enough
    · omega
    · exact (Copy.apart_front_iff unread).mpr enough

end Valid

end IOBuf

namespace Op

/-- The `memcpy` within the vector that an operation makes, if any. -/
def memcpy (b : IOBuf) : Op → Option Copy
  | write data => b.writeCopy (some data)
  | ensureWritable n => b.ensureWritableCopy n
  | read _ | hasReaded _ | hasReadall | produce _ | shrink => none

/-- Whatever the operation asks for, the readable bytes clear the space they are moved to. -/
def Clears (b : IOBuf) : Op → Prop
  | write data => b.Clears data.length
  | ensureWritable n => b.Clears n
  | read _ | hasReaded _ | hasReadall | produce _ | shrink => True

instance (b : IOBuf) : DecidablePred (Clears b)
  | write data => inferInstanceAs (Decidable (b.Clears data.length))
  | ensureWritable n => inferInstanceAs (Decidable (b.Clears n))
  | read _ | hasReaded _ | hasReadall | produce _ | shrink => .isTrue trivial

variable {b : IOBuf} {op : Op}

/-- A copy made by an operation is one of the readable bytes to the front. -/
theorem memcpy_ranges (valid : b.Valid) {copy : Copy} (made : op.memcpy b = some copy) :
    copy.sourceRange = Set.Ico b.readIndex b.writeIndex ∧
      copy.destinationRange = Set.Ico 0 (b.writeIndex - b.readIndex) := by
  have ordered := valid.ordered
  have moved : b.moveReadableDataCopy = some copy := by
    cases op with
    | write data =>
        simp only [memcpy, IOBuf.writeCopy] at made
        split_ifs at made
        exact (valid.ensureWritableCopy_eq_some_iff.mp made).2.2
    | ensureWritable n => exact (valid.ensureWritableCopy_eq_some_iff.mp made).2.2
    | read _ | hasReaded _ | hasReadall | produce _ | shrink => cases made
  obtain ⟨_, _, rfl⟩ := IOBuf.moveReadableDataCopy_eq_some_iff.mp moved
  simp only [Copy.sourceRange, Copy.destinationRange, valid.readableBytes_eq, Nat.zero_add,
    Nat.add_sub_of_le ordered, and_self]

/-- An operation copies between ranges that are apart exactly if it clears. -/
theorem memcpy_apart_iff (valid : b.Valid) :
    (∀ copy, op.memcpy b = some copy → copy.Apart) ↔ op.Clears b := by
  cases op with
  | write data =>
      simp only [memcpy, IOBuf.writeCopy, Clears]
      split_ifs with empty
      · refine iff_of_true (fun _ made => by cases made) ?_
        rw [← empty]
        exact fun tight => absurd tight (Nat.not_lt_zero _)
      · exact valid.ensureWritableCopy_apart_iff
  | ensureWritable n => exact valid.ensureWritableCopy_apart_iff
  | read _ | hasReaded _ | hasReadall | produce _ | shrink =>
      exact iff_of_true (fun _ made => by cases made) trivial

end Op

/-- No request in this step wraps, and what it moves clears the space it is moved to. -/
def PoolAction.Clears (pool : Nat → IOBuf) : PoolAction → Prop
  | .perform name op => op.Unwrapped (pool name) ∧ op.Clears (pool name)
  | .swap _ _ => True

instance (pool : Nat → IOBuf) : DecidablePred (PoolAction.Clears pool)
  | .perform name op =>
      inferInstanceAs (Decidable (op.Unwrapped (pool name) ∧ op.Clears (pool name)))
  | .swap _ _ => .isTrue trivial

/-- Every buffer is valid as long as no request wraps and all copies are defined. -/
theorem clears_valid {start pool : Nat → IOBuf} {actions : List PoolAction}
    (initial : usageMachine.Initial start) (runs : usageMachine.Runs start actions pool)
    (clears : usageMachine.Along PoolAction.Clears start actions) (name : Nat) :
    (pool name).Valid := by
  refine runs.guarded (fun pool => ∀ name, (pool name).Valid) ?_
    (usageMachine_initial_valid initial) clears name
  intro pool action next valid here transition
  refine usage_step_valid valid ?_ transition
  cases action with
  | perform name op => exact here.1
  | swap left right => trivial

/-- In every state reached so, an operation copies between disjoint ranges exactly if the
bytes it moves clear the space they are moved to. -/
theorem compaction_apart_iff {start pool : Nat → IOBuf} {actions : List PoolAction}
    (initial : usageMachine.Initial start) (runs : usageMachine.Runs start actions pool)
    (clears : usageMachine.Along PoolAction.Clears start actions) (name : Nat) (op : Op) :
    (∀ copy, op.memcpy (pool name) = some copy →
        Disjoint (Set.Ico (pool name).readIndex (pool name).writeIndex)
          (Set.Ico 0 ((pool name).writeIndex - (pool name).readIndex))) ↔
      op.Clears (pool name) := by
  have valid := clears_valid initial runs clears name
  rw [← Op.memcpy_apart_iff valid]
  refine forall_congr' fun copy => forall_congr' fun made => ?_
  obtain ⟨source, destination⟩ := Op.memcpy_ranges valid made
  rw [Copy.Apart, source, destination]

/-- Nine of ten bytes have been consumed when the rest is moved. -/
theorem compaction_apart_iff_consumed : ∃ pool, ∃ actions,
    usageMachine.Runs newPool actions pool ∧
      (Op.ensureWritable 1020).memcpy (pool 0) = some ⟨9, 0, 1⟩ ∧
      ((∀ copy, (Op.ensureWritable 1020).memcpy (pool 0) = some copy →
          Disjoint (Set.Ico (pool 0).readIndex (pool 0).writeIndex)
            (Set.Ico 0 ((pool 0).writeIndex - (pool 0).readIndex))) ↔
        (Op.ensureWritable 1020).Clears (pool 0)) := by
  obtain ⟨pool, runs, made⟩ := @Machine.Runs.of_map _ _ usageMachine _
    (fun pool => (Op.ensureWritable 1020).memcpy (pool 0)) newPool
    [.perform 0 (.write (List.replicate 10 7)), .perform 0 (.read 9)] (some ⟨9, 0, 1⟩)
    (by decide +kernel)
  have clears : usageMachine.Along PoolAction.Clears newPool
      [.perform 0 (.write (List.replicate 10 7)), .perform 0 (.read 9)] := by decide +kernel
  exact ⟨pool, _, runs, made, compaction_apart_iff newPool_initial runs clears 0 _⟩

/-- Of ten bytes one has been consumed when the rest is moved by one place. -/
theorem compaction_overlaps :
    ¬ ∀ (start pool : Nat → IOBuf) (actions : List PoolAction), usageMachine.Initial start →
      usageMachine.Runs start actions pool → ∀ name op copy,
        Op.memcpy (pool name) op = some copy →
          Disjoint (Set.Ico (pool name).readIndex (pool name).writeIndex)
            (Set.Ico 0 ((pool name).writeIndex - (pool name).readIndex)) := by
  intro disjoint
  obtain ⟨pool, runs, seen⟩ := @Machine.Runs.of_map _ _ usageMachine _
    (fun pool => ((Op.ensureWritable 1015).memcpy (pool 0), (pool 0).readIndex,
      (pool 0).writeIndex)) newPool
    [.perform 0 (.write (List.replicate 10 7)), .perform 0 (.read 1)] (some ⟨1, 0, 9⟩, 1, 10)
    (by decide +kernel)
  simp only [Prod.mk.injEq] at seen
  obtain ⟨made, front, back⟩ := seen
  have apart := disjoint _ _ _ newPool_initial runs 0 _ _ made
  rw [front, back, Set.Ico_disjoint_Ico] at apart
  exact absurd apart (by decide)

end Sdpf.Buffer
