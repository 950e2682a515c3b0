import Sdpf.Data.Memory
import Mathlib.Tactic.SplitIfs

/-!
# The byte buffer of a connection

`IOBuf` is a vector of bytes with a read and a write index. Consumed space in front
of the read index is reclaimed by moving the readable bytes to the front, and the
vector grows in multiples of `initialSize` up to `maxSize`.

The operations below are the member functions of `IOBufImp`. Each returns the status
the C++ function returns together with the buffer after it. Sizes are 64-bit and wrap
(`SizeT`); `Valid` names the states in which no subtraction does.
-/

namespace Sdpf.Buffer

open Sdpf.Data

/-- The bytes and the two indices of an `IOBufImp`. -/
structure IOBuf where
  buff : List UInt8
  readIndex : Nat
  writeIndex : Nat
deriving DecidableEq, Repr

namespace IOBuf

/-- `IOBuf::initialSize`. -/
def initialSize : Nat := 1024

/-- `_Max_Size`. -/
def maxSize : Nat := initialSize * 4

/-- The constructor: `init` zero bytes, nothing readable. -/
def create (init : Nat) : IOBuf where
  buff := List.replicate init 0
  readIndex := 0
  writeIndex := 0

def readableBytes (b : IOBuf) : Nat := SizeT.sub b.writeIndex b.readIndex

/-- Space from the write pointer to the end of the vector. -/
def writableBytes (b : IOBuf) : Nat := SizeT.sub b.buff.length b.writeIndex

/-- `buff_.size()`. -/
def capacity (b : IOBuf) : Nat := b.buff.length

/-- The bytes between the two indices, those `begin_read` points at. -/
def readable (b : IOBuf) : List UInt8 := slice b.buff b.readIndex b.readableBytes

def hasReaded (b : IOBuf) (n : Nat) : Int × IOBuf :=
  if n > b.readableBytes then
    (-1, b)
  else
    (0, { b with readIndex := SizeT.add b.readIndex n })

def hasReadall (b : IOBuf) : IOBuf := { b with readIndex := b.writeIndex }

/-- `read` into a destination that may be null; the bytes copied out come second. -/
def read (b : IOBuf) (destination : Bool) (n : Nat) : Int × List UInt8 × IOBuf :=
  if destination = false ∨ 0 = n then
    (-1, [], b)
  else if n > b.readableBytes then
    (-2, [], b)
  else
    (0, slice b.buff b.readIndex n, (b.hasReaded n).2)

def hasWritten (b : IOBuf) (n : Nat) : Int × IOBuf :=
  if n > b.writableBytes then
    (-1, b)
  else
    (0, { b with writeIndex := SizeT.add b.writeIndex n })

/-- Store bytes through the pointer returned by `begin_write`. -/
def fill (b : IOBuf) (data : List UInt8) : IOBuf :=
  { b with buff := store b.buff b.writeIndex data }

/-- `move_readable_data`; `memcpy` is taken to copy the bytes as they were. -/
def moveReadableData (b : IOBuf) : IOBuf :=
  if 0 = b.readIndex then
    b
  else
    { buff := if b.readableBytes > 0 then store b.buff 0 b.readable else b.buff
      readIndex := 0
      writeIndex := b.readableBytes }

/-- `std::vector::resize`: cut at the end, or append zero bytes. -/
def resize (b : IOBuf) (n : Nat) : IOBuf :=
  { b with buff := b.buff.take n ++ List.replicate (n - b.buff.length) 0 }

def makeSpace (b : IOBuf) (n : Nat) : Int × IOBuf :=
  let newSize := SizeT.add (SizeT.sub (SizeT.sub n b.writableBytes) b.readIndex) b.buff.length
  if newSize > maxSize then
    (-1, b)
  else
    let multiple := newSize / initialSize + if newSize % initialSize > 0 then 1 else 0
    (0, (b.resize (initialSize * multiple)).moveReadableData)

def ensureWritable (b : IOBuf) (n : Nat) : Int × IOBuf :=
  if n > SizeT.add b.writableBytes b.readIndex then
    b.makeSpace n
  else if n > b.writableBytes then
    (0, b.moveReadableData)
  else
    (0, b)

/-- `write` of a data pointer that may be null. -/
def write (b : IOBuf) (data : Option (List UInt8)) : Int × IOBuf :=
  match data with
  | none => (-1, b)
  | some bytes =>
      if 0 = bytes.length then
        (-1, b)
      else if 0 ≠ (b.ensureWritable bytes.length).1 then
        (-2, b)
      else
        (0, (((b.ensureWritable bytes.length).2.fill bytes).hasWritten bytes.length).2)

/-- `shrink_to_fit` changes neither the bytes nor `buff_.size()`. -/
def shrink (b : IOBuf) : IOBuf := b

/-- `swap` exchanges the contents of two buffers. -/
def swap (b rhs : IOBuf) : IOBuf × IOBuf := (rhs, b)

/-- The indices are ordered and the vector is one a 64-bit allocator can return. -/
structure Valid (b : IOBuf) : Prop where
  ordered : b.readIndex ≤ b.writeIndex
  bounded : b.writeIndex ≤ b.buff.length
  allocated : b.buff.length < 9223372036854775808

/-- A buffer of a size that can be allocated is valid. -/
theorem create_valid {init : Nat} (allocated : init < 9223372036854775808) :
    (create init).Valid :=
  ⟨Nat.le_refl _, Nat.zero_le _, by simpa [create] using allocated⟩

/-- A new buffer has the size it was asked for. -/
@[simp] theorem create_capacity (init : Nat) : (create init).capacity = init := by
  simp [create, capacity]

/-- A new buffer has nothing to read. -/
@[simp] theorem create_readable (init : Nat) : (create init).readable = [] := by
  simp [create, readable, readableBytes, SizeT.sub]

/-- All of a new buffer is writable. -/
theorem create_writableBytes {init : Nat} (allocated : init < 9223372036854775808) :
    (create init).writableBytes = init := by
  simp only [create, writableBytes, List.length_replicate]
  exact SizeT.sub_eq (Nat.zero_le _) (by unfold sizeRange; omega)

/-- A refused `has_written` changes nothing. -/
theorem hasWritten_refused {b : IOBuf} {n : Nat} (short : b.writableBytes < n) :
    b.hasWritten n = (-1, b) := by
  simp [hasWritten, short]

namespace Valid

variable {b : IOBuf}

/-- In a valid buffer the subtraction of the indices does not wrap. -/
theorem readableBytes_eq (valid : b.Valid) : b.readableBytes = b.writeIndex - b.readIndex := by
  obtain ⟨ordered, bounded, allocated⟩ := valid
  exact SizeT.sub_eq ordered (by unfold sizeRange; omega)

/-- Nor does the subtraction from the size. -/
theorem writableBytes_eq (valid : b.Valid) : b.writableBytes = b.buff.length - b.writeIndex := by
  obtain ⟨_, bounded, allocated⟩ := valid
  exact SizeT.sub_eq bounded (by unfold sizeRange; omega)

/-- The readable bytes are as many as `readable_bytes` reports. -/
theorem length_readable (valid : b.Valid) : b.readable.length = b.writeIndex - b.readIndex := by
  have bounded := valid.bounded
  have ordered := valid.ordered
  rw [readable, valid.readableBytes_eq]
  exact length_slice (by omega)

/-- As many bytes are readable as the indices say. -/
theorem readableBytes_length (valid : b.Valid) : b.readableBytes = b.readable.length := by
  rw [valid.readableBytes_eq, valid.length_readable]

/-- What is readable fits into the buffer. -/
theorem readable_le_capacity (valid : b.Valid) : b.readable.length ≤ b.capacity := by
  have bounded := valid.bounded
  rw [valid.length_readable, capacity]
  omega

/-- Consuming a prefix of the readable bytes leaves the rest. -/
theorem hasReaded (valid : b.Valid) {n : Nat} (enough : n ≤ b.readable.length) :
    (b.hasReaded n).1 = 0 ∧ (b.hasReaded n).2.Valid ∧
      (b.hasReaded n).2.readable = b.readable.drop n ∧
      (b.hasReaded n).2.capacity = b.capacity ∧
      (b.hasReaded n).2.writeIndex = b.writeIndex := by
  have ordered := valid.ordered
  have bounded := valid.bounded
  have allocated := valid.allocated
  have length := valid.length_readable
  have within : ¬ n > b.readableBytes := by rw [valid.readableBytes_length]; omega
  have index : SizeT.add b.readIndex n = b.readIndex + n :=
    SizeT.add_eq (by unfold sizeRange; omega)
  have after : (b.hasReaded n).2 = { b with readIndex := b.readIndex + n } := by
    simp [IOBuf.hasReaded, within, index]
  have valid' : (b.hasReaded n).2.Valid := by
    rw [after]
    exact ⟨by simp only; omega, bounded, allocated⟩
  refine ⟨by simp [IOBuf.hasReaded, within], valid', ?_, by rw [after]; rfl, by rw [after]⟩
  rw [readable, valid'.readableBytes_eq, readable, valid.readableBytes_eq, drop_slice, after,
    Nat.sub_sub]

/-- A refused `has_readed` changes nothing. -/
theorem hasReaded_refused (valid : b.Valid) {n : Nat} (short : b.readable.length < n) :
    b.hasReaded n = (-1, b) := by
  have refused : n > b.readableBytes := by rw [valid.readableBytes_length]; omega
  simp [IOBuf.hasReaded, refused]

/-- Committing bytes stored at `begin_write` appends them to the readable bytes. -/
theorem hasWritten (valid : b.Valid) {data : List UInt8}
    (fits : data.length ≤ b.writableBytes) :
    ((b.fill data).hasWritten data.length).1 = 0 ∧
      ((b.fill data).hasWritten data.length).2.Valid ∧
      ((b.fill data).hasWritten data.length).2.readable = b.readable ++ data ∧
      ((b.fill data).hasWritten data.length).2.capacity = b.capacity ∧
      ((b.fill data).hasWritten data.length).2.writeIndex = b.writeIndex + data.length := by
  have ordered := valid.ordered
  have bounded := valid.bounded
  have allocated := valid.allocated
  rw [valid.writableBytes_eq] at fits
  have filled : (b.fill data).Valid := ⟨ordered, by simpa [fill] using bounded,
    by simpa [fill] using allocated⟩
  have room : ¬ data.length > (b.fill data).writableBytes := by
    rw [filled.writableBytes_eq]
    simp only [fill, length_store]
    omega
  have index : SizeT.add b.writeIndex data.length = b.writeIndex + data.length :=
    SizeT.add_eq (by unfold sizeRange; omega)
  have after : ((b.fill data).hasWritten data.length).2 =
      { b.fill data with writeIndex := b.writeIndex + data.length } := by
    simp only [IOBuf.hasWritten, room, if_false]
    simp only [fill, index]
  have valid' : ((b.fill data).hasWritten data.length).2.Valid := by
    rw [after]
    exact ⟨by simp only [fill]; omega, by simp only [fill, length_store]; omega,
      by simpa [fill] using allocated⟩
  refine ⟨by simp only [IOBuf.hasWritten, room, if_false], valid', ?_, ?_, by rw [after]⟩
  · have split : b.writeIndex + data.length - b.readIndex =
        (b.writeIndex - b.readIndex) + data.length := by omega
    have before : slice (store b.buff b.writeIndex data) b.readIndex
        (b.writeIndex - b.readIndex) = slice b.buff b.readIndex (b.writeIndex - b.readIndex) :=
      slice_store_before (by omega) (by omega)
    have here : slice (store b.buff b.writeIndex data) b.writeIndex data.length = data :=
      slice_store (by omega)
    rw [readable, valid'.readableBytes_eq, after]
    simp only [fill]
    rw [split, ← slice_append, before, readable, valid.readableBytes_eq,
      Nat.add_sub_of_le ordered, here]
  · rw [after]
    simp [capacity, fill]

/-- Moving the readable bytes to the front keeps them and frees the consumed space. -/
theorem moveReadableData (valid : b.Valid) :
    b.moveReadableData.Valid ∧ b.moveReadableData.readable = b.readable ∧
      b.moveReadableData.capacity = b.capacity ∧
      b.moveReadableData.writeIndex = b.readable.length := by
  have ordered := valid.ordered
  have bounded := valid.bounded
  have allocated := valid.allocated
  have length := valid.length_readable
  by_cases front : 0 = b.readIndex
  · have same : b.moveReadableData = b := by simp [IOBuf.moveReadableData, front]
    rw [same]
    exact ⟨valid, rfl, rfl, by omega⟩
  · have room : 0 + b.readable.length ≤ b.buff.length := by omega
    have moved : b.moveReadableData =
        { buff := store b.buff 0 b.readable, readIndex := 0, writeIndex := b.readable.length } := by
      simp only [IOBuf.moveReadableData, if_neg front, valid.readableBytes_length]
      by_cases empty : b.readable.length > 0
      · rw [if_pos empty]
      · have nothing : b.readable = [] := List.eq_nil_of_length_eq_zero (by omega)
        simp [nothing, store]
    have valid' : b.moveReadableData.Valid := by
      rw [moved]
      exact ⟨Nat.zero_le _, by simp only [length_store]; omega, by simpa using allocated⟩
    refine ⟨valid', ?_, by rw [moved]; simp [capacity], by rw [moved]⟩
    have kept := slice_store room
    rw [readable, valid'.readableBytes_eq, moved]
    exact kept

/-- Growing the vector keeps the readable bytes. -/
theorem resize (valid : b.Valid) {n : Nat} (grows : b.buff.length ≤ n)
    (allocated : n < 9223372036854775808) :
    (b.resize n).Valid ∧ (b.resize n).readable = b.readable ∧ (b.resize n).capacity = n := by
  have ordered := valid.ordered
  have bounded := valid.bounded
  have size : (b.resize n).buff.length = n := by
    simp only [IOBuf.resize, List.length_append, List.length_take, List.length_replicate]
    omega
  have valid' : (b.resize n).Valid :=
    ⟨ordered, by rw [size]; exact Nat.le_trans bounded grows, by rw [size]; exact allocated⟩
  refine ⟨valid', ?_, size⟩
  rw [readable, readable, valid'.readableBytes_eq, valid.readableBytes_eq]
  simp only [IOBuf.resize, slice, List.take_of_length_le grows]
  rw [List.drop_append_of_le_length (by omega),
    List.take_append_of_le_length (by rw [List.length_drop]; omega)]

/-- The bytes not occupied by readable data, wherever they lie. -/
theorem writable_add_readIndex (valid : b.Valid) :
    SizeT.add b.writableBytes b.readIndex = b.capacity - b.readable.length := by
  have ordered := valid.ordered
  have bounded := valid.bounded
  have allocated := valid.allocated
  rw [valid.writableBytes_eq, SizeT.add_eq (by unfold sizeRange; omega), valid.length_readable,
    capacity]
  omega

/-- The wrapped arithmetic of `make_space` arrives at the size needed, up to a last wrap. -/
theorem newSize_mod (valid : b.Valid) (n : Nat) :
    SizeT.add (SizeT.sub (SizeT.sub n b.writableBytes) b.readIndex) b.buff.length =
      (n + b.readable.length) % sizeRange := by
  have ordered := valid.ordered
  have bounded := valid.bounded
  have allocated := valid.allocated
  rw [valid.writableBytes_eq, valid.length_readable]
  unfold SizeT.add SizeT.sub
  unfold sizeRange at *
  omega

/-- A size that does not wrap is the size needed. -/
theorem newSize_eq (valid : b.Valid) {n : Nat} (small : n + b.readable.length < sizeRange) :
    SizeT.add (SizeT.sub (SizeT.sub n b.writableBytes) b.readIndex) b.buff.length =
      n + b.readable.length := by
  rw [valid.newSize_mod, Nat.mod_eq_of_lt small]

/-- A request that fits below the cap is granted: the readable bytes stay, and the
vector never shrinks and never grows beyond the cap. -/
theorem ensureWritable (valid : b.Valid) {n : Nat} (small : n + b.readable.length < sizeRange)
    (fits : n + b.readable.length ≤ max b.capacity maxSize) :
    (b.ensureWritable n).1 = 0 ∧ (b.ensureWritable n).2.Valid ∧
      (b.ensureWritable n).2.readable = b.readable ∧
      n ≤ (b.ensureWritable n).2.writableBytes ∧
      b.capacity ≤ (b.ensureWritable n).2.capacity ∧
      (b.ensureWritable n).2.capacity ≤ max b.capacity maxSize := by
  have within := valid.readable_le_capacity
  unfold IOBuf.ensureWritable
  rw [valid.writable_add_readIndex]
  by_cases excess : n > b.capacity - b.readable.length
  · rw [if_pos excess]
    unfold makeSpace
    rw [valid.newSize_eq small]
    have below : ¬ n + b.readable.length > maxSize := by omega
    simp only [below, if_false]
    generalize rounding : initialSize * ((n + b.readable.length) / initialSize +
      if (n + b.readable.length) % initialSize > 0 then 1 else 0) = size
    have enough : n + b.readable.length ≤ size ∧ size ≤ maxSize := by
      unfold maxSize initialSize at *
      split_ifs at rounding <;> omega
    have allocated : size < 9223372036854775808 := by
      unfold maxSize initialSize at *
      omega
    obtain ⟨valid', kept, grown⟩ := valid.resize (n := size)
      (by unfold capacity at *; omega) allocated
    obtain ⟨valid'', kept', same, front⟩ := valid'.moveReadableData
    refine ⟨trivial, valid'', kept'.trans kept, ?_, ?_, ?_⟩
    · have total : (b.resize size).moveReadableData.buff.length = size := same.trans grown
      rw [valid''.writableBytes_eq, front, kept, total]
      omega
    · rw [same, grown]
      omega
    · rw [same, grown]
      omega
  · rw [if_neg excess]
    by_cases tight : n > b.writableBytes
    · rw [if_pos tight]
      obtain ⟨valid', kept, same, front⟩ := valid.moveReadableData
      refine ⟨rfl, valid', kept, ?_, Nat.le_of_eq same.symm, by rw [same]; omega⟩
      have total : b.moveReadableData.buff.length = b.capacity := same
      rw [valid'.writableBytes_eq, front, total]
      omega
    · rw [if_neg tight]
      exact ⟨rfl, valid, rfl, Nat.not_lt.mp tight, Nat.le_refl _, Nat.le_max_left _ _⟩

/-- A request is refused, and changes nothing, when the size `make_space` arrives at is
above the cap. -/
theorem ensureWritable_beyond (valid : b.Valid) {n : Nat}
    (excess : b.capacity < n + b.readable.length)
    (above : maxSize < (n + b.readable.length) % sizeRange) : b.ensureWritable n = (-1, b) := by
  have within := valid.readable_le_capacity
  have beyond : n > b.capacity - b.readable.length := by omega
  unfold IOBuf.ensureWritable
  rw [valid.writable_add_readIndex, if_pos beyond]
  unfold makeSpace
  rw [valid.newSize_mod]
  simp only [gt_iff_lt, above, if_true]

/-- A request beyond the cap is refused and changes nothing. -/
theorem ensureWritable_refused (valid : b.Valid) {n : Nat}
    (small : n + b.readable.length < sizeRange)
    (excess : max b.capacity maxSize < n + b.readable.length) :
    b.ensureWritable n = (-1, b) :=
  valid.ensureWritable_beyond (by omega) (by rw [Nat.mod_eq_of_lt small]; omega)

/-- `ensure_writable` succeeds exactly below the cap. -/
theorem ensureWritable_iff (valid : b.Valid) {n : Nat}
    (small : n + b.readable.length < sizeRange) :
    (b.ensureWritable n).1 = 0 ↔ n + b.readable.length ≤ max b.capacity maxSize := by
  constructor
  · intro granted
    by_contra excess
    rw [valid.ensureWritable_refused small (by omega)] at granted
    cases granted
  · intro fits
    exact (valid.ensureWritable small fits).1

/-- A granted `write` appends its data. -/
theorem write (valid : b.Valid) {data : List UInt8} (some_data : 0 < data.length)
    (small : data.length + b.readable.length < sizeRange)
    (fits : data.length + b.readable.length ≤ max b.capacity maxSize) :
    (b.write (some data)).1 = 0 ∧ (b.write (some data)).2.Valid ∧
      (b.write (some data)).2.readable = b.readable ++ data ∧
      b.capacity ≤ (b.write (some data)).2.capacity ∧
      (b.write (some data)).2.capacity ≤ max b.capacity maxSize := by
  obtain ⟨granted, valid', kept, room, grown, capped⟩ := valid.ensureWritable small fits
  obtain ⟨_, valid'', appended, same, _⟩ := valid'.hasWritten room
  have nonempty : ¬ 0 = data.length := by omega
  have accepted : ¬ 0 ≠ (b.ensureWritable data.length).1 := by simp [granted]
  simp only [IOBuf.write, if_neg nonempty, if_neg accepted]
  exact ⟨trivial, valid'', by rw [appended, kept], by rw [same]; exact grown,
    by rw [same]; exact capped⟩

/-- A `write` that is refused, for lack of data or of room, changes nothing. -/
theorem write_refused (valid : b.Valid) {data : List UInt8}
    (small : data.length + b.readable.length < sizeRange)
    (refused : ¬ (0 < data.length ∧ data.length + b.readable.length ≤ max b.capacity maxSize)) :
    (b.write (some data)).1 ≠ 0 ∧ (b.write (some data)).2 = b := by
  by_cases nonempty : 0 = data.length
  · simp [IOBuf.write, if_pos nonempty]
  · have denied := valid.ensureWritable_refused small (by omega)
    simp [IOBuf.write, if_neg nonempty, denied]

/-- A granted `read` delivers a prefix of the readable bytes and consumes it. -/
theorem read (valid : b.Valid) {n : Nat} (positive : 0 < n) (enough : n ≤ b.readable.length) :
    (b.read true n).1 = 0 ∧ (b.read true n).2.1 = b.readable.take n ∧
      (b.read true n).2.2 = (b.hasReaded n).2 := by
  have nonzero : ¬ 0 = n := by omega
  have within : ¬ n > b.readableBytes := by rw [valid.readableBytes_length]; omega
  simp only [IOBuf.read, Bool.true_eq_false, false_or, if_neg nonzero, if_neg within, true_and,
    and_true]
  rw [readable, take_slice (by omega)]

/-- A refused `read` delivers nothing and changes nothing. -/
theorem read_refused (valid : b.Valid) {n : Nat}
    (refused : ¬ (0 < n ∧ n ≤ b.readable.length)) :
    (b.read true n).1 ≠ 0 ∧ (b.read true n).2.1 = [] ∧ (b.read true n).2.2 = b := by
  by_cases zero : 0 = n
  · simp [IOBuf.read, zero]
  · have beyond : n > b.readableBytes := by rw [valid.readableBytes_length]; omega
    simp [IOBuf.read, if_neg zero, if_pos beyond]

/-- Consuming everything empties the buffer. -/
theorem hasReadall (valid : b.Valid) :
    b.hasReadall.Valid ∧ b.hasReadall.readable = [] ∧ b.hasReadall.capacity = b.capacity := by
  have valid' : b.hasReadall.Valid := ⟨Nat.le_refl _, valid.bounded, valid.allocated⟩
  refine ⟨valid', ?_, rfl⟩
  apply List.eq_nil_of_length_eq_zero
  rw [valid'.length_readable]
  exact Nat.sub_self _

end Valid

end IOBuf

end Sdpf.Buffer
