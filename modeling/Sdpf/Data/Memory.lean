import Mathlib.Data.List.Basic

/-!
# Sizes and memory blocks

Two things every byte-handling program rests on: unsigned 64-bit sizes, whose
subtraction and addition wrap, and blocks of memory that are read and overwritten
in place. Blocks are lists; `slice` reads a range and `store` is `memcpy` into a
block, never reaching past its end.
-/

namespace Sdpf.Data

/-- One more than the largest `size_t` of a 64-bit machine. -/
def sizeRange : Nat := 18446744073709551616

namespace SizeT

/-- Addition of two sizes, reduced modulo `sizeRange`. -/
def add (a b : Nat) : Nat := (a + b) % sizeRange

/-- Subtraction of two sizes, reduced modulo `sizeRange`. -/
def sub (a b : Nat) : Nat := (a + (sizeRange - b)) % sizeRange

/-- A sum that fits is the ordinary sum. -/
theorem add_eq {a b : Nat} (fits : a + b < sizeRange) : add a b = a + b :=
  Nat.mod_eq_of_lt fits

/-- A difference that does not go below zero is the ordinary difference. -/
theorem sub_eq {a b : Nat} (ordered : b ≤ a) (fits : a < sizeRange) : sub a b = a - b := by
  unfold sub
  unfold sizeRange at *
  omega

end SizeT

variable {α : Type}

/-- The elements of a block from `start` on, `count` of them. -/
def slice (block : List α) (start count : Nat) : List α := (block.drop start).take count

/-- Overwrite a block from `start` on; what would fall past its end is dropped. -/
def store (block : List α) (start : Nat) (data : List α) : List α :=
  (block.take start ++ data ++ block.drop (start + data.length)).take block.length

/-- No bytes. -/
@[simp] theorem slice_zero (block : List α) (start : Nat) : slice block start 0 = [] := by
  simp [slice]

/-- A slice inside its block has exactly the requested length. -/
theorem length_slice {block : List α} {start count : Nat} (inside : start + count ≤ block.length) :
    (slice block start count).length = count := by
  simp only [slice, List.length_take, List.length_drop]
  omega

/-- Dropping from a slice moves its start. -/
theorem drop_slice (block : List α) (start count offset : Nat) :
    (slice block start count).drop offset = slice block (start + offset) (count - offset) := by
  simp only [slice, List.drop_take, List.drop_drop]

/-- Taking from a slice shortens it. -/
theorem take_slice {block : List α} {start count shorter : Nat} (within : shorter ≤ count) :
    (slice block start count).take shorter = slice block start shorter := by
  simp only [slice, List.take_take, Nat.min_eq_left within]

/-- Two adjacent slices form one. -/
theorem slice_append (block : List α) (start first second : Nat) :
    slice block start first ++ slice block (start + first) second =
      slice block start (first + second) := by
  simp only [slice, ← List.drop_drop]
  rw [List.take_add]

/-- A slice inside a block is not affected by what follows the block. -/
theorem slice_append_left {block : List α} {start count : Nat}
    (inside : start + count ≤ block.length) (more : List α) :
    slice (block ++ more) start count = slice block start count := by
  rw [slice, List.drop_append_of_le_length (by omega),
    List.take_append_of_le_length (by rw [List.length_drop]; omega), slice]

/-- A store that fits writes its data between the two parts it leaves alone. -/
theorem store_eq {block data : List α} {start : Nat} (fits : start + data.length ≤ block.length) :
    store block start data = block.take start ++ data ++ block.drop (start + data.length) := by
  apply List.take_of_length_le
  simp only [List.length_append, List.length_take, List.length_drop]
  omega

/-- Storing never changes the size of a block. -/
@[simp] theorem length_store (block data : List α) (start : Nat) :
    (store block start data).length = block.length := by
  simp only [store, List.length_take, List.length_append, List.length_drop]
  omega

/-- What was stored is read back. -/
theorem slice_store {block data : List α} {start : Nat} (fits : start + data.length ≤ block.length) :
    slice (store block start data) start data.length = data := by
  have reaches : (block.take start).length = start := by
    rw [List.length_take]
    omega
  rw [store_eq fits, slice, List.append_assoc, List.drop_left' reaches, List.take_left]

/-- A range in front of a store is not affected by it. -/
theorem slice_store_before {block data : List α} {start first count : Nat}
    (fits : start + data.length ≤ block.length) (disjoint : first + count ≤ start) :
    slice (store block start data) first count = slice block first count := by
  have reaches : (block.take start).length = start := by
    rw [List.length_take]
    omega
  rw [store_eq fits, slice, List.append_assoc, List.drop_append_of_le_length (by omega),
    List.take_append_of_le_length (by rw [List.length_drop]; omega), ← slice, slice, slice,
    List.drop_take, List.take_take, Nat.min_eq_left (by omega)]

/-- A store within the first bytes of a block is a store into these bytes. -/
theorem take_store {block data : List α} {start count : Nat} (within : count ≤ block.length)
    (fits : start + data.length ≤ count) :
    (store block start data).take count = store (block.take count) start data := by
  have reaches : (block.take start ++ data).length = start + data.length := by
    rw [List.length_append, List.length_take]
    omega
  rw [store_eq (Nat.le_trans fits within), store_eq (by rw [List.length_take]; omega),
    List.take_append, List.take_of_length_le (by omega), reaches, List.take_take,
    Nat.min_eq_left (by omega), List.drop_take]

end Sdpf.Data
