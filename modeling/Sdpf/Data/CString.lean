import Mathlib.Data.List.TakeWhile

/-!
# C strings and character arrays

`CStr` is the text of a NUL-terminated string, without its terminator, and
`CharArray n` the memory of a `char[n]`. The functions follow `<string.h>`: the
comparisons see a terminator behind the last character, and `strncpy` pads its whole
count with zero bytes but writes no terminator when the source is too long.
-/

namespace Sdpf.Data

/-- The characters of a NUL-terminated string. -/
structure CStr where
  bytes : List UInt8
  noNul : 0 ∉ bytes
deriving DecidableEq, Repr

namespace CStr

/-- Texts are told apart by their bytes. -/
@[ext] theorem ext {left right : CStr} (bytes : left.bytes = right.bytes) : left = right := by
  cases left
  cases right
  cases bytes
  rfl

/-- The empty string. -/
def empty : CStr := ⟨[], List.not_mem_nil⟩

/-- The characters in front of the first NUL of a block of memory. -/
def ofBlock (block : List UInt8) : CStr where
  bytes := block.takeWhile (· ≠ 0)
  noNul member := by simpa using List.mem_takeWhile_imp member

def strlen (s : CStr) : Nat := s.bytes.length

end CStr

/-- `strcmp` on the characters of two strings. -/
def strcmp : List UInt8 → List UInt8 → Int
  | [], [] => 0
  | [], right :: _ => -(right.toNat : Int)
  | left :: _, [] => left.toNat
  | left :: lefts, right :: rights =>
      if left = right then strcmp lefts rights else (left.toNat : Int) - right.toNat

/-- `strncmp`: at most `n` characters are compared. -/
def strncmp : List UInt8 → List UInt8 → Nat → Int
  | _, _, 0 => 0
  | [], [], _ + 1 => 0
  | [], right :: _, _ + 1 => -(right.toNat : Int)
  | left :: _, [], _ + 1 => left.toNat
  | left :: lefts, right :: rights, n + 1 =>
      if left = right then strncmp lefts rights n else (left.toNat : Int) - right.toNat

/-- The first of some bytes without a zero is not zero. -/
private theorem byte_ne_zero {byte : UInt8} {rest : List UInt8} (noNul : 0 ∉ byte :: rest) :
    byte.toNat ≠ 0 := by
  intro zero
  apply noNul
  have same : byte = 0 := UInt8.toNat_inj.mp zero
  rw [same]
  exact List.mem_cons_self

/-- Two strings compare equal exactly when they are equal. -/
theorem strcmp_eq_zero (left right : CStr) : strcmp left.bytes right.bytes = 0 ↔ left = right := by
  obtain ⟨left, leftNoNul⟩ := left
  obtain ⟨right, rightNoNul⟩ := right
  simp only [CStr.mk.injEq]
  induction left generalizing right with
  | nil =>
      cases right with
      | nil => simp [strcmp]
      | cons byte rest =>
          have nonzero := byte_ne_zero rightNoNul
          simp only [strcmp]
          exact iff_of_false (by omega) (by simp)
  | cons byte rest ih =>
      cases right with
      | nil =>
          have nonzero := byte_ne_zero leftNoNul
          simp only [strcmp]
          exact iff_of_false (by omega) (by simp)
      | cons other others =>
          by_cases same : byte = other
          · subst same
            simp only [strcmp, if_true, List.cons.injEq, true_and]
            exact ih (fun member => leftNoNul (List.mem_cons_of_mem _ member)) others
              fun member => rightNoNul (List.mem_cons_of_mem _ member)
          · have distinct : byte.toNat ≠ other.toNat := fun equal => same (UInt8.toNat_inj.mp equal)
            rw [strcmp, if_neg same]
            exact iff_of_false (by omega) (by simp [same])

/-- Comparing as many characters as the first string has asks whether it is a prefix of
the second. -/
theorem strncmp_strlen_eq_zero (left right : CStr) :
    strncmp left.bytes right.bytes left.strlen = 0 ↔ left.bytes <+: right.bytes := by
  obtain ⟨left, leftNoNul⟩ := left
  obtain ⟨right, rightNoNul⟩ := right
  simp only [CStr.strlen]
  induction left generalizing right with
  | nil => simp [strncmp]
  | cons byte rest ih =>
      cases right with
      | nil =>
          have nonzero := byte_ne_zero leftNoNul
          simp only [List.length_cons, strncmp]
          exact iff_of_false (by omega) (by simp)
      | cons other others =>
          by_cases same : byte = other
          · subst same
            simp only [List.length_cons, strncmp, if_true, List.prefix_cons_inj]
            exact ih (fun member => leftNoNul (List.mem_cons_of_mem _ member)) others
              fun member => rightNoNul (List.mem_cons_of_mem _ member)
          · have distinct : byte.toNat ≠ other.toNat := fun equal => same (UInt8.toNat_inj.mp equal)
            rw [List.length_cons, strncmp, if_neg same, List.cons_prefix_cons]
            exact iff_of_false (by omega) (fun both => same both.1)

/-- The comparison only tells from zero which way round its arguments are. -/
theorem strncmp_comm_eq_zero (left right : List UInt8) (n : Nat) :
    strncmp left right n = 0 ↔ strncmp right left n = 0 := by
  induction n generalizing left right with
  | zero => simp [strncmp]
  | succ n ih =>
      cases left with
      | nil => cases right <;> simp [strncmp]
      | cons byte rest =>
          cases right with
          | nil => simp [strncmp]
          | cons other others =>
              by_cases same : byte = other
              · simp only [strncmp, if_pos same, if_pos same.symm]
                exact ih rest others
              · have reversed : ¬ other = byte := fun equal => same equal.symm
                simp only [strncmp, if_neg same, if_neg reversed]
                omega

/-- The memory of a `char[n]`. -/
@[ext] structure CharArray (n : Nat) where
  bytes : List UInt8
  size : bytes.length = n
deriving DecidableEq, Repr

namespace CharArray

variable {n : Nat}

/-- The array after `memset` to zero. -/
def zero (n : Nat) : CharArray n := ⟨List.replicate n 0, List.length_replicate⟩

/-- The C string stored in the array. -/
def text (array : CharArray n) : CStr := CStr.ofBlock array.bytes

/-- The text of an array is no longer than the array. -/
theorem length_text_le (array : CharArray n) : array.text.bytes.length ≤ n :=
  Nat.le_trans (List.takeWhile_prefix _).length_le (Nat.le_of_eq array.size)

/-- A text and zero bytes up to the end of the array. -/
def padded (text : CStr) (room : text.strlen < n) : CharArray n where
  bytes := text.bytes ++ List.replicate (n - text.strlen) 0
  size := by
    simp only [CStr.strlen] at room ⊢
    rw [List.length_append, List.length_replicate]
    omega

/-- The array holds a terminator. -/
def Terminated (array : CharArray n) : Prop := 0 ∈ array.bytes

/-- `strncpy(array, source, count)` for a count within the array. -/
def strncpy (array : CharArray n) (source : List UInt8) (count : Nat) (within : count ≤ n) :
    CharArray n where
  bytes :=
    let copied := (source.take count).takeWhile (· ≠ 0)
    copied ++ List.replicate (count - copied.length) 0 ++ array.bytes.drop count
  size := by
    have shorter : ((source.take count).takeWhile (· ≠ 0)).length ≤ count :=
      Nat.le_trans (List.takeWhile_prefix _).length_le (by rw [List.length_take]; omega)
    simp only [List.length_append, List.length_replicate, List.length_drop, array.size]
    omega

/-- `memcpy` of at most the whole array to its front. -/
def memcpy (array : CharArray n) (data : List UInt8) (within : data.length ≤ n) :
    CharArray n where
  bytes := data ++ array.bytes.drop data.length
  size := by
    rw [List.length_append, List.length_drop, array.size]
    omega

/-- A terminator is in what was copied, or behind it in what was there before. -/
theorem memcpy_terminated_iff (array : CharArray n) {data : List UInt8}
    (within : data.length ≤ n) :
    (array.memcpy data within).Terminated ↔ 0 ∈ data ∨ 0 ∈ array.bytes.drop data.length :=
  List.mem_append

/-- A terminated text leaves room for its terminator. -/
theorem Terminated.strlen_lt {array : CharArray n} (terminated : array.Terminated) :
    array.text.strlen < n := by
  have shorter := array.length_text_le
  refine Nat.lt_of_le_of_ne shorter fun full => array.text.noNul ?_
  have whole : array.text.bytes = array.bytes :=
    (List.takeWhile_prefix _).eq_of_length (full.trans array.size.symm)
  rw [whole]
  exact terminated

/-- Behind a copied text the array is as it was, and within it there is no terminator. -/
theorem memcpy_zero_iff (array : CharArray n) (text : CStr) (within : text.bytes.length ≤ n)
    {index : Nat} :
    (array.memcpy text.bytes within).bytes[index]? = some 0 ↔
      text.strlen ≤ index ∧ array.bytes[index]? = some 0 := by
  simp only [memcpy, CStr.strlen]
  by_cases inside : index < text.bytes.length
  · rw [List.getElem?_append_left inside]
    refine iff_of_false (fun zero => text.noNul (List.mem_of_getElem? zero)) fun behind => ?_
    exact absurd behind.1 (Nat.not_le.mpr inside)
  · have behind := Nat.not_lt.mp inside
    rw [List.getElem?_append_right behind, List.getElem?_drop, Nat.add_sub_of_le behind]
    exact ⟨fun zero => ⟨behind, zero⟩, And.right⟩

/-- A text copied without its terminator is read back exactly if there is a zero byte
where the terminator belongs. -/
theorem text_memcpy_iff (array : CharArray n) (text : CStr) (room : text.strlen < n)
    (within : text.bytes.length ≤ n) :
    (array.memcpy text.bytes within).text = text ↔ array.bytes[text.strlen]? = some 0 := by
  have inside : text.bytes.length < array.bytes.length := by
    rw [array.size]
    exact room
  have split : (array.memcpy text.bytes within).text.bytes =
      text.bytes ++ (array.bytes.drop text.bytes.length).takeWhile (· ≠ 0) := by
    refine List.takeWhile_append_of_pos fun byte member => ?_
    have nonzero : byte ≠ 0 := fun zero => text.noNul (zero ▸ member)
    simpa using nonzero
  rw [CStr.ext_iff, split, List.append_right_eq_self, List.drop_eq_getElem_cons inside, CStr.strlen,
    List.getElem?_eq_getElem inside, Option.some.injEq, List.takeWhile_cons]
  by_cases zero : array.bytes[text.bytes.length] = 0
  · simp [zero]
  · rw [if_pos (by simpa using zero)]
    exact iff_of_false (List.cons_ne_nil _ _) zero

/-- Copying less than the whole array keeps a zero byte at its end. -/
theorem strncpy_zero_terminated {source : List UInt8} {count : Nat} (room : count < n) :
    ((zero n).strncpy source count (Nat.le_of_lt room)).Terminated := by
  simp only [Terminated, strncpy, zero, List.drop_replicate, List.mem_append]
  refine Or.inr ?_
  rw [List.mem_replicate]
  exact ⟨by omega, rfl⟩

/-- The zeros behind a text end it. -/
private theorem takeWhile_text {bytes : List UInt8} (noNul : 0 ∉ bytes) (padding : Nat) :
    (bytes ++ List.replicate padding 0).takeWhile (· ≠ 0) = bytes := by
  induction bytes with
  | nil => cases padding <;> simp [List.replicate_succ]
  | cons byte rest ih =>
      have nonzero : byte ≠ 0 := fun zero => noNul (zero ▸ List.mem_cons_self)
      have rest := ih fun member => noNul (List.mem_cons_of_mem _ member)
      rw [List.cons_append, List.takeWhile_cons_of_pos (by simpa using nonzero), rest]

/-- A string copied into a zeroed array is its first `count` characters and zeros. -/
theorem bytes_strncpy_zero (source : CStr) {count : Nat} (room : count ≤ n) :
    ((zero n).strncpy source.bytes count room).bytes =
      source.bytes.take count ++ List.replicate (n - (source.bytes.take count).length) 0 := by
  have noNul : 0 ∉ source.bytes.take count := fun member =>
    source.noNul (List.mem_of_mem_take member)
  have whole : (source.bytes.take count).takeWhile (· ≠ 0) = source.bytes.take count := by
    simpa using takeWhile_text noNul 0
  have short : (source.bytes.take count).length ≤ count := List.length_take_le _ _
  simp only [strncpy, zero, whole, List.drop_replicate, List.append_assoc,
    List.replicate_append_replicate]
  rw [show count - (source.bytes.take count).length + (n - count) =
    n - (source.bytes.take count).length by omega]

/-- `strncpy` into zeros keeps as many bytes of the text as it is asked to. -/
theorem text_strncpy_zero (source : CStr) {count : Nat} (room : count ≤ n) :
    ((zero n).strncpy source.bytes count room).text.bytes = source.bytes.take count := by
  simp only [text, CStr.ofBlock, bytes_strncpy_zero]
  exact takeWhile_text (fun member => source.noNul (List.mem_of_mem_take member)) _

/-- Copying the text of such an array gives the array again. -/
theorem strncpy_text (source : CStr) {count : Nat} (room : count ≤ n)
    (within : ((zero n).strncpy source.bytes count room).text.bytes.length ≤ n) :
    (zero n).strncpy ((zero n).strncpy source.bytes count room).text.bytes _ within =
      (zero n).strncpy source.bytes count room := by
  apply CharArray.ext
  rw [bytes_strncpy_zero, List.take_length, text_strncpy_zero, bytes_strncpy_zero]

/-- The text of a padded array is the one it was padded from. -/
theorem text_padded (text : CStr) (room : text.strlen < n) : (padded text room).text = text :=
  CStr.ext (takeWhile_text text.noNul _)

/-- Copying a text into a zeroed array pads it. -/
theorem strncpy_padded (text : CStr) (room : text.strlen < n) (within : text.bytes.length ≤ n) :
    (zero n).strncpy text.bytes text.bytes.length within = padded text room := by
  apply CharArray.ext
  rw [bytes_strncpy_zero, List.take_length]
  rfl

/-- An array of zeros holds the empty text. -/
@[simp] theorem text_zero : (zero n).text = CStr.empty := by
  apply CStr.ext
  simp [text, CStr.ofBlock, zero, CStr.empty]

end CharArray

end Sdpf.Data
