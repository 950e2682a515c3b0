import Mathlib.Data.List.Basic

/-!
# Cutting a byte stream into frames

A receiver of a stream repeatedly looks at the bytes it has not consumed: they may be
too few to tell, start with a whole item, or be no frame at all (`Verdict`). `IsFrame`
says what a sender must put on the stream for one item, and `Cut` relates what has
arrived so far to the items of the stream: some of the frames are complete and handed
on, and the rest is a proper part of the next one. However the stream is divided into
reads, `Cut` is what one read leaves and the next one starts from.
-/

namespace Sdpf.Stream

variable {β π : Type}

/-- What the bytes received so far amount to. -/
inductive Verdict (π : Type) where
  | more
  | item (consumed : Nat) (payload : π)
  | bad
deriving DecidableEq, Repr

/-- A frame is recognised as soon as it is complete, whatever follows, and not before. -/
structure IsFrame (look : List β → Verdict π) (frame : List β) (payload : π) : Prop where
  nonempty : frame ≠ []
  whole : ∀ rest, look (frame ++ rest) = .item frame.length payload
  part : ∀ shorter rest, rest ≠ [] → frame = shorter ++ rest → look shorter = .more

/-- A frame and the item it carries. -/
abbrev Framed (β π : Type) := List β × π

/-- The bytes of a sequence of frames. -/
def wire (frames : List (Framed β π)) : List β := frames.flatMap Prod.fst

/-- The items of a sequence of frames. -/
def items (frames : List (Framed β π)) : List π := frames.map Prod.snd

@[simp] theorem wire_nil : wire ([] : List (Framed β π)) = [] := rfl

@[simp] theorem wire_cons (first : Framed β π) (rest : List (Framed β π)) :
    wire (first :: rest) = first.1 ++ wire rest := rfl

@[simp] theorem items_nil : items ([] : List (Framed β π)) = [] := rfl

@[simp] theorem items_cons (first : Framed β π) (rest : List (Framed β π)) :
    items (first :: rest) = first.2 :: items rest := rfl

@[simp] theorem wire_append (first second : List (Framed β π)) :
    wire (first ++ second) = wire first ++ wire second := List.flatMap_append

@[simp] theorem items_append (first second : List (Framed β π)) :
    items (first ++ second) = items first ++ items second := List.map_append

/-- Each frame takes at least one byte. -/
theorem length_le_wire {frames : List (Framed β π)}
    (nonempty : ∀ framed ∈ frames, framed.1 ≠ []) : frames.length ≤ (wire frames).length := by
  induction frames with
  | nil => exact Nat.le_refl _
  | cons next rest ih =>
      have first := List.length_pos_of_ne_nil (nonempty next List.mem_cons_self)
      have others := ih fun framed member => nonempty framed (List.mem_cons_of_mem _ member)
      rw [wire_cons, List.length_append, List.length_cons]
      omega

/-- Every element is a frame of its item. -/
def AllFrames (look : List β → Verdict π) (frames : List (Framed β π)) : Prop :=
  ∀ framed ∈ frames, IsFrame look framed.1 framed.2

/-- Bytes that do not complete the first of the given frames. -/
def Unfinished (bytes : List β) : List (Framed β π) → Prop
  | [] => bytes = []
  | next :: _ => ∃ rest, rest ≠ [] ∧ next.1 = bytes ++ rest

/-- Unfinished bytes never make the receiver act. -/
theorem Unfinished.look {look : List β → Verdict π} {frames : List (Framed β π)}
    {bytes : List β} (silent : look [] = .more) (framed : AllFrames look frames)
    (unfinished : Unfinished bytes frames) : look bytes = .more := by
  cases frames with
  | nil => rw [show bytes = [] from unfinished, silent]
  | cons next rest =>
      obtain ⟨missing, nonempty, split⟩ := unfinished
      exact (framed next List.mem_cons_self).part bytes missing nonempty split

/-- Any beginning of the bytes of some frames is a number of whole frames and an
unfinished one. -/
theorem exists_cut {frames : List (Framed β π)} {bytes rest : List β}
    (nonempty : ∀ framed ∈ frames, framed.1 ≠ []) (start : wire frames = bytes ++ rest) :
    ∃ complete later partly, frames = complete ++ later ∧ bytes = wire complete ++ partly ∧
      Unfinished partly later := by
  induction frames generalizing bytes with
  | nil =>
      have nothing : bytes = [] := by
        have empty := start.symm
        rw [wire_nil, List.append_eq_nil_iff] at empty
        exact empty.1
      exact ⟨[], [], [], rfl, by simp [nothing], rfl⟩
  | cons next others ih =>
      rw [wire_cons, List.append_eq_append_iff] at start
      rcases start with ⟨more, covers, remaining⟩ | ⟨missing, stops, _⟩
      · -- the first frame is complete
        obtain ⟨complete, later, partly, split, shape, unfinished⟩ :=
          ih (fun framed member => nonempty framed (List.mem_cons_of_mem _ member)) remaining
        refine ⟨next :: complete, later, partly, by rw [split, List.cons_append], ?_, unfinished⟩
        rw [covers, shape, wire_cons, List.append_assoc]
      · rcases List.eq_nil_or_concat' missing with rfl | ⟨_, _, _⟩
        · -- the bytes end exactly with the first frame
          rw [List.append_nil] at stops
          cases others with
          | nil => exact ⟨[next], [], [], rfl, by simp [stops], rfl⟩
          | cons second tail =>
              refine ⟨[next], second :: tail, [], rfl, by simp [stops], second.1, ?_, rfl⟩
              exact nonempty second (List.mem_cons_of_mem _ List.mem_cons_self)
        · exact ⟨[], next :: others, bytes, rfl, rfl, missing, by simp_all, stops⟩

/-- A point of a stream: what was received is a number of whole frames, whose items
were delivered, and the unread beginning of the next one. -/
def Cut (frames : List (Framed β π)) (received : List β) (delivered : List π)
    (unread : List β) : Prop :=
  ∃ complete later, frames = complete ++ later ∧ received = wire complete ++ unread ∧
    delivered = items complete ∧ Unfinished unread later

namespace Cut

variable {frames : List (Framed β π)} {received unread : List β} {delivered : List π}

/-- Before anything has arrived. -/
theorem start (nonempty : ∀ framed ∈ frames, framed.1 ≠ []) :
    Cut frames ([] : List β) [] ([] : List β) := by
  refine ⟨[], frames, rfl, rfl, rfl, ?_⟩
  cases frames with
  | nil => rfl
  | cons next _ => exact ⟨next.1, nonempty next List.mem_cons_self, rfl⟩

/-- One more read: the unread bytes and the new ones are some whole frames and an
unfinished one, and delivering the former leads to the next cut. -/
theorem feed (cut : Cut frames received delivered unread)
    (nonempty : ∀ framed ∈ frames, framed.1 ≠ []) {chunk rest : List β}
    (stream : wire frames = received ++ chunk ++ rest) :
    ∃ fresh later partly, (∀ framed ∈ fresh ++ later, framed ∈ frames) ∧
      unread ++ chunk = wire fresh ++ partly ∧ Unfinished partly later ∧
      Cut frames (received ++ chunk) (delivered ++ items fresh) partly := by
  obtain ⟨complete, later, rfl, rfl, rfl, _⟩ := cut
  rw [wire_append, List.append_assoc, List.append_assoc, List.append_right_inj,
    ← List.append_assoc] at stream
  obtain ⟨fresh, beyond, partly, rfl, shape, unfinished⟩ := exists_cut
    (fun framed member => nonempty framed (List.mem_append_right _ member)) stream
  refine ⟨fresh, beyond, partly, fun framed member => List.mem_append_right _ member, shape,
    unfinished, complete ++ fresh, beyond, (List.append_assoc _ _ _).symm, ?_, ?_, unfinished⟩
  · rw [wire_append, List.append_assoc, List.append_assoc, shape]
  · rw [items_append]

/-- When the whole stream has been received, every item was delivered and no byte is
left over. -/
theorem finished (cut : Cut frames (wire frames) delivered unread) :
    delivered = items frames ∧ unread = [] := by
  obtain ⟨complete, later, rfl, all, rfl, unfinished⟩ := cut
  rw [wire_append, List.append_right_inj] at all
  cases later with
  | nil => exact ⟨by simp, unfinished⟩
  | cons next rest =>
      obtain ⟨missing, nonempty, split⟩ := unfinished
      rw [wire_cons, split, List.append_assoc] at all
      have nothing := List.append_right_eq_self.mp all
      exact absurd (List.append_eq_nil_iff.mp nothing).1 nonempty

end Cut

end Sdpf.Stream
