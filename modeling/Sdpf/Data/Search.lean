import Mathlib.Data.List.AList

/-!
# Searches

A linear search returns the first element that passes a test. When the test also lets
other elements pass than those that are meant, the search is still exact if each such
element comes behind one that is meant (`find?_exact_iff`).
-/

namespace Sdpf.Data

variable {α : Type} {l : List α} {test : α → Bool} {meant : α → Prop}

/-- The search finds an element exactly if one that is meant is there, and only finds
such ones. -/
structure ExactSearch (test : α → Bool) (meant : α → Prop) (l : List α) : Prop where
  found : (l.find? test).isSome ↔ ∃ x ∈ l, meant x
  right : ∀ x, l.find? test = some x → meant x

/-- Whatever else passes the test comes behind an element that is meant. -/
def Unshadowed (test : α → Bool) (meant : α → Prop) (l : List α) : Prop :=
  ∀ (i : Nat) x, l[i]? = some x → test x = true → ¬ meant x → ∃ j < i, ∃ y, l[j]? = some y ∧ meant y

/-- The first match, its place, and those in front of it. -/
theorem find?_first {x : α} (found : l.find? test = some x) :
    ∃ i : Nat, l[i]? = some x ∧ test x = true ∧ ∀ j < i, ∀ y, l[j]? = some y → test y = false := by
  obtain ⟨passes, i, inside, here, before⟩ := List.find?_eq_some_iff_getElem.mp found
  refine ⟨i, ?_, passes, fun j earlier y there => ?_⟩
  · rw [List.getElem?_eq_getElem inside, here]
  · obtain ⟨bound, rfl⟩ := List.getElem?_eq_some_iff.mp there
    simpa using before j earlier

/-- The first match, and what is left without it. -/
theorem perm_cons_eraseP {x : α} (found : l.find? test = some x) :
    l.Perm (x :: l.eraseP test) := by
  obtain ⟨passes, before, after, rfl, fails⟩ := List.find?_eq_some_iff_append.mp found
  have left : (before ++ x :: after).eraseP test = before ++ after := by
    rw [List.eraseP_append_right _ (by simpa using fails), List.eraseP_cons_of_pos passes]
  rw [left]
  exact List.perm_middle

/-- A search is exact if and only if no element that is not meant is found too early. -/
theorem find?_exact_iff (passes : ∀ x ∈ l, meant x → test x = true) :
    ExactSearch test meant l ↔ Unshadowed test meant l := by
  constructor
  · intro exact i x here pass other
    have some_found : (l.find? test).isSome := by
      rw [List.find?_isSome]
      exact ⟨x, List.mem_of_getElem? here, pass⟩
    obtain ⟨y, found⟩ := Option.isSome_iff_exists.mp some_found
    obtain ⟨j, there, _, before⟩ := find?_first found
    have isMeant := exact.right y found
    refine ⟨j, ?_, y, there, isMeant⟩
    rcases Nat.lt_trichotomy j i with earlier | rfl | later
    · exact earlier
    · rw [here] at there
      cases there
      exact absurd isMeant other
    · have fails := before i later x here
      rw [pass] at fails
      cases fails
  · intro unshadowed
    have right : ∀ x, l.find? test = some x → meant x := by
      intro x found
      by_contra other
      obtain ⟨i, here, pass, before⟩ := find?_first found
      obtain ⟨j, earlier, y, there, isMeant⟩ := unshadowed i x here pass other
      have fails := before j earlier y there
      rw [passes y (List.mem_of_getElem? there) isMeant] at fails
      cases fails
    refine ⟨⟨fun some_found => ?_, fun ⟨x, member, isMeant⟩ => ?_⟩, right⟩
    · obtain ⟨x, found⟩ := Option.isSome_iff_exists.mp some_found
      exact ⟨x, List.mem_of_find?_eq_some found, right x found⟩
    · rw [List.find?_isSome]
      exact ⟨x, member, passes x member isMeant⟩

/-! ## Searches in a table -/

section Table

variable {key value : Type} [DecidableEq key] {table : AList fun _ : key => value}

/-- Looking for an entry after another may have been erased. -/
theorem lookup_erase (id other : key) :
    (table.erase id).lookup other = if other = id then none else table.lookup other := by
  split
  · next same => rw [same, AList.lookup_erase]
  · next distinct => exact AList.lookup_erase_ne distinct

/-- Looking for an entry after one has been inserted. -/
theorem lookup_insert (id other : key) (entry : value) :
    (table.insert id entry).lookup other = if other = id then some entry else table.lookup other := by
  split
  · next same => rw [same, AList.lookup_insert]
  · next distinct => exact AList.lookup_insert_ne distinct

end Table

/-! ## Searches that also return the place -/

/-- Numbering the entries of a list hides none. -/
theorem exists_zipIdx (l : List α) (meant : α → Prop) :
    (∃ entry ∈ l.zipIdx, meant entry.1) ↔ ∃ x ∈ l, meant x := by
  constructor
  · rintro ⟨⟨x, index⟩, member, isMeant⟩
    exact ⟨x, List.fst_mem_of_mem_zipIdx member, isMeant⟩
  · rintro ⟨x, member, isMeant⟩
    obtain ⟨index, here⟩ := List.getElem?_of_mem member
    exact ⟨(x, index), List.mem_zipIdx_iff_getElem?.mpr here, isMeant⟩

/-- Nor does it shadow one. -/
theorem unshadowed_zipIdx (l : List α) (test : α → Bool) (meant : α → Prop) :
    Unshadowed (fun entry : α × Nat => test entry.1) (fun entry => meant entry.1) l.zipIdx ↔
      Unshadowed test meant l := by
  have places : ∀ (i : Nat) (entry : α × Nat),
      l.zipIdx[i]? = some entry ↔ l[i]? = some entry.1 ∧ entry.2 = i := by
    rintro i ⟨x, index⟩
    rw [List.getElem?_zipIdx, Option.map_eq_some_iff]
    constructor
    · rintro ⟨y, here, equal⟩
      cases equal
      exact ⟨here, Nat.zero_add i⟩
    · rintro ⟨here, rfl⟩
      exact ⟨x, here, by rw [Nat.zero_add]⟩
  constructor
  · intro unshadowed i x here pass other
    obtain ⟨j, earlier, entry, there, isMeant⟩ :=
      unshadowed i (x, i) ((places i _).mpr ⟨here, rfl⟩) pass other
    exact ⟨j, earlier, entry.1, ((places j entry).mp there).1, isMeant⟩
  · intro unshadowed i entry here pass other
    obtain ⟨j, earlier, y, there, isMeant⟩ :=
      unshadowed i entry.1 ((places i entry).mp here).1 pass other
    exact ⟨j, earlier, (y, j), (places j _).mpr ⟨there, rfl⟩, isMeant⟩

end Sdpf.Data
