import Sdpf.Server.Request
import Sdpf.Data.Search

/-!
# Which service and method a request reaches

`find_svc` compares as many characters as the request's service string has, so every
service whose name starts with it will do; `MsgService::find_method` compares as many as
the method in its table has, so every string that starts with it will do. A request
reaches what it names if no such name comes first (`requests_exact_iff`).
-/

namespace Sdpf.Server

open Sdpf.Data Sdpf.Channel

namespace MsgService

/-- The names in `_Methods`: "notify", "test" and "echo". -/
def methods : List CStr :=
  [CStr.ofBlock [0x6e, 0x6f, 0x74, 0x69, 0x66, 0x79], CStr.ofBlock [0x74, 0x65, 0x73, 0x74],
    CStr.ofBlock [0x65, 0x63, 0x68, 0x6f]]

/-- `find_method`: the place in the table of the first name the method starts with. -/
def findMethod (method : CStr) : Int :=
  if method.strlen = 0 then
    -1
  else
    match methods.zipIdx.find? fun entry =>
      strncmp method.bytes entry.1.bytes entry.1.strlen = 0 with
    | some (_, index) => index
    | none => -2

/-- A method is selected exactly if the table has its name, and then at its place. -/
structure FindsExactly (method : CStr) : Prop where
  selected : 0 ≤ findMethod method ↔ method ∈ methods
  named : ∀ index : Nat, findMethod method = index → methods[index]? = some method

/-- No name of the table is continued by the method. -/
def Uncontinued (method : CStr) : Prop :=
  ∀ entry ∈ methods, entry.bytes <+: method.bytes → entry = method

/-- A selected method is one the search of the table returned. -/
theorem findMethod_eq {method : CStr} {index : Nat} :
    findMethod method = index ↔ ∃ entry, methods.zipIdx.find? (fun entry =>
      strncmp method.bytes entry.1.bytes entry.1.strlen = 0) = some (entry, index) := by
  unfold findMethod
  split_ifs with empty
  · -- an empty string starts with none of the names
    have none_found : methods.zipIdx.find? (fun entry =>
        strncmp method.bytes entry.1.bytes entry.1.strlen = 0) = none := by
      rw [List.eq_nil_of_length_eq_zero empty]
      decide
    rw [none_found]
    constructor
    · intro equal
      cases equal
    · rintro ⟨entry, found⟩
      cases found
  · split
    · next entry place found =>
        rw [found]
        constructor
        · intro equal
          exact ⟨entry, by rw [Int.ofNat.inj equal]⟩
        · rintro ⟨other, equal⟩
          cases equal
          rfl
    · next found =>
        rw [found]
        constructor
        · intro equal
          omega
        · rintro ⟨entry, equal⟩
          cases equal

/-- A method is found exactly if some name is a beginning of the given one. -/
theorem findMethod_selected {method : CStr} :
    0 ≤ findMethod method ↔ (methods.zipIdx.find? (fun entry =>
      strncmp method.bytes entry.1.bytes entry.1.strlen = 0)).isSome := by
  rw [Option.isSome_iff_exists]
  constructor
  · intro selected
    obtain ⟨index, equal⟩ := Int.eq_ofNat_of_zero_le selected
    obtain ⟨entry, found⟩ := findMethod_eq.mp equal
    exact ⟨_, found⟩
  · rintro ⟨⟨entry, index⟩, found⟩
    rw [findMethod_eq.mpr ⟨entry, found⟩]
    omega

/-- The search for a method is exact if and only if the method continues no name: of the
names in the table none continues another. -/
theorem findsExactly_iff {method : CStr} : FindsExactly method ↔ Uncontinued method := by
  have continues : ∀ entry : CStr,
      decide (strncmp method.bytes entry.bytes entry.strlen = 0) = true ↔
        entry.bytes <+: method.bytes := fun entry => by
    rw [decide_eq_true_iff, strncmp_comm_eq_zero, strncmp_strlen_eq_zero]
  have passes : ∀ entry ∈ methods.zipIdx, entry.1 = method →
      decide (strncmp method.bytes entry.1.bytes entry.1.strlen = 0) = true := by
    rintro ⟨entry, index⟩ _ rfl
    exact (continues entry).mpr (List.prefix_refl _)
  have present : (∃ entry ∈ methods.zipIdx, entry.1 = method) ↔ method ∈ methods :=
    (exists_zipIdx methods fun entry => entry = method).trans (by simp)
  have places := (find?_exact_iff passes).trans (unshadowed_zipIdx methods
    (fun entry => decide (strncmp method.bytes entry.bytes entry.strlen = 0))
    fun entry => entry = method)
  simp only [Unshadowed, continues] at places
  have apart : ∀ entry ∈ methods, ∀ other ∈ methods, entry.bytes <+: other.bytes → entry = other := by
    decide
  have first : Uncontinued method ↔ ∀ (i : Nat) entry, methods[i]? = some entry →
      entry.bytes <+: method.bytes → ¬ entry = method →
      ∃ j < i, ∃ other, methods[j]? = some other ∧ other = method := by
    constructor
    · intro uncontinued i entry here starts other
      exact absurd (uncontinued entry (List.mem_of_getElem? here) starts) other
    · intro unshadowed entry member starts
      by_contra other
      obtain ⟨i, here⟩ := List.getElem?_of_mem member
      obtain ⟨j, _, same, there, rfl⟩ := unshadowed i entry here starts other
      exact other (apart entry member same (List.mem_of_getElem? there) starts)
  rw [first, ← places]
  constructor
  · intro exact
    refine ⟨findMethod_selected.symm.trans (exact.selected.trans present.symm), ?_⟩
    rintro ⟨entry, index⟩ found
    have here := exact.named index (findMethod_eq.mpr ⟨entry, found⟩)
    have there := List.mem_zipIdx_iff_getElem?.mp (List.mem_of_find?_eq_some found)
    rw [here] at there
    cases there
    rfl
  · intro exact
    refine ⟨findMethod_selected.trans (exact.found.trans present), fun index equal => ?_⟩
    obtain ⟨entry, found⟩ := findMethod_eq.mp equal
    have there := List.mem_zipIdx_iff_getElem?.mp (List.mem_of_find?_eq_some found)
    rw [show entry = method from exact.right _ found] at there
    exact there

end MsgService

namespace RpcChannel

variable (ch : RpcChannel)

/-- Some service goes by that name. -/
def Offers (service : CStr) : Prop := ∃ svc ∈ ch.services, svc.name = service

/-- A service is selected exactly if one has that name, and then one with that name;
otherwise the answer is 1001. -/
structure SelectsExactly (service : CStr) : Prop where
  selected : (ch.findSvc service).isSome ↔ ch.Offers service
  named : ∀ svc index, ch.findSvc service = some (svc, index) → svc.name = service
  refused : ¬ ch.Offers service → ∀ allocated id method body,
    (ch.processRequest allocated id service method body).1 = .refused enoservice

/-- A request for a method that `MsgService` does not have is answered 1002, once a service
that finds its methods like `MsgService` has been selected. -/
def RefusesUnknown (service method : CStr) : Prop :=
  method ∉ MsgService.methods → ∀ svc index, ch.findSvc service = some (svc, index) →
    svc.findMethod = MsgService.findMethod → ∀ allocated id body,
    (ch.processRequest allocated id service method body).1 = .refused enomethod

/-- The request reaches exactly the service and the method that it names. -/
structure RequestsExact (service method : CStr) : Prop where
  services : ch.SelectsExactly service
  methods : MsgService.FindsExactly method
  unknown : ch.RefusesUnknown service method

/-- Every registered service whose name properly continues the string comes behind one
that is named exactly so. -/
def Undisguised (service : CStr) : Prop :=
  ∀ (i : Nat) svc, ch.services[i]? = some svc → service.bytes <+: svc.name.bytes → svc.name ≠ service →
    ∃ j < i, ∃ other, ch.services[j]? = some other ∧ other.name = service

section Selection

variable {ch : RpcChannel} {service method : CStr}

/-- A request whose service is not found is refused. -/
theorem processRequest_noService (missing : ch.findSvc service = none) (allocated : Bool)
    (id : UInt32) (method : CStr) (body : List UInt8) :
    (ch.processRequest allocated id service method body).1 = .refused enoservice := by
  unfold processRequest
  rw [missing]

/-- The search for a service is exact if and only if no name disguises another. -/
theorem selectsExactly_iff : ch.SelectsExactly service ↔ ch.Undisguised service := by
  have starts : ∀ svc : RpcService,
      decide (strncmp service.bytes svc.name.bytes service.strlen = 0) = true ↔
        service.bytes <+: svc.name.bytes := fun svc => by
    rw [decide_eq_true_iff, strncmp_strlen_eq_zero]
  have passes : ∀ entry ∈ ch.services.zipIdx, entry.1.name = service →
      decide (strncmp service.bytes entry.1.name.bytes service.strlen = 0) = true := by
    rintro ⟨svc, index⟩ _ rfl
    exact (starts svc).mpr (List.prefix_refl _)
  have offers : (∃ entry ∈ ch.services.zipIdx, entry.1.name = service) ↔ ch.Offers service :=
    exists_zipIdx ch.services fun svc => svc.name = service
  have places := (find?_exact_iff passes).trans (unshadowed_zipIdx ch.services
    (fun svc => decide (strncmp service.bytes svc.name.bytes service.strlen = 0))
    fun svc => svc.name = service)
  simp only [Unshadowed, starts] at places
  rw [Undisguised, ← places]
  constructor
  · intro exact
    exact ⟨exact.selected.trans offers.symm, fun entry found => exact.named entry.1 entry.2 found⟩
  · intro exact
    have selected : (ch.findSvc service).isSome ↔ ch.Offers service := exact.found.trans offers
    refine ⟨selected, fun svc index found => exact.right _ found, ?_⟩
    intro missing allocated id method body
    refine processRequest_noService ?_ allocated id method body
    by_contra found
    exact missing (selected.mp (Option.isSome_iff_ne_none.mpr found))

/-- Requests reach exactly what they name if and only if no service of a longer name comes
first, and the method does not continue a name of the table. -/
theorem requests_exact_iff (ch : RpcChannel) (service method : CStr) :
    ch.RequestsExact service method ↔
      ch.Undisguised service ∧ MsgService.Uncontinued method := by
  constructor
  · intro exact
    exact ⟨selectsExactly_iff.mp exact.services, MsgService.findsExactly_iff.mp exact.methods⟩
  · rintro ⟨undisguised, uncontinued⟩
    have methods := MsgService.findsExactly_iff.mpr uncontinued
    refine ⟨selectsExactly_iff.mpr undisguised, methods, ?_⟩
    intro missing svc index found finds allocated id body
    have negative : svc.findMethod method < 0 := by
      rw [finds]
      exact lt_of_not_ge fun selected => missing (methods.selected.mp selected)
    unfold processRequest
    rw [found]
    simp only [if_pos negative]

end Selection

/-- Two services, "message" in front of "msg". -/
private def twoServices : RpcChannel where
  services :=
    [⟨CStr.ofBlock [0x6d, 0x65, 0x73, 0x73, 0x61, 0x67, 0x65], fun _ => 0, fun _ => none,
      fun _ => none⟩,
    ⟨CStr.ofBlock [0x6d, 0x73, 0x67], MsgService.findMethod, fun _ => none, fun _ => none⟩]
  requests := ∅

/-- The string "m" selects the service "message", and "tests" the method "test". -/
theorem requests_not_exact :
    ¬ twoServices.SelectsExactly (CStr.ofBlock [0x6d]) ∧
      ¬ MsgService.FindsExactly (CStr.ofBlock [0x74, 0x65, 0x73, 0x74, 0x73]) := by
  constructor
  · intro exact
    have selected : (twoServices.findSvc (CStr.ofBlock [0x6d])).isSome := by decide
    obtain ⟨svc, member, named⟩ := exact.selected.mp selected
    simp only [twoServices, List.mem_cons, List.not_mem_nil, or_false] at member
    rcases member with rfl | rfl <;> exact absurd named (by decide)
  · intro exact
    have selected : 0 ≤ MsgService.findMethod (CStr.ofBlock [0x74, 0x65, 0x73, 0x74, 0x73]) := by
      decide
    exact absurd (exact.selected.mp selected) (by decide)

end RpcChannel

end Sdpf.Server
