import ScopedDocs.Proofs.Naming
import ScopedDocs.Proofs.Rows
/-!
# Removal — what paths reach in what is left

Removing along a path takes what the path reaches out of a well-formed document, and
nothing else. What is removed is gone with all that lies below it, and stays gone whatever
else is removed (`Json.reach_removeAll_eq_nil`); a path apart from all that are removed
reaches what it reached before (`Json.reach_removeAll`). Both go along the path, one
segment after the other, by what is left of a member (`Json.leftAt`).
-/


namespace ScopedDocs

namespace Json

variable {segment key : String} {rest removed path : List String} {document : Json}

/-! ## One segment -/

theorem lookup_removeAtMember_self (members : Members Json) :
    (removeAtMember segment rest members).lookup segment =
      (members.lookup segment).map (removeAt rest) := by
  induction members with
  | nil => rfl
  | cons m members ih =>
    obtain ⟨k, v⟩ := m
    rw [removeAtMember]
    split
    · next heq => simp [List.lookup_cons, heq]
    · next hne => simpa [List.lookup_cons, hne] using ih

/-- Removing further down removes from the member of the first segment. -/
theorem get?_removeAt_self (hrest : rest ≠ []) (document : Json) :
    (removeAt (segment :: rest) document).get? segment =
      (document.get? segment).map (removeAt rest) := by
  cases document with
  | obj members =>
    match rest with
    | [] => exact absurd rfl hrest
    | next :: rest => exact lookup_removeAtMember_self members
  | arr items => rw [removeAt]; rfl
  | _ => simp [removeAt, get?]

/-- Where a path ends, the member of its segment goes. -/
theorem get?_removeAt_last (hdocument : document.isWellFormed = true) :
    (removeAt [segment] document).get? segment = none := by
  cases document with
  | obj members =>
    rw [removeAt]
    exact Members.lookup_erase_self segment (isWellFormed_obj.mp hdocument).1
  | arr items => rw [removeAt]; rfl
  | _ => simp [removeAt, get?]

/-- **What removing along a path leaves of the member of a key**: nothing where the path
ends in it, what is left of it where the path goes on in it, and else all of it. -/
def leftAt (removed : List String) (key : String) (child : Json) : Option Json :=
  match removed with
  | [] => some child
  | segment :: rest =>
    if segment ≠ key then some child else if rest = [] then none else some (removeAt rest child)

theorem leftAt_of_ne (h : segment ≠ key) (child : Json) :
    leftAt (segment :: rest) key child = some child := if_pos h

theorem leftAt_last (child : Json) : leftAt [key] key child = none := by simp [leftAt]

theorem leftAt_self (h : rest ≠ []) (child : Json) :
    leftAt (key :: rest) key child = some (removeAt rest child) := by simp [leftAt, h]

theorem get?_removeAt (removed : List String) (hdocument : document.isWellFormed = true) :
    (removeAt removed document).get? key = (document.get? key).bind (leftAt removed key) := by
  cases removed with
  | nil =>
    have hall : leftAt [] key = some := funext fun _ => rfl
    rw [get?_removeAt_of_ne (by simp) hdocument, hall, Option.bind_fun_some]
  | cons segment rest =>
    by_cases hne : segment = key
    · subst hne
      cases hrest : rest with
      | nil =>
        rw [get?_removeAt_last hdocument]
        exact (Option.bind_eq_none_iff.mpr fun child _ => leftAt_last child).symm
      | cons next others =>
        have hself : leftAt (segment :: next :: others) segment =
            fun child => some (removeAt (next :: others) child) :=
          funext (leftAt_self (List.cons_ne_nil next others))
        rw [get?_removeAt_self (List.cons_ne_nil next others), hself]
        exact Option.map_eq_bind
    · have hall : leftAt (segment :: rest) key = some := funext (leftAt_of_ne hne)
      rw [get?_removeAt_of_ne (by simpa using hne) hdocument, hall, Option.bind_fun_some]

/-- What a removal does to the member of a key, it does to all values one segment
further. -/
theorem children_removeAt (removed : List String) (hdocument : document.isWellFormed = true) :
    (removeAt removed document).children key =
      (document.children key).filterMap (leftAt removed key) := by
  cases document with
  | obj members =>
    obtain ⟨left, hleft⟩ : ∃ left, removeAt removed (obj members) = obj left := by
      match removed with
      | [] => exact ⟨members, by rw [removeAt]⟩
      | [segment] => exact ⟨_, by rw [removeAt]⟩
      | segment :: next :: rest => exact ⟨removeAtMember segment (next :: rest) members, rfl⟩
    have hget : (removeAt removed (obj members)).get? key =
        ((obj members).get? key).bind (leftAt removed key) := get?_removeAt removed hdocument
    rw [hleft] at hget ⊢
    rw [get?, get?] at hget
    rw [children, children, hget]
    cases members.lookup key with
    | none => rfl
    | some child => cases h : leftAt removed key child <;> simp [h]
  | arr items =>
    rw [removeAt, removeAtItems_eq_map, children, children, List.filterMap_map,
      List.filterMap_filterMap]
    exact List.filterMap_congr fun item hitem =>
      get?_removeAt removed (isWellFormed_arr.mp hdocument item hitem)
  | _ => simp [removeAt, children]

/-- What a path reaches after a removal, value by value one segment further. -/
theorem reach_cons_removeAt (removed : List String) (key : String) (path : List String)
    (hdocument : document.isWellFormed = true) :
    (removeAt removed document).reach (key :: path) =
      (document.children key).flatMap fun child =>
        (leftAt removed key child).toList.flatMap (reach path) := by
  rw [reach, children_removeAt removed hdocument, List.filterMap_eq_flatMap_toList,
    List.flatMap_assoc]

theorem isWellFormed_of_mem_children {child : Json} (h : document.isWellFormed = true)
    (hchild : child ∈ document.children key) : child.isWellFormed = true := by
  have hreached : child ∈ document.reach [key] := by simpa [reach] using hchild
  exact isWellFormed_of_mem_reach h hreached

/-! ## One path -/

/-- **What a path reaches** is not touched by removing along a path apart from it. -/
theorem reach_removeAt (habove : ¬ removed <+: path) (hbelow : ¬ path <+: removed)
    (hdocument : document.isWellFormed = true) :
    (removeAt removed document).reach path = document.reach path := by
  induction removed generalizing path document with
  | nil => exact absurd path.nil_prefix habove
  | cons segment rest ih =>
    cases path with
    | nil => exact absurd List.nil_prefix hbelow
    | cons key path =>
      rw [reach_cons_removeAt _ _ _ hdocument, reach]
      refine List.flatMap_congr fun child hchild => ?_
      by_cases heq : segment = key
      · subst heq
        have hrest : rest ≠ [] := by
          rintro rfl
          exact habove (List.prefix_append [segment] path)
        rw [leftAt_self hrest, Option.toList_some, List.flatMap_singleton]
        refine ih (fun h => habove ?_) (fun h => hbelow ?_)
          (isWellFormed_of_mem_children hdocument hchild)
        · exact List.cons_prefix_cons.mpr ⟨rfl, h⟩
        · exact List.cons_prefix_cons.mpr ⟨rfl, h⟩
      · rw [leftAt_of_ne heq, Option.toList_some, List.flatMap_singleton]

/-- **What is removed is gone**, with all that lies below it. -/
theorem reach_removeAt_eq_nil (hremoved : removed ≠ []) (h : removed <+: path)
    (hdocument : document.isWellFormed = true) : (removeAt removed document).reach path = [] := by
  induction removed generalizing path document with
  | nil => exact absurd rfl hremoved
  | cons segment rest ih =>
    obtain ⟨below, rfl⟩ := h
    rw [List.cons_append, reach_cons_removeAt _ _ _ hdocument, List.flatMap_eq_nil_iff]
    intro child hchild
    cases hrest : rest with
    | nil => rw [leftAt_last, Option.toList_none, List.flatMap_nil]
    | cons next others =>
      have hne : rest ≠ [] := by simp [hrest]
      rw [← hrest, leftAt_self hne, Option.toList_some, List.flatMap_singleton]
      exact ih hne (List.prefix_append rest below) (isWellFormed_of_mem_children hdocument hchild)

/-- A path that reaches nothing reaches nothing after a removal. -/
theorem reach_removeAt_of_nil (removed : List String) (h : document.reach path = [])
    (hdocument : document.isWellFormed = true) : (removeAt removed document).reach path = [] := by
  induction path generalizing removed document with
  | nil => exact absurd h (by simp [reach])
  | cons key path ih =>
    rw [reach, List.flatMap_eq_nil_iff] at h
    rw [reach_cons_removeAt _ _ _ hdocument, List.flatMap_eq_nil_iff]
    intro child hchild
    have hnone := h child hchild
    cases removed with
    | nil => rw [leftAt, Option.toList_some, List.flatMap_singleton, hnone]
    | cons segment rest =>
      by_cases heq : segment = key
      · subst heq
        cases hrest : rest with
        | nil => rw [leftAt_last, Option.toList_none, List.flatMap_nil]
        | cons next others =>
          rw [leftAt_self (List.cons_ne_nil next others), Option.toList_some,
            List.flatMap_singleton]
          exact ih _ hnone (isWellFormed_of_mem_children hdocument hchild)
      · rw [leftAt_of_ne heq, Option.toList_some, List.flatMap_singleton, hnone]

/-! ## Several paths -/

theorem removeAll_cons (document : Json) (removed : String) (paths : List String) :
    document.removeAll (removed :: paths) =
      (document.removeAt (Dotted.segments removed)).removeAll paths := rfl

/-- **A path apart from all that are removed** reaches what it reached. -/
theorem reach_removeAll {paths : List String} {path : String}
    (h : ∀ removed ∈ paths, ¬ Dotted.Touches removed path)
    (hdocument : document.isWellFormed = true) :
    (document.removeAll paths).reach (Dotted.segments path) =
      document.reach (Dotted.segments path) := by
  induction paths generalizing document with
  | nil => rfl
  | cons removed paths ih =>
    obtain ⟨hremoved, hpaths⟩ := List.forall_mem_cons.mp h
    rw [Dotted.touches_iff, not_or] at hremoved
    rw [removeAll_cons, ih hpaths (isWellFormed_removeAt _ hdocument),
      reach_removeAt hremoved.1 hremoved.2 hdocument]

/-- Removing along paths apart from a path leaves the first value it reaches. -/
theorem first?_removeAll {paths : List String} {path : String}
    (h : ∀ removed ∈ paths, ¬ Dotted.Touches removed path)
    (hdocument : document.isWellFormed = true) :
    (document.removeAll paths).first? path = document.first? path := by
  rw [first?, reach_removeAll h hdocument, first?]

theorem isWellFormed_removeAll (paths : List String) (hdocument : document.isWellFormed = true) :
    (document.removeAll paths).isWellFormed = true :=
  List.foldlRecOn (motive := fun d : Json => d.isWellFormed = true) paths _ hdocument
    fun _ hd path _ => isWellFormed_removeAt (Dotted.segments path) hd

theorem reach_removeAll_of_nil (paths : List String) (h : document.reach path = [])
    (hdocument : document.isWellFormed = true) : (document.removeAll paths).reach path = [] := by
  induction paths generalizing document with
  | nil => exact h
  | cons removed paths ih =>
    exact ih (reach_removeAt_of_nil _ h hdocument) (isWellFormed_removeAt _ hdocument)

/-- **What is removed among others is gone**, with all that lies below it. -/
theorem reach_removeAll_eq_nil {paths : List String} {removed : String} (hmem : removed ∈ paths)
    (h : Dotted.segments removed <+: path) (hdocument : document.isWellFormed = true) :
    (document.removeAll paths).reach path = [] := by
  induction paths generalizing document with
  | nil => exact absurd hmem List.not_mem_nil
  | cons first paths ih =>
    have hleft := isWellFormed_removeAt (Dotted.segments first) hdocument
    rcases List.mem_cons.mp hmem with rfl | hmem
    · exact reach_removeAll_of_nil paths
        (reach_removeAt_eq_nil (Dotted.segments_ne_nil _) h hdocument) hleft
    · exact ih hmem hleft

end Json

end ScopedDocs
