import ScopedDocs.Proofs.Naming
import ScopedDocs.Proofs.WellFormed
import ScopedDocs.Projection
/-!
# Copies — what paths bring over from a document

Copying along a path makes something of a slot, which may be empty (`Json.copyOver`). An
array becomes the array of the documents in it, and one in the slot that has another number
of items than there are documents is emptied first. So several paths make of an object, key
by key, what their rests make of the members (`Json.exists_copyInto`), and of an array what
they make of each of its documents (`Json.exists_copyEach`).

A value that a path brought over whole stays as it is if no other path goes on below through
an array with anything but documents in it (`Json.Unmixed`, `Json.copyEach_whole`). Then each
path reads in the copy what it reads in the document (`Json.reach_copyEach`). A path apart
from all of them reads nothing (`Json.reach_copyEach_eq_nil`).
-/


namespace ScopedDocs

namespace Json

variable {segment key : String} {rest path : List String} {paths : List (List String)}
  {value row : Json} {slot other : Option Json} {source target : Members Json}
  {items : List Json}

/-! ## One step of a copy -/

/-- **Copying into a slot**, which may be empty: what a path makes of it, where the path has
reached a value. -/
def copyOver (path : List String) (source : Json) (slot : Option Json) : Option Json :=
  if path = [] then some source
  else
    match source with
    | obj _ => some (copyAt path source (slot.getD (obj [])))
    | arr items =>
      match slot.getD (arr []) with
      | arr copies =>
        let documents := items.filter isObject
        let copies := if copies.length = documents.length then copies
          else documents.map fun _ => obj []
        some (arr (List.zipWith (copyAt path) documents copies))
      | _ => slot
    | _ => slot

/-- A copy leaves a slot empty only if it was. -/
theorem eq_none_of_copyOver (h : copyOver path value slot = none) : slot = none := by
  unfold copyOver at h
  split at h
  · exact absurd h (by simp)
  · split at h
    · exact absurd h (by simp)
    · split at h
      · exact absurd h (by simp)
      · exact h
    · exact h

/-- Writing back what a slot holds changes nothing. -/
theorem put_lookup_elim (key : String) (members : Members Json) :
    (members.lookup key).elim (obj members) (fun value => obj (Members.put key value members)) =
      obj members := by
  cases h : members.lookup key with
  | none => rfl
  | some value => exact congrArg obj (Members.put_of_lookup h)

/-- **A copy writes one slot**, that of its first segment, where the source has the segment. -/
theorem copyAt_cons {child : Json} (hread : source.lookup segment = some child) :
    copyAt (segment :: rest) (obj source) (obj target) =
      (copyOver rest child (target.lookup segment)).elim (obj target)
        (fun value => obj (Members.put segment value target)) := by
  rw [copyAt, hread]
  cases rest with
  | nil => rfl
  | cons next others =>
    cases child with
    | obj members => rfl
    | arr items =>
      simp only [copyOver, List.isEmpty_cons, Bool.false_eq_true, ↓reduceIte, reduceCtorEq]
      cases hslot : (target.lookup segment).getD (arr []) with
      | arr copies => rfl
      | _ => exact (put_lookup_elim segment target).symm
    | _ => exact (put_lookup_elim segment target).symm

/-- A copy of an object over an object is the copy of it into the slot. -/
theorem copyOver_obj (hpath : path ≠ []) (source : Members Json) (slot : Option Json) :
    copyOver path (obj source) slot = some (copyAt path (obj source) (slot.getD (obj []))) := by
  rw [copyOver, if_neg hpath]

theorem copyOver_of_isObject (hpath : path ≠ []) (h : value.isObject = true)
    (slot : Option Json) :
    copyOver path value slot = some (copyAt path value (slot.getD (obj []))) := by
  cases value with
  | obj members => exact copyOver_obj hpath members slot
  | _ => simp [isObject] at h

/-- Into what is neither an object nor an array, no path goes on. -/
theorem copyOver_plain (hpath : path ≠ []) (hmembers : value.members? = none)
    (hitems : value.items? = none) : copyOver path value slot = slot := by
  cases value with
  | obj members => simp [members?] at hmembers
  | arr items => simp [items?] at hitems
  | _ => exact if_neg hpath

/-- Of what is no object, nothing is copied. -/
theorem copyAt_of_not_isObject (h : value.isObject = false) (path : List String) (row : Json) :
    copyAt path value row = row := by
  cases path with
  | nil => rfl
  | cons segment rest =>
    cases value with
    | obj source => exact absurd h (by simp [isObject])
    | _ => rfl

/-- Into what is no object, nothing is copied. -/
theorem copyAt_blocked (h : row.isObject = false) (path : List String) (value : Json) :
    copyAt path value row = row := by
  cases path with
  | nil => rfl
  | cons segment rest =>
    cases value with
    | obj source =>
      cases row with
      | obj target => exact absurd h (by simp [isObject])
      | _ => rfl
    | _ => rfl

/-! ## Arrays on the way -/

theorem zipWith_pairs {α β γ : Type} (f : α → β → γ) (pairs : List (α × β)) :
    List.zipWith f (pairs.map Prod.fst) (pairs.map Prod.snd) =
      pairs.map fun pair => f pair.1 pair.2 := by
  rw [List.zipWith_map, List.zipWith_self]

/-- Copying into the copies of the documents of an array copies into each. -/
theorem copyOver_pairs {pairs : List (Json × Json)} (hpath : path ≠ [])
    (h : items.filter isObject = pairs.map Prod.fst) :
    copyOver path (arr items) (some (arr (pairs.map Prod.snd))) =
      some (arr (pairs.map fun pair => copyAt path pair.1 pair.2)) := by
  have hlength : (pairs.map Prod.snd).length = (items.filter isObject).length := by simp [h]
  rw [copyOver, if_neg hpath, Option.getD_some]
  simp only [hlength, ↓reduceIte, h, zipWith_pairs]

/-- **The copies of the documents of an array**: those in the slot if they are as many, and
else empty ones. -/
theorem exists_pairs {copies : List Json} (hslot : slot.getD (arr []) = arr copies)
    (items : List Json) :
    ∃ pairs : List (Json × Json), items.filter isObject = pairs.map Prod.fst ∧
      (∀ pair ∈ pairs, pair.2 = obj [] ∨ pair.2 ∈ copies) ∧
      ∀ path, path ≠ [] → copyOver path (arr items) slot =
        some (arr (pairs.map fun pair => copyAt path pair.1 pair.2)) := by
  obtain ⟨fitting, hfitting⟩ : ∃ fitting, fitting = if copies.length =
      (items.filter isObject).length then copies else (items.filter isObject).map fun _ => obj [] :=
    ⟨_, rfl⟩
  have hlength : fitting.length = (items.filter isObject).length := by
    rw [hfitting]
    split
    · assumption
    · exact List.length_map ..
  have hdocuments : ((items.filter isObject).zip fitting).map Prod.fst = items.filter isObject :=
    List.map_fst_zip (Nat.le_of_eq hlength.symm)
  have hcopies : ((items.filter isObject).zip fitting).map Prod.snd = fitting :=
    List.map_snd_zip (Nat.le_of_eq hlength)
  refine ⟨(items.filter isObject).zip fitting, hdocuments.symm, fun pair hpair => ?_,
    fun path hpath => ?_⟩
  · have hmem : pair.2 ∈ fitting := hcopies ▸ List.mem_map_of_mem hpair
    rw [hfitting] at hmem
    split at hmem
    · exact .inr hmem
    · obtain ⟨_, -, hempty⟩ := List.mem_map.mp hmem
      exact .inl hempty.symm
  · rw [← zipWith_pairs, hdocuments, hcopies, copyOver, if_neg hpath, hslot, hfitting]

/-- Where something else than an array is in the slot, an array is not copied. -/
theorem copyOver_arr_blocked (hpath : path ≠ []) (h : (slot.getD (arr [])).items? = none)
    (items : List Json) : copyOver path (arr items) slot = slot := by
  rw [copyOver, if_neg hpath]
  cases hslot : slot.getD (arr []) with
  | arr copies => simp [hslot, items?] at h
  | _ => rfl

/-! ## Mixed arrays -/

/-- On its way, a path goes on in the documents of an array. -/
theorem reach_arr (key : String) (rest : List String) (items : List Json) :
    (arr items).reach (key :: rest) =
      (items.filter isObject).flatMap (reach (key :: rest)) := by
  have hitem (item : Json) :
      (item.get? key).toList = if item.isObject = true then item.children key else [] := by
    cases item <;> rfl
  rw [reach, children, List.filterMap_eq_flatMap_toList, List.flatMap_assoc]
  induction items with
  | nil => rfl
  | cons item items ih =>
    rw [List.flatMap_cons, ih, hitem, List.filter_cons]
    split
    · rw [List.flatMap_cons, reach]
    · rfl

/-- **Whether every array that a path crosses** holds nothing but documents. -/
def holdsDocuments : List String → Json → Bool
  | [], _ => true
  | segment :: rest, value =>
    (value.items?.getD []).all isObject && (value.children segment).all (holdsDocuments rest)

/-- **No mixing below.** Where a path goes on below another one, every array that it crosses
there holds nothing but documents. -/
def Unmixed (above path : List String) (document : Json) : Prop :=
  ∀ rest, path = above ++ rest → ∀ value ∈ document.reach above, value.holdsDocuments rest = true

instance (above path : List String) (document : Json) : Decidable (Unmixed above path document) :=
  decidable_of_iff (above <+: path → ∀ value ∈ document.reach above,
      value.holdsDocuments (path.drop above.length) = true)
    ⟨fun h rest hrest value hvalue => by
        have hholds := h ⟨rest, hrest.symm⟩ value hvalue
        rwa [hrest, List.drop_left] at hholds,
      fun h ⟨rest, hrest⟩ value hvalue => by
        rw [← hrest, List.drop_left]
        exact h rest hrest.symm value hvalue⟩

theorem holdsDocuments_of_lookup {child : Json}
    (h : holdsDocuments (key :: rest) (obj source) = true)
    (hread : source.lookup key = some child) : child.holdsDocuments rest = true := by
  simpa [holdsDocuments, children, items?, hread] using h

theorem isObject_of_holdsDocuments (h : holdsDocuments (key :: rest) (arr items) = true) :
    ∀ item ∈ items, item.isObject = true := by
  rw [holdsDocuments, Bool.and_eq_true, items?, Option.getD_some, List.all_eq_true] at h
  exact h.1

theorem holdsDocuments_of_mem {item : Json} (h : holdsDocuments path (arr items) = true)
    (hitem : item ∈ items) : item.holdsDocuments path = true := by
  cases path with
  | nil => rfl
  | cons key rest =>
    have hobject := isObject_of_holdsDocuments h item hitem
    rw [holdsDocuments, Bool.and_eq_true, List.all_eq_true, List.all_eq_true] at h
    cases item with
    | obj members =>
      simp only [holdsDocuments, items?, Option.getD_none, List.all_nil, Bool.true_and,
        List.all_eq_true]
      intro child hchild
      exact h.2 child (List.mem_filterMap.mpr ⟨_, hitem, Option.mem_toList.mp hchild⟩)
    | _ => simp [isObject] at hobject

/-- **Copying a value over itself** changes nothing, if no array on the way loses items. -/
theorem copyOver_self (h : value.holdsDocuments path = true) :
    copyOver path value (some value) = some value := by
  induction value using ind generalizing path with
  | obj members ih =>
    cases path with
    | nil => rfl
    | cons segment rest =>
      rw [copyOver_obj (List.cons_ne_nil _ _), Option.getD_some]
      cases hread : members.lookup segment with
      | none => rw [copyAt, hread]
      | some child =>
        have hchild := ih _ (Members.mem_of_lookup hread) (holdsDocuments_of_lookup h hread)
        rw [copyAt_cons hread, hread, hchild, Option.elim_some, Members.put_of_lookup hread]
  | arr items ih =>
    cases path with
    | nil => rfl
    | cons segment rest =>
      have hobjects := isObject_of_holdsDocuments h
      have hall : items.filter isObject = items := List.filter_eq_self.mpr hobjects
      have hsame : List.zipWith (copyAt (segment :: rest)) items items = items := by
        rw [List.zipWith_self]
        refine (List.map_congr_left fun item hitem => ?_).trans (List.map_id items)
        have hover := ih item hitem (holdsDocuments_of_mem h hitem)
        rw [copyOver_of_isObject (List.cons_ne_nil _ _) (hobjects item hitem)] at hover
        exact Option.some.inj hover
      simp only [copyOver, reduceCtorEq, ↓reduceIte, Option.getD_some, hall, hsame]
  | _ => cases path <;> rfl

theorem holdsDocuments_of_unmixed (h : Unmixed [] path value) :
    value.holdsDocuments path = true := h path rfl value (List.mem_singleton.mpr rfl)

theorem Unmixed.child {above : List String} {child : Json}
    (h : Unmixed (key :: above) (key :: rest) (obj source))
    (hread : source.lookup key = some child) : Unmixed above rest child := by
  intro behind hrest value hvalue
  refine h behind (by rw [hrest, List.cons_append]) value ?_
  rw [reach, children, hread, Option.toList_some, List.flatMap_singleton]
  exact hvalue

theorem Unmixed.item {above : List String} {item : Json} (h : Unmixed above path (arr items))
    (habove : above ≠ []) (hitem : item ∈ items.filter isObject) : Unmixed above path item := by
  intro behind hpath value hvalue
  refine h behind hpath value ?_
  cases above with
  | nil => exact absurd rfl habove
  | cons key rest =>
    rw [reach_arr]
    exact List.mem_flatMap.mpr ⟨item, hitem, hvalue⟩

/-! ## Several paths -/

/-- What paths ask for below a key: the rests of those that start with it. -/
def pathsBelow (key : String) (paths : List (List String)) : List (List String) :=
  paths.filterMap fun
    | [] => none
    | segment :: rest => if segment = key then some rest else none

theorem mem_pathsBelow : rest ∈ pathsBelow key paths ↔ key :: rest ∈ paths := by
  rw [pathsBelow, List.mem_filterMap]
  constructor
  · rintro ⟨path, hpath, h⟩
    cases path with
    | nil => exact absurd h (by simp)
    | cons segment others =>
      obtain ⟨rfl, rfl⟩ : segment = key ∧ others = rest := by simpa using h
      exact hpath
  · exact fun h => ⟨_, h, by simp⟩

/-- **Copying along several paths** into a row, in order. -/
def copyInto (paths : List (List String)) (source row : Json) : Json :=
  paths.foldl (fun row path => copyAt path source row) row

/-- **Copying along several paths** into a slot, in order. -/
def copyEach (paths : List (List String)) (source : Json) (slot : Option Json) : Option Json :=
  paths.foldl (fun slot path => copyOver path source slot) slot

/-- Paths that leave a slot as it is leave it so all together. -/
theorem copyEach_blocked (h : ∀ path ∈ paths, copyOver path value slot = slot) :
    copyEach paths value slot = slot := by
  induction paths with
  | nil => rfl
  | cons path paths ih =>
    obtain ⟨hpath, hpaths⟩ := List.forall_mem_cons.mp h
    rw [copyEach, List.foldl_cons, hpath]
    exact ih hpaths

/-- Paths that make the same of two slots do so all together, if there is any. -/
theorem copyEach_congr (hpaths : paths ≠ [])
    (h : ∀ path ∈ paths, copyOver path value slot = copyOver path value other) :
    copyEach paths value slot = copyEach paths value other := by
  obtain ⟨path, rest, rfl⟩ := List.exists_cons_of_ne_nil hpaths
  rw [copyEach, copyEach, List.foldl_cons, List.foldl_cons, h path List.mem_cons_self]

theorem copyInto_blocked (h : ∀ path, copyAt path value row = row) (paths : List (List String)) :
    copyInto paths value row = row := List.foldl_fixed' h paths

/-- **The whole value** is copied where one of the paths ends, and stays. -/
theorem copyEach_whole (hends : [] ∈ paths)
    (h : ∀ path ∈ paths, value.holdsDocuments path = true) :
    copyEach paths value slot = some value := by
  induction paths generalizing slot with
  | nil => exact absurd hends List.not_mem_nil
  | cons path paths ih =>
    obtain ⟨hpath, hpaths⟩ := List.forall_mem_cons.mp h
    rw [copyEach, List.foldl_cons]
    rcases List.mem_cons.mp hends with rfl | hends
    · exact copyEach_blocked fun path hpath => copyOver_self (hpaths path hpath)
    · exact ih hends hpaths

/-- Copies of an object into a slot are copies into the object there. -/
theorem copyEach_of_isObject (hpaths : paths ≠ []) (hends : [] ∉ paths)
    (hvalue : value.isObject = true) (slot : Option Json) :
    copyEach paths value slot = some (copyInto paths value (slot.getD (obj []))) := by
  induction paths generalizing slot with
  | nil => exact absurd rfl hpaths
  | cons path paths ih =>
    obtain ⟨hpath, hends⟩ := List.ne_and_not_mem_of_not_mem_cons hends
    rw [copyEach, List.foldl_cons, copyOver_of_isObject hpath.symm hvalue]
    by_cases hrest : paths = []
    · subst hrest
      rfl
    · exact ih hrest hends _

/-- **Copies of an array** are copies of each of its documents. -/
theorem copyEach_pairs {pairs : List (Json × Json)} (hends : [] ∉ paths)
    (h : items.filter isObject = pairs.map Prod.fst) :
    copyEach paths (arr items) (some (arr (pairs.map Prod.snd))) =
      some (arr (pairs.map fun pair => copyInto paths pair.1 pair.2)) := by
  induction paths generalizing pairs with
  | nil => rfl
  | cons path paths ih =>
    obtain ⟨hpath, hends⟩ := List.ne_and_not_mem_of_not_mem_cons hends
    have hpairs : items.filter isObject =
        (pairs.map fun pair => (pair.1, copyAt path pair.1 pair.2)).map Prod.fst := by
      rw [h, List.map_map]
      rfl
    have hcopied := ih hends hpairs
    rw [List.map_map, List.map_map] at hcopied
    rw [copyEach, List.foldl_cons, copyOver_pairs hpath.symm h]
    exact hcopied

/-- A copy changes the member of its first segment only. -/
theorem exists_copyAt_cons {child : Json} (hread : source.lookup segment = some child)
    (rest : List String) (target : Members Json) :
    ∃ copied, copyAt (segment :: rest) (obj source) (obj target) = obj copied ∧
      copied.lookup segment = copyOver rest child (target.lookup segment) ∧
      ∀ key, key ≠ segment → copied.lookup key = target.lookup key := by
  rw [copyAt_cons hread]
  cases hover : copyOver rest child (target.lookup segment) with
  | none => exact ⟨target, rfl, eq_none_of_copyOver hover, fun _ _ => rfl⟩
  | some new =>
    exact ⟨_, rfl, Members.lookup_put_self .., fun key hne => Members.lookup_put_of_ne _ _ hne⟩

/-- **A copy of an object**, key by key. -/
theorem exists_copyAt (path : List String) (source target : Members Json) :
    ∃ copied, copyAt path (obj source) (obj target) = obj copied ∧
      ∀ key, copied.lookup key =
        (source.lookup key).elim (target.lookup key)
          fun child => copyEach (pathsBelow key [path]) child (target.lookup key) := by
  cases path with
  | nil => exact ⟨target, rfl, fun key => by cases source.lookup key <;> rfl⟩
  | cons segment rest =>
    have hother {key : String} (hkey : key ≠ segment) : pathsBelow key [segment :: rest] = [] := by
      simp [pathsBelow, hkey.symm]
    cases hread : source.lookup segment with
    | none =>
      refine ⟨target, by rw [copyAt, hread], fun key => ?_⟩
      by_cases hkey : key = segment
      · subst hkey
        rw [hread]
        rfl
      · rw [hother hkey]
        cases source.lookup key <;> rfl
    | some child =>
      obtain ⟨copied, hcopied, hself, hrest⟩ := exists_copyAt_cons hread rest target
      refine ⟨copied, hcopied, fun key => ?_⟩
      by_cases hkey : key = segment
      · subst hkey
        have hbelow : pathsBelow key [key :: rest] = [rest] := by simp [pathsBelow]
        rw [hself, hread, hbelow]
        rfl
      · rw [hrest key hkey, hother hkey]
        cases source.lookup key <;> rfl

/-- **Copies of an object**, key by key. -/
theorem exists_copyInto (paths : List (List String)) (source target : Members Json) :
    ∃ copied, copyInto paths (obj source) (obj target) = obj copied ∧
      ∀ key, copied.lookup key =
        (source.lookup key).elim (target.lookup key)
          fun child => copyEach (pathsBelow key paths) child (target.lookup key) := by
  induction paths generalizing target with
  | nil => exact ⟨target, rfl, fun key => by cases source.lookup key <;> rfl⟩
  | cons path paths ih =>
    obtain ⟨first, hfirst, hlookup⟩ := exists_copyAt path source target
    obtain ⟨copied, hcopied, hrest⟩ := ih first
    have hinto : copyInto (path :: paths) (obj source) (obj target) = obj copied := by
      rw [copyInto, List.foldl_cons, hfirst]
      exact hcopied
    refine ⟨copied, hinto, fun key => ?_⟩
    rw [hrest, hlookup]
    cases source.lookup key with
    | none => rfl
    | some child =>
      have hbelow : pathsBelow key (path :: paths) =
          pathsBelow key [path] ++ pathsBelow key paths :=
        List.filterMap_append (l := [path])
      simp only [Option.elim_some, hbelow, copyEach, List.foldl_append]

theorem isObject_copyInto (paths : List (List String)) (h : value.isObject = true) :
    (copyInto paths value (obj [])).isObject = true := by
  cases value with
  | obj source =>
    obtain ⟨copied, hcopied, -⟩ := exists_copyInto paths source []
    rw [hcopied]
    rfl
  | _ => simp [isObject] at h

/-- **Copies of an array**, document by document. -/
theorem exists_copyEach {copies : List Json} (hslot : slot.getD (arr []) = arr copies)
    (items : List Json) :
    ∃ pairs : List (Json × Json), items.filter isObject = pairs.map Prod.fst ∧
      (∀ pair ∈ pairs, pair.2 = obj [] ∨ pair.2 ∈ copies) ∧
      ∀ paths, paths ≠ [] → [] ∉ paths → copyEach paths (arr items) slot =
        some (arr (pairs.map fun pair => copyInto paths pair.1 pair.2)) := by
  obtain ⟨pairs, hpairs, hcopies, hcopied⟩ := exists_pairs hslot items
  refine ⟨pairs, hpairs, hcopies, fun paths hpaths hends => ?_⟩
  rw [← copyEach_pairs hends hpairs]
  refine copyEach_congr hpaths fun path hpath => ?_
  have hne : path ≠ [] := ne_of_mem_of_not_mem hpath hends
  rw [hcopied path hne, copyOver_pairs hne hpairs]

/-! ## What a copy reads -/

theorem reach_copyEach_whole (hends : [] ∈ paths)
    (hunmixed : ∀ above ∈ paths, ∀ path ∈ paths, Unmixed above path value) (read : List String) :
    (copyEach paths value slot).toList.flatMap (reach read) = value.reach read := by
  have hall : ∀ path ∈ paths, value.holdsDocuments path = true := fun path hpath =>
    holdsDocuments_of_unmixed (hunmixed [] hends path hpath)
  rw [copyEach_whole hends hall, Option.toList_some, List.flatMap_singleton]

/-- What a path reads in a copy of an object is what its rest reads in the member. -/
theorem reach_copyEach_obj (hpaths : paths ≠ []) (hends : [] ∉ paths) (key : String)
    (rest : List String) :
    (copyEach paths (obj source) none).toList.flatMap (reach (key :: rest)) =
      (source.lookup key).toList.flatMap fun child =>
        (copyEach (pathsBelow key paths) child none).toList.flatMap (reach rest) := by
  obtain ⟨copied, hcopied, hlookup⟩ := exists_copyInto paths source []
  rw [copyEach_of_isObject hpaths hends rfl, Option.getD_none, hcopied, Option.toList_some,
    List.flatMap_singleton, reach, children, hlookup]
  cases source.lookup key <;> simp

/-- What a path reads in a copy of an array is what it reads in the copies of its documents. -/
theorem reach_copyEach_arr (hpaths : paths ≠ []) (hends : [] ∉ paths) (key : String)
    (rest : List String) :
    (copyEach paths (arr items) none).toList.flatMap (reach (key :: rest)) =
      (items.filter isObject).flatMap fun item =>
        (copyEach paths item none).toList.flatMap (reach (key :: rest)) := by
  obtain ⟨pairs, hpairs, hempty, hcopied⟩ := exists_copyEach Option.getD_none items
  -- nothing is in the slot, so that each document is copied into an empty one
  have hcopy (pair : Json × Json) (hpair : pair ∈ pairs) :
      copyEach paths pair.1 none = some (copyInto paths pair.1 pair.2) ∧
        (copyInto paths pair.1 pair.2).isObject = true := by
    have hitem : pair.1 ∈ items.filter isObject := hpairs ▸ List.mem_map_of_mem hpair
    have hobject := (List.mem_filter.mp hitem).2
    rw [copyEach_of_isObject hpaths hends hobject, Option.getD_none,
      (hempty pair hpair).resolve_right List.not_mem_nil]
    exact ⟨rfl, isObject_copyInto paths hobject⟩
  have hobjects : (pairs.map fun pair => copyInto paths pair.1 pair.2).filter isObject =
      pairs.map fun pair => copyInto paths pair.1 pair.2 := by
    refine List.filter_eq_self.mpr fun copy hmem => ?_
    obtain ⟨pair, hpair, rfl⟩ := List.mem_map.mp hmem
    exact (hcopy pair hpair).2
  rw [hcopied paths hpaths hends, Option.toList_some, List.flatMap_singleton, reach_arr, hobjects,
    hpairs, List.flatMap_map, List.flatMap_map]
  refine List.flatMap_congr fun pair hpair => ?_
  rw [(hcopy pair hpair).1, Option.toList_some, List.flatMap_singleton]

/-- **A path reads in the copy what it reads in the source**, if it is one of those copied or
lies below one. -/
theorem reach_copyEach {asked : List String}
    (hunmixed : ∀ above ∈ paths, ∀ path ∈ paths, Unmixed above path value) (hasked : asked ∈ paths)
    (behind : List String) :
    (copyEach paths value none).toList.flatMap (reach (asked ++ behind)) =
      value.reach (asked ++ behind) := by
  induction value using ind generalizing paths asked with
  | obj source ih =>
    by_cases hends : [] ∈ paths
    · exact reach_copyEach_whole hends hunmixed _
    obtain ⟨key, rest, rfl⟩ := List.exists_cons_of_ne_nil (ne_of_mem_of_not_mem hasked hends)
    rw [List.cons_append, reach_copyEach_obj (List.ne_nil_of_mem hasked) hends, reach, children]
    refine List.flatMap_congr fun child hchild => ?_
    have hread := Option.mem_toList.mp hchild
    refine ih _ (Members.mem_of_lookup hread) (fun above habove path hpath => ?_)
      (mem_pathsBelow.mpr hasked)
    exact (hunmixed _ (mem_pathsBelow.mp habove) _ (mem_pathsBelow.mp hpath)).child hread
  | arr items ih =>
    by_cases hends : [] ∈ paths
    · exact reach_copyEach_whole hends hunmixed _
    obtain ⟨key, rest, rfl⟩ := List.exists_cons_of_ne_nil (ne_of_mem_of_not_mem hasked hends)
    rw [List.cons_append, reach_copyEach_arr (List.ne_nil_of_mem hasked) hends, reach_arr]
    refine List.flatMap_congr fun item hitem => ?_
    refine ih item (List.mem_filter.mp hitem).1 (fun above habove path hpath => ?_) hasked
    exact (hunmixed above habove path hpath).item (ne_of_mem_of_not_mem habove hends) hitem
  | _ =>
    by_cases hends : [] ∈ paths
    · exact reach_copyEach_whole hends hunmixed _
    obtain ⟨key, rest, rfl⟩ := List.exists_cons_of_ne_nil (ne_of_mem_of_not_mem hasked hends)
    rw [copyEach_blocked fun path hpath =>
      copyOver_plain (ne_of_mem_of_not_mem hpath hends) rfl rfl]
    rfl

theorem eq_nil_or_apart (hapart : ∀ asked ∈ paths, ¬ asked <+: path ∧ ¬ path <+: asked) :
    paths = [] ∨ paths ≠ [] ∧ [] ∉ paths ∧ ∃ key rest, path = key :: rest := by
  by_cases hpaths : paths = []
  · exact .inl hpaths
  · refine .inr ⟨hpaths, fun hnil => (hapart [] hnil).1 path.nil_prefix, ?_⟩
    obtain ⟨asked, hasked⟩ := List.exists_mem_of_ne_nil paths hpaths
    exact List.exists_cons_of_ne_nil fun hnil => (hapart asked hasked).2 (hnil ▸ asked.nil_prefix)

/-- **A path apart from all that are copied** reads nothing in the copy. -/
theorem reach_copyEach_eq_nil
    (hapart : ∀ asked ∈ paths, ¬ asked <+: path ∧ ¬ path <+: asked) :
    (copyEach paths value none).toList.flatMap (reach path) = [] := by
  induction value using ind generalizing paths path with
  | obj source ih =>
    obtain rfl | ⟨hpaths, hends, key, rest, rfl⟩ := eq_nil_or_apart hapart
    · rfl
    rw [reach_copyEach_obj hpaths hends, List.flatMap_eq_nil_iff]
    intro child hchild
    refine ih _ (Members.mem_of_lookup (Option.mem_toList.mp hchild)) fun asked hasked => ?_
    have hkey := hapart _ (mem_pathsBelow.mp hasked)
    exact ⟨fun h => hkey.1 (List.cons_prefix_cons.mpr ⟨rfl, h⟩),
      fun h => hkey.2 (List.cons_prefix_cons.mpr ⟨rfl, h⟩)⟩
  | arr items ih =>
    obtain rfl | ⟨hpaths, hends, key, rest, rfl⟩ := eq_nil_or_apart hapart
    · rfl
    rw [reach_copyEach_arr hpaths hends, List.flatMap_eq_nil_iff]
    exact fun item hitem => ih item (List.mem_filter.mp hitem).1 hapart
  | _ =>
    obtain rfl | ⟨-, hends, -⟩ := eq_nil_or_apart hapart
    · rfl
    rw [copyEach_blocked fun path hpath =>
      copyOver_plain (ne_of_mem_of_not_mem hpath hends) rfl rfl]
    rfl

end Json

end ScopedDocs
