import ScopedDocs.Proofs.Projections
/-!
# Interchange — copies in any order

Copying along several paths into a slot gives the same value in whatever order they come
(`Json.alike_copyEach`), if none of them goes on below another one through an array with
anything but documents in it. What is in the slot at first may be anything. The proof goes
along the value, and down it the paths are permuted as they are above. So a row does not
depend on the order in which fields are picked (`Search.picked_in_any_order`).
-/


namespace ScopedDocs

namespace Json

variable {path : List String} {paths others : List (List String)} {value row : Json}
  {slot : Option Json} {source : Members Json} {items : List Json}

/-! ## Well-formed copies -/

theorem isWellFormed_getD {start : Json} (h : ∀ v ∈ slot, v.isWellFormed = true)
    (hstart : start.isWellFormed = true) : (slot.getD start).isWellFormed = true := by
  cases slot with
  | none => exact hstart
  | some v => exact h v rfl

/-- The copies of the documents of an array in a slot, all of them well formed. -/
theorem exists_wellFormed_copyEach {copies : List Json} (hitems : (arr items).isWellFormed = true)
    (hslot : ∀ v ∈ slot, v.isWellFormed = true) (hcopies : slot.getD (arr []) = arr copies) :
    ∃ pairs : List (Json × Json), items.filter isObject = pairs.map Prod.fst ∧
      (∀ pair ∈ pairs, pair.1 ∈ items.filter isObject ∧ pair.1.isWellFormed = true ∧
        pair.2.isWellFormed = true) ∧
      ∀ paths, paths ≠ [] → [] ∉ paths → copyEach paths (arr items) slot =
        some (arr (pairs.map fun pair => copyInto paths pair.1 pair.2)) := by
  obtain ⟨pairs, hpairs, hslots, hcopied⟩ := exists_copyEach hcopies items
  refine ⟨pairs, hpairs, fun pair hpair => ?_, hcopied⟩
  have hitem : pair.1 ∈ items.filter isObject := hpairs ▸ List.mem_map_of_mem hpair
  refine ⟨hitem, isWellFormed_arr.mp hitems _ (List.mem_filter.mp hitem).1, ?_⟩
  rcases hslots pair hpair with hempty | hmem
  · rw [hempty]
    rfl
  · have hstart : (slot.getD (arr [])).isWellFormed = true := isWellFormed_getD hslot rfl
    rw [hcopies] at hstart
    exact isWellFormed_arr.mp hstart _ hmem

/-- **What a slot holds after copying** is well formed, as the source is and what it held. -/
theorem isWellFormed_copyOver (hvalue : value.isWellFormed = true)
    (hslot : ∀ v ∈ slot, v.isWellFormed = true) :
    ∀ v ∈ copyOver path value slot, v.isWellFormed = true := by
  by_cases hpath : path = []
  · subst hpath
    rintro v ⟨⟩
    exact hvalue
  induction value using ind generalizing path slot with
  | obj source ih =>
    obtain ⟨segment, rest, rfl⟩ := List.exists_cons_of_ne_nil hpath
    have hstart : (slot.getD (obj [])).isWellFormed = true := isWellFormed_getD hslot rfl
    rw [copyOver_obj hpath]
    rintro v ⟨⟩
    cases hrow : slot.getD (obj []) with
    | obj target =>
      rw [hrow] at hstart
      cases hread : source.lookup segment with
      | none => rwa [copyAt, hread]
      | some child =>
        rw [copyAt_cons hread]
        cases hover : copyOver rest child (target.lookup segment) with
        | none => exact hstart
        | some new =>
          have hchild := isWellFormed_of_lookup hvalue hread
          refine isWellFormed_put hstart ?_
          by_cases hrest : rest = []
          · subst hrest
            rwa [← Option.some.inj hover]
          · exact ih _ (Members.mem_of_lookup hread) hchild
              (fun _ hv => isWellFormed_of_lookup hstart hv) hrest new hover
    | _ => rwa [copyAt_blocked rfl, ← hrow]
  | arr items ih =>
    cases hcopies : slot.getD (arr []) with
    | arr copies =>
      obtain ⟨pairs, -, hwell, hcopied⟩ := exists_wellFormed_copyEach hvalue hslot hcopies
      have hover : copyOver path (arr items) slot =
          some (arr (pairs.map fun pair => copyAt path pair.1 pair.2)) :=
        hcopied [path] (List.cons_ne_nil _ _) (by simpa using Ne.symm hpath)
      rw [hover]
      rintro v ⟨⟩
      refine isWellFormed_arr.mpr fun copy hcopy => ?_
      obtain ⟨pair, hpair, rfl⟩ := List.mem_map.mp hcopy
      obtain ⟨hitem, hdocument, hrow⟩ := hwell pair hpair
      obtain ⟨hitem, hobject⟩ := List.mem_filter.mp hitem
      have hpair : ∀ v ∈ some pair.2, v.isWellFormed = true := by simpa using hrow
      exact ih pair.1 hitem hdocument hpair hpath _ (copyOver_of_isObject hpath hobject _)
    | _ => rwa [copyOver_arr_blocked hpath (by rw [hcopies]; rfl)]
  | _ => rwa [copyOver_plain hpath rfl rfl]

/-- **A copy is well formed** as its source and what it is copied into are. -/
theorem isWellFormed_copyAt (path : List String) (hvalue : value.isWellFormed = true)
    (hrow : row.isWellFormed = true) : (copyAt path value row).isWellFormed = true := by
  cases path with
  | nil => exact hrow
  | cons segment rest =>
    cases value with
    | obj source =>
      have hslot : ∀ v ∈ some row, v.isWellFormed = true := by simpa using hrow
      exact isWellFormed_copyOver hvalue hslot _
        (copyOver_obj (List.cons_ne_nil segment rest) source _)
    | _ => exact hrow

theorem isWellFormed_copyInto (paths : List (List String)) (hvalue : value.isWellFormed = true)
    (hrow : row.isWellFormed = true) : (copyInto paths value row).isWellFormed = true :=
  List.foldlRecOn (motive := fun row : Json => row.isWellFormed = true) paths _ hrow
    fun _ hrow path _ => isWellFormed_copyAt path hvalue hrow

/-! ## Any order -/

/-- Two slots hold the same value, or both none. -/
def Alike : Option Json → Option Json → Prop := Option.Rel fun a b => a.same b = true

theorem alike_refl (h : ∀ v ∈ slot, v.isWellFormed = true) : Alike slot slot := by
  cases slot with
  | none => exact .none
  | some v => exact .some (same_refl (h v rfl))

theorem alike_some {a b : Json} : Alike (some a) (some b) ↔ a.same b = true :=
  ⟨fun | .some h => h, fun h => Option.Rel.some h⟩

/-- Copies of an object are the same in any order, if those of its members are. -/
theorem same_copyInto (hsource : (obj source).isWellFormed = true)
    (hrow : row.isWellFormed = true)
    (ih : ∀ key child slot, source.lookup key = some child →
      (∀ v ∈ slot, v.isWellFormed = true) →
      Alike (copyEach (pathsBelow key paths) child slot)
        (copyEach (pathsBelow key others) child slot)) :
    (copyInto paths (obj source) row).same (copyInto others (obj source) row) = true := by
  cases row with
  | obj target =>
    obtain ⟨copied, hcopied, hlookup⟩ := exists_copyInto paths source target
    obtain ⟨copied', hcopied', hlookup'⟩ := exists_copyInto others source target
    have hkeys := isWellFormed_copyInto paths hsource hrow
    have hkeys' := isWellFormed_copyInto others hsource hrow
    rw [hcopied, isWellFormed_obj] at hkeys
    rw [hcopied', isWellFormed_obj] at hkeys'
    rw [hcopied, hcopied']
    refine same_obj hkeys.1 hkeys'.1 fun key => ?_
    have hslot : ∀ v ∈ target.lookup key, v.isWellFormed = true :=
      fun v hv => isWellFormed_of_lookup hrow hv
    rw [hlookup, hlookup']
    cases hread : source.lookup key with
    | none => exact alike_refl hslot
    | some child => exact ih key child _ hread hslot
  | _ =>
    rw [copyInto_blocked fun path => copyAt_blocked rfl path _,
      copyInto_blocked fun path => copyAt_blocked rfl path _]
    exact same_refl hrow

/-- Copies are the same in any order if those are that go on in the value: where no path is
left, the slot stays as it is, and where one ends, the whole value is copied. -/
theorem alike_copyEach_of (hvalue : value.isWellFormed = true) (hperm : paths.Perm others)
    (hunmixed : ∀ above ∈ paths, ∀ path ∈ paths, Unmixed above path value)
    (hslot : ∀ v ∈ slot, v.isWellFormed = true)
    (h : paths ≠ [] → [] ∉ paths → others ≠ [] → [] ∉ others →
      Alike (copyEach paths value slot) (copyEach others value slot)) :
    Alike (copyEach paths value slot) (copyEach others value slot) := by
  by_cases hends : [] ∈ paths
  · have hall (path : List String) (hpath : path ∈ paths) : value.holdsDocuments path = true :=
      holdsDocuments_of_unmixed (hunmixed [] hends path hpath)
    rw [copyEach_whole hends hall, copyEach_whole (hperm.mem_iff.mp hends)
      fun path hpath => hall path (hperm.mem_iff.mpr hpath)]
    exact alike_some.mpr (same_refl hvalue)
  · by_cases hpaths : paths = []
    · subst hpaths
      rw [← hperm.nil_eq]
      exact alike_refl hslot
    · exact h hpaths hends (fun hnil => hpaths (hnil ▸ hperm).eq_nil)
        fun hmem => hends (hperm.mem_iff.mpr hmem)

/-- **Copies in any order** are the same, if no path goes on below another one through an
array with anything but documents in it. -/
theorem alike_copyEach (hvalue : value.isWellFormed = true) (hperm : paths.Perm others)
    (hunmixed : ∀ above ∈ paths, ∀ path ∈ paths, Unmixed above path value)
    (hslot : ∀ v ∈ slot, v.isWellFormed = true) :
    Alike (copyEach paths value slot) (copyEach others value slot) := by
  induction value using ind generalizing paths others slot with
  | obj source ih =>
    refine alike_copyEach_of hvalue hperm hunmixed hslot fun hpaths hends hothers hends' => ?_
    rw [copyEach_of_isObject hpaths hends rfl, copyEach_of_isObject hothers hends' rfl, alike_some]
    refine same_copyInto hvalue (isWellFormed_getD hslot rfl) fun key child slot hread hslot => ?_
    refine ih _ (Members.mem_of_lookup hread) (isWellFormed_of_lookup hvalue hread)
      (hperm.filterMap _) (fun above habove path hpath => ?_) hslot
    exact (hunmixed _ (mem_pathsBelow.mp habove) _ (mem_pathsBelow.mp hpath)).child hread
  | arr items ih =>
    refine alike_copyEach_of hvalue hperm hunmixed hslot fun hpaths hends hothers hends' => ?_
    cases hcopies : slot.getD (arr []) with
    | arr copies =>
      obtain ⟨pairs, -, hwell, hcopied⟩ := exists_wellFormed_copyEach hvalue hslot hcopies
      rw [hcopied paths hpaths hends, hcopied others hothers hends', alike_some, same]
      refine sameItems_map fun pair hpair => ?_
      obtain ⟨hitem, hdocument, hrow⟩ := hwell pair hpair
      obtain ⟨hmem, hobject⟩ := List.mem_filter.mp hitem
      have hpair : ∀ v ∈ some pair.2, v.isWellFormed = true := by simpa using hrow
      have hcopies := ih pair.1 hmem hdocument hperm (fun above habove path hpath =>
        (hunmixed above habove path hpath).item (ne_of_mem_of_not_mem habove hends) hitem) hpair
      rwa [copyEach_of_isObject hpaths hends hobject, copyEach_of_isObject hothers hends' hobject,
        alike_some] at hcopies
    | _ =>
      have hblocked {path : List String} {paths : List (List String)} (hends : [] ∉ paths)
          (hpath : path ∈ paths) : copyOver path (arr items) slot = slot :=
        copyOver_arr_blocked (ne_of_mem_of_not_mem hpath hends) (by rw [hcopies]; rfl) items
      rw [copyEach_blocked fun _ => hblocked hends, copyEach_blocked fun _ => hblocked hends']
      exact alike_refl hslot
  | _ =>
    refine alike_copyEach_of hvalue hperm hunmixed hslot fun hpaths hends hothers hends' => ?_
    rw [copyEach_blocked fun path hpath =>
        copyOver_plain (ne_of_mem_of_not_mem hpath hends) rfl rfl,
      copyEach_blocked fun path hpath =>
        copyOver_plain (ne_of_mem_of_not_mem hpath hends') rfl rfl]
    exact alike_refl hslot

end Json

/-! ## Rows -/

namespace Projection

variable {paths others : List String} {row document : Json} {fields fields' : Members Json}

/-- **Copies into a row in any order** are the same. -/
theorem same_copyAll (hdocument : document.isWellFormed = true) (hrow : row.isWellFormed = true)
    (hperm : paths.Perm others)
    (hunmixed : ∀ above ∈ paths, ∀ path ∈ paths,
      Json.Unmixed (Dotted.segments above) (Dotted.segments path) document) :
    (copyAll document row paths).same (copyAll document row others) = true := by
  rw [copyAll_eq_copyInto, copyAll_eq_copyInto]
  cases document with
  | obj source =>
    refine Json.same_copyInto hdocument hrow fun key child slot hread hslot => ?_
    refine Json.alike_copyEach (Json.isWellFormed_of_lookup hdocument hread)
      ((hperm.map _).filterMap _) (fun above habove path hpath => ?_) hslot
    obtain ⟨above, habove, hkey⟩ := List.mem_map.mp (Json.mem_pathsBelow.mp habove)
    obtain ⟨path, hpath, hkey'⟩ := List.mem_map.mp (Json.mem_pathsBelow.mp hpath)
    have hchild := hunmixed above habove path hpath
    rw [hkey, hkey'] at hchild
    exact hchild.child hread
  | _ =>
    rw [Json.copyInto_blocked fun path => Json.copyAt_of_not_isObject rfl path row,
      Json.copyInto_blocked fun path => Json.copyAt_of_not_isObject rfl path row]
    exact Json.same_refl hrow

theorem copyAll_cons (document row : Json) (path : String) (paths : List String) :
    copyAll document row (path :: paths) =
      copyAll document (Json.copyAt (Dotted.segments path) document row) paths := rfl

theorem isWellFormed_shape {fields : Option (Members Json)}
    (hdocument : document.isWellFormed = true) : (shape fields document).isWellFormed = true := by
  cases fields with
  | none => exact hdocument
  | some fields =>
    rw [shape, Projection.row]
    split
    · exact Json.isWellFormed_removeAll _ hdocument
    · rw [copyAll_eq_copyInto]
      exact Json.isWellFormed_copyInto _ hdocument rfl

theorem nodup_picked (h : (Members.keys fields).Nodup) : (picked fields).Nodup :=
  h.sublist (List.filter_sublist.map Prod.fst)

end Projection

namespace ResultOptions

variable {paths others : List Resolved} {fields fields' : Members Json} {document : Json}

theorem nodup_keys_flagged {flag : Int} (h : flagged flag paths = .obj fields) :
    (Members.keys fields).Nodup := by
  obtain rfl := Json.obj.inj h
  exact Members.nodup_keys_ofList _

/-- Permuted searches for fields list the same paths. -/
theorem perm_keys_flagged (h : flagged 1 paths = .obj fields) (h' : flagged 1 others = .obj fields')
    (hperm : paths.Perm others) : (Members.keys fields).Perm (Members.keys fields') := by
  refine (List.perm_ext_iff_of_nodup (nodup_keys_flagged h) (nodup_keys_flagged h')).mpr
    fun path => ?_
  rw [mem_keys_flagged h, mem_keys_flagged h']
  exact (hperm.map _).mem_iff

/-- The row of a search for the primary key alone is the document without it. -/
theorem row_flagged_id (h : flagged 1 paths = .obj fields)
    (hid : ∀ r ∈ paths, r.path = Schema.idPath) (document : Json) :
    Projection.row fields document = document.removeAll (Members.keys fields) := by
  have hnone : Projection.picked fields = [] := by
    refine List.eq_nil_iff_forall_not_mem.mpr fun path hpath => ?_
    obtain ⟨hne, hpath⟩ := (mem_picked_flagged h).mp hpath
    obtain ⟨r, hr, rfl⟩ := List.mem_map.mp hpath
    exact hne (hid r hr)
  rw [Projection.row, hnone]
  rfl

/-- **Rows of permuted searches** for fields are the same. -/
theorem same_row_flagged (h : flagged 1 paths = .obj fields)
    (h' : flagged 1 others = .obj fields') (hperm : paths.Perm others)
    (hdocument : document.isWellFormed = true)
    (hunmixed : ∀ r ∈ paths, r.path ≠ Schema.idPath → ∀ q ∈ paths,
      Json.Unmixed (Dotted.segments r.path) (Dotted.segments q.path) document) :
    (Projection.row fields document).same (Projection.row fields' document) = true := by
  by_cases hother : ∃ r ∈ paths, r.path ≠ Schema.idPath
  · have hother' : ∃ r ∈ others, r.path ≠ Schema.idPath := by
      obtain ⟨r, hr, hne⟩ := hother
      exact ⟨r, hperm.mem_iff.mp hr, hne⟩
    have hpicked : (Projection.picked fields).Perm (Projection.picked fields') := by
      refine (List.perm_ext_iff_of_nodup (Projection.nodup_picked (nodup_keys_flagged h))
        (Projection.nodup_picked (nodup_keys_flagged h'))).mpr fun path => ?_
      rw [mem_picked_flagged h, mem_picked_flagged h', (hperm.map _).mem_iff]
    -- the primary key comes first in both rows
    rw [row_flagged_one h hother, row_flagged_one h' hother', Projection.copyAll_cons,
      Projection.copyAll_cons]
    refine Projection.same_copyAll hdocument (Json.isWellFormed_copyAt _ hdocument rfl) hpicked
      fun above habove path hpath => ?_
    obtain ⟨hid, habove⟩ := (mem_picked_flagged h).mp habove
    obtain ⟨r, hr, rfl⟩ := List.mem_map.mp habove
    obtain ⟨q, hq, rfl⟩ := List.mem_map.mp ((mem_picked_flagged h).mp hpath).2
    exact hunmixed r hr hid q hq
  · have hid : ∀ r ∈ paths, r.path = Schema.idPath := by simpa using hother
    have hkeys : Members.keys fields' = Members.keys fields := by
      have hall : ∀ path ∈ Members.keys fields, path = Schema.idPath := fun path hpath => by
        obtain ⟨r, hr, rfl⟩ := List.mem_map.mp ((mem_keys_flagged h).mp hpath)
        exact hid r hr
      have hperm := perm_keys_flagged h h' hperm
      rw [List.eq_replicate_of_mem hall] at hperm ⊢
      exact List.perm_replicate.mp hperm.symm
    rw [row_flagged_id h hid, row_flagged_id h' fun r hr => hid r (hperm.mem_iff.mpr hr), hkeys]
    exact Json.same_refl (Json.isWellFormed_removeAll _ hdocument)

end ResultOptions

/-! ## Searches -/

/-- Permuted lists of steps have permuted answers. -/
theorem perm_of_mapM {ε α β : Type} {f : α → Except ε β} {items others : List α}
    {answers answers' : List β} (hperm : items.Perm others) (h : items.mapM f = .ok answers)
    (h' : others.mapM f = .ok answers') : answers.Perm answers' := by
  have hmap {items : List α} {answers : List β} (h : items.mapM f = .ok answers) :
      answers.map some = items.map fun a => (f a).toOption :=
    map_of_mapM h fun a _ b hb => by rw [hb]; rfl
  rw [← List.map_perm_map_iff fun _ _ => Option.some.inj, hmap h, hmap h']
  exact hperm.map _

namespace Search

variable {c : Config} {s : Schema} {search : Search} {p p' : Pipeline}

/-- **Fields may be picked in any order.** The plans of two searches that pick the same fields
in another order differ in the projection only, and their rows of a document are the same. Of
a picked field that lies below another one than the primary key, the arrays on its way below
that one may hold documents only. -/
theorem picked_in_any_order {picked others : List String} (hperm : picked.Perm others)
    (hplan : (search.picking picked).plan c s = .ok p)
    (hplan' : (search.picking others).plan c s = .ok p') :
    ∃ condition fields fields' keys limit paths,
      p = .ofParts condition fields keys search.options.skip.toNat limit ∧
      p' = .ofParts condition fields' keys search.options.skip.toNat limit ∧
      picked.mapM s.resolveUnrestricted = .ok paths ∧
      ∀ document : Json, document.isWellFormed = true →
        (∀ r ∈ paths, r.path ≠ Schema.idPath → ∀ q ∈ paths,
          Json.Unmixed (Dotted.segments r.path) (Dotted.segments q.path) document) →
        (Projection.shape fields document).same (Projection.shape fields' document) = true := by
  obtain ⟨condition, fields, keys, limit, hcondition, hfields, hkeys, hlimit, rfl⟩ :=
    plan_eq_ok.mp hplan
  obtain ⟨condition', fields', keys', limit', hcondition', hfields', hkeys', hlimit', rfl⟩ :=
    plan_eq_ok.mp hplan'
  obtain rfl : condition = condition' := Except.ok.inj (hcondition.symm.trans hcondition')
  obtain rfl : limit = limit' := Except.ok.inj (hlimit.symm.trans hlimit')
  obtain rfl : keys = keys' := Repository.members_inj hkeys hkeys'
  by_cases hpicked : picked = []
  · subst hpicked
    obtain rfl := hperm.nil_eq
    obtain rfl : fields = fields' := Repository.members_inj hfields hfields'
    exact ⟨condition, fields, fields, keys, limit.toNat, [], rfl, rfl, rfl,
      fun document hdocument _ => Json.same_refl (Projection.isWellFormed_shape hdocument)⟩
  · have hothers : others ≠ [] := fun hnil => hpicked (hnil ▸ hperm).eq_nil
    obtain ⟨paths, members, hpaths, rfl, hmembers⟩ :=
      ResultOptions.projection_picked hfields hpicked
    obtain ⟨paths', members', hpaths', rfl, hmembers'⟩ :=
      ResultOptions.projection_picked hfields' hothers
    exact ⟨condition, some members, some members', keys, limit.toNat, paths, rfl, rfl, hpaths,
      fun document hdocument hunmixed => ResultOptions.same_row_flagged hmembers hmembers'
        (perm_of_mapM hperm hpaths hpaths') hdocument hunmixed⟩

/-- Marks, names of tags and who made the marks, which lies below the marks. -/
def markNames : List String := ["Marks", "TagName", "Marks.By"]

/-- The marks of a note come out the same whether they or who made them come first. -/
theorem picked_in_any_order_marks :
    ∃ (p p' : Pipeline) (fields fields' : Members Json),
      (Search.picking {} markNames).plan {} tagSchema = .ok p ∧ .project (.obj fields) ∈ p ∧
      (Search.picking {} markNames.reverse).plan {} tagSchema = .ok p' ∧
      .project (.obj fields') ∈ p' ∧
      (Projection.row fields tagDocument).same (Projection.row fields' tagDocument) = true ∧
      (Projection.row fields tagDocument).same
        (.obj [("_id", .ofInt 1),
          ("tags", .arr [.obj [("name", .str "x"), ("marks", .arr [.obj [("by", .ofInt 2)]])],
            .obj [("name", .str "y")]])]) = true := by
  obtain ⟨p, hplan⟩ : ∃ p, (Search.picking {} markNames).plan {} tagSchema = .ok p := ⟨_, rfl⟩
  obtain ⟨p', hplan'⟩ : ∃ p, (Search.picking {} markNames.reverse).plan {} tagSchema = .ok p :=
    ⟨_, rfl⟩
  obtain ⟨condition, fields, fields', keys, limit, paths, rfl, rfl, hpaths, hrows⟩ :=
    picked_in_any_order (List.reverse_perm _).symm hplan hplan'
  obtain rfl : fields = some [("tags.marks", .ofInt 1), ("tags.name", .ofInt 1),
    ("tags.marks.by", .ofInt 1)] := Repository.members_inj (parts_of_plan hplan).1 rfl
  obtain rfl : fields' = some [("tags.marks.by", .ofInt 1), ("tags.name", .ofInt 1),
    ("tags.marks", .ofInt 1)] := Repository.members_inj (parts_of_plan hplan').1 rfl
  obtain rfl : paths = [⟨"tags.marks", false⟩, ⟨"tags.name", false⟩, ⟨"tags.marks.by", false⟩] :=
    Except.ok.inj (hpaths.symm.trans rfl)
  have hsame := hrows tagDocument (by decide) (by decide +kernel)
  exact ⟨_, _, _, _, hplan, by simp [Pipeline.ofParts], hplan', by simp [Pipeline.ofParts], hsame,
    by decide +kernel⟩

/-- A note with the number of its marks before them. -/
def countedMarks : Json :=
  .obj [("tags", .obj [("marks", .arr [.ofInt 1, .obj [("by", .ofInt 2)]])])]

/-- **Picked in the other order, the number is gone.** Copying who made the marks over the
marks cuts the array down to its documents; copying the marks afterwards does not. -/
theorem picked_order_matters :
    ¬ ∀ (c : Config) (s : Schema) (search : Search) (picked others : List String)
      (p p' : Pipeline) (fields fields' : Members Json) (document : Json), s.IsBuilt →
      picked.Perm others → (search.picking picked).plan c s = .ok p →
      (search.picking others).plan c s = .ok p' → .project (.obj fields) ∈ p →
      .project (.obj fields') ∈ p' → document.isObject = true → document.isWellFormed = true →
      (Projection.row fields document).same (Projection.row fields' document) = true := by
  intro h
  have hsame := h {} tagSchema {} ["Marks", "Marks.By"] ["Marks.By", "Marks"] _ _
    [("tags.marks", .ofInt 1), ("tags.marks.by", .ofInt 1)]
    [("tags.marks.by", .ofInt 1), ("tags.marks", .ofInt 1)] countedMarks isBuilt_tagSchema
    (.swap _ _ _) rfl rfl (List.mem_cons_of_mem _ List.mem_cons_self)
    (List.mem_cons_of_mem _ List.mem_cons_self) rfl (by decide)
  exact absurd hsame (by decide +kernel)

end Search

end ScopedDocs
