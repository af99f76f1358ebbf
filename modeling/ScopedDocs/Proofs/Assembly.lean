import ScopedDocs.Proofs.Declarations
/-!
# Assembly — what a storage path is made of

A storage path starts with the path of a declaration, and every segment of that was
checked when the schema was built (`Schema.Draft.Makes.isStorage`). What follows it is the
rest of the name, segment by segment and unchecked: a field with any keys and the mapping
of a wildcard keep what they are given (`Schema.resolve_assembled`). The rest has no empty
segments, either, where it was walked down to (`Schema.walk_full`).
-/


namespace ScopedDocs

namespace Schema

open Dotted (IsKey IsStorage)

/-! ## What is checked -/

mutual

/-- **What an accepted field declares** is stored under keys, below a place that is. -/
theorem check_declared : ∀ {f : Field} {name path : List String}, f.check = .ok () →
    (∀ segment ∈ path, IsKey segment) → ∀ d ∈ f.declared name path, IsStorage d.path
  | .declare logical storage kind, name, path, h, hpath => by
    rw [Field.check] at h
    split at h
    · exact absurd h (by simp)
    · obtain ⟨⟨⟩, hstorage, hkind⟩ := bind_eq_ok.mp h
      have hkeys := (checkPath_isStorage hstorage).2
      rw [Field.declared]
      refine checkKind_declared hkind ⟨List.append_ne_nil_of_right_ne_nil _ hkeys.1, ?_⟩
      exact List.forall_mem_append.mpr ⟨hpath, hkeys.2⟩

theorem checkKind_declared : ∀ {kind : FieldKind} {name path : List String},
    Field.checkKind kind = .ok () → IsStorage path →
    ∀ d ∈ kind.declared name path, IsStorage d.path
  | .composite children, name, path, h, hpath => by
    rw [FieldKind.declared]
    exact List.forall_mem_cons.mpr ⟨hpath, checkAll_declared h hpath.2⟩
  | .collection children, name, path, h, hpath => by
    rw [FieldKind.declared]
    exact List.forall_mem_cons.mpr ⟨hpath, checkAll_declared h hpath.2⟩
  | .freeForm, name, path, h, hpath => by simpa [FieldKind.declared] using hpath
  | .scalar, name, path, h, hpath => by simpa [FieldKind.declared] using hpath
  | .scalarArray, name, path, h, hpath => by simpa [FieldKind.declared] using hpath

theorem checkAll_declared : ∀ {children : Members Field} {name path : List String},
    Field.checkAll children = .ok () → (∀ segment ∈ path, IsKey segment) →
    ∀ d ∈ declaredBelow name path children, IsStorage d.path
  | [], name, path, h, hpath => by simp [declaredBelow]
  | (key, f) :: rest, name, path, h, hpath => by
    rw [Field.checkAll] at h
    obtain ⟨⟨⟩, hf, hrest⟩ := bind_eq_ok.mp h
    rw [declaredBelow]
    exact List.forall_mem_append.mpr ⟨check_declared hf hpath, checkAll_declared hrest hpath⟩

end

theorem checkAll_of_forall {children : Members Field}
    (h : ∀ child ∈ children, child.2.check = .ok ()) : Field.checkAll children = .ok () := by
  induction children with
  | nil => rw [Field.checkAll]
  | cons child rest ih =>
    obtain ⟨hchild, hrest⟩ := List.forall_mem_cons.mp h
    rw [Field.checkAll, hchild, ok_bind, ih hrest]

/-- **All that was accepted** is stored under keys. -/
theorem Draft.Makes.isStorage {draft : Draft} {s : Schema} (h : draft.Makes s) :
    ∀ d ∈ s.declared, IsStorage d.path := by
  rw [declared, h.mapping, h.fields]
  refine List.forall_mem_append.mpr ⟨List.forall_mem_map.mpr fun m hm => ?_, ?_⟩
  · exact (checkPath_isStorage (h.paths m hm)).2
  · refine checkAll_declared (checkAll_of_forall fun child hchild => ?_) (by simp)
    exact h.checks child.2 (mem_index hchild).1

/-- The names of accepted fields are there. -/
theorem Draft.Makes.key_ne {draft : Draft} {s : Schema} (h : draft.Makes s) {key : String}
    {f : Field} (hf : s.fields.lookup key = some f) : key ≠ "" := by
  rw [h.fields] at hf
  obtain ⟨hmem, rfl⟩ := mem_index (Members.mem_of_lookup hf)
  exact (check_ok (h.checks f hmem)).1

/-! ## What is kept -/

/-- **A walk down from a field** follows no empty segment. -/
theorem descend?_full {f : Field} {below names : List String} {last : Option Field}
    (h : f.descend? below = some (names, last)) : ∀ segment ∈ below, segment ≠ "" := by
  induction below generalizing f names with
  | nil => exact fun _ hmem => absurd hmem List.not_mem_nil
  | cons segment rest ih =>
    rcases descend?_cases h with ⟨-, hfull, -⟩ | ⟨child, inner, hsegment, -, hdescend, -⟩
    · exact hfull
    · exact List.forall_mem_cons.mpr ⟨hsegment, ih hdescend⟩

variable {s : Schema} {name path : String} {r : Resolved}

/-- **A walk** follows no empty segment, if no field has an empty name. -/
theorem walk_full {last : Option Field} (hkey : ∀ key f, s.fields.lookup key = some f → key ≠ "")
    (h : s.walk name = .ok (path, last)) : ∀ segment ∈ Dotted.segments name, segment ≠ "" := by
  obtain ⟨first, rest, f, _, hsegments, hf, hdescend, -⟩ := walk_cases h
  rw [hsegments]
  exact List.forall_mem_cons.mpr ⟨hkey first f hf, descend?_full hdescend⟩

/-- **How a storage path is put together**: from the path of a declaration, and what is
kept of the name. -/
structure Assembled (s : Schema) (name path : String) (d : Declared) (kept : List String) :
    Prop where
  /-- The schema declares what the path starts with. -/
  declared : d ∈ s.declared
  /-- The path is what is declared, and behind it what is kept. -/
  segments : Dotted.segments path = d.path ++ kept
  /-- What is declared was checked. -/
  isStorage : IsStorage d.path
  /-- Only what leads below itself keeps anything, and that is the rest of the name. -/
  verbatim : kept ≠ [] →
    d.isOpen = true ∧ Dotted.segments (Dotted.stem name) = d.name ++ kept
  /-- What is kept has no empty segment, unless the mapping of a wildcard above keeps it. -/
  full : (∀ segment ∈ kept, segment ≠ "") ∨
    (Dotted.stem? name = none ∧ s.viaWildcard? name = some path)

/-- A path with its mapping keeps nothing. -/
theorem assembled_of_lookup {draft : Draft} (hmakes : draft.Makes s) {logical : String}
    (h : s.mapping.lookup logical = some path) : ∃ d kept, s.Assembled name path d kept := by
  have hd : Declared.ofMapping (logical, path) ∈ s.declared :=
    List.mem_append_left _ (List.mem_map.mpr ⟨_, Members.mem_of_lookup h, rfl⟩)
  refine ⟨_, [], hd, ?_, hmakes.isStorage _ hd, fun hne => absurd rfl hne, .inl (by simp)⟩
  rw [Declared.ofMapping, List.append_nil]

theorem Assembled.of_reaches {d : Declared} {draft : Draft} (hmakes : draft.Makes s)
    (hd : d ∈ s.declared)
    (h : d.Reaches (Dotted.segments (Dotted.stem name)) (Dotted.segments path))
    (hfull : (∀ segment ∈ Dotted.segments (Dotted.stem name), segment ≠ "") ∨
      (Dotted.stem? name = none ∧ s.viaWildcard? name = some path)) :
    ∃ kept, s.Assembled name path d kept := by
  obtain ⟨kept, hname, hpath, hclosed⟩ := h
  refine ⟨kept, hd, hpath, hmakes.isStorage d hd, fun hne => ⟨?_, hname⟩, ?_⟩
  · exact eq_true_of_ne_false fun h => hne (hclosed h)
  · rw [hname] at hfull
    exact hfull.imp_left fun hfull segment hmem => hfull segment (List.mem_append_right _ hmem)

/-- **What names resolve to.** The path is not empty. It starts with the checked path of a
declaration, and what follows is kept from the name, below a field with any keys or the
mapping of a wildcard. -/
theorem resolve_assembled (hbuilt : s.IsBuilt) (h : s.resolve name = .ok r) :
    r.path ≠ "" ∧ ∃ d kept, s.Assembled name r.path d kept := by
  obtain ⟨draft, hbuild⟩ := hbuilt
  have hmakes := Draft.build_ok hbuild
  have hassembled : ∃ d kept, s.Assembled name r.path d kept := by
    rcases resolve_cases h with hread | hread | ⟨hplain, hvia⟩ | ⟨last, hwalk⟩
    · exact assembled_of_lookup hmakes hread
    · exact assembled_of_lookup hmakes hread
    · obtain ⟨d, hd, hreaches⟩ := viaWildcard_declared hvia
      rw [← Dotted.stem_of_none hplain] at hreaches
      exact ⟨d, Assembled.of_reaches hmakes hd hreaches (.inr ⟨hplain, hvia⟩)⟩
    · obtain ⟨d, hd, hreaches⟩ := walk_declared hwalk
      have hfull := walk_full (fun _ _ => hmakes.key_ne) hwalk
      exact ⟨d, Assembled.of_reaches hmakes hd hreaches (.inl hfull)⟩
  obtain ⟨d, kept, ha⟩ := hassembled
  refine ⟨fun hempty => ?_, d, kept, ha⟩
  -- the first segment was declared, so it is not empty
  obtain ⟨first, rest, hpath⟩ := List.exists_cons_of_ne_nil ha.isStorage.1
  have hsegments := ha.segments
  rw [hempty, hpath, List.cons_append] at hsegments
  have hfirst : "" = first := (List.cons.inj hsegments).1
  exact (ha.isStorage.2 first (by simp [hpath])).1 hfirst.symm

/-- A schema of notes with statistics under any keys. -/
def statsSchema : Schema :=
  { entityType := "note", collection := "notes", access := [("ID", true)],
    mapping := [("ID", "_id")], fields := [("Stats", .freeForm "Stats" "stats")] }

theorem isBuilt_statsSchema : statsSchema.IsBuilt :=
  ⟨(Draft.start "note" "notes").field (.freeForm "Stats" "stats"), rfl⟩

/-- A statistic is stored under its own key. -/
theorem walk_stats {name key : String} (hsegments : Dotted.segments name = ["Stats", key])
    (hkey : key ≠ "") : statsSchema.walk name = .ok (Dotted.join ["stats", key], none) := by
  simp [walk, hsegments, statsSchema, Field.descend?, Field.freeForm, Field.kind, Field.storage,
    hkey]

theorem resolve_where :
    statsSchema.resolve "Stats.$where" = .ok ⟨"stats.$where", false⟩ := by
  have hresolve : statsSchema.resolve "Stats.$where" =
      (statsSchema.walk "Stats.$where" >>= fun found => .ok ⟨found.1, false⟩) := rfl
  rw [hresolve, walk_stats rfl (by decide)]
  rfl

/-- A statistic is kept below all statistics. -/
theorem resolve_assembled_where :
    statsSchema.IsBuilt ∧ statsSchema.resolve "Stats.$where" = .ok ⟨"stats.$where", false⟩ ∧
      "stats.$where" ≠ "" ∧
      ∃ d kept, statsSchema.Assembled "Stats.$where" "stats.$where" d kept :=
  ⟨isBuilt_statsSchema, resolve_where, resolve_assembled isBuilt_statsSchema resolve_where⟩

/-- **What is kept may start with a dollar sign**, unlike what is declared. -/
theorem resolve_keeps_dollar :
    ¬ ∀ (s : Schema) (name : String) (r : Resolved), s.IsBuilt → s.resolve name = .ok r →
      r.path ≠ "" ∧ ∀ segment ∈ Dotted.segments r.path, IsKey segment := by
  intro h
  have hkeys := (h statsSchema _ _ isBuilt_statsSchema resolve_where).2
  exact (hkeys "$where" (by decide)).2 (by decide)

end Schema

end ScopedDocs
