import ScopedDocs.Proofs.Denial
import ScopedDocs.Proofs.Plan
import ScopedDocs.Proofs.Whitelist
/-!
# Reserved storage — owners are out of reach

Whatever a built schema yields is a path that leads into records (`Schema.Yields.leads`):
where its names lead, what filters read and plans of searches refer to, what its indexes
cover, and where its idempotency key is stored. So it yields neither the path of owners
nor one below it (`Schema.Yields.untouched`), and what tells owners apart is put into
filters by the guard alone.
-/


namespace ScopedDocs

/-- The paths a stage refers to. -/
def Stage.paths : Stage → List String
  | filter condition => Filter.paths condition
  | project (.obj fields) => Members.keys fields
  | sort (.obj keys) => Members.keys keys
  | _ => []

namespace Schema

/-- **A path that a schema yields.** -/
inductive Yields (s : Schema) (path : String) : Prop where
  /-- A name leads there. -/
  | name {logical : String} {r : Resolved} (h : s.resolve logical = .ok r) (hpath : r.path = path)
  /-- A filter reads it, that of a count or a search. -/
  | filter {c : Config} {aggregations : List Aggregation} {condition : Json}
    (h : filterOf c s aggregations = .ok condition) (hpath : path ∈ Filter.paths condition)
  /-- A stage in the plan of a search refers to it. -/
  | stage {c : Config} {search : Search} {p : Pipeline} {stage : Stage}
    (hplan : search.plan c s = .ok p) (hstage : stage ∈ p) (hpath : path ∈ stage.paths)
  /-- An index covers it. -/
  | index {i : Index} (hi : i ∈ s.indexes) (hpath : path ∈ i.paths)
  /-- The idempotency key is stored there. -/
  | key (h : s.idempotencyPath = some path)

variable {s : Schema} {path : String}

/-- The path of owners is one segment, so nothing that leads into records touches it. -/
theorem Leads.not_touches (h : Leads path) : ¬ Dotted.Touches path Owner.path := by
  intro htouches
  have howner : Dotted.segments Owner.path = [Owner.path] := rfl
  have hhead : (Dotted.segments path).head? = some Owner.path := by
    obtain ⟨first, rest, hpath⟩ := List.exists_cons_of_ne_nil (Dotted.segments_ne_nil path)
    rw [Dotted.touches_iff, howner, hpath, List.cons_prefix_cons, List.cons_prefix_cons] at htouches
    rw [hpath, List.head?_cons]
    rcases htouches with ⟨heq, -⟩ | ⟨heq, -⟩
    · rw [heq]
    · rw [heq]
  rw [Dotted.segments_head?, Option.some.injEq] at hhead
  refine h.apart ?_
  rw [← hhead, String.toList_ofList]

/-- A filter reads paths that lead into records. -/
theorem Sound.filter {c : Config} {aggregations : List Aggregation} {condition : Json}
    (hsound : s.Sound) (h : filterOf c s aggregations = .ok condition)
    (hpath : path ∈ Filter.paths condition) : Leads path := by
  obtain ⟨name, -, r, hr, rfl⟩ := filterOf_reads h hpath
  exact hsound.resolveQueryable hr

/-- A stage of a plan refers to paths that lead into records. -/
theorem Sound.stage {c : Config} {search : Search} {p : Pipeline} {stage : Stage} (hsound : s.Sound)
    (hplan : search.plan c s = .ok p) (hstage : stage ∈ p) (hpath : path ∈ stage.paths) :
    Leads path := by
  simp only [Search.plan, bind_eq_ok, Except.ok.injEq] at hplan
  obtain ⟨condition, hfilter, projection, hprojection, sort, hsort, limit, -, rfl⟩ := hplan
  simp only [List.cons_append, List.mem_cons, List.mem_append, Option.mem_toList,
    Option.map_eq_some_iff, List.not_mem_nil, or_false] at hstage
  rcases hstage with rfl | (⟨fields, rfl, rfl⟩ | ⟨keys, rfl, rfl⟩) | rfl | rfl
  · exact hsound.filter hfilter hpath
  · obtain ⟨members, rfl, hleads⟩ := ResultOptions.projection_ok hsound hprojection
    exact hleads path hpath
  · obtain ⟨members, hmembers⟩ := sortOf_members hsort
    obtain ⟨members, rfl, rfl⟩ := Option.map_eq_some_iff.mp hmembers.symm
    obtain ⟨key, -, r, hr, rfl⟩ := Search.sorted_asked hsort hpath
    exact hsound.resolveUnrestricted hr
  · exact absurd hpath List.not_mem_nil
  · exact absurd hpath List.not_mem_nil

/-- The indexes of a draft cover what its names lead to. -/
theorem Draft.Makes.index {d : Draft} {i : Index} (h : d.Makes s) (hi : i ∈ s.indexes)
    (hpath : path ∈ i.paths) : ∃ name r, s.resolve name = .ok r ∧ r.path = path := by
  obtain ⟨draft, -, hbuild⟩ := ok_of_mem_mapM h.indexes hi
  unfold Draft.buildIndex at hbuild
  split at hbuild
  · exact absurd hbuild (by simp)
  · obtain ⟨keys, hkeys, hbuild⟩ := bind_eq_ok.mp hbuild
    obtain rfl := Except.ok.inj hbuild
    obtain ⟨key, hkey, rfl⟩ := List.mem_map.mp hpath
    obtain ⟨⟨name, direction⟩, -, hresolve⟩ := ok_of_mem_mapM hkeys hkey
    obtain ⟨r, hr, rfl⟩ := map_eq_ok.mp hresolve
    exact ⟨name, r, hr, rfl⟩

/-- **Everything a built schema yields leads into records.** -/
theorem Yields.leads (hbuilt : s.IsBuilt) (h : s.Yields path) : Leads path := by
  obtain ⟨hsound, hkey⟩ := hbuilt.sound
  cases h with
  | name h hpath => exact hpath ▸ hsound.resolve h
  | filter h hpath => exact hsound.filter h hpath
  | stage hplan hstage hpath => exact hsound.stage hplan hstage hpath
  | index hi hpath =>
    obtain ⟨d, hbuild⟩ := hbuilt
    obtain ⟨name, r, hr, rfl⟩ := (Draft.build_ok hbuild).index hi hpath
    exact hsound.resolve hr
  | key h => exact hkey path h

/-- **Owners are out of reach.** No path that a built schema yields is where owners are
stored, above it or below it. -/
theorem Yields.untouched (hbuilt : s.IsBuilt) (h : s.Yields path) :
    ¬ Dotted.Touches path Owner.path :=
  (h.leads hbuilt).not_touches

/-- A schema with free names, a key and an index. -/
def noteSchema : Schema :=
  { entityType := "note", collection := "notes",
    access := [("Extra.resource_owner.tenant_id", true), ("ID", true)],
    mapping := [("Extra.*", "extra"), ("ID", "_id"), ("Key", "key")], fields := [],
    indexes := [⟨"by_extra", [⟨"extra.resource_owner", .ascending⟩], true, true⟩,
      ⟨"idempotency_key_unique", [⟨"key", .ascending⟩], true, true⟩],
    idempotencyPath := some "key" }

theorem isBuilt_noteSchema : noteSchema.IsBuilt :=
  ⟨(((((Draft.start "note" "notes").map "Extra.*" "extra").map "Key" "key").queryable
    ["Extra.resource_owner.tenant_id"]).uniqueIndex "by_extra"
      ["Extra.resource_owner"]).idempotent "Key", rfl⟩

/-- Notes by what was kept of their owners, the key only. -/
def keptSearch : Search :=
  { aggregations := [.allOf [.ofValues [.eq "Extra.resource_owner.tenant_id" (.ofInt 1)]]],
    options := { picked := ["Key"] }, sort := [⟨"Extra.resource_owner", .ascending⟩] }

/-- What is called like an owner is not where owners are. -/
theorem untouched_kept :
    noteSchema.IsBuilt ∧
      noteSchema.resolve "Extra.resource_owner.tenant_id" =
        .ok ⟨"extra.resource_owner.tenant_id", false⟩ ∧
      ¬ Dotted.Touches "extra.resource_owner.tenant_id" Owner.path ∧
      (∃ p, keptSearch.plan {} noteSchema = .ok p ∧
        (∀ stage ∈ p, ∀ path ∈ stage.paths, ¬ Dotted.Touches path Owner.path)) ∧
      (∀ i ∈ noteSchema.indexes, ∀ path ∈ i.paths, ¬ Dotted.Touches path Owner.path) ∧
      ∀ path, noteSchema.idempotencyPath = some path → ¬ Dotted.Touches path Owner.path := by
  have hname : noteSchema.resolve "Extra.resource_owner.tenant_id" =
      .ok ⟨"extra.resource_owner.tenant_id", false⟩ := rfl
  obtain ⟨p, hplan⟩ : ∃ p, keptSearch.plan {} noteSchema = .ok p := ⟨_, rfl⟩
  refine ⟨isBuilt_noteSchema, hname, ?_, ⟨p, hplan, fun stage hstage path hpath => ?_⟩,
    fun i hi path hpath => ?_, fun path hkey => ?_⟩
  · exact Yields.untouched isBuilt_noteSchema (.name hname rfl)
  · exact Yields.untouched isBuilt_noteSchema (.stage hplan hstage hpath)
  · exact Yields.untouched isBuilt_noteSchema (.index hi hpath)
  · exact Yields.untouched isBuilt_noteSchema (.key hkey)

end Schema

end ScopedDocs
