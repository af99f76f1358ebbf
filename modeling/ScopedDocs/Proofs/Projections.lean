import Mathlib.Data.List.Pairwise
import ScopedDocs.Proofs.Copies
import ScopedDocs.Proofs.Shapes
/-!
# Projections — what rows show

A row that leaves out paths reads nothing at or below them, and what the document reads at
every path apart from them (`Projection.Hides`). A row that picks paths reads what the
document reads at or below them, and nothing apart from them (`Projection.ShowsOnly`): paths
of which none touches another one make such a row in whatever order they are copied
(`Projection.copies_shown`). The rows of a search that omits fields are of the first kind
(`Search.omitted_gone`). Those of a search that picks fields are of the second kind, if it
picks one other than the primary key (`Search.picked_shown`): the primary key alone is taken
for a list of paths to leave out.
-/


namespace ScopedDocs

namespace Projection

variable {paths others : List String} {row document : Json} {fields : Members Json}

/-- **A row without paths**: nothing is there at or below one of them, and all that the
document has at paths apart from them. -/
def Hides (paths : List String) (row document : Json) : Prop :=
  (∀ above ∈ paths, ∀ path, above = path ∨ Dotted.isBelow above path = true →
    row.reach (Dotted.segments path) = []) ∧
  ∀ path, (∀ above ∈ paths, ¬ Dotted.Touches above path) →
    row.reach (Dotted.segments path) = document.reach (Dotted.segments path)

/-- **A row of paths**: all that the document has at or below one of them, and nothing at
paths apart from them. -/
def ShowsOnly (paths : List String) (row document : Json) : Prop :=
  (∀ above ∈ paths, ∀ path, above = path ∨ Dotted.isBelow above path = true →
    row.reach (Dotted.segments path) = document.reach (Dotted.segments path)) ∧
  ∀ path, (∀ above ∈ paths, ¬ Dotted.Touches above path) → row.reach (Dotted.segments path) = []

theorem Hides.of_mem_iff (h : Hides paths row document)
    (hothers : ∀ path, path ∈ others ↔ path ∈ paths) : Hides others row document :=
  ⟨fun above habove => h.1 above ((hothers above).mp habove),
    fun path hpath => h.2 path fun above habove => hpath above ((hothers above).mpr habove)⟩

theorem ShowsOnly.of_mem_iff (h : ShowsOnly paths row document)
    (hothers : ∀ path, path ∈ others ↔ path ∈ paths) : ShowsOnly others row document :=
  ⟨fun above habove => h.1 above ((hothers above).mp habove),
    fun path hpath => h.2 path fun above habove => hpath above ((hothers above).mpr habove)⟩

/-- What is removed is hidden. -/
theorem hides_removeAll (paths : List String) (hdocument : document.isWellFormed = true) :
    Hides paths (document.removeAll paths) document :=
  ⟨fun _ habove _ hpath =>
      Json.reach_removeAll_eq_nil habove (Dotted.prefix_iff.mpr hpath) hdocument,
    fun _ hpath => Json.reach_removeAll hpath hdocument⟩

theorem copyAll_eq_copyInto (document row : Json) (paths : List String) :
    copyAll document row paths = Json.copyInto (paths.map Dotted.segments) document row := by
  rw [copyAll, Json.copyInto, List.foldl_map]

/-- A row of paths is what they bring over into an empty slot. -/
theorem copyEach_segments (hobject : document.isObject = true) (hpaths : paths ≠ []) :
    Json.copyEach (paths.map Dotted.segments) document none =
      some (copyAll document (.obj []) paths) := by
  have hends : [] ∉ paths.map Dotted.segments := by simp [Dotted.segments_ne_nil]
  rw [Json.copyEach_of_isObject (by simpa using hpaths) hends hobject, copyAll_eq_copyInto]
  rfl

/-- **What is copied is shown**, and nothing else. -/
theorem showsOnly_copyAll (hobject : document.isObject = true) (hpaths : paths ≠ [])
    (hunmixed : ∀ above ∈ paths, ∀ path ∈ paths,
      Json.Unmixed (Dotted.segments above) (Dotted.segments path) document) :
    ShowsOnly paths (copyAll document (.obj []) paths) document := by
  have hcopied := copyEach_segments hobject hpaths
  constructor
  · intro above habove path hpath
    obtain ⟨behind, hbehind⟩ := Dotted.prefix_iff.mpr hpath
    have hread := Json.reach_copyEach
      (List.forall_mem_map.mpr fun a ha => List.forall_mem_map.mpr (hunmixed a ha))
      (List.mem_map_of_mem habove) behind
    rwa [hbehind, hcopied, Option.toList_some, List.flatMap_singleton] at hread
  · intro path hpath
    have hread : (Json.copyEach (paths.map Dotted.segments) document none).toList.flatMap
        (Json.reach (Dotted.segments path)) = [] := by
      refine Json.reach_copyEach_eq_nil (List.forall_mem_map.mpr fun above habove => ?_)
      rw [← not_or, ← Dotted.touches_iff]
      exact hpath above habove
    rwa [hcopied, Option.toList_some, List.flatMap_singleton] at hread

/-- A path that does not lie below another one mixes nothing there. -/
theorem unmixed_of_not_isBelow {above path : String} (h : Dotted.isBelow above path = false) :
    Json.Unmixed (Dotted.segments above) (Dotted.segments path) document := by
  intro rest hrest value _
  rcases Dotted.prefix_iff.mp ⟨rest, hrest.symm⟩ with rfl | hbelow
  · have hnil : rest = [] := by simpa using hrest
    rw [hnil, Json.holdsDocuments]
  · exact absurd hbelow (by simp [h])

/-- The primary key lies below nothing. -/
theorem isBelow_idPath (path : String) : Dotted.isBelow path Schema.idPath = false := by
  refine Bool.eq_false_iff.mpr fun hbelow => ?_
  have hlength := Dotted.length_segments_of_isBelow hbelow
  have hid : (Dotted.segments Schema.idPath).length = 1 := by decide
  have hpath := List.length_pos_of_ne_nil (Dotted.segments_ne_nil path)
  omega

/-- Of paths apart from each other, none lies below one of them. -/
theorem not_isBelow_of_apart (hapart : paths.Pairwise fun a b => ¬ Dotted.Touches a b)
    {above path : String} (habove : above ∈ paths) (hpath : path ∈ paths) :
    Dotted.isBelow above path = false := by
  by_cases heq : above = path
  · exact heq ▸ Dotted.isBelow_self above
  · have hsymm : Std.Symm fun a b => ¬ Dotted.Touches a b :=
      ⟨fun _ _ h htouches => h htouches.symm⟩
    have hkept := hapart.forall habove hpath heq
    exact Bool.eq_false_iff.mpr fun hbelow => hkept (.inr (.inl hbelow))

/-- An empty row shows none of no paths. -/
theorem showsOnly_nil (document : Json) : ShowsOnly [] (.obj []) document := by
  refine ⟨fun _ habove => absurd habove List.not_mem_nil, fun path _ => ?_⟩
  obtain ⟨key, rest, hsegments⟩ := List.exists_cons_of_ne_nil (Dotted.segments_ne_nil path)
  rw [hsegments]
  rfl

/-- **Paths apart from each other are copied in any order.** The row reads at and below each of
them what the document reads there, also across arrays that hold other values beside documents,
and nothing at paths apart from them. -/
theorem copies_shown (hobject : document.isObject = true)
    (hapart : paths.Pairwise fun a b => ¬ Dotted.Touches a b) {order : List String}
    (horder : order.Perm paths) :
    ShowsOnly paths (copyAll document (.obj []) order) document := by
  refine ShowsOnly.of_mem_iff ?_ fun path => horder.mem_iff.symm
  by_cases hnone : order = []
  · rw [hnone]
    exact showsOnly_nil document
  · refine showsOnly_copyAll hobject hnone fun above habove path hpath => ?_
    exact unmixed_of_not_isBelow
      (not_isBelow_of_apart hapart (horder.mem_iff.mp habove) (horder.mem_iff.mp hpath))

/-- A shelf with two boxes and a number between them. In the first box, a text stands between
two things. -/
def shelf : Json :=
  .obj [("owner", .str "me"),
    ("boxes", .arr [
      .obj [("name", .str "a"), ("things", .arr [
        .obj [("id", .ofInt 1), ("weight", .ofInt 5)], .str "loose", .obj [("id", .ofInt 2)]])],
      .ofInt 7,
      .obj [("name", .str "b"), ("things", .arr [])]])]

/-- The things in the boxes are found again by all three paths, each beside its own weight. -/
theorem copies_shown_shelf :
    ShowsOnly ["boxes.name", "boxes.things.id", "boxes.things.weight"]
      (copyAll shelf (.obj []) ["boxes.things.weight", "boxes.name", "boxes.things.id"]) shelf ∧
    (copyAll shelf (.obj []) ["boxes.things.weight", "boxes.name", "boxes.things.id"]).same
      (.obj [("boxes", .arr [
        .obj [("name", .str "a"), ("things", .arr [
          .obj [("id", .ofInt 1), ("weight", .ofInt 5)], .obj [("id", .ofInt 2)]])],
        .obj [("name", .str "b"), ("things", .arr [])]])]) = true :=
  ⟨copies_shown rfl (by decide) (by decide), by decide +kernel⟩

end Projection

namespace ResultOptions

variable {paths : List Resolved} {fields : Members Json} {flag : Int} {path : String}

/-- **The projection of a search for fields** lists their paths. -/
theorem projection_picked {o : ResultOptions} {s : Schema} {projection : Option (Members Json)}
    (h : o.projection s = .ok (projection.map .obj)) (hpicked : o.picked ≠ []) :
    ∃ paths fields, o.picked.mapM s.resolveUnrestricted = .ok paths ∧ projection = some fields ∧
      flagged 1 paths = .obj fields := by
  rcases projection_cases h with ⟨hnone, -⟩ | ⟨-, -, paths, hpaths, hflagged⟩ | ⟨hnone, -⟩
  · exact absurd hnone hpicked
  · obtain ⟨fields, rfl, hfields⟩ := Option.map_eq_some_iff.mp hflagged
    exact ⟨paths, fields, hpaths, rfl, hfields.symm⟩
  · exact absurd hnone hpicked

/-- **The projection of a search that omits fields** lists their paths. -/
theorem projection_left_out {o : ResultOptions} {s : Schema} {projection : Option (Members Json)}
    (h : o.projection s = .ok (projection.map .obj)) (homitted : o.omitted ≠ []) :
    ∃ paths fields, o.omitted.mapM s.resolve = .ok paths ∧ projection = some fields ∧
      flagged 0 paths = .obj fields := by
  rcases projection_cases h with ⟨-, hnone, -⟩ | ⟨-, hnone, -⟩ | ⟨-, -, paths, hpaths, hflagged⟩
  · exact absurd hnone homitted
  · exact absurd hnone homitted
  · obtain ⟨fields, rfl, hfields⟩ := Option.map_eq_some_iff.mp hflagged
    exact ⟨paths, fields, hpaths, rfl, hfields.symm⟩

theorem mem_keys_flagged (h : flagged flag paths = .obj fields) :
    path ∈ fields.keys ↔ path ∈ paths.map Resolved.path := by
  obtain rfl := Json.obj.inj h
  simp [Members.mem_keys_ofList]

theorem isSet_of_flagged_one (h : flagged 1 paths = .obj fields) {m : String × Json}
    (hm : m ∈ fields) : Projection.isSet m.2 = true := by
  rw [eq_of_mem_flagged h hm]
  decide +kernel

/-- The paths that a search for fields picks, the primary key apart. -/
theorem mem_picked_flagged (h : flagged 1 paths = .obj fields) :
    path ∈ Projection.picked fields ↔ path ≠ Schema.idPath ∧ path ∈ paths.map Resolved.path := by
  rw [← mem_keys_flagged h, Projection.picked, Members.keys, Members.keys, List.mem_map,
    List.mem_map]
  constructor
  · rintro ⟨m, hm, rfl⟩
    obtain ⟨hm, hkept⟩ := List.mem_filter.mp hm
    rw [Bool.and_eq_true, bne_iff_ne] at hkept
    exact ⟨hkept.1, m, hm, rfl⟩
  · rintro ⟨hne, m, hm, rfl⟩
    refine ⟨m, List.mem_filter.mpr ⟨hm, ?_⟩, rfl⟩
    rw [Bool.and_eq_true, bne_iff_ne]
    exact ⟨hne, isSet_of_flagged_one h hm⟩

/-- A search for fields keeps the primary key. -/
theorem keepsId_flagged (h : flagged 1 paths = .obj fields) :
    Projection.keepsId fields = true := by
  rw [Projection.keepsId, Option.all_eq_true]
  exact fun flag hflag => isSet_of_flagged_one h (Members.mem_of_lookup hflag)

/-- **The row of a search that omits fields** is the document without their paths. -/
theorem row_flagged_zero (h : flagged 0 paths = .obj fields) (document : Json) :
    Projection.row fields document = document.removeAll fields.keys := by
  rw [Projection.row, picked_flagged_zero h]
  rfl

/-- **The row of a search for fields**, if one of them is not the primary key. -/
theorem row_flagged_one (h : flagged 1 paths = .obj fields)
    (hother : ∃ r ∈ paths, r.path ≠ Schema.idPath) (document : Json) :
    Projection.row fields document =
      Projection.copyAll document (.obj []) (Schema.idPath :: Projection.picked fields) := by
  obtain ⟨r, hr, hne⟩ := hother
  have hmem := (mem_picked_flagged h).mpr ⟨hne, List.mem_map_of_mem hr⟩
  rw [Projection.row, if_neg (by simpa using List.ne_nil_of_mem hmem), keepsId_flagged h]
  rfl

end ResultOptions

namespace Search

variable {c : Config} {s : Schema} {search : Search} {p : Pipeline}

/-- **What a search omits is gone.** The projection stage of a search that leaves out fields
makes of each document a row that hides the paths of these fields, also within arrays and
where one path lies below another. -/
theorem omitted_gone (hplan : search.plan c s = .ok p) (homitted : search.options.omitted ≠ []) :
    ∃ condition fields keys limit paths,
      p = .ofParts condition (some fields) keys search.options.skip.toNat limit ∧
      search.options.omitted.mapM s.resolve = .ok paths ∧
      ∀ documents : List Json,
        Rows.applyStage documents (.project (.obj fields)) =
          .ok (documents.map (Projection.row fields)) ∧
        ∀ document ∈ documents, document.isWellFormed = true →
          Projection.Hides (paths.map Resolved.path) (Projection.row fields document) document := by
  obtain ⟨condition, _, keys, limit, -, hprojection, -, -, rfl⟩ := plan_eq_ok.mp hplan
  obtain ⟨paths, fields, hpaths, rfl, hfields⟩ :=
    ResultOptions.projection_left_out hprojection homitted
  refine ⟨condition, fields, keys, limit.toNat, paths, rfl, hpaths, fun documents =>
    ⟨rfl, fun document _ hdocument => ?_⟩⟩
  rw [ResultOptions.row_flagged_zero hfields]
  exact (Projection.hides_removeAll (Members.keys fields) hdocument).of_mem_iff fun path =>
    (ResultOptions.mem_keys_flagged hfields).symm

/-- Notes with titles and tags, which have names and marks. -/
def tagSchema : Schema :=
  { entityType := "note", collection := "notes", access := [("ID", true)],
    mapping := [("ID", "_id"), ("Marks", "tags.marks"), ("Marks.By", "tags.marks.by"),
      ("TagName", "tags.name"), ("Title", "title")], fields := [] }

theorem isBuilt_tagSchema : tagSchema.IsBuilt :=
  ⟨((((Schema.Draft.start "note" "notes").map "Title" "title").map "TagName" "tags.name").map
    "Marks" "tags.marks").map "Marks.By" "tags.marks.by", rfl⟩

/-- A note with two tags, the first of which has a mark, and a number between them. -/
def tagDocument : Json :=
  .obj [("_id", .ofInt 1), ("title", .str "a"),
    ("tags", .arr [.obj [("name", .str "x"), ("marks", .arr [.obj [("by", .ofInt 2)]])],
      .ofInt 7, .obj [("name", .str "y")]])]

/-- Marks, who made them and titles are left out. -/
def unmarked : Search := Search.omitting {} ["Marks.By", "Marks", "Title"]

/-- The marks of all tags are gone, and the rest is there, the number too. -/
theorem omitted_gone_marks :
    ∃ (p : Pipeline) (fields : Members Json),
      unmarked.plan {} tagSchema = .ok p ∧ .project (.obj fields) ∈ p ∧
      Projection.Hides ["tags.marks.by", "tags.marks", "title"]
        (Projection.row fields tagDocument) tagDocument ∧
      (Projection.row fields tagDocument).same
        (.obj [("_id", .ofInt 1), ("tags", .arr [.obj [("name", .str "x")], .ofInt 7,
          .obj [("name", .str "y")]])]) = true := by
  obtain ⟨p, hplan⟩ : ∃ p, unmarked.plan {} tagSchema = .ok p := ⟨_, rfl⟩
  obtain ⟨condition, fields, keys, limit, paths, rfl, hpaths, hrows⟩ :=
    omitted_gone hplan (by decide)
  obtain rfl : paths = [⟨"tags.marks.by", false⟩, ⟨"tags.marks", false⟩, ⟨"title", false⟩] :=
    Except.ok.inj (hpaths.symm.trans rfl)
  obtain rfl : fields = [("tags.marks.by", .ofInt 0), ("tags.marks", .ofInt 0),
    ("title", .ofInt 0)] :=
    Option.some.inj (Repository.members_inj (parts_of_plan hplan).1 rfl)
  have hhides := (hrows [tagDocument]).2 tagDocument List.mem_cons_self (by decide)
  exact ⟨_, _, hplan, by simp [Pipeline.ofParts], hhides, by decide +kernel⟩

/-- **What a search picks is shown**, and nothing else. The projection stage of a search for
fields, of which none lies below another, makes of each document a row that shows the primary
key and the paths of these fields only. One of the fields has to be another one than the
primary key; and where one lies below it, the arrays there may hold documents only. -/
theorem picked_shown (hplan : search.plan c s = .ok p) (hpicked : search.options.picked ≠ []) :
    ∃ condition fields keys limit paths,
      p = .ofParts condition (some fields) keys search.options.skip.toNat limit ∧
      search.options.picked.mapM s.resolveUnrestricted = .ok paths ∧
      ∀ documents : List Json,
        Rows.applyStage documents (.project (.obj fields)) =
          .ok (documents.map (Projection.row fields)) ∧
        ((∃ r ∈ paths, r.path ≠ Schema.idPath) →
          (∀ r ∈ paths, ∀ q ∈ paths, Dotted.isBelow r.path q.path = false) →
          ∀ document ∈ documents, document.isObject = true →
            (∀ r ∈ paths, Json.Unmixed (Dotted.segments Schema.idPath) (Dotted.segments r.path)
              document) →
            Projection.ShowsOnly (Schema.idPath :: paths.map Resolved.path)
              (Projection.row fields document) document) := by
  obtain ⟨condition, _, keys, limit, -, hprojection, -, -, rfl⟩ := plan_eq_ok.mp hplan
  obtain ⟨paths, fields, hpaths, rfl, hfields⟩ :=
    ResultOptions.projection_picked hprojection hpicked
  refine ⟨condition, fields, keys, limit.toNat, paths, rfl, hpaths, fun documents =>
    ⟨rfl, fun hother hapart document _ hobject hunmixed => ?_⟩⟩
  rw [ResultOptions.row_flagged_one hfields hother]
  have hmem {path : String} : path ∈ Schema.idPath :: paths.map Resolved.path ↔
      path ∈ Schema.idPath :: Projection.picked fields := by
    rw [List.mem_cons, List.mem_cons, ResultOptions.mem_picked_flagged hfields]
    by_cases hid : path = Schema.idPath <;> simp [hid]
  refine (Projection.showsOnly_copyAll hobject (List.cons_ne_nil _ _)
    fun above habove path hpath => ?_).of_mem_iff fun path => hmem
  rcases List.mem_cons.mp (hmem.mpr hpath) with rfl | hpath
  · exact Projection.unmixed_of_not_isBelow (Projection.isBelow_idPath above)
  · obtain ⟨q, hq, rfl⟩ := List.mem_map.mp hpath
    rcases List.mem_cons.mp (hmem.mpr habove) with rfl | habove
    · exact hunmixed q hq
    · obtain ⟨r, hr, rfl⟩ := List.mem_map.mp habove
      exact Projection.unmixed_of_not_isBelow (hapart r hr q hq)

/-- Titles and the names of tags are looked for. -/
def titlesAndNames : Search := Search.picking {} ["TagName", "Title"]

/-- The names of tags are shown without their marks, and the number is passed over. -/
theorem picked_shown_names :
    ∃ (p : Pipeline) (fields : Members Json),
      titlesAndNames.plan {} tagSchema = .ok p ∧ .project (.obj fields) ∈ p ∧
      Projection.ShowsOnly ["_id", "tags.name", "title"]
        (Projection.row fields tagDocument) tagDocument ∧
      (Projection.row fields tagDocument).same
        (.obj [("_id", .ofInt 1), ("title", .str "a"),
          ("tags", .arr [.obj [("name", .str "x")], .obj [("name", .str "y")]])]) = true := by
  obtain ⟨p, hplan⟩ : ∃ p, titlesAndNames.plan {} tagSchema = .ok p := ⟨_, rfl⟩
  obtain ⟨condition, fields, keys, limit, paths, rfl, hpaths, hrows⟩ :=
    picked_shown hplan (by decide)
  obtain rfl : paths = [⟨"tags.name", false⟩, ⟨"title", false⟩] :=
    Except.ok.inj (hpaths.symm.trans rfl)
  obtain rfl : fields = [("tags.name", .ofInt 1), ("title", .ofInt 1)] :=
    Option.some.inj (Repository.members_inj (parts_of_plan hplan).1 rfl)
  have hshows := (hrows [tagDocument]).2 (by decide) (by decide) tagDocument List.mem_cons_self
    rfl (by decide +kernel)
  exact ⟨_, _, hplan, by simp [Pipeline.ofParts], hshows, by decide +kernel⟩

/-- **The primary key alone is hidden.** A search for it and nothing else shows the rest. -/
theorem picked_id_hidden :
    ¬ ∀ (c : Config) (s : Schema) (search : Search) (p : Pipeline) (fields : Members Json)
      (paths : List Resolved) (document : Json), s.IsBuilt → search.plan c s = .ok p →
      search.options.picked ≠ [] → .project (.obj fields) ∈ p →
      search.options.picked.mapM s.resolveUnrestricted = .ok paths →
      (∀ r ∈ paths, ∀ q ∈ paths, Dotted.isBelow r.path q.path = false) →
      document.isObject = true → document.isWellFormed = true →
      Projection.ShowsOnly (Schema.idPath :: paths.map Resolved.path)
        (Projection.row fields document) document := by
  intro h
  have hshows := h {} tagSchema (Search.picking {} ["ID"]) _ [("_id", .ofInt 1)] [⟨"_id", false⟩]
    tagDocument isBuilt_tagSchema rfl (by decide) (List.mem_cons_of_mem _ List.mem_cons_self) rfl
    (by decide) rfl (by decide)
  have hread := hshows.1 "_id" List.mem_cons_self "_id" (.inl rfl)
  exact absurd (congrArg List.length hread) (by decide +kernel)

/-- In the primary key, an array is cut down to its documents if a field below is picked. -/
example : (Projection.row [("_id.x", .ofInt 1)]
    (.obj [("_id", .arr [.ofInt 1, .obj [("x", .ofInt 2)]])])).same
      (.obj [("_id", .arr [.obj [("x", .ofInt 2)]])]) = true := by decide +kernel

end Search

end ScopedDocs
