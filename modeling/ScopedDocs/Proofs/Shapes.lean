import ScopedDocs.Proofs.Isolation
import ScopedDocs.Proofs.Removal
import ScopedDocs.Proofs.Sortable
/-!
# Shapes — the same records with other fields

Picking or leaving out fields changes the shape of the rows of a search, and not how
many there are, where both are sorted at all. The rows are shaped before they are put in
order, so a projection may take away what they are ordered by. Where it does not, the
rows are the shapes of the documents, place by place (`Repository.shapes_keep_order`); an
omission does not where no path it leaves out touches a sort path
(`Projection.keeps_omitted`).
-/


namespace ScopedDocs

variable {α : Type}

/-! ## Orders that a change of shape respects -/

/-- **A projection keeps a sort order** on documents: their rows compare as they do. -/
def Projection.Keeps (fields keys : Option (Members Json)) (documents : List Json) : Prop :=
  ∀ sort ∈ keys, ∀ a ∈ documents, ∀ b ∈ documents,
    Rows.compareAll sort (shape fields a) (shape fields b) = Rows.compareAll sort a b

namespace Rows

variable {fields keys : Option (Members Json)} {documents : List Json}

/-- Where a projection keeps the order, it may as well come last. -/
theorem arranged_of_keeps (h : Projection.Keeps fields keys documents) :
    arranged fields keys documents =
      (arranged none keys documents).map (List.map (Projection.shape fields)) := by
  have hplain : documents.map (Projection.shape none) = documents := List.map_id' documents
  rw [arranged, arranged, hplain]
  cases keys with
  | none => rfl
  | some sort =>
    have hsorted : (sortWith (fun a b => compareAll sort a b == .lt) documents).map
        (List.map (Projection.shape fields)) =
          sortWith (fun a b => compareAll sort a b == .lt)
            (documents.map (Projection.shape fields)) :=
      map_sortWith fun a ha b hb => by rw [h sort rfl a ha b hb]
    rw [ordered, ordered, sortBy, sortBy, ← hsorted]
    cases sortWith (fun a b => compareAll sort a b == .lt) documents <;> rfl

theorem compareBy_congr {path : String} {direction a b a' b' : Json}
    (ha : a'.first? path = a.first? path) (hb : b'.first? path = b.first? path) :
    compareBy path direction a' b' = compareBy path direction a b := by
  simp only [compareBy, ha, hb]

/-- Documents that give the same first values for all sort keys compare the same. -/
theorem compareAll_congr {sort : Members Json} {a b a' b' : Json}
    (h : ∀ path ∈ sort.keys, a'.first? path = a.first? path ∧ b'.first? path = b.first? path) :
    compareAll sort a' b' = compareAll sort a b := by
  induction sort with
  | nil => rfl
  | cons key rest ih =>
    obtain ⟨path, direction⟩ := key
    obtain ⟨⟨ha, hb⟩, hrest⟩ := List.forall_mem_cons.mp h
    rw [compareAll, compareAll, compareBy_congr ha hb, ih hrest]

end Rows

/-! ## Omissions apart from the sort order -/

namespace ResultOptions

/-- All flags of a projection are the same. -/
theorem eq_of_mem_flagged {flag : Int} {paths : List Resolved} {fields : Members Json}
    (h : flagged flag paths = .obj fields) {m : String × Json} (hm : m ∈ fields) :
    m.2 = .ofInt flag := by
  obtain rfl := Json.obj.inj h
  obtain ⟨pair, hpair, hvalue⟩ := Members.mem_of_mem_ofList hm
  obtain ⟨r, -, rfl⟩ := List.mem_map.mp hpair
  exact hvalue.symm

/-- Leaving fields out picks nothing. -/
theorem picked_flagged_zero {paths : List Resolved} {fields : Members Json}
    (h : flagged 0 paths = .obj fields) : Projection.picked fields = [] := by
  have hunset : Projection.isSet (.ofInt 0) = false := by decide +kernel
  rw [Projection.picked, Members.keys, List.map_eq_nil_iff, List.filter_eq_nil_iff]
  intro m hm
  simp [eq_of_mem_flagged h hm, hunset]

theorem projection_omitted {o : ResultOptions} {s : Schema} {fields : Members Json}
    (h : o.projection s = .ok (some (.obj fields))) (hpicked : o.picked = []) :
    Projection.picked fields = [] := by
  rcases projection_cases h with ⟨-, -, hnone⟩ | ⟨hpicks, -⟩ | ⟨-, -, paths, -, hsome⟩
  · exact absurd hnone (by simp)
  · exact absurd hpicked hpicks
  · exact picked_flagged_zero (Option.some.inj hsome).symm

end ResultOptions

namespace Projection

variable {o : ResultOptions} {s : Schema} {fields keys : Option (Members Json)}
  {documents : List Json}

/-- **An omission apart from the sort order** keeps it. -/
theorem keeps_omitted (h : o.projection s = .ok (fields.map .obj)) (hpicked : o.picked = [])
    (hapart : ∀ sort ∈ keys, ∀ path ∈ sort.keys, ∀ members ∈ fields, ∀ left ∈ members.keys,
      ¬ Dotted.Touches left path)
    (hdocuments : ∀ d ∈ documents, d.isWellFormed = true) : Keeps fields keys documents := by
  intro sort hsort a ha b hb
  refine Rows.compareAll_congr fun path hpath => ?_
  have hfirst (d : Json) (hd : d ∈ documents) : (shape fields d).first? path = d.first? path := by
    cases fields with
    | none => rfl
    | some members =>
      rw [shape, row, ResultOptions.projection_omitted h hpicked]
      exact Json.first?_removeAll (hapart sort hsort path hpath members rfl) (hdocuments d hd)
  exact ⟨hfirst a ha, hfirst b hb⟩

end Projection

/-! ## Searches with another projection -/

namespace Repository

theorem members_inj {x : Except Error (Option Json)} {fields others : Option (Members Json)}
    (h : x = .ok (fields.map .obj)) (ho : x = .ok (others.map .obj)) : fields = others :=
  Option.map_injective (fun _ _ => Json.obj.inj) (Except.ok.inj (h.symm.trans ho))

/-- A search with a list of fields to pick or to leave out has the parts of the search
without, but for the projection. -/
theorem parts_of_shaped {repo : Repository α} {r : Request} {search : Search}
    {picked omitted : List String} {p q : Pipeline}
    (hplain : search.options.picked = [] ∧ search.options.omitted = [])
    (hplan : repo.explain r search = .ok p)
    (hshaped : repo.explain r ((search.picking picked).omitting omitted) = .ok q) :
    ∃ condition fields keys limit,
      p = .ofParts condition none keys search.options.skip.toNat limit.toNat ∧
      q = .ofParts condition fields keys search.options.skip.toNat limit.toNat ∧
      ((search.picking picked).omitting omitted).options.projection repo.schema =
        .ok (fields.map .obj) ∧
      sortOf repo.schema search.sort = .ok (keys.map .obj) ∧
      repo.config.effectiveLimit search.options.limit = .ok limit := by
  obtain ⟨asked, condition, whole, keys, limit, hasked, hcondition, hwhole, hkeys, hlimit, rfl⟩ :=
    explain_iff.mp hplan
  obtain ⟨asked', condition', fields, keys', limit', hasked', hcondition', hfields, hkeys',
    hlimit', rfl⟩ := explain_iff.mp hshaped
  obtain rfl : asked = asked' := Except.ok.inj (hasked.symm.trans hasked')
  obtain rfl : condition = condition' := Except.ok.inj (hcondition.symm.trans hcondition')
  obtain rfl : limit = limit' := Except.ok.inj (hlimit.symm.trans hlimit')
  obtain rfl : keys = keys' := members_inj hkeys hkeys'
  obtain rfl : whole = none := by
    have hnone : search.options.projection repo.schema = .ok (none.map .obj) := by
      rw [ResultOptions.projection, hplain.1, hplain.2]
      rfl
    exact members_inj hwhole hnone
  exact ⟨condition, fields, keys, limit, rfl, rfl, hfields, hkeys, hlimit⟩

/-- **A projection changes the shape of rows.** A search with a list of fields to pick or
to leave out has as many rows as the search without, unless sorting gives up, which it
never does where both sort by an order: the page of the projections of the documents that
are selected, in the order of the sort keys. Where the projection keeps this order, each
row is the projection of the document in its place. -/
theorem shapes_keep_order (repo : Repository α) (r : Request) (search : Search) (s : Store)
    (picked omitted : List String) {p q : Pipeline}
    (hplain : search.options.picked = [] ∧ search.options.omitted = [])
    (hplan : repo.explain r search = .ok p)
    (hshaped : repo.explain r ((search.picking picked).omitting omitted) = .ok q) :
    ∃ condition fields keys limit,
      p.filter? = some condition ∧
      ((search.picking picked).omitting omitted).options.projection repo.schema =
        .ok (fields.map .obj) ∧
      sortOf repo.schema search.sort = .ok (keys.map .obj) ∧
      repo.config.effectiveLimit search.options.limit = .ok limit ∧
      (∀ rows shaped, s.aggregate repo.collection p.toJson = .ok rows →
        s.aggregate repo.collection q.toJson = .ok shaped → shaped.length = rows.length) ∧
      (p.Sortable (s.documents repo.collection) → q.Sortable (s.documents repo.collection) →
        (s.aggregate repo.collection q.toJson).map List.length =
          (s.aggregate repo.collection p.toJson).map List.length) ∧
      (s.aggregate repo.collection q.toJson =
        (Rows.select condition (s.documents repo.collection) >>= Rows.arranged fields keys).map
          fun rows => (rows.drop search.options.skip.toNat).take limit.toNat) ∧
      ((∀ found, Rows.select condition (s.documents repo.collection) = .ok found →
          Projection.Keeps fields keys found) →
        s.aggregate repo.collection q.toJson =
          (s.aggregate repo.collection p.toJson).map (List.map (Projection.shape fields))) := by
  obtain ⟨condition, fields, keys, limit, rfl, rfl, hfields, hkeys, hlimit⟩ :=
    parts_of_shaped hplain hplan hshaped
  have hp : s.aggregate repo.collection _ = _ := Rows.run_plan condition none keys
    search.options.skip.toNat limit.toNat (s.documents repo.collection)
  have hq : s.aggregate repo.collection _ = _ := Rows.run_plan condition fields keys
    search.options.skip.toNat limit.toNat (s.documents repo.collection)
  refine ⟨condition, fields, keys, limit, rfl, hfields, hkeys, hlimit, fun rows shaped hrows
    hshapes => ?_, fun hsortable hsortable' => ?_, hq, fun hkeeps => ?_⟩
  · obtain ⟨all, hall, rfl⟩ := map_eq_ok.mp (hp.symm.trans hrows)
    obtain ⟨others, hothers, rfl⟩ := map_eq_ok.mp (hq.symm.trans hshapes)
    obtain ⟨found, hfound, hall⟩ := bind_eq_ok.mp hall
    rw [hfound, ok_bind] at hothers
    simp only [List.length_take, List.length_drop, Rows.length_of_arranged hall,
      Rows.length_of_arranged hothers]
  · rw [hp]
    refine (congrArg (Except.map List.length) hq).trans ?_
    cases hfound : Rows.select condition (s.documents repo.collection) with
    | error e => rfl
    | ok found =>
      obtain ⟨rows, hrows⟩ :=
        Rows.exists_arranged (Pipeline.sortable_ofParts.mp hsortable found hfound)
      obtain ⟨shaped, hshapes⟩ :=
        Rows.exists_arranged (Pipeline.sortable_ofParts.mp hsortable' found hfound)
      rw [ok_bind, ok_bind, hrows, hshapes]
      simp only [Except.map, List.length_take, List.length_drop, Rows.length_of_arranged hrows,
        Rows.length_of_arranged hshapes]
  · rw [hp]
    refine hq.trans ?_
    cases hfound : Rows.select condition (s.documents repo.collection) with
    | error e => rfl
    | ok found =>
      rw [ok_bind, ok_bind, Rows.arranged_of_keeps (hkeeps found hfound)]
      cases Rows.arranged none keys found with
      | error e => rfl
      | ok rows => simp only [Except.map, List.map_take, List.map_drop]

/-- A repository of notes with scores. -/
def scored : Repository Record :=
  { notes with schema := { notes.schema with
      access := [("ID", true)]
      mapping := [("ID", "_id"), ("Score", "score"), ("Title", "title")] } }

/-- A note of a group with a score. -/
def scoredNote (id : Uuid) (score : Int) : Record :=
  { note id Guard.sharedOwner with extra := [("score", .ofInt score), ("title", .str "a")] }

/-- Two notes, the higher score first. -/
def twoScores : Store := notesOf [scoredNote ⟨7⟩ 2, scoredNote ⟨8⟩ 1]

/-- A member looks for notes by their scores. -/
def byScore : Search := memberSearch.sortedBy ⟨"Score", .ascending⟩

/-- Without their titles, the notes come in the same order. -/
theorem shapes_keep_order_untitled :
    ∃ p q fields, scored.explain Guard.memberRequest byScore = .ok p ∧
      scored.explain Guard.memberRequest ((byScore.picking []).omitting ["Title"]) = .ok q ∧
      twoScores.aggregate scored.collection q.toJson =
        (twoScores.aggregate scored.collection p.toJson).map
          (List.map (Projection.shape fields)) := by
  obtain ⟨condition, fields, keys, limit, hcondition, hfields, hkeys, -, -, -, -, hrows⟩ :=
    shapes_keep_order scored Guard.memberRequest byScore twoScores [] ["Title"] ⟨rfl, rfl⟩ rfl rfl
  obtain rfl : keys = some [("score", .ofInt 1)] := members_inj hkeys rfl
  obtain rfl : fields = some [("title", .ofInt 0)] := members_inj hfields rfl
  refine ⟨_, _, _, rfl, rfl, hrows fun found hfound => ?_⟩
  refine Projection.keeps_omitted hfields rfl ?_ fun d hd => ?_
  · rintro sort ⟨⟩ path hpath members ⟨⟩ left hleft
    obtain rfl := List.mem_singleton.mp hpath
    obtain rfl := List.mem_singleton.mp hleft
    decide
  · have hstored : ∀ d ∈ twoScores.documents "notes", d.isWellFormed = true := by decide
    exact hstored d (Rows.mem_of_select hfound hd).1

/-- The identifiers of rows, in order. -/
def identifiers (rows : Except Error (List Json)) : Option (List (Option String)) :=
  rows.toOption.map (List.map fun row => (row.get? Schema.idPath).bind Json.string?)

/-- Without their scores, they do not: nothing is left to order them by. -/
theorem shapes_reorder :
    ¬ ∀ (repo : Repository Record) (r : Request) (search : Search) (s : Store)
      (picked omitted : List String) (p q : Pipeline),
      search.options.picked = [] ∧ search.options.omitted = [] →
      repo.explain r search = .ok p →
      repo.explain r ((search.picking picked).omitting omitted) = .ok q →
      ∃ fields : Option (Members Json),
        ((search.picking picked).omitting omitted).options.projection repo.schema =
          .ok (fields.map .obj) ∧
        s.aggregate repo.collection q.toJson =
          (s.aggregate repo.collection p.toJson).map (List.map (Projection.shape fields)) := by
  intro h
  obtain ⟨fields, hfields, hrows⟩ :=
    h scored Guard.memberRequest byScore twoScores [] ["Score"] _ _ ⟨rfl, rfl⟩ rfl rfl
  obtain rfl : fields = some [("score", .ofInt 0)] := members_inj hfields rfl
  exact absurd (congrArg identifiers hrows) (by decide +kernel)

end Repository

end ScopedDocs
