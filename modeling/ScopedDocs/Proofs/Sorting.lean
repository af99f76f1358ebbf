import ScopedDocs.Proofs.Shapes
import ScopedDocs.Proofs.SortOrder
/-!
# Sorting — the order of the rows

The sort stage of a search puts its documents in the order of the search's sort options
(`Search.sorted_stably`): of any two documents, the first option that tells them apart
decides which one comes first, and documents that none tells apart stay as they came.
Options that name a path again decide nothing (`Rows.compareAll_addSortKeys`), so it does
not matter that the stage leaves them out. All this needs an order that is transitive on
what is compared (`Json.TransitiveOn`).
-/


namespace ScopedDocs

namespace Rows

/-! ## Sort options -/

/-- **The order of two documents by one sort option**, a storage path and a direction: that
of the first values at the path, turned round if the option is descending. -/
def orderAt (option : String × Direction) (a b : Json) : Ordering :=
  let order := Json.sortOrder (a.first? option.1) (b.first? option.1)
  match option.2 with
  | .ascending => order
  | .descending => order.swap

/-- The first of some sort options that tells two documents apart. -/
def deciding? (options : List (String × Direction)) (a b : Json) : Option (String × Direction) :=
  options.find? fun option => orderAt option a b != .eq

/-- **In order**: of two numbered documents, the first sort option that tells them apart puts
the first one first; if none does, it has the lower number. -/
def InOrder (options : List (String × Direction)) (a b : Json × Nat) : Prop :=
  match deciding? options a.1 b.1 with
  | some option => orderAt option a.1 b.1 = .lt
  | none => a.2 < b.2

/-- The order of two documents by sort options. -/
def orderBy (options : List (String × Direction)) (a b : Json) : Ordering :=
  ((deciding? options a b).map fun option => orderAt option a b).getD .eq

variable {options : List (String × Direction)}

theorem orderBy_nil (a b : Json) : orderBy [] a b = .eq := rfl

theorem orderBy_cons (option : String × Direction) (rest : List (String × Direction))
    (a b : Json) :
    orderBy (option :: rest) a b = (orderAt option a b).then (orderBy rest a b) := by
  rw [orderBy, orderBy, deciding?, deciding?, List.find?_cons]
  cases h : orderAt option a b with
  | eq => rfl
  | _ => exact h

theorem inOrder_of_precedes {a b : Json × Nat} (h : Precedes (orderBy options) a b) :
    InOrder options a b := by
  unfold InOrder
  unfold Precedes orderBy at h
  cases hfound : deciding? options a.1 b.1 with
  | none => simpa [hfound] using h
  | some option =>
    have happart : orderAt option a.1 b.1 ≠ .eq := by
      simpa [deciding?] using List.find?_some hfound
    simpa [hfound, happart] using h

/-- A key of a sort stage orders as the option it stands for. -/
theorem compareBy_toJson (path : String) (direction : Direction) (a b : Json) :
    compareBy path direction.toJson a b = orderAt (path, direction) a b := by
  cases direction <;> rfl

/-- Documents that a key does not tell apart, no option on its path does. -/
theorem orderAt_of_compareBy {path : String} {direction a b : Json}
    (h : compareBy path direction a b = .eq) (other : Direction) :
    orderAt (path, other) a b = .eq := by
  have heq : Json.sortOrder (a.first? path) (b.first? path) = .eq := by
    unfold compareBy at h
    dsimp only at h
    split at h
    · split at h
      · exact Ordering.swap_eq_eq.mp h
      · exact h
    · exact h
  cases other <;> simp [orderAt, heq]

theorem compareAll_append (keys others : Members Json) (a b : Json) :
    compareAll (keys ++ others) a b = (compareAll keys a b).then (compareAll others a b) := by
  induction keys with
  | nil => rfl
  | cons key rest ih =>
    obtain ⟨path, direction⟩ := key
    rw [List.cons_append, compareAll, compareAll, ih, Ordering.then_assoc]

/-- A key that all keys tie on is a tie. -/
theorem compareBy_of_compareAll {keys : Members Json} {path : String} {direction a b : Json}
    (hmem : (path, direction) ∈ keys) (h : compareAll keys a b = .eq) :
    compareBy path direction a b = .eq := by
  induction keys with
  | nil => exact absurd hmem List.not_mem_nil
  | cons key rest ih =>
    rw [compareAll, Ordering.then_eq_eq] at h
    rcases List.mem_cons.mp hmem with rfl | hmem
    · exact h.1
    · exact ih hmem h.2

/-- **The keys of the sort stage order as all options do**: an option whose path is there
already decides nothing. -/
theorem compareAll_addSortKeys (options : List (String × Direction)) (keys : Members Json)
    (a b : Json) :
    compareAll (options.foldl (fun m option => addSortKey m option.1 option.2) keys) a b =
      (compareAll keys a b).then (orderBy options a b) := by
  induction options generalizing keys with
  | nil => rw [List.foldl_nil, orderBy_nil, Ordering.then_eq]
  | cons option rest ih =>
    obtain ⟨path, direction⟩ := option
    rw [List.foldl_cons, ih, orderBy_cons, addSortKey]
    split
    · next kept hread =>
      cases h : compareAll keys a b with
      | eq =>
        have htie := compareBy_of_compareAll (Members.mem_of_lookup hread) h
        rw [orderAt_of_compareBy htie direction, Ordering.eq_then, Ordering.eq_then]
      | _ => rfl
    · rw [compareAll_append, compareAll, compareAll, compareBy_toJson, Ordering.then_eq,
        Ordering.then_assoc]

/-- A sort key adds its own path at most. -/
theorem mem_keys_addSortKey {keys : Members Json} {path other : String} {direction : Direction}
    (h : other ∈ (addSortKey keys path direction).keys) : other ∈ keys.keys ∨ other = path := by
  unfold addSortKey at h
  split at h
  · exact .inl h
  · simpa [Members.keys] using h

/-- The keys of the sort stage are on paths of options. -/
theorem mem_keys_addSortKeys {options : List (String × Direction)} {keys : Members Json}
    {path : String}
    (h : path ∈ Members.keys
      (options.foldl (fun m option => addSortKey m option.1 option.2) keys)) :
    path ∈ keys.keys ∨ ∃ option ∈ options, option.1 = path := by
  induction options generalizing keys with
  | nil => exact .inl h
  | cons option rest ih =>
    rcases ih h with hkeys | ⟨other, hother, rfl⟩
    · rcases mem_keys_addSortKey hkeys with hkeys | rfl
      · exact .inl hkeys
      · exact .inr ⟨option, List.mem_cons_self, rfl⟩
    · exact .inr ⟨other, List.mem_cons_of_mem _ hother, rfl⟩

end Rows

/-! ## Missing values -/

namespace Json

/-- A value that is missing, as sorting sees it: there is none, or it is `null`. -/
def Missing (value : Option Json) : Prop := value = none ∨ value = some null

theorem rank_eq_zero_iff {value : Option Json} : rank value = 0 ↔ Missing value := by
  rcases value with _ | _ | _ | _ | _ | _ | _ <;> simp [rank, Missing]

end Json

/-- **Missing values come first** if a sort option is ascending, and last if it is descending;
none of them comes before another. -/
theorem Rows.orderAt_of_missing {path : String} {a b : Json}
    (ha : Json.Missing (a.first? path)) :
    (Json.Missing (b.first? path) → ∀ direction, orderAt (path, direction) a b = .eq) ∧
      (¬ Json.Missing (b.first? path) →
        orderAt (path, .ascending) a b = .lt ∧ orderAt (path, .descending) a b = .gt) := by
  have hrank := Json.rank_eq_zero_iff.mpr ha
  constructor
  · intro hb direction
    have heq : Json.sortOrder (a.first? path) (b.first? path) = .eq := by
      rcases ha with ha | ha <;> rcases hb with hb | hb <;> rw [ha, hb] <;> rfl
    cases direction <;> simp [orderAt, heq]
  · intro hb
    have hlt : Json.rank (a.first? path) < Json.rank (b.first? path) := by
      rw [hrank]
      exact Nat.pos_of_ne_zero (mt Json.rank_eq_zero_iff.mp hb)
    have heq : Json.sortOrder (a.first? path) (b.first? path) = .lt := by
      rw [Json.sortOrder_eq, Nat.compare_eq_lt.mpr hlt, Ordering.lt_then]
    simp [orderAt, heq]

/-! ## The sort stage of a search -/

/-- The sort option of a sort key: where its field is stored, and its direction. -/
def SortKey.option (s : Schema) (key : SortKey) : Except Error (String × Direction) :=
  (s.resolveUnrestricted key.field).map fun r => (r.path, key.direction)

theorem sortOf_eq_ok {s : Schema} {sort : List SortKey} {keys : Option (Members Json)}
    (hsort : sort ≠ []) (h : sortOf s sort = .ok (keys.map .obj)) :
    ∃ options, sort.mapM (SortKey.option s) = .ok options ∧
      keys = some (options.foldl (fun m option => addSortKey m option.1 option.2) []) := by
  rw [sortOf, if_neg (by simpa using hsort)] at h
  obtain ⟨options, hoptions, h⟩ := bind_eq_ok.mp h
  cases keys with
  | none => exact absurd (Except.ok.inj h) (by simp)
  | some members =>
    exact ⟨options, hoptions, congrArg some (Json.obj.inj (Option.some.inj (Except.ok.inj h))).symm⟩

namespace Search

variable {c : Config} {s : Schema} {search : Search} {p : Pipeline}

/-- **The sort stage of a search is stable.** The plan of a search without a projection sorts
the documents that its filter selects. Where the order of sorting is transitive on the first
values at each sort path, the stage answers the documents it is given, in the order of the
search's sort options, all of them and in the order they are listed in. -/
theorem sorted_stably (hplan : search.plan c s = .ok p) (hsort : search.sort ≠ [])
    (hplain : search.options.picked = [] ∧ search.options.omitted = []) :
    ∃ condition keys options limit,
      p = .ofParts condition none (some keys) search.options.skip.toNat limit ∧
      search.sort.mapM (SortKey.option s) = .ok options ∧
      (∀ documents : List Json,
        (∀ option ∈ options, Json.TransitiveOn (documents.map (Json.first? option.1))) →
        ∃ numbered : List (Json × Nat), numbered.Perm documents.zipIdx ∧
          Rows.applyStage documents (.sort (.obj keys)) = .ok (numbered.map Prod.fst) ∧
          numbered.Pairwise (Rows.InOrder options)) ∧
      ∀ (path : String) (a b : Json), Json.Missing (a.first? path) →
        (Json.Missing (b.first? path) → ∀ direction, Rows.orderAt (path, direction) a b = .eq) ∧
        (¬ Json.Missing (b.first? path) →
          Rows.orderAt (path, .ascending) a b = .lt ∧
          Rows.orderAt (path, .descending) a b = .gt) := by
  obtain ⟨condition, fields, keys, limit, -, hfields, hkeys, -, rfl⟩ := plan_eq_ok.mp hplan
  obtain rfl : fields = none := by
    rcases ResultOptions.projection_cases hfields with
      ⟨-, -, hnone⟩ | ⟨hpicked, -⟩ | ⟨-, homitted, -⟩
    · exact Option.map_eq_none_iff.mp hnone
    · exact absurd hplain.1 hpicked
    · exact absurd hplain.2 homitted
  obtain ⟨options, hoptions, rfl⟩ := sortOf_eq_ok hsort hkeys
  refine ⟨condition, _, options, limit.toNat, rfl, hoptions, fun documents htransitive => ?_,
    fun _ _ _ => Rows.orderAt_of_missing⟩
  -- the stage has each path once, and orders by its keys as by all options
  have hkeys : Rows.compareAll (options.foldl (fun m option => addSortKey m option.1 option.2) []) =
      Rows.orderBy options :=
    funext fun a => funext fun b => Rows.compareAll_addSortKeys options [] a b
  have hsortable : Rows.Sortable
      (options.foldl (fun m option => addSortKey m option.1 option.2) []) documents := by
    intro path hpath
    obtain hnone | ⟨option, hoption, rfl⟩ := Rows.mem_keys_addSortKeys hpath
    · exact absurd hnone List.not_mem_nil
    · exact htransitive option hoption
  obtain ⟨numbered, hperm, hsorted, hpairs⟩ := Rows.sortBy_eq_numbered hsortable
  rw [hkeys] at hpairs
  exact ⟨numbered, hperm, hsorted, hpairs.imp Rows.inOrder_of_precedes⟩

/-- A search by scores, the highest first. That it asks for them the other way round, too,
changes nothing. -/
def byScores : Search := { sort := [⟨"Score", .descending⟩, ⟨"Score", .ascending⟩] }

/-- Documents with a score, an empty one, a higher one and none. -/
def scoreDocuments : List Json :=
  [.obj [("score", .ofInt 1)], .obj [("score", .null)], .obj [("score", .ofInt 2)], .obj []]

/-- The higher score comes first, and those without one stay in their order behind. -/
theorem sorted_stably_scores :
    ∃ (p : Pipeline) (keys : Members Json) (numbered : List (Json × Nat)),
      byScores.plan {} Repository.scored.schema = .ok p ∧ Stage.sort (.obj keys) ∈ p ∧
      Rows.applyStage scoreDocuments (.sort (.obj keys)) = .ok (numbered.map Prod.fst) ∧
      numbered.Pairwise (Rows.InOrder [("score", .descending), ("score", .ascending)]) ∧
      numbered.map Prod.fst = [.obj [("score", .ofInt 2)], .obj [("score", .ofInt 1)],
        .obj [("score", .null)], .obj []] := by
  obtain ⟨p, hplan⟩ : ∃ p, byScores.plan {} Repository.scored.schema = .ok p := ⟨_, rfl⟩
  obtain ⟨condition, keys, options, limit, rfl, hoptions, hsorted, -⟩ :=
    sorted_stably hplan (by decide) ⟨rfl, rfl⟩
  obtain rfl : options = [("score", .descending), ("score", .ascending)] :=
    Except.ok.inj (hoptions.symm.trans rfl)
  obtain rfl := Option.some.inj (Repository.members_inj (parts_of_plan hplan).2 rfl)
  obtain ⟨numbered, -, hrows, hpairs⟩ := hsorted scoreDocuments (by decide +kernel)
  exact ⟨_, _, numbered, hplan, by simp [Pipeline.ofParts], hrows, hpairs,
    Except.ok.inj (hrows.symm.trans rfl)⟩

end Search

end ScopedDocs
