import ScopedDocs.Proofs.Plan
import ScopedDocs.Proofs.SortOrder
import ScopedDocs.Proofs.StableSort
/-!
# Sortable — what is sure to be sorted

Sorting answers, and is stable, where what documents compare by is transitive
(`Rows.sortWith_eq_numbered`). Documents compare by their first values at some paths, so
it is enough that the order of sorting is transitive on these (`Rows.Sortable`). A plan
sorts the rows that its projection leaves of the documents it selects
(`Pipeline.sortable_ofParts`). By an order that is not transitive, sorting may end the
program (`Rows.sortBy_roundTime`).
-/


namespace ScopedDocs

/-! ## Values -/

namespace Rows

section

variable {α β : Type} {precedes : α → α → Bool} {comes : β → β → Bool} {f : α → β}

/-- Sorting what is at some places, seen through a map. -/
theorem map_sorted? {m n : Nat} (h : m = n) {at' : Fin m → β} {at_ : Fin n → α}
    (hat : ∀ i, at' i = f (at_ (i.cast h)))
    (hless : ∀ i j, comes (f (at_ i)) (f (at_ j)) = precedes (at_ i) (at_ j)) :
    ((Sorting.sorted? (fun i j => precedes (at_ i) (at_ j)) (List.finRange n)).map
        (List.map at_)).map (List.map f) =
      (Sorting.sorted? (fun i j => comes (at' i) (at' j)) (List.finRange m)).map
        (List.map at') := by
  subst h
  obtain rfl : at' = fun i => f (at_ i) := funext hat
  simp [hless, Function.comp_def]

/-- **Sorting a mapped list** maps the sorted one, if the order sees no difference. -/
theorem map_sortWith {values : List α}
    (h : ∀ x ∈ values, ∀ y ∈ values, comes (f x) (f y) = precedes x y) :
    (sortWith precedes values).map (List.map f) = sortWith comes (values.map f) :=
  map_sorted? (List.length_map f) (fun i => by simp) fun i j =>
    h _ (List.get_mem values i) _ (List.get_mem values j)

/-- Of two numbered values the first precedes: it is less, or equal with a lower number. -/
def Precedes (cmp : α → α → Ordering) (a b : α × Nat) : Prop :=
  cmp a.1 b.1 = .lt ∨ cmp a.1 b.1 = .eq ∧ a.2 < b.2

theorem isOrder_of_transCmp {ι : Type} [LinearOrder ι] (cmp : ι → ι → Ordering)
    [Std.TransCmp cmp] : Sorting.IsOrder fun i j => cmp i j == .lt where
  asymm {i j} h := by
    have hgt := Std.OrientedCmp.gt_of_lt (beq_iff_eq.mp h)
    simp [hgt]
  trans {i j k} hij hjk := by
    simp only [beq_eq_false_iff_ne, ne_eq, ← Ordering.isGE_iff_ne_lt] at hij hjk ⊢
    exact Std.TransCmp.isGE_trans hjk hij

theorem eq_lt_or_of_comes {ι : Type} [LinearOrder ι] {cmp : ι → ι → Ordering}
    [Std.OrientedCmp cmp] {i j : ι} (h : Sorting.Comes (fun i j => cmp i j == .lt) i j) :
    cmp i j = .lt ∨ cmp i j = .eq ∧ i < j := by
  rcases h with hless | ⟨hless, hlt⟩
  · exact .inl (beq_iff_eq.mp hless)
  · have hle : (cmp i j).isLE = true :=
      Std.OrientedCmp.isGE_iff_isLE.mp (Ordering.isGE_iff_ne_lt.mpr (by simpa using hless))
    exact (Ordering.isLE_iff_eq_lt_or_eq_eq.mp hle).imp_right fun heq => ⟨heq, hlt⟩

/-- **Sorting by a transitive order is stable.** The values come out as they are numbered
in the input, each before those that it precedes. -/
theorem sortWith_eq_numbered (cmp : α → α → Ordering) (values : List α)
    [Std.TransCmp fun i j : Fin values.length => cmp (values.get i) (values.get j)] :
    ∃ numbered : List (α × Nat), numbered.Perm values.zipIdx ∧
      sortWith (fun a b => cmp a b == .lt) values = some (numbered.map Prod.fst) ∧
      numbered.Pairwise (Precedes cmp) := by
  obtain ⟨places, hplaces, hstable⟩ := Sorting.sorts_sorted? (isOrder_of_transCmp
    fun i j : Fin values.length => cmp (values.get i) (values.get j)) _
      (List.pairwise_lt_finRange values.length)
  refine ⟨places.map fun i => (values.get i, i.val), ?_, ?_, ?_⟩
  · have hnumbered : (List.finRange values.length).map (fun i => (values.get i, i.val)) =
        values.zipIdx := List.ext_getElem (by simp) fun i hi hi' => by simp
    rw [← hnumbered]
    exact hstable.perm.map _
  · rw [sortWith, hplaces, Option.map_some, List.map_map]
    rfl
  · exact List.pairwise_map.mpr (hstable.ordered.imp eq_lt_or_of_comes)

end

end Rows

/-! ## Transitivity -/

namespace Json

/-- **The order of sorting is transitive on some values.** -/
def TransitiveOn (values : List (Option Json)) : Prop :=
  ∀ a ∈ values, ∀ b ∈ values, ∀ c ∈ values,
    sortOrder a b ≠ .gt → sortOrder b c ≠ .gt → sortOrder a c ≠ .gt

instance (values : List (Option Json)) : Decidable (TransitiveOn values) :=
  inferInstanceAs (Decidable (∀ a ∈ values, ∀ b ∈ values, ∀ c ∈ values, _))

theorem sortOrder_swap (a b : Option Json) : sortOrder a b = (sortOrder b a).swap := by
  rw [sortOrder_eq a b, sortOrder_eq b a, Ordering.swap_then, ← orderWithin_swap,
    Nat.compare_swap]

end Json

namespace Rows

/-- **Documents that can be sorted** by some keys: the order of sorting is transitive on
the first values that they have at each path. -/
def Sortable (keys : Members Json) (documents : List Json) : Prop :=
  ∀ path ∈ keys.keys, Json.TransitiveOn (documents.map (Json.first? path))

instance (keys : Members Json) (documents : List Json) : Decidable (Sortable keys documents) :=
  inferInstanceAs (Decidable (∀ path ∈ keys.keys, _))

/-- Some of them can be sorted, too. -/
theorem Sortable.of_subset {keys : Members Json} {documents found : List Json}
    (h : Sortable keys documents) (hfound : found ⊆ documents) : Sortable keys found := by
  intro path hpath a ha b hb c hc
  have hmem := List.map_subset (Json.first? path) hfound
  exact h path hpath a (hmem ha) b (hmem hb) c (hmem hc)

section

variable {ι : Type} {documents : List Json} {keys : Members Json} {at_ : ι → Json}

/-- An order that asks another one where it finds no difference is transitive as both are. -/
theorem transCmp_then {α : Type} {cmp others : α → α → Ordering} [Std.TransCmp cmp]
    [Std.TransCmp others] : Std.TransCmp fun a b => (cmp a b).then (others a b) :=
  inferInstanceAs (Std.TransCmp (compareLex cmp others))

theorem transCmp_compareBy {path : String} (hat : ∀ i, at_ i ∈ documents)
    (h : Json.TransitiveOn (documents.map (Json.first? path))) (direction : Json) :
    Std.TransCmp fun i j => compareBy path direction (at_ i) (at_ j) := by
  have hfirst (i : ι) : (at_ i).first? path ∈ documents.map (Json.first? path) :=
    List.mem_map_of_mem (hat i)
  have hascending : Std.TransCmp fun i j =>
      Json.sortOrder ((at_ i).first? path) ((at_ j).first? path) :=
    { eq_swap := Json.sortOrder_swap _ _
      isLE_trans := fun {i j k} hij hjk => by
        rw [← Ordering.ne_gt_iff_isLE] at hij hjk ⊢
        exact h _ (hfirst i) _ (hfirst j) _ (hfirst k) hij hjk }
  have hdescending : Std.TransCmp fun i j =>
      (Json.sortOrder ((at_ i).first? path) ((at_ j).first? path)).swap := by
    have hflip : (fun i j => (Json.sortOrder ((at_ i).first? path) ((at_ j).first? path)).swap) =
        fun i j => Json.sortOrder ((at_ j).first? path) ((at_ i).first? path) :=
      funext fun i => funext fun j => (Json.sortOrder_swap _ _).symm
    rw [hflip]
    exact Std.TransCmp.opposite
  unfold compareBy
  split
  · split
    · exact hdescending
    · exact hascending
  · exact hascending

/-- **Sortable documents compare by an order.** -/
theorem transCmp_compareAll (hat : ∀ i, at_ i ∈ documents) (h : Sortable keys documents) :
    Std.TransCmp fun i j => compareAll keys (at_ i) (at_ j) := by
  induction keys with
  | nil => exact { eq_swap := rfl, isLE_trans := fun hij _ => hij }
  | cons key rest ih =>
    obtain ⟨path, direction⟩ := key
    obtain ⟨hpath, hrest⟩ := List.forall_mem_cons.mp h
    have := transCmp_compareBy hat hpath direction
    have := ih hrest
    exact transCmp_then

end

variable {documents : List Json} {keys : Members Json}

/-- **Sortable documents are sorted**: they come as they are numbered, each before those that
it precedes. -/
theorem sortBy_eq_numbered (h : Sortable keys documents) :
    ∃ numbered : List (Json × Nat), numbered.Perm documents.zipIdx ∧
      sortBy keys documents = .ok (numbered.map Prod.fst) ∧
      numbered.Pairwise (Precedes (compareAll keys)) := by
  have := transCmp_compareAll (List.get_mem documents) h
  obtain ⟨numbered, hperm, hsorted, hpairs⟩ := sortWith_eq_numbered (compareAll keys) documents
  exact ⟨numbered, hperm, sortBy_eq_ok.mpr hsorted, hpairs⟩

end Rows

/-! ## Plans -/

/-- **What a pipeline sorts can be sorted**: at each stage that sorts, the documents that
reach it. -/
def Pipeline.Sortable : Pipeline → List Json → Prop
  | [], _ => True
  | stage :: rest, documents =>
    (∀ keys, stage = .sort (.obj keys) → Rows.Sortable keys documents) ∧
      ∀ rows, Rows.applyStage documents stage = .ok rows → Pipeline.Sortable rest rows

/-- **A plan sorts** what its projection leaves of the documents it selects. -/
theorem Pipeline.sortable_ofParts {condition : Json} {fields keys : Option (Members Json)}
    {skip limit : Nat} {documents : List Json} :
    (ofParts condition fields keys skip limit).Sortable documents ↔
      ∀ found, Rows.select condition documents = .ok found →
        ∀ sort ∈ keys, Rows.Sortable sort (found.map (Projection.shape fields)) := by
  have hplain : Projection.shape none = id := rfl
  have hrow (fields : Members Json) : Projection.shape (some fields) = Projection.row fields := rfl
  cases fields <;> cases keys <;> simp [ofParts, Sortable, Rows.applyStage, hplain, hrow]

namespace Rows

variable {fields keys : Option (Members Json)} {documents : List Json}

/-- Sortable rows are arranged. -/
theorem exists_arranged
    (h : ∀ sort ∈ keys, Sortable sort (documents.map (Projection.shape fields))) :
    ∃ rows, arranged fields keys documents = .ok rows := by
  cases keys with
  | none => exact ⟨_, rfl⟩
  | some sort =>
    obtain ⟨numbered, -, hsorted, -⟩ := sortBy_eq_numbered (h sort rfl)
    exact ⟨_, hsorted⟩

/-! ## Where sorting gives up -/

/-- Three values, each of which comes before the next one, and the last before the first. -/
def comesRound (a b : Fin 3) : Bool := b == a + 1

/-- The first and the last of them, and then the second again and again. -/
def roundabout : List (Fin 3) := [0, 2] ++ List.replicate 19 1

theorem sortWith_roundabout : sortWith comesRound roundabout = none := by decide +kernel

/-- Three times that come round: two of them are instants, one is not. -/
def roundTime (k : Fin 3) : Json :=
  match k with
  | 0 => .str "2024-01-01T10:00:00+02:00"
  | 1 => .str "2024-01-01T09:00:00Z"
  | 2 => .str "2024-01-01T09:30"

theorem sortOrder_roundTime (a b : Fin 3) :
    (Json.sortOrder (some (roundTime a)) (some (roundTime b)) == .lt) = comesRound a b := by
  decide +revert

/-- **Sorting may end the program**: by a path where documents have times that come round,
no rows are answered. -/
theorem sortBy_roundTime {path : String} {documents : List Json}
    (h : documents.map (Json.first? path) = roundabout.map fun k => some (roundTime k)) :
    sortBy [(path, .ofInt 1)] documents = .error .noOrder := by
  have htimes : sortWith (fun x y => Json.sortOrder x y == .lt)
      (roundabout.map fun k => some (roundTime k)) = none := by
    rw [← map_sortWith fun a _ b _ => sortOrder_roundTime a b, sortWith_roundabout,
      Option.map_none]
  have hsame (a b : Json) : (Json.sortOrder (a.first? path) (b.first? path) == .lt) =
      (compareAll [(path, .ofInt 1)] a b == .lt) := by
    rw [compareAll, compareAll, Ordering.then_eq]
    rfl
  have hmapped : (sortWith (fun a b => compareAll [(path, .ofInt 1)] a b == .lt) documents).map
      (List.map (Json.first? path)) =
        sortWith (fun x y => Json.sortOrder x y == .lt) (documents.map (Json.first? path)) :=
    map_sortWith fun a _ b _ => hsame a b
  rw [h, htimes, Option.map_eq_none_iff] at hmapped
  rw [sortBy, hmapped]

end Rows

end ScopedDocs
