import ScopedDocs.Proofs.Whitelist
/-!
# Validation — which searches have a plan

Where nesting too deep is refused, a search has a plan just when every group of tests at
every depth passes on its own, no aggregation stands too deep, and the projection, the sort
order and the page size pass (`Search.plan_iff`). How the groups are combined does not
matter, and a range is checked also if it has no bounds. So one test that does not pass
refuses the whole search, wherever it stands.

Everything about the tree is in one predicate of a list of aggregations, `Admissible`, which
comes apart as the compilation does: into the head and the rest, and from a head into the
lists that its groups nest (`admissible_cons`).
-/


namespace ScopedDocs

/-! ## Groups -/

namespace TestGroup

/-- The nested aggregations. -/
def nested : TestGroup → List Aggregation
  | tests _ _ _ nested => nested

end TestGroup

/-- A name that the whitelist lets through and that resolves. -/
def Schema.Offers (s : Schema) (name : String) : Prop :=
  s.checkQueryable name = .ok () ∧ ∃ r, s.resolve name = .ok r

/-- **A group passes by itself**: each of its own tests is of a field that is offered, and
has a value if its operator takes one. Of what it nests it says nothing. -/
def TestGroup.Passes (s : Schema) : TestGroup → Prop
  | .tests values dates spans _ =>
    (∀ name ∈ values.map ValueTest.field ++ dates.map DateRange.field ++
      spans.map SpanRange.field, s.Offers name) ∧
    ∀ t ∈ values, t.operator ≠ .isIn → t.operator ≠ .notIn → t.values ≠ []

/-- **Where an aggregation stands** among aggregations, which are at depth one. -/
inductive StandsAt : List Aggregation → Nat → Aggregation → Prop
  /-- It is one of them. -/
  | here {aggregations : List Aggregation} {a : Aggregation} :
      a ∈ aggregations → StandsAt aggregations 1 a
  /-- A group of one of them nests it. -/
  | inside {aggregations : List Aggregation} {a b : Aggregation} {group : TestGroup} {depth : Nat} :
      a ∈ aggregations → group ∈ a.groups → StandsAt group.nested depth b →
      StandsAt aggregations (depth + 1) b

/-- **Aggregations that a compilation at a depth admits**: what stands among them is not too
deep, and its groups pass. -/
def Admissible (c : Config) (s : Schema) (depth : Nat) (aggregations : List Aggregation) : Prop :=
  ∀ n b, StandsAt aggregations n b →
    depth + n ≤ c.maxDepth.toNat + 1 ∧ ∀ group ∈ b.groups, group.Passes s

section

variable {c : Config} {s : Schema} {depth : Nat}

theorem admissible_nil : Admissible c s depth [] := by
  rintro n b (h | ⟨h, -, -⟩) <;> exact absurd h List.not_mem_nil

/-- The head is admitted at its depth, what its groups nest one level deeper, and the rest
as if there were no head. -/
theorem admissible_cons {a : Aggregation} {rest : List Aggregation} :
    Admissible c s depth (a :: rest) ↔
      (depth ≤ c.maxDepth.toNat ∧
        ∀ group ∈ a.groups, group.Passes s ∧ Admissible c s (depth + 1) group.nested) ∧
      Admissible c s depth rest := by
  constructor
  · intro h
    obtain ⟨hdepth, hpasses⟩ := h 1 a (.here List.mem_cons_self)
    refine ⟨⟨by omega, fun group hgroup => ⟨hpasses group hgroup, fun n b hb => ?_⟩⟩, ?_⟩
    · obtain ⟨hbelow, hb⟩ := h (n + 1) b (.inside List.mem_cons_self hgroup hb)
      exact ⟨by omega, hb⟩
    · rintro n b (ha | ⟨ha, hgroup, hb⟩)
      · exact h 1 b (.here (List.mem_cons_of_mem _ ha))
      · exact h _ b (.inside (List.mem_cons_of_mem _ ha) hgroup hb)
  · rintro ⟨⟨hdepth, hgroups⟩, hrest⟩ n b (ha | ⟨ha, hgroup, hb⟩)
    · rcases List.mem_cons.mp ha with rfl | ha
      · exact ⟨by omega, fun group hgroup => (hgroups group hgroup).1⟩
      · exact hrest 1 b (.here ha)
    · rcases List.mem_cons.mp ha with rfl | ha
      · obtain ⟨hbelow, hb⟩ := (hgroups _ hgroup).2 _ b hb
        exact ⟨by omega, hb⟩
      · exact hrest _ b (.inside ha hgroup hb)

/-! ## Terms -/

/-- A name resolves for callers just when it is offered. -/
theorem Schema.exists_resolveQueryable {name : String} :
    (∃ r, s.resolveQueryable name = .ok r) ↔ s.Offers name := by
  simp only [resolveQueryable, exists_bind_eq_ok, Offers]
  constructor
  · rintro ⟨⟨⟩, hcheck, hresolve⟩
    exact ⟨hcheck, hresolve⟩
  · rintro ⟨hcheck, hresolve⟩
    exact ⟨(), hcheck, hresolve⟩

/-- A first value is one of some values. -/
theorem ValueTest.exists_first {t : ValueTest} :
    (∃ value, t.first = .ok value) ↔ t.values ≠ [] := by
  rw [first]
  cases t.values with
  | nil => simp
  | cons value rest => simp

/-- Only an operator that takes one value can lack it. -/
theorem ValueTest.exists_condition {t : ValueTest} :
    (∃ condition, t.condition = .ok condition) ↔
      (t.operator ≠ .isIn → t.operator ≠ .notIn → t.values ≠ []) := by
  unfold condition
  cases t.operator with
  | isIn | notIn => simp
  | _ => simp only [ne_eq, reduceCtorEq, not_false_eq_true, forall_const, exists_map_eq_ok,
      exists_first]

theorem ValueTest.exists_term {t : ValueTest} :
    (∃ term, t.term s = .ok term) ↔
      s.Offers t.field ∧ (t.operator ≠ .isIn → t.operator ≠ .notIn → t.values ≠ []) := by
  rw [← exists_condition, ← Schema.exists_resolveQueryable]
  simp only [term, exists_bind_eq_ok, Except.ok.injEq, exists_eq', and_true]
  constructor
  · rintro ⟨r, hr, hcondition⟩
    exact ⟨⟨r, hr⟩, hcondition⟩
  · rintro ⟨⟨r, hr⟩, hcondition⟩
    exact ⟨r, hr, hcondition⟩

/-- The field of a range is checked, whether the range has bounds or none. -/
theorem DateRange.exists_term {t : DateRange} :
    (∃ term, t.term s = .ok term) ↔ s.Offers t.field := by
  rw [← Schema.exists_resolveQueryable]
  simp only [term, exists_bind_eq_ok, Except.ok.injEq, exists_eq', and_true]

theorem SpanRange.exists_term {t : SpanRange} :
    (∃ term, t.term s = .ok term) ↔ s.Offers t.field := by
  rw [← Schema.exists_resolveQueryable]
  simp only [term, exists_bind_eq_ok, Except.ok.injEq, exists_eq', and_true]

/-! ## Trees -/

mutual

/-- The term of an aggregation, where nesting too deep is refused. -/
theorem Aggregation.exists_term (hreject : c.depthOverflow = .reject) {depth : Nat} :
    (a : Aggregation) → ((∃ term, a.term c s depth = .ok term) ↔
      depth ≤ c.maxDepth.toNat ∧
        ∀ group ∈ a.groups, group.Passes s ∧ Admissible c s (depth + 1) group.nested)
  | .combine clause groups => by
    rw [Aggregation.term, Aggregation.groups]
    split
    · next hdeep =>
      rw [hreject]
      exact iff_of_false (by simp) fun h => absurd h.1 (by omega)
    · next hdeep =>
      rw [and_iff_right (by omega), ← exists_groupTerms hreject groups]
      simp only [exists_bind_eq_ok, Except.ok.injEq, exists_eq', and_true]

theorem exists_groupTerms (hreject : c.depthOverflow = .reject) {depth : Nat} :
    (groups : List TestGroup) → ((∃ terms, groupTerms c s depth groups = .ok terms) ↔
      ∀ group ∈ groups, group.Passes s ∧ Admissible c s (depth + 1) group.nested)
  | [] => by simp [groupTerms]
  | group :: groups => by
    rw [List.forall_mem_cons, ← TestGroup.exists_terms hreject group,
      ← exists_groupTerms hreject groups]
    simp only [groupTerms, exists_bind_eq_ok, Except.ok.injEq, exists_eq', and_true,
      exists_and_right]

/-- The terms of a group: of its own tests, and of what it nests. -/
theorem TestGroup.exists_terms (hreject : c.depthOverflow = .reject) {depth : Nat} :
    (group : TestGroup) → ((∃ terms, group.terms c s depth = .ok terms) ↔
      group.Passes s ∧ Admissible c s (depth + 1) group.nested)
  | .tests values dates spans nested => by
    rw [TestGroup.nested, ← exists_aggregationTerms hreject nested]
    simp only [TestGroup.terms, exists_bind_eq_ok, Except.ok.injEq, exists_eq', and_true,
      exists_and_right, exists_mapM_eq_ok, ValueTest.exists_term, DateRange.exists_term,
      SpanRange.exists_term, TestGroup.Passes, List.forall_mem_append, List.forall_mem_map]
    constructor
    · rintro ⟨hvalues, hdates, hspans, hnested⟩
      exact ⟨⟨⟨⟨fun t ht => (hvalues t ht).1, hdates⟩, hspans⟩, fun t ht => (hvalues t ht).2⟩,
        hnested⟩
    · rintro ⟨⟨⟨⟨hfields, hdates⟩, hspans⟩, hoperands⟩, hnested⟩
      exact ⟨fun t ht => ⟨hfields t ht, hoperands t ht⟩, hdates, hspans, hnested⟩

theorem exists_aggregationTerms (hreject : c.depthOverflow = .reject) {depth : Nat} :
    (aggregations : List Aggregation) →
      ((∃ terms, aggregationTerms c s depth aggregations = .ok terms) ↔
        Admissible c s depth aggregations)
  | [] => iff_of_true ⟨[], rfl⟩ admissible_nil
  | a :: rest => by
    rw [admissible_cons, ← Aggregation.exists_term hreject a,
      ← exists_aggregationTerms hreject rest]
    simp only [aggregationTerms, exists_bind_eq_ok, Except.ok.injEq, exists_eq', and_true,
      exists_and_right]

end

/-- **The filter of a search** exists just when its aggregations are admitted. -/
theorem exists_filterOf (hreject : c.depthOverflow = .reject) {aggregations : List Aggregation} :
    (∃ condition, filterOf c s aggregations = .ok condition) ↔ Admissible c s 1 aggregations := by
  rw [← exists_aggregationTerms hreject, filterOf, exists_bind_eq_ok]
  refine ⟨fun ⟨terms, hterms, _⟩ => ⟨terms, hterms⟩, fun ⟨terms, hterms⟩ => ⟨terms, hterms, ?_⟩⟩
  split <;> exact ⟨_, rfl⟩

/-! ## Options -/

/-- **The projection of a search** exists unless fields are picked and others left out, or
one of them does not resolve. -/
theorem ResultOptions.exists_projection {o : ResultOptions} :
    (∃ projection, o.projection s = .ok projection) ↔
      (o.picked = [] ∨ o.omitted = []) ∧
      (∀ name ∈ o.picked, ∃ r, s.resolveUnrestricted name = .ok r) ∧
      ∀ name ∈ o.omitted, ∃ r, s.resolve name = .ok r := by
  rw [projection]
  cases hpicked : o.picked with
  | nil =>
    cases homitted : o.omitted with
    | nil => simp
    | cons name names =>
      simp only [List.isEmpty_nil, List.isEmpty_cons, Bool.and_false, Bool.false_eq_true,
        ↓reduceIte, exists_bind_eq_ok, Except.ok.injEq, exists_eq', and_true, exists_mapM_eq_ok,
        List.not_mem_nil, false_implies, implies_true, true_or, true_and]
  | cons name names =>
    cases homitted : o.omitted with
    | nil =>
      simp only [List.isEmpty_nil, List.isEmpty_cons, Bool.and_true, Bool.false_eq_true,
        ↓reduceIte, exists_bind_eq_ok, Except.ok.injEq, exists_eq', and_true, exists_mapM_eq_ok,
        List.not_mem_nil, false_implies, implies_true, or_true, true_and]
    | cons => simp

/-- **The sort order of a search** exists if each of its fields may be sorted by. -/
theorem exists_sortOf {keys : List SortKey} :
    (∃ sort, sortOf s keys = .ok sort) ↔
      ∀ key ∈ keys, ∃ r, s.resolveUnrestricted key.field = .ok r := by
  rw [sortOf]
  cases keys with
  | nil => simp
  | cons key rest =>
    simp only [List.isEmpty_cons, Bool.false_eq_true, ↓reduceIte, exists_bind_eq_ok,
      Except.ok.injEq, exists_eq', and_true, exists_mapM_eq_ok, exists_map_eq_ok]

/-- **The page size of a search** passes unless it is above the greatest. -/
theorem Config.exists_effectiveLimit {requested : UInt64} :
    (∃ size, c.effectiveLimit requested = .ok size) ↔
      requested = 0 ∨ requested ≤ c.maxPageSize := by
  rw [effectiveLimit]
  split
  · next hzero => simp [hzero]
  · next hzero =>
    split
    · next habove =>
      refine iff_of_false (by simp) ?_
      rintro (hzero' | hbelow)
      · exact hzero hzero'
      · exact absurd habove (UInt64.not_lt.mpr hbelow)
    · next hbelow => exact iff_of_true ⟨_, rfl⟩ (.inr (UInt64.not_lt.mp hbelow))

end

/-! ## Searches -/

namespace Search

variable {c : Config} {s : Schema} {search : Search}

/-- **Which searches have a plan**, where nesting too deep is refused. Everything that stands
in the tree is not too deep, and its groups pass; fields are picked or left out but not both;
nothing denied is picked or sorted by, and what is left out resolves; and the page size is
the default or not too large. So one group that does not pass, at any depth, by whichever
clause it is combined and whatever stands beside it, refuses the search. -/
theorem plan_iff (hreject : c.depthOverflow = .reject) :
    ((∃ p, search.plan c s = .ok p) ↔
      (∀ depth b, StandsAt search.aggregations depth b →
        depth ≤ c.maxDepth.toNat ∧ ∀ group ∈ b.groups, group.Passes s) ∧
      (search.options.picked = [] ∨ search.options.omitted = []) ∧
      (∀ name ∈ search.options.picked, ∃ r, s.resolveUnrestricted name = .ok r) ∧
      (∀ key ∈ search.sort, ∃ r, s.resolveUnrestricted key.field = .ok r) ∧
      (∀ name ∈ search.options.omitted, ∃ r, s.resolve name = .ok r) ∧
      (search.options.limit = 0 ∨ search.options.limit ≤ c.maxPageSize)) ∧
    ∀ depth b group, StandsAt search.aggregations depth b → group ∈ b.groups →
      ¬ group.Passes s → ∃ e, search.plan c s = .error e := by
  have hadmissible : Admissible c s 1 search.aggregations ↔
      ∀ depth b, StandsAt search.aggregations depth b →
        depth ≤ c.maxDepth.toNat ∧ ∀ group ∈ b.groups, group.Passes s := by
    simp only [Admissible, Nat.add_comm 1, Nat.add_le_add_iff_right]
  have hparts : (∃ p, search.plan c s = .ok p) ↔
      Admissible c s 1 search.aggregations ∧
      (∃ projection, search.options.projection s = .ok projection) ∧
      (∃ sort, sortOf s search.sort = .ok sort) ∧
      ∃ limit, c.effectiveLimit search.options.limit = .ok limit := by
    simp only [plan, exists_bind_eq_ok, Except.ok.injEq, exists_eq', and_true, exists_and_right,
      exists_filterOf hreject]
  rw [exists_eq_error, hparts, hadmissible, ResultOptions.exists_projection, exists_sortOf,
    Config.exists_effectiveLimit]
  constructor
  · constructor
    · rintro ⟨htree, ⟨hpick, hpicked, homitted⟩, hsort, hlimit⟩
      exact ⟨htree, hpick, hpicked, hsort, homitted, hlimit⟩
    · rintro ⟨htree, hpick, hpicked, hsort, homitted, hlimit⟩
      exact ⟨htree, ⟨hpick, hpicked, homitted⟩, hsort, hlimit⟩
  · rintro depth b group hb hgroup hfails ⟨htree, -⟩
    exact hfails ((htree depth b hb).2 group hgroup)

/-- A record by its key, or else a nested range of a denied field, which has no bounds. -/
def serverSearch : Search :=
  { aggregations := [.anyOf [.ofValues [.eq "ID" (.str "r1")],
      .ofNested [.allOf [.ofDates [⟨"Header.Server", none, none⟩]]]]] }

/-- It is refused. -/
theorem plan_iff_server :
    ({} : Config).depthOverflow = .reject ∧ ∃ e, serverSearch.plan {} headerSchema = .error e := by
  refine ⟨rfl, (plan_iff rfl).2 2 (.allOf [.ofDates [⟨"Header.Server", none, none⟩]])
    (.ofDates [⟨"Header.Server", none, none⟩]) ?_ (List.mem_singleton_self _) ?_⟩
  · exact .inside (List.mem_singleton_self _) (List.mem_cons_of_mem _ (List.mem_singleton_self _))
      (.here (List.mem_singleton_self _))
  · rintro ⟨hfields, -⟩
    have hserver : headerSchema.Offers "Header.Server" := hfields _ (List.mem_singleton_self _)
    exact absurd hserver.1 (by decide)

end Search

end ScopedDocs
