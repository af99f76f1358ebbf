import ScopedDocs.Proofs.Validation
/-!
# Pruning — searches without what is nested too deep

A search can be pruned: what stands in it deeper than some number of levels is taken out,
and all else stays (`standsAt_pruned`). Leaving out what is nested too deep while a search
is planned is the same as pruning it first (`Search.plan_pruned`): one induction over the
tree, in which the levels that are left count down while the depth counts up.
-/


namespace ScopedDocs

mutual

/-- An aggregation without what it nests deeper than some levels. -/
def Aggregation.pruned (levels : Nat) : Aggregation → Aggregation
  | .combine clause groups => .combine clause (prunedGroups levels groups)

/-- Groups without what they nest deeper than some levels. -/
def prunedGroups (levels : Nat) : List TestGroup → List TestGroup
  | [] => []
  | group :: groups => group.pruned levels :: prunedGroups levels groups

/-- A group without what it nests deeper than some levels. Its tests stay. -/
def TestGroup.pruned (levels : Nat) : TestGroup → TestGroup
  | .tests values dates spans nested => .tests values dates spans (prunedAggregations levels nested)

/-- **Pruning.** The uppermost levels of aggregations, of which they are the first. -/
def prunedAggregations : Nat → List Aggregation → List Aggregation
  | 0, _ => []
  | _ + 1, [] => []
  | levels + 1, a :: rest => a.pruned levels :: prunedAggregations (levels + 1) rest

end

/-- A search with the uppermost levels of its aggregations only. -/
def Search.pruned (levels : Nat) (search : Search) : Search :=
  { search with aggregations := prunedAggregations levels search.aggregations }

/-! ## What is left -/

section

variable {levels depth : Nat} {aggregations : List Aggregation} {b : Aggregation}

theorem prunedGroups_eq_map (levels : Nat) (groups : List TestGroup) :
    prunedGroups levels groups = groups.map (TestGroup.pruned levels) := by
  induction groups with
  | nil => rfl
  | cons group groups ih => rw [prunedGroups, ih, List.map_cons]

theorem prunedAggregations_eq_map (levels : Nat) (aggregations : List Aggregation) :
    prunedAggregations (levels + 1) aggregations =
      aggregations.map (Aggregation.pruned levels) := by
  induction aggregations with
  | nil => rfl
  | cons a rest ih => rw [prunedAggregations, ih, List.map_cons]

/-- The groups of an aggregation that is pruned are pruned. -/
theorem Aggregation.groups_pruned (a : Aggregation) :
    (a.pruned levels).groups = a.groups.map (TestGroup.pruned levels) := by
  obtain ⟨clause, groups⟩ := a
  exact prunedGroups_eq_map levels groups

theorem TestGroup.nested_pruned (group : TestGroup) :
    (group.pruned levels).nested = prunedAggregations levels group.nested := by
  obtain ⟨values, dates, spans, nested⟩ := group
  rfl

/-- What is left at the first level are the aggregations themselves, pruned. -/
theorem mem_prunedAggregations :
    b ∈ prunedAggregations levels aggregations ↔
      ∃ n, levels = n + 1 ∧ ∃ a ∈ aggregations, a.pruned n = b := by
  cases levels with
  | zero => simp [prunedAggregations]
  | succ n => simp [prunedAggregations_eq_map]

/-- **What is left by pruning** is what stands no deeper than the levels that are kept, with
as many levels below it as are left there. -/
theorem standsAt_pruned :
    StandsAt (prunedAggregations levels aggregations) depth b ↔
      depth ≤ levels ∧ ∃ a, StandsAt aggregations depth a ∧ a.pruned (levels - depth) = b := by
  constructor
  · intro h
    generalize hpruned : prunedAggregations levels aggregations = kept at h
    induction h generalizing levels aggregations with
    | here hmem =>
      subst hpruned
      obtain ⟨n, rfl, a, ha, rfl⟩ := mem_prunedAggregations.mp hmem
      exact ⟨Nat.le_add_left 1 n, a, .here ha, by rw [Nat.add_sub_cancel]⟩
    | inside hmem hgroup _ ih =>
      subst hpruned
      obtain ⟨n, rfl, a, ha, rfl⟩ := mem_prunedAggregations.mp hmem
      rw [Aggregation.groups_pruned] at hgroup
      obtain ⟨group, hmember, rfl⟩ := List.mem_map.mp hgroup
      obtain ⟨hdepth, inner, hinner, rfl⟩ := ih group.nested_pruned.symm
      refine ⟨Nat.succ_le_succ hdepth, inner, .inside ha hmember hinner, ?_⟩
      rw [Nat.add_sub_add_right]
  · rintro ⟨hdepth, a, h, rfl⟩
    induction h generalizing levels with
    | here ha =>
      obtain ⟨n, rfl⟩ := Nat.exists_eq_add_of_le' hdepth
      exact .here (mem_prunedAggregations.mpr ⟨n, rfl, _, ha, by rw [Nat.add_sub_cancel]⟩)
    | @inside _ a _ group depth ha hgroup _ ih =>
      obtain ⟨n, rfl⟩ : ∃ n, levels = n + 1 :=
        Nat.exists_eq_add_of_le' (Nat.le_of_add_left_le hdepth)
      have hinner := ih (Nat.le_of_succ_le_succ hdepth)
      rw [← TestGroup.nested_pruned, ← Nat.add_sub_add_right n 1 depth] at hinner
      refine .inside (mem_prunedAggregations.mpr ⟨n, rfl, a, ha, rfl⟩) ?_ hinner
      rw [Aggregation.groups_pruned]
      exact List.mem_map_of_mem hgroup

end

/-! ## Plans -/

section

variable {c c' : Config} {s : Schema} {levels depth : Nat}

/-- Below the last level that is allowed nothing has a term, if it is left out. -/
theorem aggregationTerms_of_lt (hdrop : c.depthOverflow = .drop) (h : c.maxDepth.toNat < depth)
    (aggregations : List Aggregation) : aggregationTerms c s depth aggregations = .ok [] := by
  induction aggregations with
  | nil => rfl
  | cons a rest ih =>
    obtain ⟨clause, groups⟩ := a
    rw [aggregationTerms, Aggregation.term, if_pos h, hdrop, ih]
    rfl

mutual

/-- **An aggregation that is not too deep** has the term that it has when it is pruned to
the levels that are left below it. -/
theorem Aggregation.term_pruned (hdrop : c.depthOverflow = .drop) (hmax : c'.maxDepth = c.maxDepth)
    {depth levels : Nat} (h : depth + levels = c.maxDepth.toNat) :
    (a : Aggregation) → a.term c s depth = (a.pruned levels).term c' s depth
  | .combine clause groups => by
    have hdepth : ¬ c.maxDepth.toNat < depth := by omega
    rw [Aggregation.pruned, Aggregation.term, Aggregation.term, hmax, if_neg hdepth, if_neg hdepth,
      groupTerms_pruned hdrop hmax h groups]

theorem groupTerms_pruned (hdrop : c.depthOverflow = .drop) (hmax : c'.maxDepth = c.maxDepth)
    {depth levels : Nat} (h : depth + levels = c.maxDepth.toNat) :
    (groups : List TestGroup) →
      groupTerms c s depth groups = groupTerms c' s depth (prunedGroups levels groups)
  | [] => rfl
  | group :: groups => by
    rw [prunedGroups, groupTerms, groupTerms, TestGroup.terms_pruned hdrop hmax h group,
      groupTerms_pruned hdrop hmax h groups]

/-- A group has the terms of its own tests, and what it nests is one level deeper. -/
theorem TestGroup.terms_pruned (hdrop : c.depthOverflow = .drop) (hmax : c'.maxDepth = c.maxDepth)
    {depth levels : Nat} (h : depth + levels = c.maxDepth.toNat) :
    (group : TestGroup) → group.terms c s depth = (group.pruned levels).terms c' s depth
  | .tests values dates spans nested => by
    have hnested : depth + 1 + levels = c.maxDepth.toNat + 1 := by omega
    rw [TestGroup.pruned, TestGroup.terms, TestGroup.terms,
      aggregationTerms_pruned hdrop hmax hnested nested]

theorem aggregationTerms_pruned (hdrop : c.depthOverflow = .drop)
    (hmax : c'.maxDepth = c.maxDepth) {depth levels : Nat}
    (h : depth + levels = c.maxDepth.toNat + 1) :
    (aggregations : List Aggregation) →
      aggregationTerms c s depth aggregations =
        aggregationTerms c' s depth (prunedAggregations levels aggregations)
  | [] => by cases levels <;> rfl
  | a :: rest => by
    cases levels with
    | zero =>
      -- no level is left, and none of them is looked into
      exact aggregationTerms_of_lt hdrop (by omega) (a :: rest)
    | succ n =>
      have hfirst : depth + n = c.maxDepth.toNat := by omega
      rw [prunedAggregations, aggregationTerms, aggregationTerms,
        Aggregation.term_pruned hdrop hmax hfirst a, aggregationTerms_pruned hdrop hmax h rest]

end

/-- **The filter** of aggregations, where those too deep are left out, is that of the pruned
ones. -/
theorem filterOf_pruned (hdrop : c.depthOverflow = .drop) (hmax : c'.maxDepth = c.maxDepth)
    (aggregations : List Aggregation) :
    filterOf c s aggregations =
      filterOf c' s (prunedAggregations c.maxDepth.toNat aggregations) := by
  rw [filterOf, filterOf, aggregationTerms_pruned hdrop hmax (Nat.add_comm 1 _)]

end

/-- **Leaving out is pruning.** Where aggregations that are nested too deep are left out, a
search has the plan, or is refused with the error, that it has when it is pruned before and
nesting too deep is refused. Pruning takes out what stands too deep, and nothing else. -/
theorem Search.plan_pruned (c : Config) (s : Schema) (search : Search) :
    search.plan { c with depthOverflow := .drop } s =
        (search.pruned c.maxDepth.toNat).plan { c with depthOverflow := .reject } s ∧
      ∀ depth b, StandsAt (search.pruned c.maxDepth.toNat).aggregations depth b ↔
        depth ≤ c.maxDepth.toNat ∧ ∃ a, StandsAt search.aggregations depth a ∧
          a.pruned (c.maxDepth.toNat - depth) = b := by
  let dropping : Config := { c with depthOverflow := .drop }
  let refusing : Config := { c with depthOverflow := .reject }
  have hdrop : dropping.depthOverflow = .drop := rfl
  have hmax : refusing.maxDepth = dropping.maxDepth := rfl
  have hfilter : filterOf dropping s search.aggregations =
      filterOf refusing s (prunedAggregations c.maxDepth.toNat search.aggregations) :=
    filterOf_pruned hdrop hmax search.aggregations
  refine ⟨?_, fun _ _ => standsAt_pruned⟩
  rw [Search.plan, hfilter]
  rfl

end ScopedDocs
