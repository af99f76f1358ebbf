import ScopedDocs.Proofs.Filter
import ScopedDocs.Proofs.Literal
import ScopedDocs.Proofs.Storage
import ScopedDocs.Search.Plan
/-!
# Verdicts — what a search says of a document

A search is a tree of tests, and what it says of a document can be told without any
filter (`Search.verdict`): a test asks for values at the place its field resolves to,
an aggregation combines what its members say, and what asks for nothing is ignored. The
filter that is planned for a search holds just where the search says so
(`filterOf_holds`), with one exception: where a wildcard asks for an element of an
array, a range with bounds is tested on the array as a whole.
-/


namespace ScopedDocs

/-! ## Tests of found values -/

namespace Json

/-- What a test of found values sees: these, and the items of arrays among them. -/
def seen (found : List Json) : List Json := found.flatMap withItems

/-- Whether an expected value is seen. Where nothing is, `null` is. -/
def equalsSome (found : List Json) (expected : Json) : Bool :=
  match seen found with
  | [] => expected.same .null
  | values => values.any fun value => value.matchesValue expected

/-- Whether a value is seen that stands to an operand as asked. -/
def comparesSome (accepts : Ordering → Bool) (found : List Json) (operand : Json) : Bool :=
  (seen found).any fun value => (value.compare? operand).any accepts

/-- Whether a text is seen that has the text of an operand where it is asked for,
whatever the case. -/
def hasText (found : List Json) (isPart : List Char → List Char → Prop) [DecidableRel isPart]
    (operand : Json) : Bool :=
  (seen found).any fun value =>
    value.string?.any fun t =>
      decide (isPart (Pattern.foldedChars operand.searchText) (Pattern.foldedChars t))

end Json

open Json in
/-- **What an operator asks of found values.** A comparison and a test of text take the
first of the values they are given. -/
def SearchOperator.holdsOf (values found : List Json) : SearchOperator → Bool
  | equals => values.head?.any (equalsSome found)
  | notEquals => values.head?.any fun value => !equalsSome found value
  | greater => values.head?.any (comparesSome Ordering.isGT found)
  | less => values.head?.any (comparesSome Ordering.isLT found)
  | greaterOrEqual => values.head?.any (comparesSome Ordering.isGE found)
  | lessOrEqual => values.head?.any (comparesSome Ordering.isLE found)
  | contains => values.head?.any (hasText found (· <:+: ·))
  | startsWith => values.head?.any (hasText found (· <+: ·))
  | endsWith => values.head?.any (hasText found (· <:+ ·))
  | isIn => values.any (equalsSome found)
  | notIn => !values.any (equalsSome found)

/-- What bounds ask of found values: something at or above the one, and something at or
below the other. -/
def boundsHold (min max : Option Json) (found : List Json) : Bool :=
  min.all (Json.comparesSome Ordering.isGE found) && max.all (Json.comparesSome Ordering.isLE found)

/-! ## What a search says -/

namespace Resolved

/-- **Where a test looks**: at what is found at its path or, where a test has to hold for
an element, at each item of the arrays found there. -/
def found (r : Resolved) (document : Json) : List (List Json) :=
  if r.elementMatch then (Filter.itemsAt document (Dotted.segments r.path)).map fun item => [item]
  else [document.reach (Dotted.segments r.path)]

/-- The path as a whole, whether or not a test has to hold for an element. -/
def whole (r : Resolved) : Resolved := { r with elementMatch := false }

theorem whole_of_not {r : Resolved} (h : r.elementMatch = false) : r.whole = r := by
  rw [whole, ← h]

end Resolved

/-- Whether a test holds in some place its field resolves to. -/
def Schema.testHolds (s : Schema) (reads : Resolved → Resolved) (document : Json) (field : String)
    (test : List Json → Bool) : Bool :=
  match s.resolveQueryable field with
  | .ok r => ((reads r).found document).any test
  | .error _ => false

namespace DateRange

/-- The bounds as they are stored. -/
def least (r : DateRange) : Option Json := r.min.map fun t => .str t.text

def greatest (r : DateRange) : Option Json := r.max.map fun t => .str t.text

end DateRange

namespace SpanRange

/-- The bounds as they are stored. -/
def least (r : SpanRange) : Option Json := r.min.map fun s => .ofNat s.millis

def greatest (r : SpanRange) : Option Json := r.max.map fun s => .ofNat s.millis

end SpanRange

/-- What a clause makes of what its members say, unless there are none. -/
def Clause.verdict : Clause → List Bool → Option Bool
  | _, [] => none
  | all, verdicts => some (verdicts.all id)
  | any, verdicts => some (verdicts.any id)

section

variable (s : Schema) (reads : Resolved → Resolved) (document : Json)

/-- What a test against values says. -/
def ValueTest.verdict (t : ValueTest) : Bool :=
  s.testHolds id document t.field fun found => t.operator.holdsOf t.values found

/-- What a range says, unless it has no bounds. -/
def rangeVerdict (field : String) (min max : Option Json) : Option Bool :=
  if min.isNone && max.isNone then none
  else some (s.testHolds reads document field (boundsHold min max))

mutual

/-- **What an aggregation says**, unless nothing in it asks for anything. -/
def Aggregation.verdict : Aggregation → Option Bool
  | .combine clause groups => clause.verdict (groupVerdicts groups)

/-- What the members of groups say, in order. -/
def groupVerdicts : List TestGroup → List Bool
  | [] => []
  | group :: groups => group.verdicts ++ groupVerdicts groups

/-- What the members of a group say: values, dates, spans, and nested aggregations. -/
def TestGroup.verdicts : TestGroup → List Bool
  | .tests values dates spans nested =>
    values.map (ValueTest.verdict s document) ++
      dates.filterMap (fun r => rangeVerdict s reads document r.field r.least r.greatest) ++
      spans.filterMap (fun r => rangeVerdict s reads document r.field r.least r.greatest) ++
      aggregationVerdicts nested

/-- What aggregations say, in order. -/
def aggregationVerdicts : List Aggregation → List Bool
  | [] => []
  | aggregation :: aggregations => aggregation.verdict.toList ++ aggregationVerdicts aggregations

end

/-- **What a search says of a document**: all its aggregations, as far as they ask for
anything. Ranges read their place as they are told to. -/
def searchVerdict (aggregations : List Aggregation) : Bool :=
  (aggregationVerdicts s reads document aggregations).all id

end

mutual

/-- The fields of the ranges with bounds in an aggregation. -/
def Aggregation.rangeFields : Aggregation → List String
  | .combine _ groups => groupRangeFields groups

/-- The fields of the ranges with bounds in groups. -/
def groupRangeFields : List TestGroup → List String
  | [] => []
  | group :: groups => group.rangeFields ++ groupRangeFields groups

/-- The fields of the ranges with bounds in a group. -/
def TestGroup.rangeFields : TestGroup → List String
  | .tests _ dates spans nested =>
    dates.filterMap (fun r => r.condition?.map fun _ => r.field) ++
      spans.filterMap (fun r => r.condition?.map fun _ => r.field) ++
      aggregationRangeFields nested

/-- The fields of the ranges with bounds in aggregations. -/
def aggregationRangeFields : List Aggregation → List String
  | [] => []
  | aggregation :: aggregations => aggregation.rangeFields ++ aggregationRangeFields aggregations

end

mutual

/-- The tests against values in an aggregation. -/
def Aggregation.valueTests : Aggregation → List ValueTest
  | .combine _ groups => groupValueTests groups

/-- The tests against values in groups. -/
def groupValueTests : List TestGroup → List ValueTest
  | [] => []
  | group :: groups => group.valueTests ++ groupValueTests groups

/-- The tests against values in a group. -/
def TestGroup.valueTests : TestGroup → List ValueTest
  | .tests values _ _ nested => values ++ aggregationValueTests nested

/-- The tests against values in aggregations. -/
def aggregationValueTests : List Aggregation → List ValueTest
  | [] => []
  | aggregation :: aggregations => aggregation.valueTests ++ aggregationValueTests aggregations

end

/-! ## Patterns that fit -/

/-- **The pattern of a text** that an operator looks for, if it looks for one. -/
def SearchOperator.pattern? (operator : SearchOperator) (text : String) : Option Pattern :=
  match operator with
  | .contains => some (.literal text.toList)
  | .startsWith => some (.seq .start (.literal text.toList))
  | .endsWith => some (.sequence text.toList (.seq .finish .empty))
  | _ => none

/-- **A test fits** if the pattern of the text it looks for is not too large to be searched
for, whatever the case. -/
def ValueTest.Fits (t : ValueTest) : Prop :=
  ∀ value ∈ t.values.head?, ∀ p ∈ t.operator.pattern? value.searchText,
    p.isOversized ⟨true, false⟩ = false

instance (t : ValueTest) : Decidable t.Fits :=
  inferInstanceAs (Decidable (∀ value ∈ t.values.head?,
    ∀ p ∈ t.operator.pattern? value.searchText, p.isOversized ⟨true, false⟩ = false))

/-! ## Conditions -/

namespace Filter

/-- **A condition that tests found values**: its members are operators, and they hold as
the test says, whatever is found. -/
structure Tests (members : Members Json) (test : List Json → Bool) : Prop where
  /-- The members are operators. -/
  areOperators : areOperators members = true
  /-- They hold as the test says. -/
  holds : ∀ document segments, operatorsHold document segments (patternOptions members) members =
    .ok (test (document.reach segments))

variable {name : String}

/-- A single operator is a condition that tests what the operator tests. -/
theorem tests_single {operand : Json} {test : List Json → Bool} (hword : isWord name = true)
    (hname : Operator.ofName? name ≠ some .elemMatch)
    (h : ∀ document segments options, testHolds document segments options name operand =
      .ok (test (document.reach segments))) :
    Tests [(name, operand)] test := by
  refine ⟨by simp [Filter.areOperators, hword], fun document segments => ?_⟩
  rw [operatorsHold_single, operatorHolds_test hname, h]

/-- A pattern that can be read is searched for, unless it is too large. -/
theorem matchesAt_of_ofText? {text : String} {p : Pattern}
    (hread : Pattern.ofText? text = some p) (document : Json) (segments : List String) :
    matchesAt document segments "i" (.str text) =
      if p.isOversized ⟨true, false⟩ then .error (.ofFault (.oversizedPattern Pattern.maxSize))
      else .ok ((Json.seen (document.reach segments)).any fun value =>
        value.string?.any (p.occurs ⟨true, false⟩)) := by
  have hmode : (⟨"i".toList.contains 'i', "i".toList.contains 'm'⟩ : Pattern.Mode) =
    ⟨true, false⟩ := rfl
  simp only [matchesAt, hread, hmode]
  rfl

/-- Where the options come second, they change nothing of what a pattern answers. -/
theorem operatorsHold_pattern (document : Json) (segments : List String) (text : String) :
    operatorsHold document segments
        (patternOptions [("$regex", .str text), ("$options", .str "i")])
        [("$regex", .str text), ("$options", .str "i")] =
      matchesAt document segments "i" (.str text) := by
  have hoptions : patternOptions [("$regex", Json.str text), ("$options", .str "i")] = "i" := rfl
  rw [hoptions, operatorsHold, operatorHolds_test (by decide), operatorsHold_single,
    operatorHolds_test (by decide)]
  change (matchesAt document segments "i" (.str text)).bind _ = _
  cases matchesAt document segments "i" (.str text) with
  | error e => rfl
  | ok holds => cases holds <;> rfl

/-- A pattern is a condition that tests the texts that are seen. -/
theorem tests_pattern {text : String} {p : Pattern} {test : String → Bool}
    (hread : Pattern.ofText? text = some p) (hsize : p.isOversized ⟨true, false⟩ = false)
    (htest : ∀ t, p.occurs ⟨true, false⟩ t = test t) :
    Tests [("$regex", .str text), ("$options", .str "i")] fun found =>
      (Json.seen found).any fun value => value.string?.any test := by
  refine ⟨rfl, fun document segments => ?_⟩
  rw [operatorsHold_pattern, matchesAt_of_ofText? hread, hsize, funext htest]
  rfl

end Filter

namespace ValueTest

variable {t : ValueTest} {value : Json}

theorem head?_of_first (h : t.first = .ok value) : t.values.head? = some value := by
  unfold first at h
  split at h
  · next hvalues => rw [hvalues, ← Except.ok.inj h, List.head?_cons]
  · exact absurd h (by simp)

/-- The condition of a comparison, and what it tests. -/
theorem tests_compare {word : String} {condition : Json} {test : Json → List Json → Bool}
    (h : (t.first.map fun value => Json.obj [(word, value)]) = .ok condition)
    (htests : ∀ value, Filter.Tests [(word, value)] (test value)) :
    ∃ members, condition = .obj members ∧
      Filter.Tests members fun found => t.values.head?.any fun value => test value found := by
  obtain ⟨value, hfirst, rfl⟩ := map_eq_ok.mp h
  refine ⟨_, rfl, ?_⟩
  rw [head?_of_first hfirst]
  exact htests value

/-- **The pattern of a test of text** is written in its condition. -/
theorem condition_of_pattern? {p : Pattern} (hfirst : t.first = .ok value)
    (hp : t.operator.pattern? value.searchText = some p) :
    ∃ text, t.condition = .ok (patternCondition text) ∧ Pattern.ofText? text = some p := by
  unfold ValueTest.condition
  cases hoperator : t.operator <;> simp only [hoperator, SearchOperator.pattern?, reduceCtorEq,
    Option.some.injEq] at hp <;> subst hp
  case contains => exact ⟨_, by rw [hfirst]; rfl, Pattern.ofText?_escape _⟩
  case startsWith => exact ⟨_, by rw [hfirst]; rfl, Pattern.ofText?_start_escape _⟩
  case endsWith => exact ⟨_, by rw [hfirst]; rfl, Pattern.ofText?_escape_finish _⟩

/-- The condition of a test of text, and what it tests. -/
theorem tests_text {written : String → String} {condition : Json}
    {pattern : String → Pattern} {isPart : List Char → List Char → Prop} [DecidableRel isPart]
    (h : (t.first.map fun value => patternCondition (written value.searchText)) = .ok condition)
    (hread : ∀ text, Pattern.ofText? (written text) = some (pattern text))
    (hfits : ∀ value ∈ t.values.head?,
      (pattern value.searchText).isOversized ⟨true, false⟩ = false)
    (hoccurs : ∀ text t, (pattern text).occurs ⟨true, false⟩ t = true ↔
      isPart (Pattern.foldedChars text) (Pattern.foldedChars t)) :
    ∃ members, condition = .obj members ∧
      Filter.Tests members fun found => t.values.head?.any (Json.hasText found isPart) := by
  obtain ⟨value, hfirst, rfl⟩ := map_eq_ok.mp h
  have hhead := head?_of_first hfirst
  refine ⟨_, rfl, ?_⟩
  rw [hhead]
  refine Filter.tests_pattern (hread _) (hfits value hhead) fun t => ?_
  rw [Bool.eq_iff_iff, hoccurs, decide_eq_true_iff]

/-- **The condition of a test against values** tests found values as its operator says, if
its pattern fits. -/
theorem condition_ok {condition : Json} (hfits : t.Fits) (h : t.condition = .ok condition) :
    ∃ members, condition = .obj members ∧
      Filter.Tests members fun found => t.operator.holdsOf t.values found := by
  unfold ValueTest.condition at h
  unfold Fits at hfits
  cases hoperator : t.operator <;> simp only [hoperator] at h hfits
  case equals | notEquals | greater | less | greaterOrEqual | lessOrEqual =>
    exact tests_compare h fun _ => Filter.tests_single rfl (by decide) fun _ _ _ => rfl
  -- the texts of patterns are written here and read where they are matched
  case contains =>
    exact tests_text h Pattern.ofText?_escape (fun value hvalue => hfits value hvalue _ rfl)
      fun text t => Pattern.occurs_literal text t
  case startsWith =>
    exact tests_text h Pattern.ofText?_start_escape (fun value hvalue => hfits value hvalue _ rfl)
      fun text t => Pattern.occurs_start_literal text t
  case endsWith =>
    exact tests_text h Pattern.ofText?_escape_finish (fun value hvalue => hfits value hvalue _ rfl)
      fun text t => Pattern.occurs_literal_finish text t
  case isIn | notIn =>
    obtain rfl := Except.ok.inj h
    exact ⟨_, rfl, Filter.tests_single rfl (by decide) fun _ _ _ => rfl⟩

end ValueTest

/-- **The condition of bounds**, if there are any, tests found values against them. -/
theorem boundsCondition?_ok (min max : Option Json) :
    (boundsCondition? min max = none ∧ (min.isNone && max.isNone) = true) ∨
      (min.isNone && max.isNone) = false ∧
        ∃ members, boundsCondition? min max = some (.obj members) ∧
          Filter.Tests members (boundsHold min max) := by
  cases min with
  | none =>
    cases max with
    | none => exact .inl ⟨rfl, rfl⟩
    | some greatest =>
      exact .inr ⟨rfl, _, rfl, Filter.tests_single rfl (by decide) fun _ _ _ => rfl⟩
  | some least =>
    cases max with
    | none =>
      refine .inr ⟨rfl, _, rfl, Filter.tests_single rfl (by decide) fun d segments _ => ?_⟩
      simp only [boundsHold, Option.all_some, Option.all_none, Bool.and_true]
      rfl
    | some greatest =>
      refine .inr ⟨rfl, _, rfl, rfl, fun d segments => ?_⟩
      rw [Filter.operatorsHold, Filter.operatorsHold_single, Filter.operatorHolds_test (by decide),
        Filter.operatorHolds_test (by decide)]
      change (do if ← Except.ok (Json.comparesSome Ordering.isGE (d.reach segments) least) then
        Except.ok (Json.comparesSome Ordering.isLE (d.reach segments) greatest) else .ok false) = _
      simp only [boundsHold, Option.all_some, ok_bind]
      cases Json.comparesSome Ordering.isGE (d.reach segments) least <;> rfl

/-! ## Terms -/

namespace Filter

variable {members : Members Json} {test : List Json → Bool} {r : Resolved}

/-- A path with operators has them tried at the path. -/
theorem holds_fieldTerm_operators (hleads : Schema.Leads r.path)
    (h : Filter.areOperators members = true) (document : Json) :
    holds document (fieldTerm r (.obj members)) =
      operatorsHold document (Dotted.segments r.path) (patternOptions members) members := by
  rw [fieldTerm, holds_single, memberHolds, hleads.key]
  simp only [h, ↓reduceIte]

/-- A path with a condition tests what the path reaches. -/
theorem holds_fieldTerm_whole (hleads : Schema.Leads r.path) (h : Tests members test)
    (document : Json) :
    holds document (fieldTerm r (.obj members)) = .ok ((r.whole.found document).any test) := by
  rw [holds_fieldTerm_operators hleads h.areOperators, h.holds]
  simp only [Resolved.found, Resolved.whole, Bool.false_eq_true, ↓reduceIte, List.any_cons,
    List.any_nil, Bool.or_false]

/-- **A condition on elements** tests each item by itself. -/
theorem anyM_items (h : Tests members test) (items : List Json) :
    (items.anyM fun item => operatorsHold (.obj [(itemKey, item)]) [itemKey]
      (patternOptions members) members) = .ok (items.any fun item => test [item]) := by
  induction items with
  | nil => rfl
  | cons item rest ih =>
    -- an item is tested as the one member of an object of its own
    have hitem : (Json.obj [(itemKey, item)]).reach [itemKey] = [item] := rfl
    rw [List.anyM, h.holds, hitem, ok_bind, List.any_cons]
    cases test [item] with
    | true => rfl
    | false => exact ih

/-- **The term of a field** tests where the field resolves to. -/
theorem holds_fieldTerm (hleads : Schema.Leads r.path) (h : Tests members test)
    (document : Json) :
    holds document (fieldTerm r
      (if r.elementMatch then .obj [("$elemMatch", .obj members)] else .obj members)) =
      .ok ((r.found document).any test) := by
  cases helement : r.elementMatch with
  | false =>
    have hwhole := holds_fieldTerm_whole hleads h document
    rwa [Resolved.whole_of_not helement] at hwhole
  | true =>
    have hword : Filter.areOperators [("$elemMatch", Json.obj members)] = true := rfl
    have hname : Operator.ofName? "$elemMatch" = some .elemMatch := rfl
    rw [if_pos rfl, fieldTerm, holds_single, memberHolds, hleads.key]
    simp only [hword, ↓reduceIte, operatorsHold_single, operatorHolds, hname, h.areOperators]
    rw [anyM_items h, Resolved.found, if_pos helement, List.any_map]
    rfl

end Filter

/-! ## Trees -/

/-- Whether fields are read as a whole. -/
def ReadsWhole (s : Schema) (reads : Resolved → Resolved) (fields : List String) : Prop :=
  ∀ name ∈ fields, ∀ r, s.resolveQueryable name = .ok r → reads r = r.whole

namespace ReadsWhole

variable {s : Schema} {reads : Resolved → Resolved} {fields others : List String}

theorem left (h : ReadsWhole s reads (fields ++ others)) : ReadsWhole s reads fields :=
  fun name hname => h name (List.mem_append_left _ hname)

theorem right (h : ReadsWhole s reads (fields ++ others)) : ReadsWhole s reads others :=
  fun name hname => h name (List.mem_append_right _ hname)

end ReadsWhole

section

variable {c : Config} {s : Schema} {reads : Resolved → Resolved} {depth : Nat} (document : Json)

/-- Terms that answer with verdicts are satisfied as these say. -/
theorem Filter.satisfies_of_map {terms : List Json} {verdicts : List Bool}
    (h : terms.map (Filter.holds document) = verdicts.map .ok) :
    (∀ term ∈ terms, Filter.holds document term = .ok (Filter.satisfies document term)) ∧
      verdicts = terms.map (Filter.satisfies document) := by
  induction terms generalizing verdicts with
  | nil => simpa using h.symm
  | cons term terms ih =>
    cases verdicts with
    | nil => exact absurd h (by simp)
    | cons verdict verdicts =>
      obtain ⟨hfirst, hrest⟩ := List.cons.inj h
      obtain ⟨hterms, rfl⟩ := ih hrest
      obtain rfl := Filter.satisfies_of_holds hfirst
      exact ⟨List.forall_mem_cons.mpr ⟨hfirst, hterms⟩, rfl⟩

/-- Where all terms answer, a conjunction holds as all of them do. -/
theorem Filter.allHold_of_map {terms : List Json} {verdicts : List Bool}
    (h : terms.map (Filter.holds document) = verdicts.map .ok) :
    Filter.allHold document terms = .ok (verdicts.all id) := by
  obtain ⟨hterms, rfl⟩ := Filter.satisfies_of_map document h
  rw [Filter.allHold_of_total hterms, List.all_map, Function.id_comp]

/-- And an alternative as some of them does. -/
theorem Filter.anyHolds_of_map {terms : List Json} {verdicts : List Bool}
    (h : terms.map (Filter.holds document) = verdicts.map .ok) :
    Filter.anyHolds document terms = .ok (verdicts.any id) := by
  obtain ⟨hterms, rfl⟩ := Filter.satisfies_of_map document h
  rw [Filter.anyHolds_of_total hterms, List.any_map, Function.id_comp]

/-- **The term of a test against values** holds as the test says, if its pattern fits. -/
theorem ValueTest.term_holds (hsound : s.Sound) {t : ValueTest} {term : Json} (hfits : t.Fits)
    (h : t.term s = .ok term) : Filter.holds document term = .ok (t.verdict s document) := by
  obtain ⟨r, hresolve, h⟩ := bind_eq_ok.mp h
  obtain ⟨condition, hcondition, h⟩ := bind_eq_ok.mp h
  obtain ⟨members, rfl, htests⟩ := ValueTest.condition_ok hfits hcondition
  rw [← Except.ok.inj h, Filter.holds_fieldTerm (hsound.resolveQueryable hresolve) htests]
  simp only [ValueTest.verdict, Schema.testHolds, hresolve, id]

/-- **The term of a range** holds as the range says, if it reads its path as a whole. -/
theorem rangeTerm_holds (hsound : s.Sound) {field : String} {min max : Option Json} {r : Resolved}
    (hresolve : s.resolveQueryable field = .ok r)
    (hreads : (boundsCondition? min max).isSome → reads r = r.whole) :
    ((boundsCondition? min max).map (fieldTerm r)).map (Filter.holds document) =
      (rangeVerdict s reads document field min max).map .ok := by
  rcases boundsCondition?_ok min max with
    ⟨hnone, hbounds⟩ | ⟨hbounds, members, hsome, htests⟩
  · rw [hnone, rangeVerdict, if_pos hbounds]
    rfl
  · have hterm := Filter.holds_fieldTerm_whole (hsound.resolveQueryable hresolve) htests document
    rw [hsome, Option.map_some, Option.map_some, hterm, rangeVerdict, hbounds, if_neg (by simp),
      Option.map_some]
    simp only [Schema.testHolds, hresolve, hreads (by simp [hsome])]

/-- The terms of ranges of one kind, without those that have no bounds. -/
theorem rangeTerms_hold {α : Type} (hsound : s.Sound) {field : α → String}
    {min max : α → Option Json} {ranges : List α} {terms : List (Option Json)}
    (h : (ranges.mapM fun t => do
      let r ← s.resolveQueryable (field t)
      Except.ok ((boundsCondition? (min t) (max t)).map (fieldTerm r))) = .ok terms)
    (hreads : ReadsWhole s reads (ranges.filterMap fun t =>
      (boundsCondition? (min t) (max t)).map fun _ => field t)) :
    (terms.filterMap id).map (Filter.holds document) =
      (ranges.filterMap fun t => rangeVerdict s reads document (field t) (min t) (max t)).map
        .ok := by
  have hterms : terms.map (Option.map (Filter.holds document)) = ranges.map fun t =>
      (rangeVerdict s reads document (field t) (min t) (max t)).map .ok := by
    refine map_of_mapM h fun t ht term hterm => ?_
    obtain ⟨r, hresolve, hterm⟩ := bind_eq_ok.mp hterm
    rw [← Except.ok.inj hterm]
    refine rangeTerm_holds document hsound hresolve fun hsome => hreads (field t) ?_ r hresolve
    obtain ⟨condition, hcondition⟩ := Option.isSome_iff_exists.mp hsome
    exact List.mem_filterMap.mpr ⟨t, ht, by rw [hcondition, Option.map_some]⟩
  -- ranges without bounds have no term and no verdict, so they drop out on both sides
  rw [List.map_filterMap, List.map_filterMap]
  have hfilter := congrArg (List.filterMap id) hterms
  simpa [List.filterMap_map, Function.comp_def] using hfilter

/-- What a clause makes of terms holds as what it makes of verdicts says. -/
theorem Clause.holds_verdict (clause : Clause) {terms : List Json} {verdicts : List Bool}
    (h : terms.map (Filter.holds document) = verdicts.map .ok) :
    (if terms.isEmpty then none else some (Json.obj [(clause.connective, .arr terms)])).map
      (Filter.holds document) = (clause.verdict verdicts).map .ok := by
  cases terms with
  | nil =>
    obtain rfl : verdicts = [] := by simpa using h.symm
    cases clause <;> rfl
  | cons term terms =>
    cases verdicts with
    | nil => exact absurd h (by simp)
    | cons verdict verdicts =>
      rw [List.isEmpty_cons, if_neg (by simp), Option.map_some]
      cases clause with
      | all =>
        rw [Clause.connective, Filter.holds_and document (by simp),
          Filter.allHold_of_map document h]
        rfl
      | any =>
        rw [Clause.connective, Filter.holds_or document (by simp),
          Filter.anyHolds_of_map document h]
        rfl

mutual

/-- **The term of an aggregation** holds as the aggregation says. -/
theorem Aggregation.term_holds (hreject : c.depthOverflow = .reject) (hsound : s.Sound)
    {depth : Nat} {term : Option Json} : (a : Aggregation) → ReadsWhole s reads a.rangeFields →
    (∀ t ∈ a.valueTests, t.Fits) → a.term c s depth = .ok term →
    term.map (Filter.holds document) = (a.verdict s reads document).map .ok
  | .combine clause groups, hreads, hfits, h => by
    rw [Aggregation.term] at h
    split at h
    · -- nested too deep, and refused
      rw [hreject] at h
      exact absurd h (by simp)
    · obtain ⟨terms, hterms, h⟩ := bind_eq_ok.mp h
      rw [← Except.ok.inj h]
      exact clause.holds_verdict document
        (groupTerms_hold hreject hsound groups hreads hfits hterms)

theorem groupTerms_hold (hreject : c.depthOverflow = .reject) (hsound : s.Sound)
    {depth : Nat} {terms : List Json} : (groups : List TestGroup) →
    ReadsWhole s reads (groupRangeFields groups) → (∀ t ∈ groupValueTests groups, t.Fits) →
    groupTerms c s depth groups = .ok terms →
    terms.map (Filter.holds document) = (groupVerdicts s reads document groups).map .ok
  | [], _, _, h => by
    rw [← Except.ok.inj h]
    rfl
  | group :: groups, hreads, hfits, h => by
    obtain ⟨first, hfirst, h⟩ := bind_eq_ok.mp h
    obtain ⟨rest, hrest, h⟩ := bind_eq_ok.mp h
    obtain ⟨hgroup, hgroups⟩ := List.forall_mem_append.mp hfits
    have hfirst := TestGroup.terms_hold hreject hsound group hreads.left hgroup hfirst
    have hrest := groupTerms_hold hreject hsound groups hreads.right hgroups hrest
    rw [← Except.ok.inj h, groupVerdicts, List.map_append, List.map_append, hfirst, hrest]

/-- The terms of a group hold as its members say. -/
theorem TestGroup.terms_hold (hreject : c.depthOverflow = .reject) (hsound : s.Sound)
    {depth : Nat} {terms : List Json} : (group : TestGroup) →
    ReadsWhole s reads group.rangeFields → (∀ t ∈ group.valueTests, t.Fits) →
    group.terms c s depth = .ok terms →
    terms.map (Filter.holds document) = (group.verdicts s reads document).map .ok
  | .tests values dates spans nested, hreads, hfits, h => by
    obtain ⟨valueTerms, hvalues, h⟩ := bind_eq_ok.mp h
    obtain ⟨dateTerms, hdates, h⟩ := bind_eq_ok.mp h
    obtain ⟨spanTerms, hspans, h⟩ := bind_eq_ok.mp h
    obtain ⟨nestedTerms, hnested, h⟩ := bind_eq_ok.mp h
    obtain ⟨hown, hinner⟩ := List.forall_mem_append.mp hfits
    have hvalues : valueTerms.map (Filter.holds document) =
        values.map fun t => .ok (t.verdict s document) :=
      map_of_mapM hvalues fun t ht _ => ValueTest.term_holds document hsound (hown t ht)
    have hdates := rangeTerms_hold document hsound hdates hreads.left.left
    have hspans := rangeTerms_hold document hsound hspans hreads.left.right
    have hnested := aggregationTerms_hold hreject hsound nested hreads.right hinner hnested
    rw [← Except.ok.inj h, TestGroup.verdicts]
    simp only [List.map_append, hvalues, hdates, hspans, hnested, List.map_map]
    rfl

theorem aggregationTerms_hold (hreject : c.depthOverflow = .reject) (hsound : s.Sound)
    {depth : Nat} {terms : List Json} : (aggregations : List Aggregation) →
    ReadsWhole s reads (aggregationRangeFields aggregations) →
    (∀ t ∈ aggregationValueTests aggregations, t.Fits) →
    aggregationTerms c s depth aggregations = .ok terms →
    terms.map (Filter.holds document) = (aggregationVerdicts s reads document aggregations).map .ok
  | [], _, _, h => by
    rw [← Except.ok.inj h]
    rfl
  | a :: rest, hreads, hfits, h => by
    obtain ⟨first, hfirst, h⟩ := bind_eq_ok.mp h
    obtain ⟨others, hothers, h⟩ := bind_eq_ok.mp h
    obtain ⟨hown, hrest⟩ := List.forall_mem_append.mp hfits
    have hfirst := congrArg Option.toList
      (Aggregation.term_holds hreject hsound a hreads.left hown hfirst)
    have hothers := aggregationTerms_hold hreject hsound rest hreads.right hrest hothers
    simp only [Option.toList_map] at hfirst
    rw [← Except.ok.inj h, aggregationVerdicts, List.map_append, List.map_append, hfirst, hothers]

end

/-- **The filter of a search** holds as the search says, if its ranges read their paths
as a whole. -/
theorem filterOf_holds_of_readsWhole (hreject : c.depthOverflow = .reject) (hsound : s.Sound)
    {aggregations : List Aggregation} {condition : Json}
    (hreads : ReadsWhole s reads (aggregationRangeFields aggregations))
    (hfits : ∀ t ∈ aggregationValueTests aggregations, t.Fits)
    (h : filterOf c s aggregations = .ok condition) :
    Filter.holds document condition = .ok (searchVerdict s reads document aggregations) := by
  obtain ⟨terms, hterms, h⟩ := bind_eq_ok.mp h
  have hall := Filter.allHold_of_map document
    (aggregationTerms_hold document hreject hsound aggregations hreads hfits hterms)
  rw [searchVerdict, ← hall]
  split at h
  · rw [← Except.ok.inj h]
    rfl
  · -- a single term stands by itself, without a conjunction around it
    next term =>
    rw [← Except.ok.inj h, Filter.allHold, Filter.allHold]
    cases Filter.holds document term with
    | error e => rfl
    | ok b => cases b <;> rfl
  · next hne _ =>
    rw [← Except.ok.inj h, Filter.holds_and document hne]

end

/-- **The filter of a search holds as the search says.** For every document, the filter
that is planned where nesting too deep is refused, and in which the pattern of every test
fits, answers, and it says what the search says if its ranges test their paths as a whole.
Where no range with bounds is on a wildcard that asks for an element, this is what the
search says itself. -/
theorem filterOf_holds {c : Config} {s : Schema} {aggregations : List Aggregation}
    {condition : Json} (hbuilt : s.IsBuilt) (hreject : c.depthOverflow = .reject)
    (hfits : ∀ t ∈ aggregationValueTests aggregations, t.Fits)
    (h : filterOf c s aggregations = .ok condition) (document : Json) :
    Filter.holds document condition =
        .ok (searchVerdict s Resolved.whole document aggregations) ∧
      ((∀ name ∈ aggregationRangeFields aggregations, ∀ r,
          s.resolveQueryable name = .ok r → r.elementMatch = false) →
        Filter.holds document condition = .ok (searchVerdict s id document aggregations)) := by
  refine ⟨filterOf_holds_of_readsWhole document hreject hbuilt.sound.1 (fun _ _ _ _ => rfl) hfits
    h, fun hplain => ?_⟩
  refine filterOf_holds_of_readsWhole document hreject hbuilt.sound.1 (fun name hname r hr => ?_)
    hfits h
  exact (Resolved.whole_of_not (hplain name hname r hr)).symm

/-- The schema of clips, whose wildcard under the length asks for an element. -/
def clipSchema : Schema :=
  { entityType := "clip", collection := "clips",
    access := [("ID", true), ("Length", true), ("Title", true)],
    mapping := [("ID", "_id"), ("Length", "stats.length_ms"), ("Title", "title")], fields := [] }

theorem isBuilt_clipSchema : clipSchema.IsBuilt :=
  ⟨(((Schema.Draft.start "clip" "clips").map "Title" "title").map "Length"
    "stats.length_ms").queryable ["Title", "Length"], rfl⟩

/-- A clip with two lengths. -/
def clip : Json :=
  .obj [("title", .str "Bridge"), ("stats", .obj [("length_ms", .arr [.ofInt 1, .ofInt 100])])]

/-- A part of a title, or else a long length of a clip with another title. -/
def clipSearch : List Aggregation :=
  [.anyOf [.tests [⟨"Title", .contains, [.str "RIDGE"]⟩] [] []
    [.allOf [.tests [⟨"Length.*", .greater, [.ofInt 50]⟩, ⟨"Title", .isIn, [.str "Tower"]⟩] []
      [⟨"Length", none, none⟩] []]]]]

/-- The filter of the search holds of the clip, whose title has the part. -/
theorem filterOf_holds_clip :
    (∀ t ∈ aggregationValueTests clipSearch, t.Fits) ∧
      ∃ condition, filterOf {} clipSchema clipSearch = .ok condition ∧
        Filter.holds clip condition = .ok true := by
  have hfits : ∀ t ∈ aggregationValueTests clipSearch, t.Fits := by decide +kernel
  obtain ⟨condition, hfilter⟩ : ∃ condition, filterOf {} clipSchema clipSearch = .ok condition :=
    ⟨_, rfl⟩
  have hverdict : searchVerdict clipSchema id clip clipSearch = true := rfl
  have hranges : aggregationRangeFields clipSearch = [] := rfl -- the one range has no bounds
  refine ⟨hfits, condition, hfilter, hverdict ▸
    (filterOf_holds isBuilt_clipSchema rfl hfits hfilter clip).2 fun name hname => ?_⟩
  exact absurd (hranges ▸ hname) List.not_mem_nil

/-- A length from 40 to 60 milliseconds. -/
def middleLength : List Aggregation :=
  [.allOf [.tests [] [] [⟨"Length.*", Span.of? 0 40000000, Span.of? 0 60000000⟩] []]]

/-- **A range on elements can hold of no element**: no length of the clip is in the
range, but one is above its lower bound and another is below its upper one. -/
theorem filterOf_misses_element :
    ¬ ∀ (c : Config) (s : Schema) (aggregations : List Aggregation) (condition document : Json),
      s.IsBuilt → c.depthOverflow = .reject → filterOf c s aggregations = .ok condition →
      Filter.holds document condition = .ok (searchVerdict s id document aggregations) := by
  intro h
  have hverdict : (Except.ok true : Except Error Bool) = .ok false :=
    h {} clipSchema middleLength _ clip isBuilt_clipSchema rfl rfl
  exact absurd hverdict (by simp)

end ScopedDocs
