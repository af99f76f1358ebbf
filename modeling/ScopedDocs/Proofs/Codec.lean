import ScopedDocs.Config.Codec
import ScopedDocs.Proofs.Owner
import ScopedDocs.Proofs.Timestamp
import ScopedDocs.Record
import ScopedDocs.Search.Codec
/-!
# Written forms — reading undoes writing

Everything that is written as JSON reads back (`written_forms_read_back`): searches but
for the scope they declare, which is not written, configurations, owners and the common
fields of records. Instants are settled on the way (`Instant.settled`), and with them
whatever has instants in it; one that clocks have stays as it is. A type of values that is
written by `write` and read by `read` is read back up to `change` if
`ReadsAs read write change`, and as it was if `ReadsBack read write`; options and lists of
such values are, too, and a record is if its fields are. Aggregations and groups contain
each other, and so do their proofs (`Aggregation.ofJson?_toJson`).
-/


namespace ScopedDocs

open Json.Decode

/-! ## Parts of records -/

/-- **A written form that is read back** with a change. -/
def ReadsAs {α : Type} (read : Json → Option α) (write : α → Json) (change : α → α) : Prop :=
  ∀ a, read (write a) = some (change a)

/-- A written form that is read back as it was. -/
def ReadsBack {α : Type} (read : Json → Option α) (write : α → Json) : Prop :=
  ∀ a, read (write a) = some a

namespace Json.Decode

section

variable {α : Type} {read : Json → Option α} {write : α → Json} {change : α → α}

/-- An option is read back with its value if `null` writes nothing but its absence. -/
theorem optional?_ofOption (h : ReadsAs read write change) (hnull : ∀ a, write a ≠ .null) :
    ReadsAs (optional? read) (Json.ofOption write) (Option.map change) := by
  intro o
  cases o with
  | none => rfl
  | some a =>
    have hread : optional? read (write a) = (read (write a)).map some := by
      unfold optional?
      split
      · next heq => exact absurd heq (hnull a)
      · rfl
    rw [Json.ofOption, hread, h a, Option.map_some, Option.map_some]

/-- A list is read back with its items. -/
theorem list?_map (h : ReadsAs read write change) :
    ReadsAs (list? read) (fun items => .arr (items.map write)) (List.map change) := by
  intro items
  change (items.map write).mapM read = some (items.map change)
  induction items with
  | nil => rfl
  | cons a items ih =>
    rw [List.map_cons, List.mapM_cons, h a, ih]
    rfl

/-- What reads back is read back in lists. -/
theorem list?_of_readsBack (h : ReadsBack read write) :
    ReadsBack (list? read) fun items => .arr (items.map write) := fun items => by
  have hread : list? read (.arr (items.map write)) = some (items.map id) := list?_map h items
  rwa [List.map_id] at hread

/-- And in options. -/
theorem optional?_of_readsBack (h : ReadsBack read write) (hnull : ∀ a, write a ≠ .null) :
    ReadsBack (optional? read) (Json.ofOption write) := fun o => by
  have hread : optional? read (Json.ofOption write o) = some (o.map id) :=
    optional?_ofOption h hnull o
  rwa [Option.map_id, id] at hread

end

/-- A text is read back. -/
theorem string?_str : ReadsBack Json.string? .str := fun _ => rfl

/-- Any values are read back. -/
theorem list?_any : ReadsBack (list? any?) .arr := fun items => by
  have hany : ReadsBack any? id := fun _ => rfl
  simpa using list?_of_readsBack hany items

/-- A natural number is read back as the word that holds it. -/
theorem word?_ofNat {n : Nat} (h : n < UInt64.size) : word? (.ofNat n) = some (UInt64.ofNat n) := by
  rw [Json.ofNat, Json.ofInt, word?, Int.toNat_natCast, if_pos ⟨Int.natCast_nonneg n, h⟩]

/-- A word is read back. -/
theorem word?_ofWord : ReadsBack word? Json.ofWord := fun n => by
  rw [Json.ofWord, word?_ofNat n.toNat_lt, UInt64.ofNat_toNat]

/-- An instant is read back as what it settles to. -/
theorem instant?_text : ReadsAs instant? (fun t => .str t.text) Instant.settled := fun t => by
  rw [instant?, Json.string?, Option.bind_some, t.ofText?_writes]

/-- A span is read back. -/
theorem span?_toJson : ReadsBack span? Span.toJson := by
  intro s
  have hseconds := s.seconds_lt
  have hnanos := s.nanos_lt
  have hword : s.nanos < UInt64.size := Nat.lt_trans hnanos (by decide)
  have hshort : s.nanos < UInt32.size := Nat.lt_trans hnanos (by decide)
  have hcarried : Span.of? s.seconds s.nanos = some s := by
    have hnone : s.nanos / Span.nanosPerSecond = 0 := Nat.div_eq_of_lt hnanos
    have hall : s.nanos % Span.nanosPerSecond = s.nanos := Nat.mod_eq_of_lt hnanos
    simp only [Span.of?, hnone, hall, Nat.add_zero, hseconds, ↓reduceDIte]
  change span?.spanOf? (.ofNat s.seconds) (.ofNat s.nanos) = some s
  rw [span?.spanOf?, word?_ofNat hseconds, word?_ofNat hword]
  simp only [Option.bind_eq_bind, Option.bind_some, UInt64.toNat_ofNat_of_lt' hseconds,
    UInt64.toNat_ofNat_of_lt' hword, if_pos hshort, hcarried]

end Json.Decode

/-! ## What settles -/

/-- A range with its bounds settled. -/
def DateRange.settled (r : DateRange) : DateRange :=
  { r with min := r.min.map Instant.settled, max := r.max.map Instant.settled }

/-- Whether the bounds of a range are instants that clocks have. -/
def DateRange.IsOnClock (r : DateRange) : Prop :=
  (∀ t ∈ r.min, t.IsOnClock) ∧ ∀ t ∈ r.max, t.IsOnClock

instance (r : DateRange) : Decidable r.IsOnClock := inferInstanceAs (Decidable (_ ∧ _))

theorem DateRange.settled_eq {r : DateRange} (h : r.IsOnClock) : r.settled = r := by
  have hoption {o : Option Instant} (ho : ∀ t ∈ o, t.IsOnClock) : o.map Instant.settled = o := by
    cases o with
    | none => rfl
    | some t => exact congrArg some (Instant.settled_eq (ho t rfl))
  rw [settled, hoption h.1, hoption h.2]

mutual

/-- An aggregation with the bounds of its ranges settled. -/
def Aggregation.settled : Aggregation → Aggregation
  | .combine clause groups => .combine clause (settledGroups groups)

/-- Groups with the bounds of their ranges settled. -/
def settledGroups : List TestGroup → List TestGroup
  | [] => []
  | group :: groups => group.settled :: settledGroups groups

/-- A group with the bounds of its ranges settled. -/
def TestGroup.settled : TestGroup → TestGroup
  | .tests values dates spans nested =>
    .tests values (dates.map DateRange.settled) spans (settledAggregations nested)

/-- Aggregations with the bounds of their ranges settled. -/
def settledAggregations : List Aggregation → List Aggregation
  | [] => []
  | aggregation :: aggregations => aggregation.settled :: settledAggregations aggregations

end

mutual

/-- The ranges of dates in an aggregation. -/
def Aggregation.dateRanges : Aggregation → List DateRange
  | .combine _ groups => groupDateRanges groups

/-- The ranges of dates in groups. -/
def groupDateRanges : List TestGroup → List DateRange
  | [] => []
  | group :: groups => group.dateRanges ++ groupDateRanges groups

/-- The ranges of dates in a group. -/
def TestGroup.dateRanges : TestGroup → List DateRange
  | .tests _ dates _ nested => dates ++ aggregationDateRanges nested

/-- The ranges of dates in aggregations. -/
def aggregationDateRanges : List Aggregation → List DateRange
  | [] => []
  | aggregation :: aggregations => aggregation.dateRanges ++ aggregationDateRanges aggregations

end

mutual

/-- Nothing in an aggregation changes if clocks have the bounds of its ranges. -/
theorem Aggregation.settled_eq : (a : Aggregation) → (∀ r ∈ a.dateRanges, r.IsOnClock) →
    a.settled = a
  | .combine clause groups, h => by rw [Aggregation.settled, settledGroups_eq groups h]

theorem settledGroups_eq : (groups : List TestGroup) →
    (∀ r ∈ groupDateRanges groups, r.IsOnClock) → settledGroups groups = groups
  | [], _ => rfl
  | group :: groups, h => by
    obtain ⟨hgroup, hgroups⟩ := List.forall_mem_append.mp h
    rw [settledGroups, TestGroup.settled_eq group hgroup, settledGroups_eq groups hgroups]

theorem TestGroup.settled_eq : (group : TestGroup) → (∀ r ∈ group.dateRanges, r.IsOnClock) →
    group.settled = group
  | .tests values dates spans nested, h => by
    obtain ⟨hdates, hnested⟩ := List.forall_mem_append.mp h
    have hsettled : dates.map DateRange.settled = dates :=
      (List.map_congr_left fun r hr => DateRange.settled_eq (hdates r hr)).trans
        (List.map_id' dates)
    rw [TestGroup.settled, hsettled, settledAggregations_eq nested hnested]

theorem settledAggregations_eq : (aggregations : List Aggregation) →
    (∀ r ∈ aggregationDateRanges aggregations, r.IsOnClock) →
    settledAggregations aggregations = aggregations
  | [], _ => rfl
  | a :: rest, h => by
    obtain ⟨hown, hrest⟩ := List.forall_mem_append.mp h
    rw [settledAggregations, Aggregation.settled_eq a hown, settledAggregations_eq rest hrest]

end

/-- A search with the bounds of its ranges settled. -/
def Search.settled (s : Search) : Search :=
  { s with aggregations := settledAggregations s.aggregations }

theorem Search.settled_eq {s : Search}
    (h : ∀ r ∈ aggregationDateRanges s.aggregations, r.IsOnClock) : s.settled = s := by
  rw [settled, settledAggregations_eq _ h]

/-- The common fields of a record with its instants settled. -/
def RecordBase.settled (b : RecordBase) : RecordBase :=
  { b with createdAt := b.createdAt.settled, updatedAt := b.updatedAt.settled }

theorem RecordBase.settled_eq {b : RecordBase} (hcreated : b.createdAt.IsOnClock)
    (hupdated : b.updatedAt.IsOnClock) : b.settled = b := by
  rw [settled, Instant.settled_eq hcreated, Instant.settled_eq hupdated]

/-! ## Searches -/

/-- **A test is read back.** -/
theorem ValueTest.ofJson?_toJson : ReadsBack ValueTest.ofJson? ValueTest.toJson := by
  intro t
  have hfields : fields? ["field", "operator", "values"] t.toJson =
      some [some (.str t.field), some (.str t.operator.name), some (.arr t.values)] := rfl
  have hoperator : SearchOperator.ofJson? (.str t.operator.name) = some t.operator :=
    SearchOperator.ofName?_name t.operator
  simp only [ValueTest.ofJson?, hfields, required?, orElse?, Option.bind_some, string?_str _,
    hoperator, list?_any _]
  rfl

/-- **A range of dates is read back**, settled. -/
theorem DateRange.ofJson?_toJson :
    ReadsAs DateRange.ofJson? DateRange.toJson DateRange.settled := by
  intro r
  have hfields : fields? ["field", "min", "max"] r.toJson = some [some (.str r.field),
      some (Json.ofOption (fun t => .str t.text) r.min),
      some (Json.ofOption (fun t => .str t.text) r.max)] := rfl
  have hbound := optional?_ofOption instant?_text fun _ => Json.noConfusion
  simp only [DateRange.ofJson?, hfields, required?, orElse?, Option.bind_some, string?_str _,
    hbound _]
  rfl

/-- **A range of spans is read back.** -/
theorem SpanRange.ofJson?_toJson : ReadsBack SpanRange.ofJson? SpanRange.toJson := by
  intro r
  have hfields : fields? ["field", "min", "max"] r.toJson = some [some (.str r.field),
      some (Json.ofOption Span.toJson r.min), some (Json.ofOption Span.toJson r.max)] := rfl
  have hbound := optional?_of_readsBack span?_toJson fun _ => Json.noConfusion
  simp only [SpanRange.ofJson?, hfields, required?, orElse?, Option.bind_some, string?_str _,
    hbound _]
  rfl

mutual

/-- **An aggregation is read back**, settled, however deeply others are nested in it. -/
theorem Aggregation.ofJson?_toJson : (a : Aggregation) →
    Aggregation.ofJson? a.toJson = some a.settled
  | .combine clause groups => by
    have hgroups : groupsMember? [("params", .arr (groupsToJson groups)),
        ("type", .str clause.name)] = groupItems? (groupsToJson groups) := if_pos rfl
    have hclause : orElse? Clause.ofJson? .all (List.lookup "type"
        [("params", Json.arr (groupsToJson groups)), ("type", .str clause.name)]) = some clause :=
      Clause.ofName?_name clause
    rw [Aggregation.toJson, Aggregation.ofJson?, hgroups, groupItems?_groupsToJson groups, hclause]
    rfl

theorem groupItems?_groupsToJson : (groups : List TestGroup) →
    groupItems? (groupsToJson groups) = some (settledGroups groups)
  | [] => rfl
  | group :: groups => by
    rw [groupsToJson, groupItems?, TestGroup.ofJson?_toJson group, groupItems?_groupsToJson groups]
    rfl

/-- **A group is read back**, settled. -/
theorem TestGroup.ofJson?_toJson : (group : TestGroup) →
    TestGroup.ofJson? group.toJson = some group.settled
  | .tests values dates spans nested => by
    have hnested : nestedMember? [("values", .arr (values.map ValueTest.toJson)),
        ("date", .arr (dates.map DateRange.toJson)), ("time", .arr (spans.map SpanRange.toJson)),
        ("aggregate", .arr (aggregationsToJson nested))] =
        aggregationItems? (aggregationsToJson nested) := rfl
    rw [TestGroup.toJson, TestGroup.ofJson?, hnested, aggregationItems?_aggregationsToJson nested]
    change TestGroup.ofFields? (some (.arr (values.map ValueTest.toJson)))
      (some (.arr (dates.map DateRange.toJson))) (some (.arr (spans.map SpanRange.toJson)))
      (settledAggregations nested) = _
    simp only [TestGroup.ofFields?, orElse?, list?_of_readsBack ValueTest.ofJson?_toJson _,
      list?_map DateRange.ofJson?_toJson _, list?_of_readsBack SpanRange.ofJson?_toJson _]
    rfl

theorem aggregationItems?_aggregationsToJson : (aggregations : List Aggregation) →
    aggregationItems? (aggregationsToJson aggregations) = some (settledAggregations aggregations)
  | [] => rfl
  | a :: rest => by
    rw [aggregationsToJson, aggregationItems?, Aggregation.ofJson?_toJson a,
      aggregationItems?_aggregationsToJson rest]
    rfl

end

/-- **A sort field is read back.** -/
theorem SortKey.ofJson?_toJson : ReadsBack SortKey.ofJson? SortKey.toJson := by
  intro k
  have hfields : fields? ["field", "direction"] k.toJson =
      some [some (.str k.field), some k.direction.toJson] := rfl
  have hdirection : Direction.ofJson? k.direction.toJson = some k.direction :=
    Direction.ofInt?_toInt k.direction
  simp only [SortKey.ofJson?, hfields, required?, orElse?, Option.bind_some, string?_str _,
    hdirection]
  rfl

/-- **A page and a projection are read back.** -/
theorem ResultOptions.ofJson?_toJson : ReadsBack ResultOptions.ofJson? ResultOptions.toJson := by
  intro o
  have hfields : fields? ["skip", "limit", "pick", "omit"] o.toJson =
      some [some (.ofWord o.skip), some (.ofWord o.limit), some (.arr (o.picked.map .str)),
        some (.arr (o.omitted.map .str))] := rfl
  simp only [ResultOptions.ofJson?, hfields, orElse?, word?_ofWord _,
    list?_of_readsBack string?_str _]
  rfl

/-- **A search is read back**, settled, but for the scope it declares. -/
theorem Search.ofJson?_toJson (s : Search) :
    Search.ofJson? s.toJson = some { s.settled with visibility := {} } := by
  have hfields : fields? ["search_params", "result_options", "sort_options"] s.toJson =
      some [some (.arr (aggregationsToJson s.aggregations)), some s.options.toJson,
        some (.arr (s.sort.map SortKey.toJson))] := rfl
  simp only [Search.ofJson?, hfields, orElse?, aggregations?,
    aggregationItems?_aggregationsToJson _, ResultOptions.ofJson?_toJson _,
    list?_of_readsBack SortKey.ofJson?_toJson _]
  rfl

/-! ## Configurations and records -/

/-- A treatment of deep nesting is read back by its name. -/
theorem DepthOverflow.ofName?_name (o : DepthOverflow) : ofName? o.name = some o := by
  cases o <;> simp [ofName?, name]

/-- **A configuration is read back.** -/
theorem Config.ofJson?_toJson : ReadsBack Config.ofJson? Config.toJson := by
  intro c
  have hfields : fields? ["default_page_size", "max_page_size", "max_recursion_depth",
      "depth_overflow", "default_audience", "query_timeout"] c.toJson =
      some [some (.ofWord c.defaultPageSize), some (.ofWord c.maxPageSize),
        some (.ofWord c.maxDepth), some (.str c.depthOverflow.name),
        some (.str c.defaultAudience.name), some (Json.ofOption Span.toJson c.queryTimeout)] := by
    cases htimeout : c.queryTimeout <;> simp only [Config.toJson, htimeout] <;> rfl
  have hoverflow : (name? (.str c.depthOverflow.name)).bind DepthOverflow.ofName? =
      some c.depthOverflow := DepthOverflow.ofName?_name _
  have haudience : Audience.ofJson? (.str c.defaultAudience.name) = some c.defaultAudience :=
    congrArg some (Audience.ofName_name _)
  simp only [Config.ofJson?, hfields, orElse?, word?_ofWord _, hoverflow, haudience,
    optional?_of_readsBack span?_toJson (fun _ => Json.noConfusion) _]
  rfl

/-- **The common fields of a record are read back**, settled. -/
theorem RecordBase.ofJson?_toJson :
    ReadsAs RecordBase.ofJson? RecordBase.toJson RecordBase.settled := by
  intro b
  have hfields : fields? RecordBase.keys b.toJson = some [some (.str b.id.text),
      some b.owner.toJson, some (.str b.createdAt.text), some (.str b.updatedAt.text)] := rfl
  simp only [RecordBase.ofJson?, hfields, required?, Option.bind_some, uuid?_text,
    Owner.ofJson?_toJson, instant?_text _]
  rfl

/-- **Reading undoes writing.** Every search is read back as it was written, whatever is
nested in it, but declares nobody; every configuration, every owner and the common fields of
every record are read back as they were. In searches and records a leap second that does not
end a minute is read back as the second after it; there is no such change where clocks have
all instants. -/
theorem written_forms_read_back :
    (∀ s : Search, Search.ofJson? s.toJson = some { s.settled with visibility := {} } ∧
      ((∀ r ∈ aggregationDateRanges s.aggregations, r.IsOnClock) →
        Search.ofJson? s.toJson = some { s with visibility := {} })) ∧
      (∀ c : Config, Config.ofJson? c.toJson = some c) ∧
      (∀ o : Owner, Owner.ofJson? o.toJson = some o) ∧
      ∀ b : RecordBase, RecordBase.ofJson? b.toJson = some b.settled ∧
        (b.createdAt.IsOnClock → b.updatedAt.IsOnClock →
          RecordBase.ofJson? b.toJson = some b) := by
  refine ⟨fun s => ⟨Search.ofJson?_toJson s, fun h => ?_⟩, Config.ofJson?_toJson,
    Owner.ofJson?_toJson, fun b => ⟨RecordBase.ofJson?_toJson b, fun hcreated hupdated => ?_⟩⟩
  · rw [Search.ofJson?_toJson, Search.settled_eq h]
  · rw [RecordBase.ofJson?_toJson b, RecordBase.settled_eq hcreated hupdated]

/-- The leap second at the end of 2016, to the last nanosecond. -/
def leapSecond : Instant := { seconds := 1483228799, nanos := 1999999999 }

/-- What happened from then on until the last second there is. -/
def sinceLeap : Search :=
  { aggregations := [.anyOf [.tests [] [⟨"At", some leapSecond,
      some { seconds := Instant.lastSecond, nanos := 0 }⟩] [] []]] }

/-- It is read back as it was. -/
theorem written_forms_read_back_leap :
    (∀ r ∈ aggregationDateRanges sinceLeap.aggregations, r.IsOnClock) ∧
      Search.ofJson? sinceLeap.toJson = some sinceLeap := by
  have honClock : ∀ r ∈ aggregationDateRanges sinceLeap.aggregations, r.IsOnClock := by decide
  exact ⟨honClock, (written_forms_read_back.1 sinceLeap).2 honClock⟩

/-- A leap second that does not end a minute, and a third of it. -/
def offClock : Instant := { seconds := 1718495764, nanos := 1333000000 }

/-- **Such a leap second is not read back**: it is written as the second after it. -/
theorem written_forms_settle :
    ¬ ((∀ s : Search, Search.ofJson? s.toJson = some { s with visibility := {} }) ∧
      (∀ c : Config, Config.ofJson? c.toJson = some c) ∧
      (∀ o : Owner, Owner.ofJson? o.toJson = some o) ∧
      ∀ b : RecordBase, RecordBase.ofJson? b.toJson = some b) := by
  rintro ⟨-, -, -, h⟩
  have hread := (RecordBase.ofJson?_toJson ⟨⟨7⟩, default, offClock, offClock⟩).symm.trans (h _)
  have hsettled : offClock.settled = offClock :=
    congrArg RecordBase.createdAt (Option.some.inj hread)
  exact absurd hsettled (by decide)

end ScopedDocs
