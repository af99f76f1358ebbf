import ScopedDocs.Proofs.Assembly
import ScopedDocs.Proofs.Wildcards
/-!
# Resolution — the ways of a plain name

Where a plain name is stored can be told without searching for it (`Schema.Resolves`): a
mapping of its own comes first, then the mapping of the nearest wildcard above it, and
then the declared fields, which a name follows to its end or strays from. Just one of
these ways is open to any name, and it is the one that resolution takes
(`Schema.resolve_eq_iff`).
-/


namespace ScopedDocs

/-! ## Names -/

/-- A text that is no name: it is empty, or has a blank at one of its ends. -/
def Unnamed (name : String) : Prop :=
  name = "" ∨ ∃ c, isBlank c = true ∧ (name.toList.head? = some c ∨ name.toList.getLast? = some c)

/-! ## Following declared fields -/

/-- **A name is followed** down from a field: to the child that is declared with the next
segment, to the end of the name, or to a document with any keys, where all that is left is
kept as it is. The storage names on the way make the path. -/
inductive Field.Follows : Field → List String → List String → Prop
  /-- The name ends. -/
  | stop {f : Field} : Follows f [] [f.storage]
  /-- Below a document with any keys, all segments are kept. -/
  | keep {f : Field} {rest : List String} : f.kind = .freeForm → rest ≠ [] → "" ∉ rest →
      Follows f rest (f.storage :: rest)
  /-- A child is declared with the next segment. -/
  | down {f child : Field} {segment : String} {rest path : List String} : segment ≠ "" →
      f.kind.children.lookup segment = some child → Follows child rest path →
      Follows f (segment :: rest) (f.storage :: path)

/-- **A name strays** below a field: a segment is empty, or it goes on below single values, or
with a segment that is not declared. -/
inductive Field.Strays : Field → List String → Prop
  /-- A segment is empty, whatever comes before it. -/
  | empty {f : Field} {rest : List String} : "" ∈ rest → Strays f rest
  /-- Nothing lies below a single value, or below an array of them. -/
  | pastEnd {f : Field} {rest : List String} : f.kind = .scalar ∨ f.kind = .scalarArray →
      rest ≠ [] → Strays f rest
  /-- No child is declared with the next segment. -/
  | undeclared {f : Field} {children : Members Field} {segment : String} {rest : List String} :
      f.kind = .composite children ∨ f.kind = .collection children →
      children.lookup segment = none → Strays f (segment :: rest)
  /-- The name strays below a child. -/
  | down {f child : Field} {segment : String} {rest : List String} :
      f.kind.children.lookup segment = some child → Strays child rest →
      Strays f (segment :: rest)

namespace Field

variable {f : Field} {rest path : List String}

/-- A step down to a child goes on from there. -/
theorem descend?_child {child : Field} {segment : String}
    (h : f.kind.children.lookup segment = some child) :
    f.descend? (segment :: rest) =
      if segment = "" then none
      else (child.descend? rest).map fun found => (f.storage :: found.1, found.2) := by
  have hkind : f.kind ≠ .freeForm := by
    intro hkind
    simp [hkind, FieldKind.children] at h
  rw [descend?_cons hkind, h, Option.bind_some]

/-- What is followed is walked down, -/
theorem Follows.descend? (h : f.Follows rest path) :
    ∃ last, f.descend? rest = some (path, last) := by
  induction h with
  | @stop f => exact ⟨some f, by rw [Field.descend?]⟩
  | keep hkind hne hfull =>
    obtain ⟨segment, below, rfl⟩ := List.exists_cons_of_ne_nil hne
    refine ⟨none, ?_⟩
    rw [descend?_freeForm hkind, if_neg]
    rw [List.any_eq_true]
    rintro ⟨empty, hmem, hempty⟩
    exact hfull (String.isEmpty_iff.mp hempty ▸ hmem)
  | down hsegment hlookup _ ih =>
    obtain ⟨last, hdescend⟩ := ih
    refine ⟨last, ?_⟩
    rw [descend?_child hlookup, if_neg hsegment, hdescend, Option.map_some]

/-- and what strays is not. -/
theorem Strays.descend? (h : f.Strays rest) : f.descend? rest = none := by
  induction h with
  | @empty f rest hempty =>
    cases hdescend : f.descend? rest with
    | none => rfl
    | some found => exact absurd rfl (Schema.descend?_full hdescend "" hempty)
  | pastEnd hkind hne =>
    obtain ⟨segment, below, rfl⟩ := List.exists_cons_of_ne_nil hne
    rcases hkind with hkind | hkind <;> simp [descend?_cons, hkind, FieldKind.children]
  | undeclared hkind hlookup =>
    rcases hkind with hkind | hkind <;> simp [descend?_cons, hkind, FieldKind.children, hlookup]
  | down hlookup _ ih => rw [descend?_child hlookup, ih, Option.map_none, ite_self]

/-- Every name is followed from a field, or strays. -/
theorem follows_or_strays (f : Field) (rest : List String) :
    (∃ path, f.Follows rest path) ∨ f.Strays rest := by
  induction rest generalizing f with
  | nil => exact .inl ⟨_, .stop⟩
  | cons segment rest ih =>
    by_cases hempty : "" ∈ segment :: rest
    · exact .inr (.empty hempty)
    have hchildren : ∀ children, f.kind = .composite children ∨ f.kind = .collection children →
        (∃ path, f.Follows (segment :: rest) path) ∨ f.Strays (segment :: rest) := by
      intro children hkind
      have hself : f.kind.children = children := by
        rcases hkind with h | h <;> rw [h, FieldKind.children]
      cases hlookup : children.lookup segment with
      | none => exact .inr (.undeclared hkind hlookup)
      | some child =>
        rw [← hself] at hlookup
        refine (ih child).imp ?_ (.down hlookup)
        rintro ⟨path, hpath⟩
        exact ⟨_, .down (fun heq => hempty (by simp [heq])) hlookup hpath⟩
    cases hkind : f.kind with
    | freeForm => exact .inl ⟨_, .keep hkind (List.cons_ne_nil _ _) hempty⟩
    | scalar => exact .inr (.pastEnd (.inl hkind) (List.cons_ne_nil _ _))
    | scalarArray => exact .inr (.pastEnd (.inr hkind) (List.cons_ne_nil _ _))
    | composite children => exact hchildren children (.inl hkind)
    | collection children => exact hchildren children (.inr hkind)

end Field

namespace Schema

variable {s : Schema} {name path : String}

/-- The segments of a name are followed from the field that is declared with the first. -/
inductive Follows (s : Schema) : List String → List String → Prop
  | from {first : String} {rest path : List String} {f : Field} :
      s.fields.lookup first = some f → f.Follows rest path → Follows s (first :: rest) path

/-- And they stray if there is no such field, or below it. -/
inductive Strays (s : Schema) : List String → Prop
  | undeclared {first : String} {rest : List String} :
      s.fields.lookup first = none → Strays s (first :: rest)
  | below {first : String} {rest : List String} {f : Field} :
      s.fields.lookup first = some f → f.Strays rest → Strays s (first :: rest)

theorem Follows.walk {names : List String} (h : s.Follows (Dotted.segments name) names) :
    ∃ last, s.walk name = .ok (Dotted.join names, last) := by
  generalize hsegments : Dotted.segments name = segments at h
  obtain @⟨first, rest, _, f, hlookup, hfollows⟩ := h
  obtain ⟨last, hdescend⟩ := hfollows.descend?
  exact ⟨last, by simp only [Schema.walk, hsegments, hlookup, Option.bind_some, hdescend]⟩

theorem Strays.walk (h : s.Strays (Dotted.segments name)) :
    s.walk name = .error (.schema (.unknownField name)) := by
  generalize hsegments : Dotted.segments name = segments at h
  cases h with
  | undeclared hlookup => simp only [Schema.walk, hsegments, hlookup, Option.bind_none]
  | below hlookup hstrays =>
    simp only [Schema.walk, hsegments, hlookup, Option.bind_some, hstrays.descend?]

theorem follows_or_strays (s : Schema) (name : String) :
    (∃ names, s.Follows (Dotted.segments name) names) ∨ s.Strays (Dotted.segments name) := by
  obtain ⟨first, rest, hsegments⟩ := List.exists_cons_of_ne_nil (Dotted.segments_ne_nil name)
  rw [hsegments]
  cases hlookup : s.fields.lookup first with
  | none => exact .inr (.undeclared hlookup)
  | some f =>
    refine (f.follows_or_strays rest).imp ?_ (.below hlookup)
    rintro ⟨names, hfollows⟩
    exact ⟨names, .from hlookup hfollows⟩

/-! ## Mapped wildcards above -/

/-- **The nearest mapped wildcard** above a name: the name goes on from its stem behind a dot,
and from no longer stem of a mapped wildcard. -/
structure Nearest (s : Schema) (name above rest base : String) : Prop where
  /-- The name goes on from the stem. -/
  split : name = above ++ "." ++ rest
  /-- The wildcard of the stem is mapped. -/
  mapped : s.mapping.lookup (Dotted.wildcard above) = some base
  /-- That of no longer one is. -/
  longest : ∀ longer others, name = longer ++ "." ++ others → above.length < longer.length →
    s.mapping.lookup (Dotted.wildcard longer) = none

/-- **No wildcard above a name is mapped.** -/
def NoneAbove (s : Schema) (name : String) : Prop :=
  ∀ above rest, name = above ++ "." ++ rest → s.mapping.lookup (Dotted.wildcard above) = none

/-- One stem is the longest, and what is behind it is the rest of the name. -/
theorem Nearest.unique {above rest base above' rest' base' : String}
    (h : s.Nearest name above rest base) (h' : s.Nearest name above' rest' base') :
    base = base' ∧ rest = rest' := by
  have hlt : ¬ above.length < above'.length := fun hlt =>
    absurd h'.mapped (by simp [h.longest _ _ h'.split hlt])
  have hgt : ¬ above'.length < above.length := fun hgt =>
    absurd h.mapped (by simp [h'.longest _ _ h.split hgt])
  have hsplit : above.toList ++ ('.' :: rest.toList) = above'.toList ++ ('.' :: rest'.toList) := by
    simpa using congrArg String.toList (h.split.symm.trans h'.split)
  have hlength : above.toList.length = above'.toList.length := by
    rw [String.length_toList, String.length_toList]
    omega
  obtain ⟨habove, hrest⟩ := List.append_inj hsplit hlength
  obtain rfl := String.toList_inj.mp habove
  have hbase := h.mapped.symm.trans h'.mapped
  exact ⟨Option.some.inj hbase, String.toList_inj.mp (List.cons.inj hrest).2⟩

theorem viaWildcard?_eq_none_iff : s.viaWildcard? name = none ↔ s.NoneAbove name := by
  rw [viaWildcard?, List.findSome?_eq_none_iff]
  simp only [Option.map_eq_none_iff]
  constructor
  · intro h above rest hsplit
    have hnone := h _ (Dotted.mem_ancestors_segments.mpr hsplit)
    rwa [Dotted.join_segments] at hnone
  · intro h split hmem
    obtain ⟨above, rest, rfl, hsplit⟩ := Dotted.exists_of_mem_ancestors hmem
    rw [Dotted.join_segments]
    exact h above rest hsplit

/-- **The first mapped wildcard that is found** is the nearest one. -/
theorem nearest_of_viaWildcard? (h : s.viaWildcard? name = some path) :
    ∃ above rest base, s.Nearest name above rest base ∧ path = base ++ "." ++ rest := by
  obtain ⟨before, split, after, hancestors, hlookup, hnone⟩ := List.findSome?_eq_some_iff.mp h
  have hfirst : split ∈ Dotted.ancestors (Dotted.segments name) := by simp [hancestors]
  obtain ⟨above, rest, rfl, hsplit⟩ := Dotted.exists_of_mem_ancestors hfirst
  simp only [Dotted.join_segments, Option.map_eq_some_iff] at hlookup
  obtain ⟨base, hbase, rfl⟩ := hlookup
  refine ⟨above, rest, base, ⟨hsplit, hbase, fun longer others hlonger hlength => ?_⟩, rfl⟩
  have hmem := Dotted.mem_ancestors_segments.mpr hlonger
  have hsegments := Dotted.length_segments_lt hsplit hlonger hlength
  have hsorted := Dotted.pairwise_ancestors (Dotted.segments name)
  rw [hancestors] at hmem hsorted
  -- what comes behind the first one is no longer
  rcases List.mem_append.mp hmem with hbefore | hafter
  · simpa [Dotted.join_segments] using hnone _ hbefore
  · rcases List.mem_cons.mp hafter with heq | hafter
    · rw [(Prod.mk.inj heq).1] at hsegments
      exact absurd hsegments (Nat.lt_irrefl _)
    · have hshorter := (List.pairwise_cons.mp (List.pairwise_append.mp hsorted).2.1).1 _ hafter
      exact absurd hsegments (Nat.lt_asymm hshorter)

/-- And the nearest one is found. -/
theorem Nearest.viaWildcard? {above rest base : String} (h : s.Nearest name above rest base) :
    s.viaWildcard? name = some (base ++ "." ++ rest) := by
  cases hvia : s.viaWildcard? name with
  | none =>
    have hnone := viaWildcard?_eq_none_iff.mp hvia above rest h.split
    exact absurd h.mapped (by simp [hnone])
  | some path =>
    obtain ⟨above', rest', base', h', rfl⟩ := nearest_of_viaWildcard? hvia
    obtain ⟨rfl, rfl⟩ := h.unique h'
    rfl

/-! ## All ways -/

/-- A text that is no wildcard is a name unless it is empty or has a blank at an end. -/
theorem named_iff (hplain : Dotted.stem? name = none) : Named name ↔ ¬ Unnamed name := by
  have hwildcard : name ≠ Dotted.wildcardEnding := by
    rintro rfl
    exact absurd hplain (by decide)
  simp only [Named, Unnamed, Bool.or_eq_true, String.isEmpty_iff, beq_iff_eq, bne_iff_ne, ne_eq,
    hwildcard, or_false, not_or, not_not, trimmed_eq_self_iff, Option.mem_def]
  refine and_congr_right fun _ => ⟨?_, fun h => ⟨fun c hc => ?_, fun c hc => ?_⟩⟩
  · rintro ⟨hstart, hend⟩ ⟨c, hblank, hc | hc⟩
    · exact absurd hblank (by simp [hstart c hc])
    · exact absurd hblank (by simp [hend c hc])
  · exact Bool.eq_false_iff.mpr fun hblank => h ⟨c, hblank, .inl hc⟩
  · exact Bool.eq_false_iff.mpr fun hblank => h ⟨c, hblank, .inr hc⟩

/-- **The ways of a plain name**, each with what it leads to. -/
inductive Resolves (s : Schema) (name : String) : Except Error Resolved → Prop
  /-- A text that is no name is refused. -/
  | unnamed : Unnamed name → Resolves s name (.error (.schema .emptyField))
  /-- The name is mapped itself. -/
  | mapped {path : String} : ¬ Unnamed name → s.mapping.lookup name = some path →
      Resolves s name (.ok ⟨path, false⟩)
  /-- A wildcard above it is mapped, and what follows the stem of the nearest one is kept. -/
  | below {above rest base : String} : ¬ Unnamed name → s.mapping.lookup name = none →
      s.Nearest name above rest base → Resolves s name (.ok ⟨base ++ "." ++ rest, false⟩)
  /-- Nothing is mapped, and the name is followed down the declared fields, -/
  | declared {names : List String} : ¬ Unnamed name → s.mapping.lookup name = none →
      s.NoneAbove name → s.Follows (Dotted.segments name) names →
      Resolves s name (.ok ⟨Dotted.join names, false⟩)
  /-- or it strays from them. -/
  | unknown : ¬ Unnamed name → s.mapping.lookup name = none →
      s.NoneAbove name → s.Strays (Dotted.segments name) →
      Resolves s name (.error (.schema (.unknownField name)))

/-- A name for which nothing is mapped is looked for among the declared fields. -/
theorem resolve_of_noneAbove (hplain : Dotted.stem? name = none) (hnamed : ¬ Unnamed name)
    (hlookup : s.mapping.lookup name = none) (hnone : s.NoneAbove name) :
    s.resolve name = (s.walk name).map fun found => ⟨found.1, false⟩ := by
  rw [resolve_plain ((named_iff hplain).mpr hnamed) hplain, hlookup, Option.none_or,
    viaWildcard?_eq_none_iff.mpr hnone]

/-- A way that is open is taken. -/
theorem Resolves.resolve (hplain : Dotted.stem? name = none) {answer : Except Error Resolved}
    (h : s.Resolves name answer) : s.resolve name = answer := by
  cases h with
  | unnamed hunnamed =>
    have hnamed : ¬ Named name := fun hnamed => (named_iff hplain).mp hnamed hunnamed
    rw [Schema.resolve, if_pos (not_not.mp hnamed)]
  | mapped hnamed hlookup =>
    rw [resolve_plain ((named_iff hplain).mpr hnamed) hplain, hlookup, Option.some_or]
  | below hnamed hlookup hnearest =>
    rw [resolve_plain ((named_iff hplain).mpr hnamed) hplain, hlookup, Option.none_or,
      hnearest.viaWildcard?]
  | declared hnamed hlookup hnone hfollows =>
    obtain ⟨last, hwalk⟩ := hfollows.walk
    rw [resolve_of_noneAbove hplain hnamed hlookup hnone, hwalk]
    rfl
  | unknown hnamed hlookup hnone hstrays =>
    rw [resolve_of_noneAbove hplain hnamed hlookup hnone, hstrays.walk]
    rfl

/-- Some way is open to every name. -/
theorem exists_resolves (s : Schema) (name : String) : ∃ answer, s.Resolves name answer := by
  by_cases hnamed : Unnamed name
  · exact ⟨_, .unnamed hnamed⟩
  cases hlookup : s.mapping.lookup name with
  | some path => exact ⟨_, .mapped hnamed hlookup⟩
  | none =>
    cases hvia : s.viaWildcard? name with
    | some path =>
      obtain ⟨above, rest, base, hnearest, -⟩ := nearest_of_viaWildcard? hvia
      exact ⟨_, .below hnamed hlookup hnearest⟩
    | none =>
      have hnone := viaWildcard?_eq_none_iff.mp hvia
      rcases s.follows_or_strays name with ⟨names, hfollows⟩ | hstrays
      · exact ⟨_, .declared hnamed hlookup hnone hfollows⟩
      · exact ⟨_, .unknown hnamed hlookup hnone hstrays⟩

/-- **Resolution takes the one way that is open.** A plain name resolves with an answer just
when a way leads to it: that of texts that are no names, of a mapping of the name, of the
nearest mapped wildcard above it, of the declared fields, or that of names that stray from
these. -/
theorem resolve_eq_iff (hplain : Dotted.stem? name = none) {answer : Except Error Resolved} :
    s.resolve name = answer ↔ s.Resolves name answer := by
  refine ⟨?_, fun h => h.resolve hplain⟩
  rintro rfl
  obtain ⟨answer, h⟩ := s.exists_resolves name
  rwa [h.resolve hplain]

/-- A schema of notes in which wildcards are mapped above each other, and above fields that
are declared. -/
def layeredSchema : Schema :=
  { entityType := "note", collection := "notes", access := [("ID", true)],
    mapping := [("ID", "_id"), ("Text.*", "body"), ("Text.Size.*", "sizes")],
    fields := [("Text", .composite "Text" "text" [.freeForm "Size" "size"])] }

theorem isBuilt_layeredSchema : layeredSchema.IsBuilt :=
  ⟨(((Draft.start "note" "notes").map "Text.*" "body").map "Text.Size.*" "sizes").field
    (.composite "Text" "text" [.freeForm "Size" "size"]), rfl⟩

/-- **The nearest wildcard leads a name** that one further up would lead, too, and that can be
followed down the declared fields. -/
theorem size_resolves_below :
    layeredSchema.IsBuilt ∧ Dotted.stem? "Text.Size.a.b" = none ∧
      layeredSchema.Follows ["Text", "Size", "a", "b"] ["text", "size", "a", "b"] ∧
      layeredSchema.Resolves "Text.Size.a.b" (.ok ⟨"sizes.a.b", false⟩) := by
  have hplain : Dotted.stem? "Text.Size.a.b" = none := by decide
  refine ⟨isBuilt_layeredSchema, hplain, ?_, (resolve_eq_iff hplain).mp rfl⟩
  exact .from rfl (.down (by decide) rfl (.keep rfl (by decide) (by decide)))

end Schema

end ScopedDocs
