import ScopedDocs.Filter.Operator
import ScopedDocs.Proofs.Naming
import ScopedDocs.Proofs.WellFormed
import ScopedDocs.Schema.Draft
/-!
# Storage paths — where a built schema leads

Whatever a built schema resolves a name to is a path (`Schema.Leads`): it is no word
of filters, and it does not start where owners are stored. A path starts with the
mapping it comes from or with the storage name of a declared field, and both were
checked when the schema was built.
-/


namespace ScopedDocs

namespace Dotted

/-- The first segment of a name, as characters. -/
def headChars (name : String) : List Char := name.toList.takeWhile (· != '.')

theorem splitDots_head? (cs : List Char) :
    (splitDots cs).head? = some (cs.takeWhile (· != '.')) := by
  induction cs with
  | nil => rfl
  | cons c cs ih =>
    by_cases hc : c = '.'
    · simp [splitDots, hc]
    · rw [splitDots, if_neg hc, List.takeWhile_cons_of_pos (by simpa using hc)]
      cases hsplit : splitDots cs with
      | nil => exact absurd hsplit (splitDots_ne_nil cs)
      | cons segment segments =>
        rw [hsplit] at ih
        exact congrArg (fun s => some (c :: s)) (Option.some.inj ih)

/-- A name starts with its first segment. -/
theorem segments_head? (name : String) :
    (segments name).head? = some (String.ofList (headChars name)) := by
  rw [segments, List.head?_map, splitDots_head?, headChars, Option.map_some]

/-- What follows a dot does not change the first segment. -/
theorem takeWhile_append_dot (cs rest : List Char) :
    (cs ++ '.' :: rest).takeWhile (· != '.') = cs.takeWhile (· != '.') := by
  induction cs with
  | nil => rfl
  | cons c cs ih =>
    rw [List.cons_append, List.takeWhile_cons, List.takeWhile_cons, ih]

/-- A name below another one has the same first segment. -/
theorem headChars_below (above below : String) :
    headChars (above ++ "." ++ below) = headChars above := by
  have h : (above ++ "." ++ below).toList = above.toList ++ '.' :: below.toList := by simp
  rw [headChars, h, takeWhile_append_dot, headChars]

/-- A name of one segment is its first segment. -/
theorem headChars_of_single {name : String} (h : isNested name = false) :
    headChars name = name.toList := by
  have hplain : ∀ c ∈ name.toList, (c != '.') = true := by
    intro c hc
    rw [bne_iff_ne]
    rintro rfl
    exact absurd h (by simpa [isNested] using hc)
  simpa [headChars] using @List.takeWhile_append_of_pos _ (· != '.') name.toList [] hplain

/-- Joined segments start with the first one, if it has no dot. -/
theorem headChars_join {first : String} (rest : List String) (h : isNested first = false) :
    headChars (join (first :: rest)) = first.toList := by
  have hself := headChars_of_single h
  cases rest with
  | nil => simpa [headChars, join, joinDots] using hself
  | cons next rest =>
    have hjoin : (join (first :: next :: rest)).toList =
        first.toList ++ '.' :: joinDots ((next :: rest).map String.toList) := by
      simp [join, joinDots]
    rw [headChars, hjoin, takeWhile_append_dot, ← headChars, hself]

/-- A name that is no other name's and not below it starts with another segment. -/
theorem headChars_ne {name other : String} (hne : name ≠ other) (hbelow : isBelow other name = false) :
    headChars name ≠ other.toList := by
  intro heq
  have hsplit := List.takeWhile_append_dropWhile (p := (· != '.')) (l := name.toList)
  rw [← headChars, heq] at hsplit
  cases hrest : name.toList.dropWhile (· != '.') with
  | nil =>
    rw [hrest, List.append_nil] at hsplit
    exact hne (String.toList_inj.mp hsplit.symm)
  | cons c rest =>
    -- what ends the first segment is a dot, so the name would lie below the other one
    have hdot : c = '.' := by
      have hhead := List.head?_dropWhile_not (· != '.') name.toList
      rw [hrest] at hhead
      simpa using hhead
    rw [hrest, hdot] at hsplit
    have hprefix : (other.toList ++ ['.']) <+: name.toList := ⟨rest, by simpa using hsplit⟩
    rw [isBelow, List.isPrefixOf_iff_prefix.mpr hprefix] at hbelow
    exact absurd hbelow (by simp)

/-! ## Keys -/

/-- A key of documents: it is not empty, and no word of filters. -/
def IsKey (segment : String) : Prop := segment ≠ "" ∧ segment.toList.head? ≠ some '$'

/-- The segments of a path to a place in documents. -/
def IsStorage (path : List String) : Prop := path ≠ [] ∧ ∀ segment ∈ path, IsKey segment

end Dotted

/-- The fields declared below a place, by its kind. -/
def FieldKind.children : FieldKind → Members Field
  | .composite children => children
  | .collection children => children
  | _ => []

/-- **A step down from a document with any keys** keeps all that is left, if no segment is
empty. -/
theorem Field.descend?_freeForm {f : Field} {segment : String} {rest : List String}
    (h : f.kind = .freeForm) :
    f.descend? (segment :: rest) =
      if (segment :: rest).any String.isEmpty then none
      else some (f.storage :: segment :: rest, none) := by
  simp only [descend?, h]

/-- **A step down from another field** goes on from the child of the next segment. -/
theorem Field.descend?_cons {f : Field} {rest : List String} (h : f.kind ≠ .freeForm)
    (segment : String) :
    f.descend? (segment :: rest) =
      if segment = "" then none
      else (f.kind.children.lookup segment).bind fun child =>
        (child.descend? rest).map fun found => (f.storage :: found.1, found.2) := by
  rw [descend?]
  cases hkind : f.kind with
  | freeForm => exact absurd hkind h
  | scalar | scalarArray => simp [FieldKind.children]
  | composite children | collection children =>
    simp only [descend?.below, FieldKind.children, String.isEmpty_iff]
    cases children.lookup segment <;> rfl

namespace Schema

/-- **A path that leads into records**: it is no word of filters, and it does not
start where owners are stored. -/
structure Leads (path : String) : Prop where
  /-- It does not start with a dollar sign. -/
  plain : Filter.isWord path = false
  /-- It is neither the path of owners nor below it. -/
  apart : Dotted.headChars path ≠ Owner.path.toList

/-- A key that is no word of filters is a path. -/
theorem Leads.key {path : String} (h : Leads path) :
    Filter.Key.of path = .path (Dotted.segments path) := by
  have hnone : Filter.Connective.ofName? path = none := by
    have hword := h.plain
    unfold Filter.Connective.ofName?
    split
    · next heq => exact absurd (heq ▸ hword) (by decide)
    · split
      · next heq => exact absurd (heq ▸ hword) (by decide)
      · split
        · next heq => exact absurd (heq ▸ hword) (by decide)
        · rfl
  simp only [Filter.Key.of, hnone, h.plain, Bool.false_eq_true, ↓reduceIte]

/-- A path leads into records if its first segment is no word and not that of
owners. -/
theorem leads_of_headChars {path : String} (hword : (Dotted.headChars path).head? ≠ some '$')
    (hapart : Dotted.headChars path ≠ Owner.path.toList) : Leads path := by
  refine ⟨?_, hapart⟩
  rw [Filter.isWord, beq_eq_false_iff_ne]
  intro hhead
  refine hword ?_
  obtain ⟨rest, hpath⟩ := List.head?_eq_some_iff.mp hhead
  rw [Dotted.headChars, hpath]
  rfl

/-- **A schema that was built** from declarations. -/
def IsBuilt (s : Schema) : Prop := ∃ d : Draft, d.build = .ok s

/-! ## What building checks -/

section

variable {logical path : String}

/-- **An accepted path** has a logical name, and all of its segments are keys. -/
theorem checkPath_isStorage (h : Field.checkPath logical path = .ok ()) :
    logical ≠ "" ∧ Dotted.IsStorage (Dotted.segments path) := by
  unfold Field.checkPath at h
  simp only at h
  repeat' split at h
  case isFalse.isFalse.isFalse.isFalse hlogical _ hempty hdollar =>
    refine ⟨by simpa using hlogical, Dotted.segments_ne_nil path, fun segment hsegment => ?_⟩
    rw [List.any_eq_true, not_exists] at hempty hdollar
    exact ⟨fun heq => hempty segment ⟨hsegment, by simp [heq]⟩,
      fun heq => hdollar segment ⟨hsegment, by simpa using heq⟩⟩
  all_goals exact absurd h (by simp)

/-- The first segment of an accepted path is no word of filters. -/
theorem checkPath_head (h : Field.checkPath logical path = .ok ()) :
    (Dotted.headChars path).head? ≠ some '$' := by
  have hhead : String.ofList (Dotted.headChars path) ∈ Dotted.segments path :=
    List.mem_of_mem_head? (Option.mem_def.mpr (Dotted.segments_head? path))
  simpa using ((checkPath_isStorage h).2.2 _ hhead).2

/-- An accepted field has a logical name, and a storage name of one segment. -/
theorem check_ok {f : Field} (h : f.check = .ok ()) :
    f.name ≠ "" ∧ Dotted.isNested f.storage = false ∧ f.storage.toList.head? ≠ some '$' := by
  obtain ⟨name, storage, kind⟩ := f
  rw [Field.check] at h
  split at h
  · exact absurd h (by simp)
  · next hnested =>
    obtain ⟨⟨⟩, hpath, -⟩ := bind_eq_ok.mp h
    rw [Bool.or_eq_true, not_or, Bool.not_eq_true, Bool.not_eq_true] at hnested
    have hhead := checkPath_head hpath
    rw [Dotted.headChars_of_single hnested.2] at hhead
    exact ⟨(checkPath_isStorage hpath).1, hnested.2, hhead⟩

end

/-- An indexed field is one of those declared, under its name. -/
theorem mem_index {key : String} {f : Field} {fields : List Field}
    (h : (key, f) ∈ Field.index fields) : f ∈ fields ∧ key = f.name := by
  -- the fields indexed so far are arbitrary, so that the induction goes along the rest
  have hfold : ∀ (fields : List Field) (m : Members Field),
      (key, f) ∈ fields.foldl (fun m f => m.putSorted f.name f) m →
        (f ∈ fields ∧ key = f.name) ∨ (key, f) ∈ m := by
    intro fields
    induction fields with
    | nil => exact fun _ h => .inr h
    | cons g rest ih =>
      intro m h
      rcases ih _ h with ⟨hmem, hname⟩ | hmem
      · exact .inl ⟨List.mem_cons_of_mem _ hmem, hname⟩
      · rcases Members.mem_putSorted hmem with heq | hmem
        · obtain ⟨rfl, rfl⟩ := Prod.mk.inj heq
          exact .inl ⟨List.mem_cons_self, rfl⟩
        · exact .inr hmem
  exact (hfold fields [] h).resolve_right List.not_mem_nil

/-- **A step down from a field** keeps all that follows, below a document with any keys, or
goes on from the child of the next segment. It follows no empty segment. -/
theorem descend?_cases {f : Field} {segment : String} {below names : List String}
    {last : Option Field} (h : f.descend? (segment :: below) = some (names, last)) :
    (f.kind = .freeForm ∧ (∀ name ∈ segment :: below, name ≠ "") ∧
        names = f.storage :: segment :: below) ∨
      ∃ child inner, segment ≠ "" ∧ f.kind.children.lookup segment = some child ∧
        child.descend? below = some (inner, last) ∧ names = f.storage :: inner := by
  by_cases hkind : f.kind = .freeForm
  · rw [Field.descend?_freeForm hkind] at h
    split at h
    · exact absurd h (by simp)
    · next hfull =>
      refine .inl ⟨hkind, fun name hname heq => ?_, (Prod.mk.inj (Option.some.inj h)).1.symm⟩
      exact hfull (List.any_eq_true.mpr ⟨name, hname, by simp [heq]⟩)
  · rw [Field.descend?_cons hkind] at h
    split at h
    · exact absurd h (by simp)
    · next hsegment =>
      obtain ⟨child, hlookup, h⟩ := Option.bind_eq_some_iff.mp h
      obtain ⟨⟨inner, _⟩, hdescend, heq⟩ := Option.map_eq_some_iff.mp h
      obtain ⟨rfl, rfl⟩ := Prod.mk.inj heq
      exact .inr ⟨child, inner, hsegment, hlookup, hdescend, rfl⟩

/-- A walk down from a field starts with its storage name. -/
theorem descend?_head {f : Field} {below : List String} {names : List String} {last : Option Field}
    (h : f.descend? below = some (names, last)) : ∃ rest, names = f.storage :: rest := by
  cases below with
  | nil =>
    rw [Field.descend?] at h
    exact ⟨[], (Prod.mk.inj (Option.some.inj h)).1.symm⟩
  | cons segment below =>
    rcases descend?_cases h with ⟨-, -, hnames⟩ | ⟨_, inner, -, -, -, hnames⟩
    · exact ⟨_, hnames⟩
    · exact ⟨inner, hnames⟩

/-- **A walk** starts from the field of the first segment, and goes down from there. -/
theorem walk_cases {s : Schema} {name path : String} {last : Option Field}
    (h : s.walk name = .ok (path, last)) :
    ∃ first rest f names, Dotted.segments name = first :: rest ∧
      s.fields.lookup first = some f ∧ f.descend? rest = some (names, last) ∧
      path = Dotted.join names := by
  unfold walk at h
  simp only at h
  split at h
  · next names _ hfound =>
    obtain ⟨rfl, rfl⟩ := Prod.mk.inj (Except.ok.inj h)
    split at hfound
    · next first rest hsegments =>
      obtain ⟨f, hf, hdescend⟩ := Option.bind_eq_some_iff.mp hfound
      exact ⟨first, rest, f, names, hsegments, hf, hdescend, rfl⟩
    · exact absurd hfound (by simp)
  · exact absurd h (by simp)

/-! ## Where names resolve to -/

section

variable {s : Schema} {name : String} {r : Resolved}

/-- A text that can be a name: it is not empty, no bare ending, and has no blanks at its
ends. -/
def Named (name : String) : Prop :=
  ¬ (name.isEmpty || name == Dotted.wildcardEnding || trimmed name != name) = true

theorem named_of_resolve (h : s.resolve name = .ok r) : Named name := by
  unfold resolve at h
  split at h
  · exact absurd h (by simp)
  · next hnamed => exact hnamed

/-- **A plain name** resolves by its own mapping, by that of a wildcard above it, or down
the declared fields. -/
theorem resolve_plain (hnamed : Named name) (hplain : Dotted.stem? name = none) :
    s.resolve name =
      match (s.mapping.lookup name).or (s.viaWildcard? name) with
      | some path => .ok ⟨path, false⟩
      | none => (s.walk name).map fun found => ⟨found.1, false⟩ := by
  rw [resolve, if_neg hnamed, hplain]
  simp only [Option.orElse_eq_or]
  cases (s.mapping.lookup name).or (s.viaWildcard? name) with
  | some path => rfl
  | none => cases s.walk name <;> rfl

/-- **A wildcard** resolves by its own mapping, by that of its stem, or down the declared
fields, and in no other way. -/
theorem resolve_wildcard (hnamed : Named (Dotted.wildcard name)) :
    s.resolve (Dotted.wildcard name) =
      match (s.mapping.lookup (Dotted.wildcard name)).or (s.mapping.lookup name) with
      | some path => .ok ⟨path, Dotted.isNested path⟩
      | none => (s.walk name).map fun found =>
        ⟨found.1, Dotted.isNested found.1 || found.2.any Field.isArray⟩ := by
  have hstem : Dotted.stem? (Dotted.wildcard name) = some name := Dotted.stem?_eq_some.mpr rfl
  rw [resolve, if_neg hnamed, hstem]
  simp only [Option.orElse_eq_or]
  cases (s.mapping.lookup (Dotted.wildcard name)).or (s.mapping.lookup name) with
  | some path => rfl
  | none => cases s.walk name <;> rfl

/-- **How a name resolves**: by its own mapping or that of its stem, by the mapping of a
wildcard above it unless it is one itself, or down the declared fields. -/
theorem resolve_cases (h : s.resolve name = .ok r) :
    s.mapping.lookup name = some r.path ∨
      s.mapping.lookup (Dotted.stem name) = some r.path ∨
      (Dotted.stem? name = none ∧ s.viaWildcard? name = some r.path) ∨
      ∃ last, s.walk (Dotted.stem name) = .ok (r.path, last) := by
  have hnamed := named_of_resolve h
  cases hname : Dotted.stem? name with
  | none =>
    rw [resolve_plain hnamed hname] at h
    rw [Dotted.stem_of_none hname]
    split at h
    · next hfound =>
      obtain rfl := Except.ok.inj h
      rcases Option.or_eq_some_iff.mp hfound with hread | ⟨-, hvia⟩
      · exact .inl hread
      · exact .inr (.inr (.inl ⟨rfl, hvia⟩))
    · obtain ⟨⟨path, last⟩, hwalk, rfl⟩ := map_eq_ok.mp h
      exact .inr (.inr (.inr ⟨last, hwalk⟩))
  | some stem =>
    obtain rfl := Dotted.stem?_eq_some.mp hname
    rw [resolve_wildcard hnamed] at h
    rw [Dotted.stem_wildcard]
    split at h
    · next hfound =>
      obtain rfl := Except.ok.inj h
      rcases Option.or_eq_some_iff.mp hfound with hread | ⟨-, hread⟩
      · exact .inl hread
      · exact .inr (.inl hread)
    · obtain ⟨⟨path, last⟩, hwalk, rfl⟩ := map_eq_ok.mp h
      exact .inr (.inr (.inr ⟨last, hwalk⟩))

end

/-- **What a built schema is made of**: mappings and fields that lead into records. -/
structure Sound (s : Schema) : Prop where
  /-- Every mapping leads into records. -/
  mapping : ∀ m ∈ s.mapping, Leads m.2
  /-- Every declared field has a storage name of one segment, which leads into records. -/
  fields : ∀ name f, s.fields.lookup name = some f →
    Dotted.isNested f.storage = false ∧ Leads f.storage

namespace Sound

variable {s : Schema} {logical path : String}

theorem of_lookup (h : s.Sound) (hread : s.mapping.lookup logical = some path) : Leads path := by
  obtain ⟨before, after, hmapping, -⟩ := List.lookup_eq_some_iff.mp hread
  exact h.mapping (logical, path) (by simp [hmapping])

theorem walk {last : Option Field} (h : s.Sound) (hwalk : s.walk logical = .ok (path, last)) :
    Leads path := by
  obtain ⟨first, rest, f, names, -, hf, hdescend, rfl⟩ := walk_cases hwalk
  obtain ⟨rest, rfl⟩ := descend?_head hdescend
  obtain ⟨hsingle, hleads⟩ := h.fields _ f hf
  -- the path starts with the storage name of the field the walk starts from
  have hhead := Dotted.headChars_join rest hsingle
  refine leads_of_headChars ?_ ?_
  · rw [hhead]
    simpa [Filter.isWord] using hleads.plain
  · rw [hhead, ← Dotted.headChars_of_single hsingle]
    exact hleads.apart

theorem viaWildcard (h : s.Sound) (hvia : s.viaWildcard? logical = some path) : Leads path := by
  obtain ⟨⟨above, below⟩, -, hfound⟩ := List.exists_of_findSome?_eq_some hvia
  obtain ⟨base, hbase, rfl⟩ := Option.map_eq_some_iff.mp hfound
  have hleads := h.of_lookup hbase
  have hhead := Dotted.headChars_below base (Dotted.join below)
  refine leads_of_headChars (fun hword => ?_) (hhead ▸ hleads.apart)
  rw [hhead] at hword
  -- a first segment that starts with a dollar sign makes the mapping a word
  have hplain := hleads.plain
  rw [Filter.isWord, beq_eq_false_iff_ne] at hplain
  refine hplain ?_
  obtain ⟨rest, hrest⟩ := List.head?_eq_some_iff.mp hword
  rw [← List.takeWhile_append_dropWhile (p := (· != '.')) (l := base.toList), ← Dotted.headChars,
    hrest]
  rfl

/-- **Every name resolves into records.** -/
theorem resolve {r : Resolved} (h : s.Sound) (hresolve : s.resolve logical = .ok r) :
    Leads r.path := by
  rcases resolve_cases hresolve with hread | hread | ⟨-, hvia⟩ | ⟨last, hwalk⟩
  · exact h.of_lookup hread
  · exact h.of_lookup hread
  · exact h.viaWildcard hvia
  · exact h.walk hwalk

theorem resolveUnrestricted {r : Resolved} (h : s.Sound)
    (hresolve : s.resolveUnrestricted logical = .ok r) : Leads r.path := by
  unfold Schema.resolveUnrestricted at hresolve
  split at hresolve
  · exact absurd hresolve (by simp)
  · exact h.resolve hresolve

theorem resolveQueryable {r : Resolved} (h : s.Sound)
    (hresolve : s.resolveQueryable logical = .ok r) : Leads r.path := by
  obtain ⟨-, -, hresolve⟩ := bind_eq_ok.mp hresolve
  exact h.resolve hresolve

end Sound

/-! ## Building -/

/-- Mapped paths are not where owners are, nor below. -/
theorem apart_of_not_isOwnerPath {path : String} (h : Draft.isOwnerPath path = false) :
    Dotted.headChars path ≠ Owner.path.toList := by
  rw [Draft.isOwnerPath, Bool.or_eq_false_iff, beq_eq_false_iff_ne] at h
  exact Dotted.headChars_ne h.1 h.2

/-- **What building checks and makes**: declarations that pass their checks, and a schema
of the same mappings and fields whose indexes and idempotency key resolve in it. -/
structure Draft.Makes (d : Draft) (s : Schema) : Prop where
  /-- The mappings are those declared. -/
  mapping : s.mapping = d.mapping
  /-- The fields are those declared. -/
  fields : s.fields = Field.index d.fields
  /-- Every mapping has been checked. -/
  paths : ∀ m ∈ d.mapping, Field.checkPath m.1 m.2 = .ok ()
  /-- Every field has been checked. -/
  checks : ∀ f ∈ d.fields, f.check = .ok ()
  /-- Nothing is stored where owners are. -/
  apart : d.claimsOwnership = false
  /-- The indexes are those declared, with their fields resolved. -/
  indexes : d.indexes.mapM (Draft.buildIndex s) = .ok s.indexes
  /-- The path of the idempotency key is where a field is stored. -/
  key : ∀ path, s.idempotencyPath = some path → ∃ name r, s.resolve name = .ok r ∧ r.path = path

/-- A schema that is built has passed all checks. -/
theorem Draft.build_ok {d : Draft} {s : Schema} (h : d.build = .ok s) : d.Makes s := by
  obtain ⟨⟨⟩, hpaths, h⟩ := bind_eq_ok.mp h
  obtain ⟨⟨⟩, hchecks, h⟩ := bind_eq_ok.mp h
  cases hclaims : d.claimsOwnership with
  | true => exact absurd h (by simp [hclaims])
  | false =>
    simp only [hclaims, Bool.false_eq_true, ↓reduceIte] at h
    obtain ⟨⟨⟩, -, h⟩ := bind_eq_ok.mp h
    obtain ⟨indexes, hindexes, h⟩ := bind_eq_ok.mp h
    split at h
    · obtain rfl := Except.ok.inj h
      exact ⟨rfl, rfl, ok_of_forM hpaths, ok_of_forM hchecks, hclaims, hindexes, by simp⟩
    · next name _ =>
      obtain ⟨r, hresolve, h⟩ := bind_eq_ok.mp h
      obtain rfl := Except.ok.inj h
      refine ⟨rfl, rfl, ok_of_forM hpaths, ok_of_forM hchecks, hclaims, hindexes, ?_⟩
      exact fun path hpath => ⟨name, r, hresolve, Option.some.inj hpath⟩

/-- What declarations that were accepted amount to. -/
theorem Draft.Makes.sound {d : Draft} {s : Schema} (h : d.Makes s) : s.Sound := by
  have hclaims := h.apart
  rw [Draft.claimsOwnership, Bool.or_eq_false_iff, List.any_eq_false, List.any_eq_false] at hclaims
  refine ⟨fun m hm => ?_, fun name f hf => ?_⟩
  · rw [h.mapping] at hm
    have howner := hclaims.2 m hm
    exact leads_of_headChars (checkPath_head (h.paths m hm))
      (apart_of_not_isOwnerPath (by simpa using howner))
  · rw [h.fields] at hf
    have hmem := (mem_index (Members.mem_of_lookup hf)).1
    obtain ⟨-, hsingle, hword⟩ := check_ok (h.checks f hmem)
    have howner : f.storage ≠ Owner.path := by simpa using hclaims.1 f hmem
    have hself := Dotted.headChars_of_single hsingle
    refine ⟨hsingle, leads_of_headChars (by rwa [hself]) ?_⟩
    rw [hself]
    exact fun heq => howner (String.toList_inj.mp heq)

/-- **A built schema leads into records**: its mappings and fields do, and so does the
path of its idempotency key. -/
theorem IsBuilt.sound {s : Schema} (h : s.IsBuilt) :
    s.Sound ∧ ∀ path, s.idempotencyPath = some path → Leads path := by
  obtain ⟨d, hbuild⟩ := h
  have hmakes := Draft.build_ok hbuild
  refine ⟨hmakes.sound, fun path hpath => ?_⟩
  obtain ⟨name, r, hresolve, rfl⟩ := hmakes.key path hpath
  exact hmakes.sound.resolve hresolve

end Schema

end ScopedDocs
