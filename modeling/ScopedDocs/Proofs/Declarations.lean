import ScopedDocs.Proofs.Storage
import ScopedDocs.Proofs.WellFormed
/-!
# Declarations — what every name comes from

A schema declares names, each with a storage path, and for some of them everything below
(`Schema.declared`). Every name that resolves continues one of these, and its path
continues the path of the declaration with the same segments
(`Schema.resolve_declared`). So if all declarations agree with a name where it is stored
(`Schema.Unaliased`), only names that touch it lead there, above it or below it
(`Schema.Unaliased.touches`).
-/


namespace ScopedDocs

/-! ## Declarations -/

/-- A declared name, by its segments, and the segments of its storage path. -/
structure Declared where
  name : List String
  path : List String
  /-- Whether any name below leads below the path, with the same segments. -/
  isOpen : Bool
  deriving DecidableEq, Repr

mutual

/-- What a field and the fields below it declare. -/
def Field.declared (name path : List String) : Field → List Declared
  | .declare _ storage kind => FieldKind.declared name (path ++ Dotted.segments storage) kind

/-- What is declared at a place, by the kind of value there. -/
def FieldKind.declared (name path : List String) : FieldKind → List Declared
  | .composite children => ⟨name, path, false⟩ :: declaredBelow name path children
  | .collection children => ⟨name, path, false⟩ :: declaredBelow name path children
  | .freeForm => [⟨name, path, true⟩]
  | _ => [⟨name, path, false⟩]

/-- What fields declare below a place. -/
def declaredBelow (name path : List String) : List (String × Field) → List Declared
  | [] => []
  | (key, f) :: rest => f.declared (name ++ [key]) path ++ declaredBelow name path rest

end

/-- What a mapping declares: its name, or everything below the stem of a wildcard. -/
def Declared.ofMapping (m : String × String) : Declared :=
  ⟨Dotted.segments (Dotted.stem m.1), Dotted.segments m.2, (Dotted.stem? m.1).isSome⟩

/-- All that a schema declares. -/
def Schema.declared (s : Schema) : List Declared :=
  s.mapping.map Declared.ofMapping ++ declaredBelow [] [] s.fields

/-- Whether a declaration reaches a name, with its path. -/
def Declared.Reaches (d : Declared) (name path : List String) : Prop :=
  ∃ rest, name = d.name ++ rest ∧ path = d.path ++ rest ∧ (d.isOpen = false → rest = [])

/-! ## Every name comes from a declaration -/

theorem Declared.reaches_self (d : Declared) : d.Reaches d.name d.path :=
  ⟨[], (List.append_nil _).symm, (List.append_nil _).symm, fun _ => rfl⟩

theorem mem_declaredBelow {name path : List String} {key : String} {f : Field} {d : Declared}
    {children : Members Field} (hmem : (key, f) ∈ children)
    (hd : d ∈ f.declared (name ++ [key]) path) : d ∈ declaredBelow name path children := by
  induction children with
  | nil => exact absurd hmem List.not_mem_nil
  | cons child rest ih =>
    obtain ⟨k, g⟩ := child
    rw [declaredBelow, List.mem_append]
    rcases List.mem_cons.mp hmem with heq | hmem
    · obtain ⟨rfl, rfl⟩ := Prod.mk.inj heq
      exact .inl hd
    · exact .inr (ih hmem)

theorem Field.declared_eq (f : Field) (name path : List String) :
    f.declared name path =
      FieldKind.declared name (path ++ Dotted.segments f.storage) f.kind := by
  cases f
  rw [Field.declared, Field.storage, Field.kind]

/-- A place is declared with its own name and path. -/
theorem FieldKind.declared_self (kind : FieldKind) (name path : List String) :
    ∃ d ∈ kind.declared name path, d.name = name ∧ d.path = path := by
  cases kind <;> exact ⟨_, List.mem_cons_self, rfl, rfl⟩

/-- What is declared below a place is declared with it. -/
theorem FieldKind.declaredBelow_subset (kind : FieldKind) (name path : List String) :
    declaredBelow name path kind.children ⊆ kind.declared name path := by
  cases kind <;> simp [children, declared, declaredBelow]

/-- **A walk down from a field** follows a declaration. -/
theorem Field.descend?_declared {f : Field} {below names : List String} {last : Option Field}
    (h : f.descend? below = some (names, last)) (name path : List String)
    (hbelow : ∀ segment ∈ below, Dotted.segments segment = [segment]) :
    ∃ d ∈ f.declared name path,
      d.Reaches (name ++ below) (path ++ names.flatMap Dotted.segments) := by
  induction below generalizing f names name path with
  | nil =>
    rw [descend?] at h
    obtain rfl := (Prod.mk.inj (Option.some.inj h)).1
    obtain ⟨d, hd, hname, hpath⟩ :=
      f.kind.declared_self name (path ++ Dotted.segments f.storage)
    refine ⟨d, f.declared_eq name path ▸ hd, [], ?_, ?_, fun _ => rfl⟩
    · rw [hname]
    · rw [hpath, List.append_nil, List.flatMap_singleton]
  | cons segment rest ih =>
    rw [declared_eq]
    rcases Schema.descend?_cases h with
      ⟨hkind, -, rfl⟩ | ⟨child, inner, -, hlookup, hdescend, rfl⟩
    · refine ⟨_, by rw [hkind, FieldKind.declared]; exact List.mem_cons_self, segment :: rest,
        rfl, ?_, fun h => absurd h (by simp)⟩
      rw [List.flatMap_cons, Dotted.flatMap_segments hbelow, List.append_assoc]
    · obtain ⟨-, hrest⟩ := List.forall_mem_cons.mp hbelow
      obtain ⟨d, hd, hreaches⟩ :=
        ih hdescend (name ++ [segment]) (path ++ Dotted.segments f.storage) hrest
      have hmem := mem_declaredBelow (Members.mem_of_lookup hlookup) hd
      refine ⟨d, f.kind.declaredBelow_subset _ _ hmem, ?_⟩
      rw [List.flatMap_cons, ← List.append_assoc]
      simpa using hreaches

namespace Schema

variable {s : Schema} {name path : String}

theorem walk_declared {last : Option Field} (h : s.walk name = .ok (path, last)) :
    ∃ d ∈ s.declared, d.Reaches (Dotted.segments name) (Dotted.segments path) := by
  obtain ⟨first, rest, f, names, hsegments, hf, hdescend, rfl⟩ := walk_cases h
  have hsub : ∀ segment ∈ rest, Dotted.segments segment = [segment] := fun segment hmem =>
    Dotted.segments_of_mem (hsegments ▸ List.mem_cons_of_mem _ hmem)
  obtain ⟨d, hd, hreaches⟩ := f.descend?_declared hdescend [first] [] hsub
  have hne : names ≠ [] := by
    obtain ⟨rest, hrest⟩ := descend?_head hdescend
    simp [hrest]
  refine ⟨d, List.mem_append_right _ (mem_declaredBelow (Members.mem_of_lookup hf) hd), ?_⟩
  rw [hsegments, Dotted.segments_join hne]
  exact hreaches

theorem lookup_declared (h : s.mapping.lookup name = some path) :
    ∃ d ∈ s.declared, d.Reaches (Dotted.segments (Dotted.stem name)) (Dotted.segments path) :=
  ⟨.ofMapping (name, path),
    List.mem_append_left _ (List.mem_map.mpr ⟨_, Members.mem_of_lookup h, rfl⟩),
    Declared.reaches_self _⟩

theorem viaWildcard_declared (h : s.viaWildcard? name = some path) :
    ∃ d ∈ s.declared, d.Reaches (Dotted.segments name) (Dotted.segments path) := by
  obtain ⟨split, hsplit, hfound⟩ := List.exists_of_findSome?_eq_some h
  obtain ⟨above, rest, rfl, rfl⟩ := Dotted.exists_of_mem_ancestors hsplit
  simp only [Dotted.join_segments, Option.map_eq_some_iff] at hfound
  obtain ⟨base, hbase, rfl⟩ := hfound
  refine ⟨.ofMapping (Dotted.wildcard above, base),
    List.mem_append_left _ (List.mem_map.mpr ⟨_, Members.mem_of_lookup hbase, rfl⟩),
    Dotted.segments rest, ?_, ?_, fun hclosed => ?_⟩
  · rw [Dotted.segments_below, Declared.ofMapping, Dotted.stem_wildcard]
  · rw [Dotted.segments_below]
    rfl
  · rw [Declared.ofMapping, Dotted.stem?_eq_some.mpr rfl] at hclosed
    exact absurd hclosed (by simp)

/-- **A name that resolves** follows a declaration, unless it is a wildcard of a
wildcard. -/
theorem resolve_declared {r : Resolved} (h : s.resolve name = .ok r)
    (hstem : Dotted.stem? (Dotted.stem name) = none) :
    ∃ d ∈ s.declared, d.Reaches (Dotted.segments (Dotted.stem name)) (Dotted.segments r.path) := by
  rcases resolve_cases h with hread | hread | ⟨hplain, hvia⟩ | ⟨last, hwalk⟩
  · exact lookup_declared hread
  · have hself := lookup_declared hread
    rwa [Dotted.stem_of_none hstem] at hself
  · rw [Dotted.stem_of_none hplain]
    exact viaWildcard_declared hvia
  · exact walk_declared hwalk

end Schema

/-! ## Declarations that agree with a name -/

namespace Declared

variable {d : Declared} {name other path place : List String}

/-- **A declaration agrees with a name** that is stored at a path, if it is stored
elsewhere or has a name on one line with it. Where all names below it lead below its
path, the one that leads to the path has to be the name or below it. -/
def Agrees (d : Declared) (name path : List String) : Prop :=
  (d.path <+: path →
    name <+: d.name ++ path.drop d.path.length ∨ (d.isOpen = false ∧ d.name <+: name)) ∧
  (path <+: d.path → name <+: d.name ∨ (d.isOpen = false ∧ d.name <+: name))

instance (d : Declared) (name path : List String) : Decidable (d.Agrees name path) :=
  inferInstanceAs (Decidable (_ ∧ _))

/-- **What a declaration reaches** on one line with the path of a name it agrees with has
a name on one line with it. -/
theorem Agrees.line (h : d.Agrees name path) (hreaches : d.Reaches other place)
    (hline : place <+: path ∨ path <+: place) : other <+: name ∨ name <+: other := by
  obtain ⟨rest, rfl, rfl, hclosed⟩ := hreaches
  have hpaths : d.path <+: path ∨ path <+: d.path := by
    rcases hline with hline | hline
    · exact .inl ((List.prefix_append _ _).trans hline)
    · exact List.prefix_or_prefix_of_prefix (List.prefix_append _ _) hline
  have hshut (hshut : d.isOpen = false ∧ d.name <+: name) :
      d.name ++ rest <+: name ∨ name <+: d.name ++ rest := by
    rw [hclosed hshut.1, List.append_nil]
    exact .inl hshut.2
  rcases hpaths with hpath | hpath
  · rcases h.1 hpath with hname | hclosed
    · obtain ⟨behind, rfl⟩ := hpath
      rw [List.drop_left] at hname
      -- what was asked for ends above the path, or goes on below it
      simp only [List.prefix_append_right_inj] at hline
      rcases hline with hline | hline
      · exact List.prefix_or_prefix_of_prefix
          ((List.prefix_append_right_inj d.name).mpr hline) hname
      · exact .inr (hname.trans ((List.prefix_append_right_inj d.name).mpr hline))
    · exact hshut hclosed
  · rcases h.2 hpath with hname | hclosed
    · exact .inr (hname.trans (List.prefix_append _ _))
    · exact hshut hclosed

end Declared

namespace Schema

variable {s : Schema} {name other : String}

/-- **A name without aliases**: every declaration agrees with it where it is stored. -/
def Unaliased (s : Schema) (name : String) : Prop :=
  ∀ r ∈ (s.resolve name).toOption, ∀ d ∈ s.declared,
    d.Agrees (Dotted.segments name) (Dotted.segments r.path)

instance (s : Schema) (name : String) : Decidable (s.Unaliased name) :=
  inferInstanceAs (Decidable (∀ _ ∈ _, _))

/-- **Names whose paths touch that of a name without aliases** touch this name. -/
theorem Unaliased.touches {r q : Resolved} (h : s.Unaliased name) (hr : s.resolve name = .ok r)
    (hq : s.resolve other = .ok q) (hother : Dotted.stem? (Dotted.stem other) = none)
    (htouches : Dotted.Touches q.path r.path) : Dotted.Touches (Dotted.stem other) name := by
  have hplace : r ∈ (s.resolve name).toOption := by
    rw [hr]
    exact Option.mem_def.mpr rfl
  obtain ⟨d, hd, hreaches⟩ := resolve_declared hq hother
  rw [Dotted.touches_iff] at htouches ⊢
  exact (h r hplace d hd).line hreaches htouches

end Schema

end ScopedDocs
