import ScopedDocs.Filter.Basic
/-!
# Mentions — the paths a filter reads

A filter names paths, under its connectives and within the conditions on the elements of
arrays, at any depth (`Filter.paths`). What it says of a document depends on nothing else:
two documents in which all of these paths reach the same values are told apart by no
answer and no error (`Filter.holds_congr`).
-/


namespace ScopedDocs

namespace Filter

/-- The path that a key of a filter reads by itself, if the key is a path. -/
def ownPath (key : String) : List String :=
  match Key.of key with
  | .path _ => [key]
  | _ => []

mutual

/-- **The paths a filter reads.** -/
def paths : Json → List String
  | .obj members => memberPaths members
  | _ => []

/-- The paths that the keys of a filter read. -/
def memberPaths : List (String × Json) → List String
  | [] => []
  | (key, condition) :: rest => keyPaths key condition ++ memberPaths rest

/-- The paths that one key of a filter reads: it is a path itself, or it combines filters. -/
def keyPaths (key : String) : Json → List String
  | .arr clauses =>
    match Key.of key with
    | .connective _ => clausePaths clauses
    | _ => ownPath key
  | .obj members =>
    match Key.of key with
    | .path _ => key :: if areOperators members then operatorPaths key members else []
    | _ => []
  | _ => ownPath key

/-- The paths that filters read. -/
def clausePaths : List Json → List String
  | [] => []
  | clause :: clauses => paths clause ++ clausePaths clauses

/-- The paths that operators at a path read below it. -/
def operatorPaths (key : String) : List (String × Json) → List String
  | [] => []
  | (name, operand) :: rest => operandPaths key name operand ++ operatorPaths key rest

/-- The paths that one operator at a path reads below it: those of a filter that tests the
items of an array. -/
def operandPaths (key name : String) : Json → List String
  | .obj members =>
    match Operator.ofName? name with
    | some .elemMatch =>
      if areOperators members then operatorPaths key members
      else (memberPaths members).map fun path => key ++ "." ++ path
    | _ => []
  | _ => []

end

/-- Filters read what one of them reads. -/
theorem mem_clausePaths {path : String} {clauses : List Json} :
    path ∈ clausePaths clauses ↔ ∃ clause ∈ clauses, path ∈ paths clause := by
  induction clauses with
  | nil => simp [clausePaths]
  | cons clause clauses ih => simp [clausePaths, ih]

/-- Combined filters read what these read. -/
theorem paths_connective {key : String} {how : Connective} (h : Key.of key = .connective how)
    (clauses : List Json) : paths (.obj [(key, .arr clauses)]) = clausePaths clauses := by
  simp only [paths, memberPaths, keyPaths, h, List.append_nil]

/-! ## What a filter says -/

section

variable {a b : Json} {segments : List String}

theorem candidates_congr (h : a.reach segments = b.reach segments) :
    a.candidates segments = b.candidates segments := by
  rw [Json.candidates, Json.candidates, h]

/-- An operator tests what its path reaches. -/
theorem testHolds_congr (h : a.reach segments = b.reach segments) (options name : String)
    (operand : Json) : testHolds a segments options name operand =
      testHolds b segments options name operand := by
  have hcandidates := candidates_congr h
  have hequals : equalsAt a segments = equalsAt b segments := by
    funext expected
    rw [equalsAt, equalsAt, hcandidates]
  have hitems : itemsAt a segments = itemsAt b segments := by rw [itemsAt, itemsAt, h]
  simp only [testHolds, comparesAt, oneOfAt, matchesAt, presentAt, hcandidates, hequals, hitems, h]

/-- Operators at a path test what it reaches, and the items of the arrays there. -/
theorem operatorsHold_congr (h : a.reach segments = b.reach segments) (options : String)
    (operators : Members Json) :
    operatorsHold a segments options operators = operatorsHold b segments options operators := by
  have hitems : itemsAt a segments = itemsAt b segments := by rw [itemsAt, itemsAt, h]
  induction operators with
  | nil => rfl
  | cons first rest ih =>
    obtain ⟨name, operand⟩ := first
    have hfirst : operatorHolds a segments options name operand =
        operatorHolds b segments options name operand := by
      cases operand with
      | obj members =>
        -- an item is tested by itself, whichever document it was found in
        simp only [operatorHolds, hitems, testHolds_congr h]
      | _ => simp only [operatorHolds, testHolds_congr h]
    rw [operatorsHold, operatorsHold, hfirst, ih]

/-- What a key reads by itself, in segments. -/
theorem mem_ownPath {key : String} (h : Key.of key = .path segments) :
    key ∈ ownPath key ∧ Dotted.segments key = segments := by
  refine ⟨by simp [ownPath, h], ?_⟩
  unfold Key.of at h
  split at h
  · exact absurd h (by simp)
  · split at h
    · exact absurd h (by simp)
    · exact Key.path.inj h

/-- A key with an expected value tests what the key reads. -/
theorem valueHolds_congr {key : String} (expected : Json)
    (h : ∀ path ∈ ownPath key, a.reach (Dotted.segments path) = b.reach (Dotted.segments path)) :
    valueHolds a key expected = valueHolds b key expected := by
  unfold valueHolds
  cases hkey : Key.of key with
  | path segments =>
    obtain ⟨hmem, rfl⟩ := mem_ownPath hkey
    simp only [equalsAt, candidates_congr (h key hmem)]
  | connective how => rfl
  | unsupported => rfl

end

mutual

/-- **A filter reads a document at its paths only.** -/
theorem holds_congr {a b : Json} : (condition : Json) →
    (∀ path ∈ paths condition, a.reach (Dotted.segments path) = b.reach (Dotted.segments path)) →
    holds a condition = holds b condition
  | .obj members, h => membersHold_congr members h
  | .null, _ | .bool _, _ | .num _, _ | .str _, _ | .arr _, _ => rfl

theorem membersHold_congr {a b : Json} : (members : List (String × Json)) →
    (∀ path ∈ memberPaths members,
      a.reach (Dotted.segments path) = b.reach (Dotted.segments path)) →
    membersHold a members = membersHold b members
  | [], _ => rfl
  | (key, condition) :: rest, h => by
    obtain ⟨hfirst, hrest⟩ := List.forall_mem_append.mp h
    rw [membersHold, membersHold, memberHolds_congr key condition hfirst,
      membersHold_congr rest hrest]

theorem memberHolds_congr {a b : Json} (key : String) : (condition : Json) →
    (∀ path ∈ keyPaths key condition,
      a.reach (Dotted.segments path) = b.reach (Dotted.segments path)) →
    memberHolds a key condition = memberHolds b key condition
  | .arr clauses, h => by
    unfold memberHolds
    unfold keyPaths at h
    cases hkey : Key.of key with
    | connective how =>
      simp only [hkey] at h
      simp only [allHold_congr clauses h, anyHolds_congr clauses h]
    | path segments => exact valueHolds_congr _ (by simpa only [hkey] using h)
    | unsupported => exact valueHolds_congr _ (by simpa only [hkey] using h)
  | .obj members, h => by
    unfold memberHolds
    unfold keyPaths at h
    have hown : ∀ path ∈ ownPath key,
        a.reach (Dotted.segments path) = b.reach (Dotted.segments path) := by
      intro path hpath
      unfold ownPath at hpath
      split at hpath
      · next hkey =>
        simp only [hkey, List.forall_mem_cons] at h
        exact List.mem_singleton.mp hpath ▸ h.1
      · exact absurd hpath List.not_mem_nil
    cases hkey : Key.of key with
    | path segments =>
      obtain ⟨hmem, rfl⟩ := mem_ownPath hkey
      simp only [operatorsHold_congr (hown key hmem), valueHolds_congr (.obj members) hown]
    | connective how => exact valueHolds_congr _ hown
    | unsupported => exact valueHolds_congr _ hown
  | .null, h | .bool _, h | .num _, h | .str _, h => valueHolds_congr _ h

theorem allHold_congr {a b : Json} : (clauses : List Json) →
    (∀ path ∈ clausePaths clauses,
      a.reach (Dotted.segments path) = b.reach (Dotted.segments path)) →
    allHold a clauses = allHold b clauses
  | [], _ => rfl
  | clause :: clauses, h => by
    obtain ⟨hfirst, hrest⟩ := List.forall_mem_append.mp h
    rw [allHold, allHold, holds_congr clause hfirst, allHold_congr clauses hrest]

theorem anyHolds_congr {a b : Json} : (clauses : List Json) →
    (∀ path ∈ clausePaths clauses,
      a.reach (Dotted.segments path) = b.reach (Dotted.segments path)) →
    anyHolds a clauses = anyHolds b clauses
  | [], _ => rfl
  | clause :: clauses, h => by
    obtain ⟨hfirst, hrest⟩ := List.forall_mem_append.mp h
    rw [anyHolds, anyHolds, holds_congr clause hfirst, anyHolds_congr clauses hrest]

end

end Filter

end ScopedDocs
