import ScopedDocs.Proofs.Storage
/-!
# Wildcards — a name and everything below it

The wildcard of a name asks for what is stored at the name or below. It is accepted
wherever the name is (`Schema.named_wildcard`), but it is resolved in other steps: the
mapping of a wildcard further up, which leads the name itself, is not looked for. So the
wildcard leads where the name does just when the name has its path of its own
(`Schema.Owns`), and `Schema.wildcard_owed` is a name that owes it to such a mapping.
-/


namespace ScopedDocs

/-! ## Blanks at the ends -/

section Blanks

variable {c : Char} {cs : List Char}

theorem skipBlanks_of_not_blank (h : isBlank c = false) : skipBlanks (c :: cs) = c :: cs := by
  rw [skipBlanks, List.dropWhile_cons_of_neg (by simp [h])]

theorem length_skipBlanks_le (cs : List Char) : (skipBlanks cs).length ≤ cs.length :=
  (List.dropWhile_suffix isBlank).length_le

theorem length_trimBlanks_le (cs : List Char) :
    (trimBlanks cs).length ≤ (skipBlanks cs).length := by
  have h := length_skipBlanks_le (skipBlanks cs).reverse
  rw [List.length_reverse] at h
  rwa [trimBlanks, List.length_reverse]

theorem skipBlanks_eq_self_iff : skipBlanks cs = cs ↔ ∀ c ∈ cs.head?, isBlank c = false := by
  cases cs with
  | nil => simp [skipBlanks]
  | cons c cs =>
    simp only [List.head?_cons, Option.mem_some_iff, forall_eq']
    refine ⟨fun h => ?_, skipBlanks_of_not_blank⟩
    rw [Bool.eq_false_iff]
    intro hblank
    -- a first blank is skipped, and what is left is shorter
    have hlength := congrArg List.length h
    rw [skipBlanks, List.dropWhile_cons_of_pos hblank, ← skipBlanks, List.length_cons] at hlength
    have hle := length_skipBlanks_le cs
    omega

/-- **Trimming leaves a text as it is** if neither of its ends is a blank. -/
theorem trimBlanks_eq_self_iff :
    trimBlanks cs = cs ↔
      (∀ c ∈ cs.head?, isBlank c = false) ∧ ∀ c ∈ cs.getLast?, isBlank c = false := by
  rw [← List.head?_reverse, ← skipBlanks_eq_self_iff, ← skipBlanks_eq_self_iff]
  constructor
  · intro h
    have hstart : skipBlanks cs = cs := by
      refine (List.dropWhile_suffix isBlank).eq_of_length ?_
      have hle := length_trimBlanks_le cs
      rw [h] at hle
      exact Nat.le_antisymm (length_skipBlanks_le cs) hle
    rw [trimBlanks, hstart] at h
    exact ⟨hstart, by rw [← List.reverse_inj, h, List.reverse_reverse]⟩
  · rintro ⟨hstart, hend⟩
    rw [trimBlanks, hstart, hend, List.reverse_reverse]

theorem trimmed_eq_self_iff {name : String} :
    trimmed name = name ↔ (∀ c ∈ name.toList.head?, isBlank c = false) ∧
      ∀ c ∈ name.toList.getLast?, isBlank c = false := by
  rw [← trimBlanks_eq_self_iff, trimmed, ← String.toList_inj, String.toList_ofList]

end Blanks

/-- The ending of a wildcard has no blanks, and adds none at the ends. -/
theorem trimmed_wildcard {name : String} (hne : name ≠ "") (h : trimmed name = name) :
    trimmed (Dotted.wildcard name) = Dotted.wildcard name := by
  obtain ⟨c, cs, hname⟩ := List.exists_cons_of_ne_nil (l := name.toList) (by simpa using hne)
  have hlist : (Dotted.wildcard name).toList = name.toList ++ ['.', '*'] := by
    simp [Dotted.wildcard, Dotted.wildcardEnding]
  have hstar : isBlank '*' = false := by decide
  -- it starts as the name does, and ends in a star
  rw [trimmed_eq_self_iff, hlist]
  refine ⟨?_, by simp [hstar]⟩
  simpa [hname] using (trimmed_eq_self_iff.mp h).1

namespace Schema

variable {s : Schema} {name : String} {r : Resolved}

/-! ## Wildcards of names -/

/-- **A name has a wildcard.** -/
theorem named_wildcard (h : Named name) : Named (Dotted.wildcard name) := by
  simp only [Named, Bool.not_eq_true, Bool.or_eq_false_iff, String.isEmpty_eq_false_iff,
    beq_eq_false_iff_ne, bne_eq_false_iff_eq] at h ⊢
  obtain ⟨⟨hne, -⟩, htrimmed⟩ := h
  refine ⟨⟨?_, fun hending => hne ?_⟩, trimmed_wildcard hne htrimmed⟩
  · simp [Dotted.wildcard, Dotted.wildcardEnding]
  · have hstem := congrArg Dotted.stem? hending
    rw [Dotted.stem?_eq_some.mpr rfl] at hstem
    exact Option.some.inj hstem

/-- **A path is a name's own** if its own mapping leads there, or the declared fields do.
Otherwise the name owes it to the mapping of a wildcard above. -/
def Owns (s : Schema) (name path : String) : Prop :=
  s.mapping.lookup name = some path ∨ ∃ last, s.walk name = .ok (path, last)

/-- **The wildcard of a name leads where the name does** just when the path is the name's
own. This leaves out wildcards that are mapped themselves. -/
theorem wildcard_follows_iff (hplain : Dotted.stem? name = none)
    (hfree : s.mapping.lookup (Dotted.wildcard name) = none) (h : s.resolve name = .ok r) :
    (∃ w, s.resolve (Dotted.wildcard name) = .ok w ∧ w.path = r.path) ↔ s.Owns name r.path := by
  have hnamed := named_of_resolve h
  rw [resolve_plain hnamed hplain] at h
  rw [resolve_wildcard (named_wildcard hnamed), hfree, Option.none_or, Owns]
  cases hown : s.mapping.lookup name with
  | some path =>
    -- the mapping of the name counts before all else, for both
    rw [hown, Option.some_or] at h
    obtain rfl := Except.ok.inj h
    exact iff_of_true ⟨_, rfl, rfl⟩ (.inl rfl)
  | none =>
    simp only [map_eq_ok, reduceCtorEq, false_or]
    constructor
    · rintro ⟨_, ⟨⟨path, last⟩, hwalk, rfl⟩, hpath⟩
      exact ⟨last, hpath ▸ hwalk⟩
    · rintro ⟨last, hwalk⟩
      exact ⟨_, ⟨_, hwalk, rfl⟩, rfl⟩

/-- A schema of notes with a title, and more under names of any kind. -/
def moreSchema : Schema :=
  { entityType := "note", collection := "notes", access := [("ID", true)],
    mapping := [("ID", "_id"), ("More.*", "more"), ("Title", "title")], fields := [] }

theorem isBuilt_moreSchema : moreSchema.IsBuilt :=
  ⟨((Draft.start "note" "notes").map "More.*" "more").map "Title" "title", rfl⟩

/-- The wildcard of the title leads to the title. -/
theorem wildcard_follows_title :
    Dotted.stem? "Title" = none ∧ moreSchema.mapping.lookup (Dotted.wildcard "Title") = none ∧
      moreSchema.resolve "Title" = .ok ⟨"title", false⟩ ∧
      ∃ w, moreSchema.resolve "Title.*" = .ok w ∧ w.path = "title" := by
  have hplain : Dotted.stem? "Title" = none := by decide
  have hfree : moreSchema.mapping.lookup (Dotted.wildcard "Title") = none := by decide
  have htitle : moreSchema.resolve "Title" = .ok ⟨"title", false⟩ := rfl
  have hown : moreSchema.Owns "Title" "title" := .inl rfl
  exact ⟨hplain, hfree, htitle, (wildcard_follows_iff hplain hfree htitle).mpr hown⟩

/-- **A name below a mapped wildcard has no wildcard of its own**, though it resolves. -/
theorem wildcard_owed :
    ¬ ∀ (s : Schema) (name : String) (r : Resolved), s.IsBuilt → Dotted.stem? name = none →
      s.mapping.lookup (Dotted.wildcard name) = none → s.resolve name = .ok r →
      ∃ w, s.resolve (Dotted.wildcard name) = .ok w ∧ w.path = r.path := by
  intro h
  obtain ⟨w, hw, -⟩ := h moreSchema "More.a" ⟨"more.a", false⟩ isBuilt_moreSchema (by decide)
    (by decide) rfl
  have hunknown : moreSchema.resolve (Dotted.wildcard "More.a") =
      .error (.schema (.unknownField "More.a")) := rfl
  rw [hunknown] at hw
  exact absurd hw (by simp)

end Schema

end ScopedDocs
