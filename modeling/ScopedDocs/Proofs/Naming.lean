import ScopedDocs.Dotted
/-!
# Naming — names above and below each other

A dotted name is determined by its segments (`Dotted.segments_inj`), and putting names
behind one another puts their segments behind one another (`Dotted.segments_below`,
`Dotted.segments_join`). A name lies below another one just when its segments continue
those of the other (`Dotted.isBelow_iff`), so that two names touch just when the
segments of one start those of the other (`Dotted.touches_iff`). The names above another
one, the longest first, are those that it goes on from behind a dot
(`Dotted.mem_ancestors_segments`).
-/


namespace ScopedDocs

namespace Dotted

/-! ## Splitting and joining -/

/-- A dot ends a segment. -/
theorem splitDots_append (cs ds : List Char) :
    splitDots (cs ++ '.' :: ds) = splitDots cs ++ splitDots ds := by
  induction cs with
  | nil => simp [splitDots]
  | cons c cs ih =>
    rw [List.cons_append, splitDots, splitDots, ih]
    split
    · rfl
    · cases hsplit : splitDots cs with
      | nil => exact absurd hsplit (splitDots_ne_nil cs)
      | cons segment rest => rfl

theorem splitDots_of_notMem {cs : List Char} (h : '.' ∉ cs) : splitDots cs = [cs] := by
  induction cs with
  | nil => rfl
  | cons c cs ih =>
    have hne : c ≠ '.' := fun heq => h (by simp [heq])
    rw [splitDots, if_neg hne, ih fun hmem => h (List.mem_cons_of_mem _ hmem)]

/-- No segment has a dot. -/
theorem notMem_of_mem_splitDots {cs segment : List Char} (h : segment ∈ splitDots cs) :
    '.' ∉ segment := by
  induction cs generalizing segment with
  | nil => simp_all [splitDots]
  | cons c cs ih =>
    rw [splitDots] at h
    split at h
    · rcases List.mem_cons.mp h with rfl | h
      · simp
      · exact ih h
    · next hne =>
      cases hsplit : splitDots cs with
      | nil => exact absurd hsplit (splitDots_ne_nil cs)
      | cons first rest =>
        rw [hsplit] at h ih
        rcases List.mem_cons.mp h with rfl | h
        · have hfirst := ih List.mem_cons_self
          simp [hfirst, Ne.symm hne]
        · exact ih (List.mem_cons_of_mem _ h)

theorem splitDots_joinDots {names : List (List Char)} (h : names ≠ []) :
    splitDots (joinDots names) = names.flatMap splitDots := by
  induction names with
  | nil => exact absurd rfl h
  | cons name rest ih =>
    cases rest with
    | nil => simp [joinDots]
    | cons next rest =>
      rw [List.flatMap_cons, ← ih (List.cons_ne_nil _ _), joinDots, splitDots_append]
      exact List.cons_ne_nil _ _

theorem segments_ne_nil (name : String) : segments name ≠ [] := by
  simp [segments, splitDots_ne_nil]

/-- **Segments determine a name.** -/
theorem segments_inj {a b : String} (h : segments a = segments b) : a = b := by
  rw [← join_segments a, ← join_segments b, h]

/-- A segment is its only segment. -/
theorem segments_of_mem {name segment : String} (h : segment ∈ segments name) :
    segments segment = [segment] := by
  obtain ⟨cs, hcs, rfl⟩ := List.mem_map.mp h
  rw [segments, String.toList_ofList, splitDots_of_notMem (notMem_of_mem_splitDots hcs)]
  rfl

/-- Segments that all are their only segments stay as they are. -/
theorem flatMap_segments {names : List String} (h : ∀ name ∈ names, segments name = [name]) :
    names.flatMap segments = names := by
  induction names with
  | nil => rfl
  | cons name rest ih =>
    obtain ⟨hname, hrest⟩ := List.forall_mem_cons.mp h
    rw [List.flatMap_cons, hname, ih hrest, List.singleton_append]

/-- **A name behind another one** has the segments of both. -/
theorem segments_below (above below : String) :
    segments (above ++ "." ++ below) = segments above ++ segments below := by
  have h : (above ++ "." ++ below).toList = above.toList ++ '.' :: below.toList := by simp
  rw [segments, h, splitDots_append, List.map_append]
  rfl

/-- **Joined names** have the segments of all. -/
theorem segments_join {names : List String} (h : names ≠ []) :
    segments (join names) = names.flatMap segments := by
  rw [segments, join, String.toList_ofList, splitDots_joinDots (by simpa using h),
    List.map_flatMap, List.flatMap_map]
  rfl

/-! ## Above and below -/

/-- **Below** is where the segments go on. -/
theorem isBelow_iff {a b : String} :
    isBelow a b = true ↔ ∃ rest, rest ≠ [] ∧ segments b = segments a ++ rest := by
  rw [isBelow, List.isPrefixOf_iff_prefix]
  constructor
  · rintro ⟨cs, hcs⟩
    refine ⟨segments (String.ofList cs), segments_ne_nil _, ?_⟩
    rw [← segments_below]
    refine congrArg segments (String.toList_inj.mp ?_)
    rw [← hcs]
    simp
  · rintro ⟨rest, hne, hsegments⟩
    have hsub : ∀ segment ∈ rest, segment ∈ segments b := by
      intro segment hsegment
      rw [hsegments]
      exact List.mem_append_right _ hsegment
    have hrest : rest.flatMap segments = rest :=
      flatMap_segments fun segment hsegment => segments_of_mem (hsub segment hsegment)
    -- the name is the one of these segments behind the other name
    obtain rfl : a ++ "." ++ join rest = b := by
      refine segments_inj ?_
      rw [segments_below, segments_join hne, hrest, hsegments]
    exact ⟨(join rest).toList, by simp⟩

/-- A name below another one has more segments. -/
theorem length_segments_of_isBelow {a b : String} (h : isBelow a b = true) :
    (segments a).length < (segments b).length := by
  obtain ⟨rest, hrest, hsegments⟩ := isBelow_iff.mp h
  rw [hsegments, List.length_append]
  exact Nat.lt_add_of_pos_right (List.length_pos_iff.mpr hrest)

/-- No name lies below itself. -/
theorem isBelow_self (name : String) : isBelow name name = false :=
  Bool.eq_false_iff.mpr fun h => Nat.lt_irrefl _ (length_segments_of_isBelow h)

/-- Two names touch: they are the same, or one lies below the other. -/
def Touches (a b : String) : Prop := a = b ∨ isBelow a b = true ∨ isBelow b a = true

instance (a b : String) : Decidable (Touches a b) := inferInstanceAs (Decidable (_ ∨ _))

theorem Touches.symm {a b : String} (h : Touches a b) : Touches b a :=
  h.elim (fun heq => .inl heq.symm) fun hbelow => .inr hbelow.symm

theorem prefix_iff {a b : String} :
    segments a <+: segments b ↔ a = b ∨ isBelow a b = true := by
  rw [isBelow_iff]
  constructor
  · rintro ⟨rest, h⟩
    cases rest with
    | nil => exact .inl (segments_inj (by simpa using h))
    | cons segment rest => exact .inr ⟨segment :: rest, by simp, h.symm⟩
  · rintro (rfl | ⟨rest, -, h⟩)
    · exact List.prefix_rfl
    · exact ⟨rest, h.symm⟩

/-- **Names touch** just when the segments of one start those of the other. -/
theorem touches_iff {a b : String} :
    Touches a b ↔ segments a <+: segments b ∨ segments b <+: segments a := by
  rw [prefix_iff, prefix_iff, Touches]
  constructor
  · rintro (h | h | h)
    · exact .inl (.inl h)
    · exact .inl (.inr h)
    · exact .inr (.inr h)
  · rintro ((h | h) | (h | h))
    · exact .inl h
    · exact .inr (.inl h)
    · exact .inl h.symm
    · exact .inr (.inr h)

/-- A name above another one starts it, and something follows. -/
theorem mem_ancestors {segments above below : List String}
    (h : (above, below) ∈ ancestors segments) :
    segments = above ++ below ∧ above ≠ [] ∧ below ≠ [] := by
  induction segments generalizing above with
  | nil => exact absurd h List.not_mem_nil
  | cons segment rest ih =>
    cases rest with
    | nil => exact absurd h List.not_mem_nil
    | cons next rest =>
      rcases List.mem_append.mp h with h | h
      · obtain ⟨⟨inner, _⟩, hinner, heq⟩ := List.mem_map.mp h
        obtain ⟨rfl, rfl⟩ := Prod.mk.inj heq
        obtain ⟨hsplit, -, hbelow⟩ := ih hinner
        exact ⟨congrArg (segment :: ·) hsplit, List.cons_ne_nil _ _, hbelow⟩
      · obtain ⟨rfl, rfl⟩ := Prod.mk.inj (List.mem_singleton.mp h)
        exact ⟨rfl, List.cons_ne_nil _ _, List.cons_ne_nil _ _⟩

section Ancestors

variable {name above rest longer others : String}

theorem ancestors_cons (segment next : String) (rest : List String) :
    ancestors (segment :: next :: rest) =
      (ancestors (next :: rest)).map (fun split => (segment :: split.1, split.2)) ++
        [([segment], next :: rest)] := rfl

/-- **What stands above** is what begins a list, if something is left of it. -/
theorem mem_ancestors_iff {segments above below : List String} :
    (above, below) ∈ ancestors segments ↔ segments = above ++ below ∧ above ≠ [] ∧ below ≠ [] := by
  refine ⟨mem_ancestors, ?_⟩
  rintro ⟨rfl, habove, hbelow⟩
  induction above with
  | nil => exact absurd rfl habove
  | cons segment inner ih =>
    obtain ⟨next, rest, hrest⟩ := List.exists_cons_of_ne_nil
      (List.append_ne_nil_of_right_ne_nil inner hbelow)
    have hancestors := ancestors_cons segment next rest
    rw [← hrest] at hancestors
    rw [List.cons_append, hancestors, List.mem_append]
    cases inner with
    | nil => exact .inr (by simp)
    | cons first inner => exact .inl (List.mem_map.mpr ⟨_, ih (List.cons_ne_nil _ _), rfl⟩)

/-- The names above another one are those that it goes on from behind a dot. -/
theorem mem_ancestors_segments :
    (segments above, segments rest) ∈ ancestors (segments name) ↔ name = above ++ "." ++ rest := by
  rw [mem_ancestors_iff, ← segments_below]
  constructor
  · exact fun h => segments_inj h.1
  · rintro rfl
    exact ⟨rfl, segments_ne_nil _, segments_ne_nil _⟩

/-- What stands above the segments of a name are the segments of a name. -/
theorem exists_of_mem_ancestors {split : List String × List String}
    (h : split ∈ ancestors (segments name)) :
    ∃ above rest, split = (segments above, segments rest) ∧ name = above ++ "." ++ rest := by
  obtain ⟨hsegments, habove, hbelow⟩ := mem_ancestors h
  have hself (part : List String) (hne : part ≠ []) (hsub : part ⊆ segments name) :
      segments (join part) = part := by
    rw [segments_join hne, flatMap_segments fun segment hmem => segments_of_mem (hsub hmem)]
  have hsplit : split = (segments (join split.1), segments (join split.2)) := by
    rw [hself _ habove (hsegments ▸ List.subset_append_left _ _),
      hself _ hbelow (hsegments ▸ List.subset_append_right _ _)]
  exact ⟨_, _, hsplit, mem_ancestors_segments.mp (hsplit ▸ h)⟩

/-- **The longest come first** among what stands above. -/
theorem pairwise_ancestors (segments : List String) :
    (ancestors segments).Pairwise fun first second => second.1.length < first.1.length := by
  induction segments with
  | nil => exact .nil
  | cons segment rest ih =>
    cases rest with
    | nil => exact .nil
    | cons next rest =>
      rw [ancestors_cons, List.pairwise_append, List.pairwise_map]
      refine ⟨ih.imp fun h => Nat.succ_lt_succ h, List.pairwise_singleton _ _, ?_⟩
      -- the first segment by itself is the shortest
      intro first hfirst second hsecond
      obtain ⟨⟨above, below⟩, hmem, rfl⟩ := List.mem_map.mp hfirst
      obtain rfl := List.mem_singleton.mp hsecond
      exact Nat.succ_lt_succ (List.length_pos_iff.mpr (mem_ancestors hmem).2.1)

/-- Of two names above another one, the longer one has more segments. -/
theorem length_segments_lt (habove : name = above ++ "." ++ rest)
    (hlonger : name = longer ++ "." ++ others) (h : above.length < longer.length) :
    (segments above).length < (segments longer).length := by
  have hdotted : (above.toList ++ ['.']) <+: name.toList := ⟨rest.toList, by simp [habove]⟩
  have hother : longer.toList <+: name.toList := ⟨'.' :: others.toList, by simp [hlonger]⟩
  have hbelow : isBelow above longer = true := by
    refine List.isPrefixOf_iff_prefix.mpr (List.prefix_of_prefix_length_le hdotted hother ?_)
    simpa [Nat.succ_le_iff, ← String.length_toList] using h
  exact length_segments_of_isBelow hbelow

end Ancestors

/-! ## Wildcards -/

/-- A wildcard is its stem with the ending. -/
theorem stem?_eq_some {name st : String} : stem? name = some st ↔ name = wildcard st := by
  rw [stem?, wildcard, wildcardEnding]
  constructor
  · intro h
    split at h
    · next rest hrest =>
      obtain rfl := Option.some.inj h
      refine String.toList_inj.mp ?_
      have hname := congrArg List.reverse hrest
      rw [List.reverse_reverse] at hname
      simp [hname]
    · exact absurd h (by simp)
  · rintro rfl
    simp

@[simp] theorem stem_wildcard (st : String) : stem (wildcard st) = st := by
  rw [stem, stem?_eq_some.mpr rfl, Option.getD_some]

theorem stem_of_none {name : String} (h : stem? name = none) : stem name = name := by
  rw [stem, h, Option.getD_none]

end Dotted

end ScopedDocs
