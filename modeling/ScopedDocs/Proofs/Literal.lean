import Mathlib.Data.List.Infix
import ScopedDocs.Pattern.Reader
import ScopedDocs.Pattern.Search
import ScopedDocs.Pattern.Size
/-!
# Literals — patterns of texts

An escaped text is read as the pattern of its characters (`Pattern.ofText?_escape`),
alone or behind or before an anchor, whatever these characters mean in patterns. Such a
pattern is searched for by marks, and what they stand for is known at every spot of a
text: a place of the literal is marked just when the literal up to there has been read
last (`Pattern.Marked.after`). So a literal occurs in a text that has it as a part
(`Pattern.occurs_literal`), behind the anchor of the start in a text that starts with
it, and before that of the end in a text that ends with it.
-/


namespace ScopedDocs

namespace Pattern

/-- Characters one after the other, and then a pattern. -/
def sequence (cs : List Char) (last : Pattern) : Pattern :=
  cs.foldr (fun c p => seq (char c) p) last

theorem sequence_empty (cs : List Char) : sequence cs empty = literal cs := by
  induction cs with
  | nil => rfl
  | cons c cs ih => exact congrArg (seq (char c)) ih

/-! ## Reading -/

namespace Reader

/-- A text that does not go on with a repetition. -/
def Plain (cs : List Char) : Prop :=
  ∀ c ∈ cs.head?, c ∉ ['*', '+', '?', '\x7b']

theorem repeated?_of_plain {cs : List Char} (h : Plain cs) (fuel : Nat) (p : Part) :
    repeated? fuel p cs = some (p, cs) := by
  cases fuel with
  | zero => rfl
  | succ fuel =>
    unfold repeated?
    split
    · exact absurd (h '*' rfl) (by simp)
    · exact absurd (h '+' rfl) (by simp)
    · exact absurd (h '?' rfl) (by simp)
    · exact absurd (h '\x7b' rfl) (by simp)
    · rfl

/-- An escaped character is read as itself. -/
theorem atom?_escaped {c : Char} (h : c ∈ metaCharacters) (fuel : Nat) (rest : List Char) :
    atom? (fuel + 1) ('\\' :: c :: rest) = some (.atom (char c), rest) := by
  have hescaped : ∀ c ∈ metaCharacters, escaped? c = some (char c) := by
    simp [metaCharacters, escaped?]
  have hatom : atom? (fuel + 1) ('\\' :: c :: rest) =
      (escaped? c).map fun p => (.atom p, rest) := by
    rw [atom?]
  rw [hatom, hescaped c h, Option.map_some]

/-- And so is a character without a meaning of its own. -/
theorem atom?_plain {c : Char} (h : c ∉ metaCharacters) (fuel : Nat) (rest : List Char) :
    atom? (fuel + 1) (c :: rest) = some (.atom (char c), rest) := by
  have hmeta : ∀ m ∈ metaCharacters, c ≠ m := fun m hm heq => h (heq ▸ hm)
  have hplain : c ∉ ['\\', '*', '+', '?', '\x7b', ')', '|'] := by
    intro hc
    exact h ((by decide : ['\\', '*', '+', '?', '\x7b', ')', '|'] ⊆ metaCharacters) hc)
  unfold atom?
  split
  · next heq => exact absurd (List.cons.inj heq).1 (hmeta '(' (by decide))
  · next heq => exact absurd (List.cons.inj heq).1 (hmeta '(' (by decide))
  · next heq => exact absurd (List.cons.inj heq).1 (hmeta '[' (by decide))
  · next heq => exact absurd (List.cons.inj heq).1 (hmeta '.' (by decide))
  · next heq => exact absurd (List.cons.inj heq).1 (hmeta '^' (by decide))
  · next heq => exact absurd (List.cons.inj heq).1 (hmeta '$' (by decide))
  · next heq => exact absurd (List.cons.inj heq).1 (hmeta '\\' (by decide))
  · next heq =>
    obtain ⟨rfl, rfl⟩ := List.cons.inj heq
    rw [if_neg (by simpa using hplain)]
  · next heq => exact absurd heq (by simp)

/-- An item is read in front of the others. -/
theorem items?_cons {fuel : Nat} {cs rest behind : List Char} {p : Part} {items : List Part}
    (hatom : atom? fuel cs = some (p, rest)) (hplain : Plain rest)
    (hitems : items? fuel rest = some (items, behind)) (hcs : cs ≠ [])
    (hbar : cs.head? ≠ some '|') (hclose : cs.head? ≠ some ')') :
    items? (fuel + 1) cs = some (p :: items, behind) := by
  unfold items?
  split
  · exact absurd rfl hcs
  · exact absurd rfl hbar
  · exact absurd rfl hclose
  · simp [hatom, repeated?_of_plain hplain, hitems]

/-- An escaped text does not go on with a repetition, unless what follows it does. -/
theorem plain_escapeChars (cs : List Char) {rest : List Char} (h : Plain rest) :
    Plain (escapeChars cs ++ rest) := by
  cases cs with
  | nil => exact h
  | cons c cs =>
    intro d hd
    by_cases hc : c ∈ metaCharacters
    · have hhead : d = '\\' := by simpa [escapeChars, hc, eq_comm] using hd
      simp [hhead]
    · have hhead : d = c := by simpa [escapeChars, hc, eq_comm] using hd
      intro hmark
      have hsubset : ['*', '+', '?', '\x7b'] ⊆ metaCharacters := by decide
      exact hc (hhead ▸ hsubset hmark)

/-- **The characters of an escaped text** are read one by one, in front of what
follows it. -/
theorem items?_escapeChars (cs : List Char) (fuel : Nat) {rest behind : List Char}
    {items : List Part} (hplain : Plain rest)
    (hitems : items? (fuel + 1) rest = some (items, behind)) :
    items? (fuel + cs.length + 1) (escapeChars cs ++ rest) =
      some (cs.map (fun c => .atom (char c)) ++ items, behind) := by
  induction cs with
  | nil => exact hitems
  | cons c cs ih =>
    have hrest := plain_escapeChars cs hplain
    by_cases hc : c ∈ metaCharacters
    · have hcs : escapeChars (c :: cs) ++ rest = '\\' :: c :: (escapeChars cs ++ rest) := by
        simp [escapeChars, hc]
      rw [hcs]
      exact items?_cons (atom?_escaped hc _ _) hrest ih (by simp) (by simp) (by simp)
    · have hcs : escapeChars (c :: cs) ++ rest = c :: (escapeChars cs ++ rest) := by
        simp [escapeChars, hc]
      have hne (m : Char) (hm : m ∈ metaCharacters) : c ≠ m := fun heq => hc (heq ▸ hm)
      rw [hcs]
      exact items?_cons (atom?_plain hc _ _) hrest ih (by simp)
        (by simpa using hne '|' (by decide)) (by simpa using hne ')' (by decide))

/-- Parts that are as flat as can be are not deep beside each other. -/
theorem depthBeside_le {parts : List Part} (h : ∀ p ∈ parts, p.depth = 0) :
    depthBeside parts ≤ 1 := by
  unfold depthBeside
  split
  · exact Nat.zero_le 1
  · rw [h _ (by simp)]
    exact Nat.zero_le 1
  · have hzero : parts.map Part.depth = List.replicate parts.length 0 :=
      List.eq_replicate_iff.mpr ⟨by simp, by simpa using h⟩
    rw [hzero]
    have hfold : ∀ n, (List.replicate n 0).foldl max 0 = 0 := by
      intro n
      induction n with
      | zero => rfl
      | succ n ih => exact ih
    rw [hfold]

end Reader

/-- A text is read as its items, if these are flat. -/
theorem ofText?_of_items {s : String} (items : List Reader.Part)
    (hitems : Reader.items? (4 * s.toList.length + 3) s.toList = some (items, []))
    (hflat : ∀ p ∈ items, p.depth = 0) :
    ofText? s = some (items.foldr (fun p rest => seq p.pattern rest) empty) := by
  have hbranches : Reader.alternatives? (4 * s.toList.length + 4) s.toList =
      some ([Reader.Part.ofItems items], []) := by
    unfold Reader.alternatives?
    simp [hitems]
  have hdepth : (Reader.Part.ofBranches [Reader.Part.ofItems items]).depth ≤ maxDepth :=
    (Reader.depthBeside_le hflat).trans (by decide)
  simp only [ofText?, hbranches, hdepth, ↓reduceIte]
  rfl

/-- Escaping takes nothing away. -/
theorem length_le_escapeChars (cs : List Char) : cs.length ≤ (escapeChars cs).length := by
  induction cs with
  | nil => exact Nat.le_refl 0
  | cons c cs ih =>
    have hcons : escapeChars (c :: cs) =
        (if metaCharacters.contains c then ['\\', c] else [c]) ++ escapeChars cs := rfl
    rw [hcons, List.length_append, List.length_cons]
    split <;> simp only [List.length_cons, List.length_nil] <;> omega

/-- An escaped text is read as its characters and what follows them. -/
theorem ofText?_escapeChars (cs rest : List Char) (items : List Reader.Part)
    (hplain : Reader.Plain rest) (hitems : ∀ fuel, Reader.items? (fuel + 2) rest = some (items, []))
    (hflat : ∀ p ∈ items, p.depth = 0) :
    ofText? (String.ofList (escapeChars cs ++ rest)) =
      some (sequence cs (items.foldr (fun p rest => seq p.pattern rest) empty)) := by
  have hlength := length_le_escapeChars cs
  have hread := Reader.items?_escapeChars cs _ hplain
    (hitems (4 * (escapeChars cs ++ rest).length + 1 - cs.length))
  have hfuel : 4 * (escapeChars cs ++ rest).length + 1 - cs.length + 1 + cs.length + 1 =
      4 * (escapeChars cs ++ rest).length + 3 := by
    rw [List.length_append]
    omega
  rw [hfuel] at hread
  rw [ofText?_of_items _ (by rwa [String.toList_ofList]), List.foldr_append, List.foldr_map]
  · rfl
  · intro p hp
    rcases List.mem_append.mp hp with hp | hp
    · obtain ⟨c, -, rfl⟩ := List.mem_map.mp hp
      rfl
    · exact hflat p hp

/-- **An escaped text is read as the pattern of its characters**, -/
theorem ofText?_escape (s : String) : ofText? (escape s) = some (literal s.toList) := by
  have hread := ofText?_escapeChars s.toList [] []
    (fun _ h => absurd h (by simp)) (fun _ => rfl) (by simp)
  rw [List.append_nil] at hread
  rw [escape, hread, ← sequence_empty]
  rfl

/-- behind the anchor of the start -/
theorem ofText?_start_escape (s : String) :
    ofText? ("^" ++ escape s) = some (seq start (literal s.toList)) := by
  have hlength := length_le_escapeChars s.toList
  have htext : ("^" ++ escape s).toList = '^' :: escapeChars s.toList := by simp [escape]
  have hplain : Reader.Plain [] := fun _ h => absurd h (by simp)
  have hnone : Reader.items? (4 * (escapeChars s.toList).length + 5 - s.toList.length + 1) [] =
      some ([], []) := rfl
  have hread := Reader.items?_escapeChars s.toList _ hplain hnone
  have hplainEscape := Reader.plain_escapeChars s.toList hplain
  rw [List.append_nil] at hread hplainEscape
  rw [ofText?_of_items (.atom start :: (s.toList.map fun c => .atom (char c)))]
  · rw [List.foldr_cons, List.foldr_map, ← sequence_empty]
    rfl
  · have hfuel : 4 * (escapeChars s.toList).length + 5 - s.toList.length + s.toList.length + 1 =
        4 * (escapeChars s.toList).length + 6 := by omega
    rw [hfuel, List.append_nil] at hread
    rw [htext]
    exact Reader.items?_cons (by rw [Reader.atom?]) hplainEscape hread (by simp) (by simp)
      (by simp)
  · simp [Reader.Part.atom]

/-- and before that of the end. -/
theorem ofText?_escape_finish (s : String) :
    ofText? (escape s ++ "$") = some (sequence s.toList (seq finish empty)) := by
  have htext : escape s ++ "$" = String.ofList (escapeChars s.toList ++ ['$']) := by
    simp [escape, String.ofList_append]
  rw [htext, ofText?_escapeChars s.toList ['$'] [.atom finish] (by simp [Reader.Plain])
    (fun _ => rfl) (by simp [Reader.Part.atom])]
  rfl

/-! ## Room -/

/-- One character, time and again, takes its room as often. -/
theorem size_replicate (ignoreCase back : Bool) (c : Char) (n : Nat) :
    (literal (List.replicate n c)).size ignoreCase back =
      n * (Class.only c).size ignoreCase back := by
  induction n with
  | zero => exact (Nat.zero_mul _).symm
  | succ n ih =>
    rw [List.replicate_succ, literal, size, ih, char, size, Nat.succ_mul, Nat.add_comm]

/-- **A long run of one character is too large**, whatever its room is. -/
theorem isOversized_replicate {mode : Mode} {c : Char} {n : Nat} (back : Bool)
    (h : maxSize ≤ n * (Class.only c).size mode.ignoreCase back) :
    (literal (List.replicate n c)).isOversized mode = true := by
  have hsize := size_replicate mode.ignoreCase back c n
  have hoverhead : 0 < (literal (List.replicate n c)).overhead mode.multiline back := by
    simp only [overhead, stateSize]
    split <;> omega
  refine List.any_eq_true.mpr ⟨back, by cases back <;> simp, decide_eq_true ?_⟩
  omega

/-! ## Searching -/

namespace Marked

variable {mode : Mode} {spot : Spot}

/-- What two patterns in sequence do at a spot. -/
theorem border_followedBy (m n : Marked) :
    (followedBy m n).border mode spot =
      ⟨(m.border mode spot).skips && (n.border mode spot).skips,
        (n.border mode spot).ends ||
          ((m.border mode spot).ends && (n.border mode spot).skips)⟩ := by
  unfold followedBy
  split <;> simp [border, skips]

/-- The second of two patterns in sequence begins where the first one ends. -/
theorem read_followedBy (m n : Marked) (c : Char) (begins : Bool) :
    (followedBy m n).read mode spot c begins =
      followedBy (m.read mode spot c begins)
        (n.read mode spot c
          ((m.border mode spot).ends || (begins && (m.border mode spot).skips))) := by
  unfold followedBy
  split
  · cases begins <;> simp [read, enter, border]
    · rfl
  · rfl

/-- The marks of a place after a character. -/
theorem read_place (kind : Class) (mark : Bool) (c : Char) (begins : Bool) :
    (place kind mark).read mode spot c begins = place kind (begins && kind.admits c) := by
  cases mark <;> cases begins <;> simp [place, read, enter]

theorem border_place (kind : Class) (mark : Bool) :
    (place kind mark).border mode spot = ⟨false, mark⟩ := by
  cases mark <;> rfl

/-- **The marks of a literal after a text.** The literal up to a place is `before`, and
whether it has just been read is for `hit` to say. -/
def after (hit : List Char → List Char → Bool) (last : Pattern) (text : List Char) :
    List Char → List Char → Marked
  | _, [] => idle last
  | before, c :: rest =>
    followedBy (place (.only c) (hit (before ++ [c]) text))
      (after hit last text (before ++ [c]) rest)

section

variable (hit : List Char → List Char → Bool) (last : Pattern) {text : List Char}

/-- A pattern without a text read is without marks. -/
theorem after_nil (h : ∀ before c, hit (before ++ [c]) [] = false) (before rest : List Char) :
    after hit last [] before rest = idle (sequence rest last) := by
  induction rest generalizing before with
  | nil => rfl
  | cons c rest ih =>
    rw [after, h, ih]
    rfl

/-- At a spot the literal ends if it has just been read, and the pattern behind it
matches nothing there. -/
theorem border_after (before rest : List Char) :
    (after hit last text before rest).border mode spot =
      ⟨rest.isEmpty && last.skips mode spot,
        !rest.isEmpty && (hit (before ++ rest) text && last.skips mode spot)⟩ := by
  induction rest generalizing before with
  | nil => rfl
  | cons c rest ih =>
    rw [after, border_followedBy, border_place, ih]
    cases rest with
    | nil => simp
    | cons d rest => simp

/-- **Reading a character** moves the marks on. -/
theorem read_after {c : Char}
    (hstep : ∀ before c text d, hit (before ++ [c]) (text ++ [d]) = (hit before text && c == d))
    (hlast : enter mode spot c last = idle last) (before rest : List Char) :
    (after hit last text before rest).read mode spot c (hit before text) =
      after hit last (text ++ [c]) before rest := by
  induction rest generalizing before with
  | nil =>
    rw [after, after, read, hlast]
    cases hit before text <;> rfl
  | cons d rest ih =>
    -- the rest begins where the place before it has just been read
    rw [after, read_followedBy, read_place, border_place, Bool.and_false, Bool.or_false, ih, after,
      hstep]
    rfl

end

/-- **What a search finds** is an end of a match, if it is known at every spot whether
one is there. -/
theorem finds_iff (mode : Mode) (state : List Char → Marked) (hit : List Char → Bool)
    (closes : Option Char → Bool)
    (hread : ∀ text c, (state text).read mode ⟨text.getLast?, some c⟩ c true = state (text ++ [c]))
    (hborder : ∀ text next, (((state text).border mode ⟨text.getLast?, next⟩).skips ||
      ((state text).border mode ⟨text.getLast?, next⟩).ends) = (hit text && closes next))
    (text rest : List Char) :
    (state text).finds mode text.getLast? rest = true ↔
      ∃ u v, rest = u ++ v ∧ hit (text ++ u) = true ∧ closes v.head? = true := by
  induction rest generalizing text with
  | nil =>
    rw [finds]
    simp [hborder]
  | cons c rest ih =>
    have hnext := ih (text ++ [c])
    rw [List.getLast?_concat] at hnext
    rw [finds, hborder, hread, Bool.or_eq_true, Bool.and_eq_true, hnext]
    constructor
    · rintro (⟨hhit, hcloses⟩ | ⟨u, v, rfl, hhit, hcloses⟩)
      · exact ⟨[], c :: rest, rfl, by simpa using hhit, hcloses⟩
      · exact ⟨c :: u, v, rfl, by simpa using hhit, hcloses⟩
    · rintro ⟨u, v, heq, hhit, hcloses⟩
      cases u with
      | nil =>
        obtain rfl : c :: rest = v := heq
        exact .inl ⟨by simpa using hhit, hcloses⟩
      | cons d u =>
        obtain ⟨rfl, rfl⟩ := List.cons.inj heq
        exact .inr ⟨u, v, rfl, by simpa using hhit, hcloses⟩

end Marked

/-! ## Literals in texts -/

/-- Characters have just been read if the text ends with them. -/
theorem isSuffixOf_concat (before : List Char) (c : Char) (text : List Char) (d : Char) :
    (before ++ [c]).isSuffixOf (text ++ [d]) = (before.isSuffixOf text && c == d) := by
  rw [Bool.eq_iff_iff, Bool.and_eq_true, List.isSuffixOf_iff_suffix, List.isSuffixOf_iff_suffix,
    beq_iff_eq]
  constructor
  · rintro ⟨u, hu⟩
    have hends : (u ++ before) ++ [c] = text ++ [d] := by simpa using hu
    obtain ⟨rfl, hcd⟩ := List.append_inj' hends rfl
    exact ⟨⟨u, rfl⟩, by simpa using hcd⟩
  · rintro ⟨⟨u, rfl⟩, rfl⟩
    exact ⟨u, by simp⟩

/-- Characters are all that was read if the text is them. -/
theorem beq_concat (before : List Char) (c : Char) (text : List Char) (d : Char) :
    (before ++ [c] == text ++ [d]) = (before == text && c == d) := by
  rw [Bool.eq_iff_iff, Bool.and_eq_true, beq_iff_eq, beq_iff_eq, beq_iff_eq]
  constructor
  · intro h
    obtain ⟨rfl, hcd⟩ := List.append_inj' h rfl
    exact ⟨rfl, by simpa using hcd⟩
  · rintro ⟨rfl, rfl⟩
    rfl

/-- A text with its case variants folded. -/
def foldedChars (s : String) : List Char := s.toList.map simpleFold

theorem fold_sequence (cs : List Char) (last : Pattern) :
    (sequence cs last).fold = sequence (cs.map simpleFold) last.fold := by
  induction cs with
  | nil => rfl
  | cons c cs ih => exact congrArg (seq (char (simpleFold c))) ih

/-- Case variants are searched for in the folded text. -/
theorem occurs_folded (p : Pattern) (text : String) :
    p.occurs ⟨true, false⟩ text =
      (Marked.idle p.fold).finds ⟨true, false⟩ none (foldedChars text) := rfl

/-- **A literal occurs** in a text that has it as a part, whatever the case, -/
theorem occurs_literal (s text : String) :
    (literal s.toList).occurs ⟨true, false⟩ text = true ↔ foldedChars s <:+: foldedChars text := by
  have hstart := Marked.after_nil List.isSuffixOf empty
    (fun before c => by simp [List.isSuffixOf]) [] (foldedChars s)
  have hfinds := Marked.finds_iff ⟨true, false⟩
    (fun u => Marked.after List.isSuffixOf empty u [] (foldedChars s))
    (fun u => (foldedChars s).isSuffixOf u) (fun _ => true)
    (fun u c => Marked.read_after _ _ isSuffixOf_concat rfl [] (foldedChars s))
    (fun u next => by
      rw [Marked.border_after]
      cases foldedChars s <;> simp [skips]) [] (foldedChars text)
  rw [occurs_folded, ← sequence_empty, fold_sequence]
  simp only [hstart] at hfinds
  refine hfinds.trans ?_
  simp only [List.nil_append, List.isSuffixOf_iff_suffix, and_true]
  constructor
  · rintro ⟨u, v, hsplit, w, rfl⟩
    exact ⟨w, v, hsplit.symm⟩
  · rintro ⟨w, v, hsplit⟩
    exact ⟨w ++ foldedChars s, v, hsplit.symm, w, rfl⟩

/-- behind the anchor of the start in a text that starts with it, -/
theorem occurs_start_literal (s text : String) :
    (seq start (literal s.toList)).occurs ⟨true, false⟩ text = true ↔
      foldedChars s <+: foldedChars text := by
  have hstart := Marked.after_nil (fun u v => u == v) empty (fun before c => by simp) []
    (foldedChars s)
  -- the literal begins at the start of the text only, where nothing has been read
  have hbegins (u : List Char) (next : Option Char) :
      (Spot.atStart ⟨true, false⟩ ⟨u.getLast?, next⟩) = ([] == u) := by
    cases u <;> simp [Spot.atStart, List.getLast?_cons]
  have hfinds := Marked.finds_iff ⟨true, false⟩
    (fun u => Marked.followedBy (.idle start)
      (Marked.after (fun u v => u == v) empty u [] (foldedChars s)))
    (fun u => foldedChars s == u) (fun _ => true)
    (fun u c => by
      rw [Marked.read_followedBy]
      simp only [Marked.border, skips, hbegins, Bool.false_or, Bool.true_and]
      rw [Marked.read_after (fun u v => u == v) _ beq_concat rfl]
      rfl)
    (fun u next => by
      rw [Marked.border_followedBy, Marked.border_after]
      simp only [Marked.border, skips, hbegins]
      cases foldedChars s <;> simp) [] (foldedChars text)
  rw [occurs_folded, fold, ← sequence_empty, fold_sequence]
  simp only [hstart] at hfinds
  refine hfinds.trans ?_
  simp only [List.nil_append, beq_iff_eq, and_true]
  constructor
  · rintro ⟨u, v, hsplit, rfl⟩
    exact ⟨v, hsplit.symm⟩
  · rintro ⟨v, hsplit⟩
    exact ⟨_, v, hsplit.symm, rfl⟩

/-- and before that of the end in a text that ends with it. -/
theorem occurs_literal_finish (s text : String) :
    (sequence s.toList (seq finish empty)).occurs ⟨true, false⟩ text = true ↔
      foldedChars s <:+ foldedChars text := by
  have hstart := Marked.after_nil List.isSuffixOf (seq finish empty)
    (fun before c => by simp [List.isSuffixOf]) [] (foldedChars s)
  have hfinds := Marked.finds_iff ⟨true, false⟩
    (fun u => Marked.after List.isSuffixOf (seq finish empty) u [] (foldedChars s))
    (fun u => (foldedChars s).isSuffixOf u) Option.isNone
    (fun u c => Marked.read_after _ _ isSuffixOf_concat rfl [] (foldedChars s))
    (fun u next => by
      have hends : Spot.atEnd ⟨true, false⟩ ⟨u.getLast?, next⟩ = next.isNone := by
        cases next <;> simp [Spot.atEnd]
      rw [Marked.border_after]
      simp only [skips, hends]
      cases foldedChars s <;> simp) [] (foldedChars text)
  rw [occurs_folded, fold_sequence]
  simp only [hstart] at hfinds
  refine hfinds.trans ?_
  simp only [List.nil_append, List.isSuffixOf_iff_suffix, Option.isNone_iff_eq_none,
    List.head?_eq_none_iff]
  constructor
  · rintro ⟨u, v, hsplit, hsuffix, rfl⟩
    rwa [hsplit, List.append_nil]
  · intro hsuffix
    exact ⟨foldedChars text, [], (List.append_nil _).symm, hsuffix, rfl⟩

end Pattern

end ScopedDocs
