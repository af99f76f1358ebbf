import ScopedDocs.Proofs.Verdict
/-!
# Texts — what tests of text find

A test of text looks for its operand as it is written (`ValueTest.term_finds_text`): in
the texts found at its field, anywhere in them, at their start or at their end, for
characters that are those of the operand up to case. Whatever characters these are: the
pattern that is searched for is that of the operand's own letters. Only their number
matters: where the pattern takes more room than there is, the test is refused for every
document (`ValueTest.holds_of_not_fits`).
-/


namespace ScopedDocs

/-! ## Letters -/

/-- **The same letters**: characters that are equal one by one, up to case. -/
def SameLetters (cs ds : List Char) : Prop :=
  List.Forall₂ (fun c d => simpleFold c = simpleFold d) cs ds

theorem sameLetters_iff {cs ds : List Char} :
    SameLetters cs ds ↔ cs.map simpleFold = ds.map simpleFold := by
  rw [← List.forall₂_eq_eq_eq, List.forall₂_map_left_iff, List.forall₂_map_right_iff]
  rfl

namespace SearchOperator

/-- **Where an operator looks for a text** in another: anywhere, at its start, or at its
end. The others look for none. -/
inductive LooksFor : SearchOperator → (List Char → List Char → Prop) → Prop
  | anywhere : LooksFor contains (· <:+: ·)
  | atStart : LooksFor startsWith (· <+: ·)
  | atEnd : LooksFor endsWith (· <:+ ·)

/-- What is looked for in a folded text is the folding of something there. -/
theorem LooksFor.isPart_map_iff {operator : SearchOperator}
    {isPart : List Char → List Char → Prop} (h : operator.LooksFor isPart) {f : Char → Char}
    {cs ds : List Char} : isPart cs (ds.map f) ↔ ∃ run, isPart run ds ∧ cs = run.map f := by
  cases h with
  | anywhere => exact List.infix_map_iff
  | atStart => exact List.prefix_map_iff
  | atEnd => exact List.suffix_map_iff

end SearchOperator

/-! ## Found texts -/

namespace Json

variable {found : List Json} {document : Json} {path t : String}

/-- **A text is found at a path** if it is reached there, or is an item of an array that
is. -/
def FindsText (document : Json) (path t : String) : Prop :=
  ∃ value ∈ document.reach (Dotted.segments path),
    value = .str t ∨ ∃ items, value = .arr items ∧ .str t ∈ items

theorem str_mem_withItems {value : Json} :
    .str t ∈ value.withItems ↔ value = .str t ∨ ∃ items, value = .arr items ∧ .str t ∈ items := by
  cases value <;> simp [withItems, items?, eq_comm]

/-- What is found is what a test sees. -/
theorem findsText_iff :
    document.FindsText path t ↔ .str t ∈ seen (document.reach (Dotted.segments path)) := by
  simp only [FindsText, seen, List.mem_flatMap, str_mem_withItems]

/-- A text is seen that has a part, if some string that is seen has it. -/
theorem hasText_iff {isPart : List Char → List Char → Prop} [DecidableRel isPart]
    {operand : Json} :
    hasText found isPart operand = true ↔ ∃ t, .str t ∈ seen found ∧
      isPart (Pattern.foldedChars operand.searchText) (Pattern.foldedChars t) := by
  rw [hasText, List.any_eq_true]
  constructor
  · rintro ⟨value, hvalue, htext⟩
    cases value with
    | str t => exact ⟨t, hvalue, by simpa [string?] using htext⟩
    | _ => exact absurd htext (by simp [string?])
  · rintro ⟨t, ht, hpart⟩
    exact ⟨.str t, ht, by simpa [string?] using hpart⟩

end Json

/-- An operator that looks for a text finds it where some run of a text that is seen has
its letters. -/
theorem SearchOperator.LooksFor.holdsOf_iff {operator : SearchOperator}
    {isPart : List Char → List Char → Prop} (h : operator.LooksFor isPart) (operand : Json)
    (others found : List Json) :
    operator.holdsOf (operand :: others) found = true ↔
      ∃ t, .str t ∈ Json.seen found ∧
        ∃ run, isPart run t.toList ∧ SameLetters run operand.searchText.toList := by
  have hruns (t : String) :
      isPart (Pattern.foldedChars operand.searchText) (Pattern.foldedChars t) ↔
        ∃ run, isPart run t.toList ∧ SameLetters run operand.searchText.toList := by
    simp only [Pattern.foldedChars, h.isPart_map_iff, sameLetters_iff, eq_comm]
  simp only [← hruns]
  cases h with
  | anywhere | atStart | atEnd =>
    rw [holdsOf, List.head?_cons, Option.any_some, Json.hasText_iff]

/-- **A test whose pattern is too large is refused**, whatever the document. -/
theorem ValueTest.holds_of_not_fits {s : Schema} (hsound : s.Sound) {t : ValueTest}
    {r : Resolved} {term : Json} (hresolve : s.resolveQueryable t.field = .ok r)
    (helement : r.elementMatch = false) (hterm : t.term s = .ok term) (hfits : ¬ t.Fits)
    (document : Json) :
    Filter.holds document term = .error (.ofFault (.oversizedPattern Pattern.maxSize)) := by
  unfold Fits at hfits
  push Not at hfits
  obtain ⟨value, hvalue, p, hp, hsize⟩ := hfits
  have hfirst : t.first = .ok value := by
    obtain ⟨rest, hvalues⟩ := List.head?_eq_some_iff.mp hvalue
    rw [first, hvalues]
  obtain ⟨text, hcondition, hread⟩ := condition_of_pattern? hfirst hp
  rw [ValueTest.term, hresolve, ok_bind, hcondition, ok_bind, helement,
    if_neg Bool.false_ne_true] at hterm
  rw [← Except.ok.inj hterm, patternCondition,
    Filter.holds_fieldTerm_operators (hsound.resolveQueryable hresolve) rfl,
    Filter.operatorsHold_pattern, Filter.matchesAt_of_ofText? hread,
    if_pos (Bool.ne_false_iff.mp hsize)]

section

variable {s : Schema} {field : String} {r : Resolved} {operator : SearchOperator}
  {isPart : List Char → List Char → Prop}

/-- A test of text has a term, whatever its operand is. -/
theorem SearchOperator.LooksFor.exists_term (hlooks : operator.LooksFor isPart)
    (hresolve : s.resolveQueryable field = .ok r) (operand : Json) (others : List Json) :
    ∃ term, (⟨field, operator, operand :: others⟩ : ValueTest).term s = .ok term := by
  cases hlooks <;> exact ⟨_, by rw [ValueTest.term, hresolve]; rfl⟩

/-- **A test of text takes its operand as it is written.** On a field that may be queried
and does not ask for an element of an array, it has a term, whatever its operand is. If the
pattern fits, the term answers for every document, and holds where a text found at the
field's path has, where the operator looks, a run of characters that are those of the
operand's text up to case. If it does not fit, the term is refused for every document. -/
theorem ValueTest.term_finds_text (hbuilt : s.IsBuilt)
    (hresolve : s.resolveQueryable field = .ok r) (helement : r.elementMatch = false)
    (hlooks : operator.LooksFor isPart) (operand : Json) (others : List Json) :
    ∃ term, (⟨field, operator, operand :: others⟩ : ValueTest).term s = .ok term ∧
      ∀ document,
        ((⟨field, operator, operand :: others⟩ : ValueTest).Fits →
          ∃ holds, Filter.holds document term = .ok holds ∧
            (holds = true ↔ ∃ t, document.FindsText r.path t ∧
              ∃ run, isPart run t.toList ∧ SameLetters run operand.searchText.toList)) ∧
        (¬ (⟨field, operator, operand :: others⟩ : ValueTest).Fits →
          Filter.holds document term =
            .error (.ofFault (.oversizedPattern Pattern.maxSize))) := by
  obtain ⟨term, hterm⟩ := hlooks.exists_term hresolve operand others
  refine ⟨_, hterm, fun document => ⟨fun hfits => ?_, fun hfits =>
    holds_of_not_fits hbuilt.sound.1 hresolve helement hterm hfits document⟩⟩
  refine ⟨_, term_holds document hbuilt.sound.1 hfits hterm, ?_⟩
  have hfound : r.found document = [document.reach (Dotted.segments r.path)] := by
    rw [Resolved.found, helement, if_neg Bool.false_ne_true]
  simp only [verdict, Schema.testHolds, hresolve, id, hfound, List.any_cons, List.any_nil,
    Bool.or_false, hlooks.holdsOf_iff, Json.findsText_iff]

end

/-- A clip with one title, and one with another title besides. -/
def oneTitle : Json := .obj [("title", .str "axb")]

def twoTitles : Json := .obj [("title", .arr [.str "axb", .str "A.B*\nC"])]

/-- **Marks of patterns are letters like any others.** A start with such marks is found
where it is written, and not in the title that it would match as a pattern. -/
theorem titles_start_with_marks :
    clipSchema.resolveQueryable "Title" = .ok ⟨"title", false⟩ ∧
      ∃ term, (⟨"Title", .startsWith, [.str "a.b*"]⟩ : ValueTest).term clipSchema = .ok term ∧
        Filter.holds twoTitles term = .ok true ∧ Filter.holds oneTitle term = .ok false := by
  have hresolve : clipSchema.resolveQueryable "Title" = .ok ⟨"title", false⟩ := rfl
  have hfits : (⟨"Title", .startsWith, [.str "a.b*"]⟩ : ValueTest).Fits := by decide +kernel
  obtain ⟨term, hterm, hholds⟩ := ValueTest.term_finds_text isBuilt_clipSchema hresolve rfl
    .atStart (.str "a.b*") []
  refine ⟨hresolve, term, hterm, ?_, ?_⟩
  · obtain ⟨holds, hanswer, hiff⟩ := (hholds twoTitles).1 hfits
    rw [hanswer, hiff.mpr]
    have hfound : twoTitles.FindsText "title" "A.B*\nC" :=
      ⟨_, List.mem_singleton_self _, .inr ⟨_, rfl, by simp⟩⟩
    refine ⟨"A.B*\nC", hfound, "A.B*".toList, ?_, ?_⟩
    · exact ⟨['\n', 'C'], rfl⟩
    · exact sameLetters_iff.mpr (by decide +kernel)
  · obtain ⟨holds, hanswer, hiff⟩ := (hholds oneTitle).1 hfits
    have hnot : holds ≠ true := by
      rw [ne_eq, hiff]
      rintro ⟨t, hfound, run, hrun, hletters⟩
      have hseen : Json.seen (oneTitle.reach (Dotted.segments "title")) = [.str "axb"] := rfl
      rw [Json.findsText_iff, hseen, List.mem_singleton] at hfound
      obtain rfl := Json.str.inj hfound
      have hstart := SearchOperator.LooksFor.atStart.isPart_map_iff.mpr
        ⟨run, hrun, (sameLetters_iff.mp hletters).symm⟩
      exact absurd hstart (by decide +kernel)
    rw [hanswer, Bool.eq_false_iff.mpr hnot]

/-- A text of one letter, any number of times. -/
def letters (n : Nat) : String := String.ofList (List.replicate n 'a')

theorem not_fits_letters {n : Nat} (h : 131072 ≤ n) :
    ¬ (⟨"Title", .contains, [.str (letters n)]⟩ : ValueTest).Fits := by
  intro hfits
  have hroom : (Pattern.Class.only 'a').size true false = 80 := by decide +kernel
  have hlong : Pattern.maxSize ≤ n * (Pattern.Class.only 'a').size true false := by
    rw [hroom, Pattern.maxSize]
    omega
  have hsize := hfits _ rfl _ rfl
  rw [Json.searchText, letters, String.toList_ofList, Pattern.isOversized_replicate false hlong]
    at hsize
  exact absurd hsize (by simp)

/-- **A long text is not looked for**: its test has a term that answers for no document. -/
theorem titles_refuse_long_text :
    ¬ ∀ (s : Schema) (field : String) (r : Resolved) (operator : SearchOperator)
      (isPart : List Char → List Char → Prop) (operand : Json) (others : List Json), s.IsBuilt →
      s.resolveQueryable field = .ok r → r.elementMatch = false → operator.LooksFor isPart →
      ∃ term, (⟨field, operator, operand :: others⟩ : ValueTest).term s = .ok term ∧
        ∀ document, ∃ holds, Filter.holds document term = .ok holds ∧
          (holds = true ↔ ∃ t, document.FindsText r.path t ∧
            ∃ run, isPart run t.toList ∧ SameLetters run operand.searchText.toList) := by
  intro h
  have hresolve : clipSchema.resolveQueryable "Title" = .ok ⟨"title", false⟩ := rfl
  obtain ⟨term, hterm, hholds⟩ := h clipSchema "Title" _ .contains _ (.str (letters 131072)) []
    isBuilt_clipSchema hresolve rfl .anywhere
  obtain ⟨holds, hanswer, -⟩ := hholds oneTitle
  have hrefused := ValueTest.holds_of_not_fits isBuilt_clipSchema.sound.1 hresolve rfl hterm
    (not_fits_letters le_rfl) oneTitle
  exact absurd (hanswer.symm.trans hrefused) (by simp)

end ScopedDocs
