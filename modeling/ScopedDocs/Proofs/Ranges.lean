import ScopedDocs.Proofs.Rounding
import ScopedDocs.Proofs.SortOrder
import ScopedDocs.Proofs.Timestamp
import ScopedDocs.Proofs.Verdict
/-!
# Ranges — what lies between bounds

A range is tested on what is stored: an instant as its text, a length of time as a whole
number of milliseconds. So the range means what it says as far as the comparison of
stored values follows the order in time.

Texts of instants do so among years of four digits, and a year before these comes before
them (`Instant.writtenLE_iff`). A later year is written behind a sign, which sorts before
every digit, so that a range up to such a year excludes what it should include
(`DateRange.excludes_before_late_year`); and a leap second that does not end a minute is
compared as the second after it. `DateRange.holds_of_instant` says what a range of dates
holds of in all cases.

Whole milliseconds are exact for an upper bound, but a lower bound loses the rest of its
last millisecond, and from `2⁶³` milliseconds on it is compared as a double
(`Span.LetsPass`). `SpanRange.holds_of_length` says what a range of spans holds of, and
`SpanRange.admits_shorter` that it can be a length below the range.
-/


namespace ScopedDocs

/-! ## Bounds on one stored value -/

/-- Whether a document satisfies a term, if there is one. -/
def Filter.holdsIf (document : Json) (term : Option Json) : Except Error Bool :=
  (term.map (Filter.holds document)).getD (.ok true)

section

variable {s : Schema} {p : Resolved} {document value : Json} {field : String}

/-- **Bounds are tested on the value stored in their field**, if it is no array. -/
theorem holdsIf_bounds (hsound : s.Sound) (hresolve : s.resolveQueryable field = .ok p)
    (hstored : document.reach (Dotted.segments p.path) = [value]) (hitems : value.items? = none)
    (min max : Option Json) :
    Filter.holdsIf document ((boundsCondition? min max).map (fieldTerm p)) =
      .ok (min.all (fun least => (value.compare? least).any Ordering.isGE) &&
        max.all (fun greatest => (value.compare? greatest).any Ordering.isLE)) := by
  have hterm : ((boundsCondition? min max).map (fieldTerm p)).map (Filter.holds document) =
      (rangeVerdict s Resolved.whole document field min max).map .ok :=
    rangeTerm_holds document hsound hresolve fun _ => rfl
  have hsees : ∀ accepts, Json.comparesSome accepts [value] =
      fun operand => (value.compare? operand).any accepts := by
    intro accepts
    funext operand
    simp [Json.comparesSome, Json.seen, Json.withItems, hitems]
  have hfound : p.whole.found document = [[value]] := by
    simp [Resolved.found, Resolved.whole, hstored]
  rw [Filter.holdsIf, hterm, rangeVerdict, Schema.testHolds, hresolve]
  split
  · next hnone =>
    obtain ⟨hmin, hmax⟩ := (Bool.and_eq_true _ _).mp hnone
    rw [Option.isNone_iff_eq_none.mp hmin, Option.isNone_iff_eq_none.mp hmax]
    rfl
  · simp only [hfound, boundsHold, hsees, List.any_cons, List.any_nil, Bool.or_false]
    rfl

/-- So a range means what the comparison with its bounds, as they are stored, says. -/
theorem holdsIf_range (hsound : s.Sound) (hresolve : s.resolveQueryable field = .ok p)
    (hstored : document.reach (Dotted.segments p.path) = [value]) (hitems : value.items? = none)
    {β : Type} {store : β → Json} {below above : β → Prop} [DecidablePred below]
    [DecidablePred above]
    (hbelow : ∀ b, (value.compare? (store b)).any Ordering.isGE = true ↔ below b)
    (habove : ∀ b, (value.compare? (store b)).any Ordering.isLE = true ↔ above b)
    (min max : Option β) :
    Filter.holdsIf document
        ((boundsCondition? (min.map store) (max.map store)).map (fieldTerm p)) =
      .ok (decide ((∀ least ∈ min, below least) ∧ ∀ greatest ∈ max, above greatest)) := by
  rw [holdsIf_bounds hsound hresolve hstored hitems]
  congr 1
  rw [Bool.eq_iff_iff, decide_eq_true_iff, Bool.and_eq_true]
  refine and_congr ?_ ?_
  · cases min <;> simp [hbelow]
  · cases max <;> simp [habove]

end

theorem isLE_compare_string {a b : String} : (Ord.compare a b).isLE = true ↔ a ≤ b :=
  isLE_compareOfLessAndEq Std.le_antisymm Std.not_le (Std.Total.total (r := (· ≤ ·)))

/-- The schema of events, with a time and a length. -/
def eventSchema : Schema :=
  { entityType := "event", collection := "events",
    access := [("At", true), ("ID", true), ("Length", true)],
    mapping := [("At", "at"), ("ID", "_id"), ("Length", "length_ms")], fields := [] }

theorem isBuilt_eventSchema : eventSchema.IsBuilt :=
  ⟨(((Schema.Draft.start "event" "events").map "At" "at").map "Length" "length_ms").queryable
    ["At", "Length"], rfl⟩

/-! ## Dates -/

namespace Instant

/-- Whether an instant is no later than another. -/
protected def le (a b : Instant) : Prop :=
  a.seconds < b.seconds ∨ a.seconds = b.seconds ∧ a.nanos ≤ b.nanos

instance : LE Instant := ⟨Instant.le⟩

instance : DecidableLE Instant :=
  fun a b => inferInstanceAs (Decidable (a.seconds < b.seconds ∨ _ ∧ a.nanos ≤ b.nanos))

theorem isLE_compare {a b : Instant} : (a.compare b).isLE = true ↔ a ≤ b := by
  rw [Instant.compare, Ordering.isLE_then_iff_or, Int.compare_eq_lt, Int.compare_eq_eq,
    Nat.isLE_compare]
  rfl

/-- **The order of the texts of instants**: that in time of what they settle to between years
of four digits, and that of the characters everywhere else. -/
def WrittenLE (a b : Instant) : Prop :=
  if a.IsPlain ∧ b.IsPlain then a.settled ≤ b.settled else a.text ≤ b.text

instance : DecidableRel WrittenLE := fun a b =>
  inferInstanceAs (Decidable (if a.IsPlain ∧ b.IsPlain then _ ≤ _ else a.text ≤ b.text))

theorem isLE_compareTexts {a b : Instant} :
    (compareTexts a.text b.text).isLE = true ↔ a.WrittenLE b := by
  rw [compareTexts, ofStrictText?_writes, ofStrictText?_writes, WrittenLE]
  by_cases ha : a.IsPlain
  · by_cases hb : b.IsPlain
    · rw [if_pos ha, if_pos hb, if_pos ⟨ha, hb⟩]
      exact isLE_compare
    · rw [if_pos ha, if_neg hb, if_neg (mt And.right hb)]
      exact isLE_compare_string
  · rw [if_neg ha, if_neg (mt And.left ha)]
    exact isLE_compare_string

theorem isGE_compareTexts {a b : Instant} :
    (compareTexts a.text b.text).isGE = true ↔ b.WrittenLE a := by
  rw [compareTexts_swap, Ordering.isGE_swap, isLE_compareTexts]

/-- **Instants whose texts are in their order**: clocks have both, none is after the year
9999, and one at most is before the year 0. -/
def Comparable (a b : Instant) : Prop :=
  a.IsOnClock ∧ b.IsOnClock ∧ a.year ≤ 9999 ∧ b.year ≤ 9999 ∧ (0 ≤ a.year ∨ 0 ≤ b.year)

instance : DecidableRel Comparable :=
  fun _ _ => inferInstanceAs (Decidable (_ ∧ _ ∧ _ ∧ _ ∧ (_ ∨ _)))

/-- A later year comes later. -/
theorem seconds_lt_of_year_lt {a b : Instant} (h : a.year < b.year) : a.seconds < b.seconds := by
  have ha := (Date.year_ofDay (a.seconds / secondsPerDay)).2
  have hb := (Date.year_ofDay (b.seconds / secondsPerDay)).1
  have hyears : Date.daysBeforeYear (a.year + 1) ≤ Date.daysBeforeYear b.year :=
    Date.daysBeforeYear_mono h
  have hdays : a.seconds / secondsPerDay < b.seconds / secondsPerDay := by
    change _ < Date.daysBeforeYear (a.year + 1) at ha
    change Date.daysBeforeYear b.year ≤ _ at hb
    omega
  unfold secondsPerDay at hdays
  omega

/-- A year before the year 0 is written before those of four digits: a hyphen comes before
every digit. -/
theorem text_lt_of_before {a b : Instant} (ha : a.year < 0) (hb : b.IsPlain) : a.text < b.text := by
  obtain ⟨rest, hrest⟩ : ∃ rest, a.chars = '-' :: rest := by
    have hyear : ¬ (0 ≤ a.reading.date.year ∧ a.reading.date.year ≤ 9999) :=
      fun h => absurd h.1 (Int.not_le.mpr ha)
    rcases Reader.yearText_of_not_plain hyear with ⟨-, htext⟩ | ⟨hlarge, -⟩
    · exact ⟨_, by rw [chars_eq, htext, List.cons_append]⟩
    · exact absurd (Int.lt_trans hlarge ha) (by decide)
  obtain ⟨c, rest', hrest', hdigit⟩ : ∃ c rest', b.chars = c :: rest' ∧ c.isDigit = true := by
    have hplain : 0 ≤ b.reading.date.year ∧ b.reading.date.year ≤ 9999 := hb
    obtain ⟨hsmall, htext⟩ := Reader.yearText_of_plain hplain
    have hdigits := (isDecimal_decimalDigits hsmall).digits
    rw [chars_eq, htext]
    cases hyear : decimalDigits 4 b.reading.date.year.natAbs with
    | nil => exact absurd (congrArg List.length hyear) (by simp)
    | cons c cs => exact ⟨c, _, rfl, hdigits c (hyear ▸ List.mem_cons_self)⟩
  rw [String.lt_iff, text, text, String.toList_ofList, String.toList_ofList, hrest, hrest']
  refine List.Lex.rel ?_
  have hzero : (48 : UInt32) ≤ c.val := by simpa using (Bool.and_eq_true _ _).mp hdigit |>.1
  exact UInt32.lt_of_lt_of_le (by decide : ('-').val < 48) hzero

/-- **Between comparable instants, the order of the texts is that in time.** -/
theorem writtenLE_iff {a b : Instant} (h : a.Comparable b) : a.WrittenLE b ↔ a ≤ b := by
  obtain ⟨haclock, hbclock, ha, hb, hyears⟩ := h
  rw [WrittenLE, settled_eq haclock, settled_eq hbclock]
  split
  · exact Iff.rfl
  · next hnot =>
    rcases Int.lt_or_le a.year 0 with hbefore | hplain
    · -- the first one is before the year 0, and comes first both in time and as a text
      have hseconds : a.seconds < b.seconds := seconds_lt_of_year_lt (by omega)
      have htext := text_lt_of_before hbefore ⟨by omega, hb⟩
      exact iff_of_true (Std.le_of_lt htext) (.inl hseconds)
    · have hbefore : b.year < 0 := by
        refine Int.not_le.mp fun hb' => hnot ⟨⟨hplain, ha⟩, ⟨hb', hb⟩⟩
      have hseconds : b.seconds < a.seconds := seconds_lt_of_year_lt (by omega)
      have htext := text_lt_of_before hbefore ⟨hplain, ha⟩
      refine iff_of_false (Std.not_le.mpr htext) ?_
      rintro (hlt | ⟨heq, -⟩) <;> omega

end Instant

namespace DateRange

variable {r : DateRange} {t : Instant}

/-- Whether an instant lies between the bounds, both included. -/
def Includes (r : DateRange) (t : Instant) : Prop :=
  (∀ least ∈ r.min, least ≤ t) ∧ ∀ greatest ∈ r.max, t ≤ greatest

/-- Whether the text of an instant lies between those of the bounds. -/
def IncludesText (r : DateRange) (t : Instant) : Prop :=
  (∀ least ∈ r.min, least.WrittenLE t) ∧ ∀ greatest ∈ r.max, t.WrittenLE greatest

instance : Decidable (r.Includes t) := inferInstanceAs (Decidable (_ ∧ _))

instance : Decidable (r.IncludesText t) := inferInstanceAs (Decidable (_ ∧ _))

/-- What is comparable with both bounds lies between them as its text does. -/
theorem includesText_iff (hmin : ∀ least ∈ r.min, least.Comparable t)
    (hmax : ∀ greatest ∈ r.max, t.Comparable greatest) : r.IncludesText t ↔ r.Includes t := by
  refine and_congr ?_ ?_
  · exact forall₂_congr fun least hleast => Instant.writtenLE_iff (hmin least hleast)
  · exact forall₂_congr fun greatest hgreatest => Instant.writtenLE_iff (hmax greatest hgreatest)

variable {s : Schema} {p : Resolved} {document : Json}

/-- **The term of a range of dates** holds of a stored instant whose text lies between the
texts of the bounds. -/
theorem term_of_text (hsound : s.Sound) (hresolve : s.resolveQueryable r.field = .ok p)
    (hstored : document.reach (Dotted.segments p.path) = [.str t.text]) :
    ∃ term, r.term s = .ok term ∧
      Filter.holdsIf document term = .ok (decide (r.IncludesText t)) := by
  have hbelow (least : Instant) : ((Json.str t.text).compare? (.str least.text)).any
      Ordering.isGE = true ↔ least.WrittenLE t := by
    rw [Json.compare?, Option.any_some, Instant.isGE_compareTexts]
  have habove (greatest : Instant) : ((Json.str t.text).compare? (.str greatest.text)).any
      Ordering.isLE = true ↔ t.WrittenLE greatest := by
    rw [Json.compare?, Option.any_some, Instant.isLE_compareTexts]
  refine ⟨_, by rw [DateRange.term, hresolve]; rfl, ?_⟩
  exact holdsIf_range hsound hresolve hstored rfl hbelow habove r.min r.max

/-- **What a range of dates holds of.** Whatever instant a document stores in a field that
may be filtered on, the range is planned, and it holds of the document just where the text
of the instant lies between those of the bounds. Where the instant is comparable with both
bounds, it holds just where the instant lies between them. -/
theorem holds_of_instant (hbuilt : s.IsBuilt) (hresolve : s.resolveQueryable r.field = .ok p)
    (hstored : document.reach (Dotted.segments p.path) = [.str t.text]) :
    ∃ term, r.term s = .ok term ∧
      Filter.holdsIf document term = .ok (decide (r.IncludesText t)) ∧
      ((∀ least ∈ r.min, least.Comparable t) → (∀ greatest ∈ r.max, t.Comparable greatest) →
        Filter.holdsIf document term = .ok (decide (r.Includes t))) := by
  obtain ⟨term, hterm, hholds⟩ := term_of_text hbuilt.sound.1 hresolve hstored
  refine ⟨term, hterm, hholds, fun hmin hmax => ?_⟩
  simp only [hholds, includesText_iff hmin hmax]

/-- Noon of a day in 2024, and half a second. -/
def noon : Instant := { seconds := 1718452800, nanos := 500000000 }

/-- An event at noon. -/
def noonEvent : Json := .obj [("at", .str noon.text)]

/-- The times up to noon from a year before the year 0 on. -/
def untilNoon : DateRange := ⟨"At", some { seconds := -70000000000, nanos := 0 }, some noon⟩

/-- Both bounds are included. -/
theorem holds_of_instant_noon :
    ∃ term, untilNoon.term eventSchema = .ok term ∧ Filter.holdsIf noonEvent term = .ok true := by
  have hresolve : eventSchema.resolveQueryable untilNoon.field = .ok ⟨"at", false⟩ := rfl
  have hstored : noonEvent.reach (Dotted.segments "at") = [.str noon.text] := rfl
  obtain ⟨term, hterm, -, hholds⟩ := holds_of_instant isBuilt_eventSchema hresolve hstored
  have hincludes : decide (untilNoon.Includes noon) = true := by decide
  refine ⟨term, hterm, ?_⟩
  rw [hholds (by decide) (by decide), hincludes]

/-- The times up to the last instant there is. -/
def untilEnd : DateRange :=
  ⟨"At", none, some { seconds := Instant.lastSecond, nanos := 999999999 }⟩

/-- **A range up to a late year excludes what is before it**: the sign of the late year
sorts before the digits of every year that has none. -/
theorem excludes_before_late_year :
    ¬ ∀ (s : Schema) (r : DateRange) (p : Resolved) (document : Json) (t : Instant),
      s.IsBuilt → s.resolveQueryable r.field = .ok p →
      document.reach (Dotted.segments p.path) = [.str t.text] →
      ∃ term, r.term s = .ok term ∧
        Filter.holdsIf document term = .ok (decide (r.Includes t)) := by
  intro h
  have hresolve : eventSchema.resolveQueryable untilEnd.field = .ok ⟨"at", false⟩ := rfl
  have hstored : noonEvent.reach (Dotted.segments "at") = [.str noon.text] := rfl
  obtain ⟨term, hterm, hholds⟩ := h _ _ _ _ _ isBuilt_eventSchema hresolve hstored
  obtain ⟨term', hterm', hholds'⟩ := term_of_text isBuilt_eventSchema.sound.1 hresolve hstored
  obtain rfl : term = term' := Except.ok.inj (hterm.symm.trans hterm')
  have hincludes : decide (untilEnd.Includes noon) = true := by decide
  have htext : decide (untilEnd.IncludesText noon) = false := by decide
  rw [hholds, hincludes, htext] at hholds'
  exact absurd hholds' (by simp)

end DateRange

/-! ## Spans -/

namespace Span

/-- Nanoseconds in a millisecond. -/
def nanosPerMilli : Nat := 1000000

/-- The whole milliseconds of a span, up to the greatest word. -/
theorem millis_eq (s : Span) : s.millis = min (s.length / nanosPerMilli) (UInt64.size - 1) := by
  have hwhole : s.seconds * 1000 + s.nanos / 1000000 = s.length / nanosPerMilli := by
    unfold length nanosPerSecond nanosPerMilli
    omega
  rw [millis, hwhole]

/-- **What a lower bound lets pass**: whole milliseconds from its own on, and from `2⁶³` on
whatever has the same double. -/
def LetsPass (least : Span) (n : Nat) : Prop :=
  least.length / nanosPerMilli ≤ n ∨
    2 ^ 63 ≤ least.length / nanosPerMilli ∧ least.length / nanosPerMilli ≤ 2 ^ 63 + 1024 ∧
      2 ^ 63 - 512 ≤ n

instance : DecidableRel LetsPass := fun _ _ => inferInstanceAs (Decidable (_ ∨ _ ∧ _ ∧ _))

variable {bound : Span} {n : Nat}

theorem isGE_compare_millis (hn : n < 2 ^ 63) :
    ((Number.int n).compare (.int bound.millis)).isGE = true ↔ bound.LetsPass n := by
  rw [Number.compare_natCast, millis_eq, LetsPass]
  generalize bound.length / nanosPerMilli = k
  have hsize : UInt64.size = 2 ^ 64 := rfl
  split
  · next h =>
    rw [Nat.isGE_compare]
    omega
  · next h =>
    -- one double is at most that of `2⁶³` and the other at least: they meet there or nowhere
    have hstored := Double.natUnits_le_top.mpr (by omega : n ≤ 2 ^ 63 + 1024)
    have hbound := Double.top_le_natUnits.mpr (by omega : 2 ^ 63 - 512 ≤ min k (UInt64.size - 1))
    rw [Nat.isGE_compare]
    constructor
    · intro hle
      have hfrom := Double.top_le_natUnits.mp (Nat.le_trans hbound hle)
      have hto := Double.natUnits_le_top.mp (Nat.le_trans hle hstored)
      omega
    · intro hpass
      have hfrom := Double.top_le_natUnits.mpr (by omega : 2 ^ 63 - 512 ≤ n)
      have hto := Double.natUnits_le_top.mpr (by omega : min k (UInt64.size - 1) ≤ 2 ^ 63 + 1024)
      exact Nat.le_trans hto hfrom

theorem isLE_compare_millis (hn : n < 2 ^ 63) :
    ((Number.int n).compare (.int bound.millis)).isLE = true ↔
      n * nanosPerMilli ≤ bound.length := by
  rw [Number.compare_natCast, millis_eq, ← Nat.le_div_iff_mul_le (by decide : 0 < nanosPerMilli)]
  generalize bound.length / nanosPerMilli = k
  have hsize : UInt64.size = 2 ^ 64 := rfl
  split
  · next h =>
    rw [Nat.isLE_compare]
    omega
  · next h =>
    have hmono : Double.natUnits n ≤ Double.natUnits (min k (UInt64.size - 1)) :=
      Double.natUnits_mono (by omega)
    exact iff_of_true (Nat.isLE_compare.mpr hmono) (by omega)

/-- **A bound of whole milliseconds lets pass what is no shorter**, below `2⁶³`. -/
theorem letsPass_iff (hwhole : nanosPerMilli ∣ bound.length)
    (hsmall : bound.length < 2 ^ 63 * nanosPerMilli) :
    bound.LetsPass n ↔ bound.length ≤ n * nanosPerMilli := by
  obtain ⟨k, hk⟩ := hwhole
  have hpos : 0 < nanosPerMilli := by decide
  rw [LetsPass, hk, Nat.mul_div_cancel_left k hpos, Nat.mul_comm n, Nat.mul_le_mul_left_iff hpos]
  have hlt : k < 2 ^ 63 := by
    unfold nanosPerMilli at hk hsmall
    omega
  omega

end Span

namespace SpanRange

variable {r : SpanRange} {n : Nat}

/-- Whether whole milliseconds lie between the bounds, both included. -/
def Includes (r : SpanRange) (n : Nat) : Prop :=
  (∀ least ∈ r.min, least.length ≤ n * Span.nanosPerMilli) ∧
    ∀ greatest ∈ r.max, n * Span.nanosPerMilli ≤ greatest.length

/-- Whether the lower bound lets whole milliseconds pass, and they are no longer than the
upper one. -/
def Admits (r : SpanRange) (n : Nat) : Prop :=
  (∀ least ∈ r.min, least.LetsPass n) ∧
    ∀ greatest ∈ r.max, n * Span.nanosPerMilli ≤ greatest.length

instance : Decidable (r.Includes n) := inferInstanceAs (Decidable (_ ∧ _))

instance : Decidable (r.Admits n) := inferInstanceAs (Decidable (_ ∧ _))

/-- Where the lower bound is exact, what is admitted lies between the bounds. -/
theorem admits_iff (hwhole : ∀ least ∈ r.min, Span.nanosPerMilli ∣ least.length ∧
    least.length < 2 ^ 63 * Span.nanosPerMilli) : r.Admits n ↔ r.Includes n :=
  and_congr_left' <| forall₂_congr fun least hleast =>
    Span.letsPass_iff (hwhole least hleast).1 (hwhole least hleast).2

variable {s : Schema} {p : Resolved} {document : Json}

/-- **The term of a range of spans** holds of a stored length that the range admits. -/
theorem term_of_millis (hsound : s.Sound) (hresolve : s.resolveQueryable r.field = .ok p)
    (hn : n < 2 ^ 63) (hstored : document.reach (Dotted.segments p.path) = [.ofNat n]) :
    ∃ term, r.term s = .ok term ∧ Filter.holdsIf document term = .ok (decide (r.Admits n)) := by
  have hbelow (least : Span) : ((Json.ofNat n).compare? (.ofNat least.millis)).any
      Ordering.isGE = true ↔ least.LetsPass n := Span.isGE_compare_millis hn
  have habove (greatest : Span) : ((Json.ofNat n).compare? (.ofNat greatest.millis)).any
      Ordering.isLE = true ↔ n * Span.nanosPerMilli ≤ greatest.length :=
    Span.isLE_compare_millis hn
  refine ⟨_, by rw [SpanRange.term, hresolve]; rfl, ?_⟩
  exact holdsIf_range hsound hresolve hstored rfl hbelow habove r.min r.max

/-- **What a range of spans holds of.** Whatever number of milliseconds below `2⁶³` a
document stores in a field that may be filtered on, the range is planned, and it holds of
the document just where the number is no more than the upper bound and the lower one lets
it pass. Where the lower bound is a whole number of milliseconds below `2⁶³`, or there is
none, it holds just where the number lies between the bounds. -/
theorem holds_of_length (hbuilt : s.IsBuilt) (hresolve : s.resolveQueryable r.field = .ok p)
    (hn : n < 2 ^ 63) (hstored : document.reach (Dotted.segments p.path) = [.ofNat n]) :
    ∃ term, r.term s = .ok term ∧
      Filter.holdsIf document term = .ok (decide (r.Admits n)) ∧
      ((∀ least ∈ r.min, Span.nanosPerMilli ∣ least.length ∧
          least.length < 2 ^ 63 * Span.nanosPerMilli) →
        Filter.holdsIf document term = .ok (decide (r.Includes n))) := by
  obtain ⟨term, hterm, hholds⟩ := term_of_millis hbuilt.sound.1 hresolve hn hstored
  refine ⟨term, hterm, hholds, fun hwhole => ?_⟩
  simp only [hholds, admits_iff hwhole]

/-- An event of a millisecond. -/
def shortEvent : Json := .obj [("length_ms", .ofNat 1)]

/-- The lengths from a millisecond on that are less than two of them. -/
def oneMilli : SpanRange := ⟨"Length", Span.of? 0 1000000, Span.of? 0 1999999⟩

/-- The lower bound is included. -/
theorem holds_of_length_short :
    ∃ term, oneMilli.term eventSchema = .ok term ∧
      Filter.holdsIf shortEvent term = .ok true := by
  have hresolve : eventSchema.resolveQueryable oneMilli.field = .ok ⟨"length_ms", false⟩ := rfl
  have hstored : shortEvent.reach (Dotted.segments "length_ms") = [.ofNat 1] := rfl
  obtain ⟨term, hterm, -, hholds⟩ :=
    holds_of_length isBuilt_eventSchema hresolve (by decide) hstored
  have hincludes : decide (oneMilli.Includes 1) = true := by decide
  refine ⟨term, hterm, ?_⟩
  rw [hholds (by decide), hincludes]

/-- The lengths from one and a half milliseconds on. -/
def oneAndAHalf : SpanRange := ⟨"Length", Span.of? 0 1500000, none⟩

/-- **A range can admit what is shorter than its lower bound**, as that loses the rest of
its last millisecond. -/
theorem admits_shorter :
    ¬ ∀ (s : Schema) (r : SpanRange) (p : Resolved) (document : Json) (n : Nat),
      s.IsBuilt → s.resolveQueryable r.field = .ok p → n < 2 ^ 63 →
      document.reach (Dotted.segments p.path) = [.ofNat n] →
      ∃ term, r.term s = .ok term ∧
        Filter.holdsIf document term = .ok (decide (r.Includes n)) := by
  intro h
  have hresolve : eventSchema.resolveQueryable oneAndAHalf.field = .ok ⟨"length_ms", false⟩ := rfl
  have hstored : shortEvent.reach (Dotted.segments "length_ms") = [.ofNat 1] := rfl
  have hone : 1 < 2 ^ 63 := by decide
  obtain ⟨term, hterm, hholds⟩ := h _ _ _ _ _ isBuilt_eventSchema hresolve hone hstored
  obtain ⟨term', hterm', hholds'⟩ :=
    term_of_millis isBuilt_eventSchema.sound.1 hresolve hone hstored
  obtain rfl : term = term' := Except.ok.inj (hterm.symm.trans hterm')
  have hincludes : decide (oneAndAHalf.Includes 1) = false := by decide
  have hadmits : decide (oneAndAHalf.Admits 1) = true := by decide
  rw [hholds, hincludes, hadmits] at hholds'
  exact absurd hholds' (by simp)

end SpanRange

end ScopedDocs
