import ScopedDocs.Proofs.Calendar
import ScopedDocs.Proofs.Uuid
/-!
# Instants — their text

The text of an instant reads back as that instant, but for a leap second that does not
end a minute: a clock shows the next second then, and that is what is read
(`Instant.settled`). The lenient form takes the text of every instant
(`Instant.ofText?_writes`), with signed years, with leap seconds and with as many digits
of the second as are written; the strict form takes the texts whose year has four digits
and no other (`Instant.ofStrictText?_writes`). Both come from what the parts of a text
read (`Reader.number?_append`) and from one fact of the clock: what it shows at an
instant is at that instant, once it is settled (`Instant.toInstant?_reading`).
-/


namespace ScopedDocs

/-! ## Numbers in decimal digits -/

/-- **A number in decimal digits**: nothing but digits, worth the number. -/
structure IsDecimal (cs : List Char) (n : Nat) : Prop where
  /-- There are only digits. -/
  digits : ∀ c ∈ cs, c.isDigit = true
  /-- They are worth the number. -/
  value : decimalValue cs = n

/-- Written decimal digits are worth what the digits are worth. -/
theorem decimalValue_map_digitChar {digits : List Nat} (h : ∀ d ∈ digits, d < 10) :
    decimalValue (digits.map Nat.digitChar) = digitsValue 10 digits := by
  unfold decimalValue digitsValue
  generalize 0 = n
  induction digits generalizing n with
  | nil => rfl
  | cons d digits ih =>
    obtain ⟨hd, hdigits⟩ := List.forall_mem_cons.mp h
    have hvalue : decimalDigitValue d.digitChar = d := by
      rw [decimalDigitValue, Nat.toNat_digitChar_of_lt_ten hd]
      exact Nat.add_sub_cancel_left _ d
    rw [List.map_cons, List.foldl_cons, List.foldl_cons, hvalue, ih hdigits]

/-- The digits of a number that they suffice for. -/
theorem isDecimal_decimalDigits {width n : Nat} (h : n < Nat.pow 10 width) :
    IsDecimal (decimalDigits width n) n := by
  have hlt : ∀ d ∈ fixedDigits 10 width n, d < 10 := fun d hd =>
    lt_of_mem_fixedDigits (by decide) hd
  refine ⟨fun c hc => ?_, ?_⟩
  · obtain ⟨d, hd, rfl⟩ := List.mem_map.mp hc
    rw [Nat.isDigit_digitChar]
    exact decide_eq_true (hlt d hd)
  · rw [decimalDigits, decimalValue_map_digitChar hlt, digitsValue_fixedDigits, Nat.mod_eq_of_lt h]

@[simp] theorem length_decimalDigits (width n : Nat) : (decimalDigits width n).length = width := by
  rw [decimalDigits, List.length_map, length_fixedDigits]

/-- Padding a number does not change it. -/
theorem isDecimal_paddedDecimal (width n : Nat) : IsDecimal (paddedDecimal width n) n := by
  rw [paddedDecimal]
  split
  · next h => exact isDecimal_decimalDigits h
  · rw [Nat.toList_repr]
    exact ⟨fun c hc => Nat.isDigit_of_mem_toDigits (by decide) (by decide) hc,
      Nat.ofDigitChars_toDigits (by decide) (by decide)⟩

/-- A padded number has a digit. -/
theorem length_paddedDecimal_pos {width : Nat} (h : 0 < width) (n : Nat) :
    0 < (paddedDecimal width n).length := by
  rw [paddedDecimal]
  split
  · rwa [length_decimalDigits]
  · rw [Nat.toList_repr]
    exact Nat.length_toDigits_pos

/-- A digit is no blank. -/
theorem isBlank_of_isDigit {c : Char} (h : c.isDigit = true) : isBlank c = false := by
  have hrange : 48 ≤ c.toNat ∧ c.toNat ≤ 57 := by
    simp only [Char.isDigit, Bool.and_eq_true, decide_eq_true_eq, ge_iff_le] at h
    exact h
  simp [isBlank, blankRanges]
  omega

namespace Instant

namespace Reader

variable {cs rest : List Char} {n least most : Nat}

/-- **A written number reads back**, as long as no further digit that would be taken
stands behind it. -/
theorem number?_append (h : IsDecimal cs n) (hleast : least ≤ cs.length)
    (hmost : cs.length ≤ most)
    (hstop : (rest.take (most - cs.length)).takeWhile Char.isDigit = []) :
    number? least most (cs ++ rest) = some (n, rest) := by
  have hrun : ((cs ++ rest).take most).takeWhile Char.isDigit = cs := by
    rw [List.take_append, List.take_of_length_le hmost, List.takeWhile_append_of_pos h.digits,
      hstop, List.append_nil]
  simp only [number?, hrun, if_neg (Nat.not_lt.mpr hleast), h.value, List.drop_left]

/-- A number of a fixed width reads back whatever stands behind it. -/
theorem number?_decimalDigits (h : n < Nat.pow 10 most) (hleast : least ≤ most)
    (rest : List Char) : number? least most (decimalDigits most n ++ rest) = some (n, rest) :=
  number?_append (isDecimal_decimalDigits h) (by simpa using hleast) (by simp) (by simp)

/-- No blanks are skipped in front of another character. -/
theorem skipBlanks_cons {c : Char} (h : isBlank c = false) (rest : List Char) :
    skipBlanks (c :: rest) = c :: rest := by
  rw [skipBlanks, List.dropWhile_cons_of_neg (by simp [h])]

/-- Nor in front of a number. -/
theorem skipBlanks_append (h : IsDecimal cs n) (hne : 0 < cs.length) (rest : List Char) :
    skipBlanks (cs ++ rest) = cs ++ rest := by
  cases cs with
  | nil => simp at hne
  | cons c cs => exact skipBlanks_cons (isBlank_of_isDigit (h.digits c List.mem_cons_self)) _

theorem skipBlanks_decimalDigits (h : n < Nat.pow 10 2) (rest : List Char) :
    skipBlanks (decimalDigits 2 n ++ rest) = decimalDigits 2 n ++ rest :=
  skipBlanks_append (isDecimal_decimalDigits h) (by simp) rest

/-- An expected character is taken. -/
theorem expect?_self (c : Char) (rest : List Char) : expect? c (c :: rest) = some rest :=
  if_pos rfl

/-- A part of two digits reads back if no blank follows it. -/
theorem part?_decimalDigits {c : Char} (h : n < Nat.pow 10 2) (hc : isBlank c = false) :
    part? (decimalDigits 2 n ++ c :: rest) = some (n, c :: rest) := by
  rw [part?, skipBlanks_decimalDigits h, number?_decimalDigits h (by decide), Option.map_some]
  exact congrArg (fun cs => some (n, cs)) (skipBlanks_cons hc rest)

/-- A year of four digits is written as a number. -/
theorem yearText_of_plain {year : Int} (h : 0 ≤ year ∧ year ≤ 9999) :
    year.natAbs < Nat.pow 10 4 ∧ yearText year = decimalDigits 4 year.natAbs := by
  have hsmall : year.natAbs < Nat.pow 10 4 := by
    have hpow : Nat.pow 10 4 = 10000 := rfl
    omega
  exact ⟨hsmall, by rw [yearText, if_pos h, paddedDecimal, if_pos hsmall]⟩

/-- Any other year is written behind a sign. -/
theorem yearText_of_not_plain {year : Int} (h : ¬ (0 ≤ year ∧ year ≤ 9999)) :
    (year < 0 ∧ yearText year = '-' :: paddedDecimal 4 year.natAbs) ∨
      (9999 < year ∧ yearText year = '+' :: paddedDecimal 4 year.natAbs) := by
  rw [yearText, if_neg h]
  by_cases hneg : year < 0
  · exact .inl ⟨hneg, by rw [if_pos hneg]⟩
  · exact .inr ⟨by omega, by rw [if_neg hneg]⟩

/-- A year without a sign is read as a number of up to four digits. -/
theorem year?_of_isDecimal (h : IsDecimal cs n) (hpos : 0 < cs.length) (rest : List Char) :
    year? (cs ++ rest) = (number? 1 4 (cs ++ rest)).map fun (n, rest) => ((n : Int), rest) := by
  cases cs with
  | nil => simp at hpos
  | cons c cs =>
    have hc := h.digits c List.mem_cons_self
    unfold year?
    split
    · next heq => exact absurd ((List.cons.inj heq).1 ▸ hc) (by decide)
    · next heq => exact absurd ((List.cons.inj heq).1 ▸ hc) (by decide)
    · rfl

/-- **A year reads back** in front of its hyphen. -/
theorem year?_yearText (year : Int) (rest : List Char) :
    year? (yearText year ++ '-' :: rest) = some (year, '-' :: rest) := by
  by_cases hplain : 0 ≤ year ∧ year ≤ 9999
  · obtain ⟨hsmall, htext⟩ := yearText_of_plain hplain
    rw [htext, year?_of_isDecimal (isDecimal_decimalDigits hsmall) (by simp),
      number?_decimalDigits hsmall (by decide), Option.map_some]
    exact congrArg (fun n => some (n, _)) (Int.natAbs_of_nonneg hplain.1)
  · have hsigned : number? 1 (paddedDecimal 4 year.natAbs ++ '-' :: rest).length
        (paddedDecimal 4 year.natAbs ++ '-' :: rest) = some (year.natAbs, '-' :: rest) := by
      refine number?_append (isDecimal_paddedDecimal 4 _)
        (length_paddedDecimal_pos (by decide) _) (by simp) ?_
      -- the hyphen ends the digits, however many more would be taken
      cases (paddedDecimal 4 year.natAbs ++ '-' :: rest).length -
        (paddedDecimal 4 year.natAbs).length <;> rfl
    rcases yearText_of_not_plain hplain with ⟨hneg, htext⟩ | ⟨hlarge, htext⟩
    · rw [htext, List.cons_append, year?, hsigned, Option.map_some]
      exact congrArg (fun n => some (n, _)) (by omega : -(year.natAbs : Int) = year)
    · rw [htext, List.cons_append, year?, hsigned, Option.map_some]
      exact congrArg (fun n => some (n, _)) (by omega : (year.natAbs : Int) = year)

/-- No blank stands in front of a year. -/
theorem skipBlanks_yearText (year : Int) (rest : List Char) :
    skipBlanks (yearText year ++ rest) = yearText year ++ rest := by
  by_cases hplain : 0 ≤ year ∧ year ≤ 9999
  · obtain ⟨hsmall, htext⟩ := yearText_of_plain hplain
    rw [htext]
    exact skipBlanks_append (isDecimal_decimalDigits hsmall) (by simp) rest
  · rcases yearText_of_not_plain hplain with ⟨-, htext⟩ | ⟨-, htext⟩ <;>
      rw [htext, List.cons_append, skipBlanks_cons (by decide)]

/-- A year of four digits is read in the strict form. -/
theorem number?_yearText {year : Int} (h : 0 ≤ year ∧ year ≤ 9999) (rest : List Char) :
    number? 4 4 (yearText year ++ rest) = some (year.natAbs, rest) := by
  obtain ⟨hsmall, htext⟩ := yearText_of_plain h
  rw [htext, number?_decimalDigits hsmall (by decide)]

/-- And no other year: there is no digit in front. -/
theorem number?_yearText_of_not {year : Int} (h : ¬ (0 ≤ year ∧ year ≤ 9999))
    (rest : List Char) : number? 4 4 (yearText year ++ rest) = none := by
  rcases yearText_of_not_plain h with ⟨-, htext⟩ | ⟨-, htext⟩ <;> rw [htext] <;> rfl

/-- **A fraction of a second reads back** in front of the mark of universal time. -/
theorem fraction?_fractionText {nanos : Nat} (h : nanos < nanosPerSecond) (rest : List Char) :
    fraction? (fractionText nanos ++ 'Z' :: rest) = some (nanos, 'Z' :: rest) := by
  have hread : ∀ {width n : Nat}, 0 < width → width ≤ 9 → n < Nat.pow 10 width →
      fraction? ('.' :: decimalDigits width n ++ 'Z' :: rest) =
        some (n * Nat.pow 10 (9 - width), 'Z' :: rest) := by
    intro width n hpos hwidth hn
    have hdecimal := isDecimal_decimalDigits hn
    have hrun : (decimalDigits width n ++ 'Z' :: rest).takeWhile Char.isDigit =
        decimalDigits width n := by
      rw [List.takeWhile_append_of_pos hdecimal.digits]
      exact List.append_nil _
    have hne : (decimalDigits width n).isEmpty = false := by
      rw [List.isEmpty_eq_false_iff, ← List.length_pos_iff, length_decimalDigits]
      exact hpos
    have hkept : (decimalDigits width n).take 9 = decimalDigits width n :=
      List.take_of_length_le (by simpa using hwidth)
    simp only [List.cons_append, fraction?, hrun, hne, hkept, Bool.false_eq_true, ↓reduceIte,
      hdecimal.value, List.drop_left]
    rw [length_decimalDigits]
  have hbound : nanos < 1000000000 := h
  rw [fractionText]
  split
  · next hzero => rw [hzero]; rfl
  · split
    · rw [hread (by decide) (by decide) (show nanos / 1000000 < 1000 by omega)]
      congr 2
      change nanos / 1000000 * 1000000 = nanos
      omega
    · split
      · rw [hread (by decide) (by decide) (show nanos / 1000 < 1000000 by omega)]
        congr 2
        change nanos / 1000 * 1000 = nanos
        omega
      · rw [hread (by decide) (by decide) hbound]
        exact congrArg some (Prod.ext (Nat.mul_one nanos) rfl)

end Reader

/-! ## What the clock shows -/

/-- What a clock of universal time shows at an instant. -/
def reading (t : Instant) : ClockReading where
  date := Date.ofDay (t.seconds / secondsPerDay)
  hour := (t.seconds % secondsPerDay).toNat / 3600
  minute := (t.seconds % secondsPerDay).toNat / 60 % 60
  second := (t.seconds % secondsPerDay).toNat % 60 + t.nanos / nanosPerSecond
  nanos := t.nanos % nanosPerSecond
  offset := 0

variable (t : Instant)

/-- What the clock shows exists. -/
theorem isReal_reading : t.reading.isReal = true := by
  obtain ⟨hfirst, hlast, hnanos⟩ := t.isPoint
  have hyears := Date.year_ofDay_mem hfirst hlast
  have hdate := Date.isReal_ofDay (t.seconds / secondsPerDay)
  simp only [ClockReading.isReal, Bool.and_eq_true, decide_eq_true_eq]
  refine ⟨⟨⟨⟨⟨hyears, hdate⟩, ?_⟩, ?_⟩, ?_⟩, Nat.zero_lt_succ _⟩
  all_goals
    simp only [reading, secondsPerDay, nanosPerSecond] at hnanos ⊢
    omega

/-- **Whether an instant is one that clocks have**: if it is in a leap second, that ends a
minute. -/
def IsOnClock : Prop := nanosPerSecond ≤ t.nanos → t.seconds % 60 = 59

instance : Decidable t.IsOnClock := inferInstanceAs (Decidable (_ → _))

/-- The last second that instants reach ends a minute. -/
theorem isPoint_settled (h : ¬ t.IsOnClock) :
    IsPoint (t.seconds + 1) (t.nanos - nanosPerSecond) := by
  obtain ⟨hfirst, hlast, hnanos⟩ := t.isPoint
  unfold IsOnClock at h
  unfold IsPoint
  unfold firstSecond lastSecond nanosPerSecond at *
  omega

/-- **What is read of an instant**: the instant itself or, of a leap second that does not end
a minute, as much of the next second. -/
def settled : Instant :=
  if h : t.IsOnClock then t else ⟨t.seconds + 1, t.nanos - nanosPerSecond, t.isPoint_settled h⟩

variable {t} in
/-- An instant that clocks have is settled. -/
theorem settled_eq (h : t.IsOnClock) : t.settled = t := dif_pos h

/-- **It shows a sixtieth second** just in a leap second that ends a minute. -/
theorem second_reading :
    t.reading.second = 60 ↔ nanosPerSecond ≤ t.nanos ∧ t.seconds % 60 = 59 := by
  obtain ⟨-, -, hnanos⟩ := t.isPoint
  simp only [reading, secondsPerDay, nanosPerSecond] at hnanos ⊢
  omega

/-- Its seconds are those of the settled instant. -/
theorem seconds_reading : t.reading.seconds = t.settled.seconds := by
  obtain ⟨-, -, hnanos⟩ := t.isPoint
  have hday := Date.toDay_ofDay (t.seconds / secondsPerDay)
  simp only [ClockReading.seconds, reading, hday, settled]
  split
  all_goals
    next h =>
      simp only [IsOnClock, secondsPerDay, nanosPerSecond] at hnanos h ⊢
      omega

/-- Its nanoseconds, after those of a sixtieth second, are those of the settled instant. -/
theorem nanos_reading :
    (if t.reading.second = 60 then t.reading.nanos + nanosPerSecond else t.reading.nanos) =
      t.settled.nanos := by
  obtain ⟨-, -, hnanos⟩ := t.isPoint
  have hshown : t.reading.nanos = t.nanos % nanosPerSecond := rfl
  have hsettled : t.settled.nanos =
      if t.IsOnClock then t.nanos else t.nanos - nanosPerSecond := by
    unfold settled
    split <;> rfl
  simp only [second_reading, hshown, hsettled]
  by_cases hclock : t.IsOnClock
  · rw [if_pos hclock]
    unfold IsOnClock nanosPerSecond at *
    split <;> omega
  · rw [if_neg hclock]
    unfold IsOnClock nanosPerSecond at *
    split <;> omega

/-- **What the clock shows at an instant is at that instant**, once it is settled. -/
theorem toInstant?_reading : t.reading.toInstant? = some t.settled := by
  simp only [ClockReading.toInstant?, t.isReal_reading, ↓reduceIte, t.seconds_reading,
    t.nanos_reading, t.settled.isPoint, ↓reduceDIte]

/-! ## Texts -/

/-- The text of an instant, part by part. -/
theorem chars_eq :
    t.chars = yearText t.reading.date.year ++ '-' ::
      (decimalDigits 2 t.reading.date.month ++ '-' ::
        (decimalDigits 2 t.reading.date.day ++ 'T' ::
          (decimalDigits 2 t.reading.hour ++ ':' ::
            (decimalDigits 2 t.reading.minute ++ ':' ::
              (decimalDigits 2 t.reading.second ++
                (fractionText t.reading.nanos ++ ['Z'])))))) := by
  simp only [chars, reading, List.append_assoc, List.cons_append]

/-- Two digits are enough for each part of a date and a time. -/
theorem reading_lt :
    t.reading.date.month < Nat.pow 10 2 ∧ t.reading.date.day < Nat.pow 10 2 ∧
      t.reading.hour < Nat.pow 10 2 ∧ t.reading.minute < Nat.pow 10 2 ∧
      t.reading.second < Nat.pow 10 2 ∧ t.reading.nanos < nanosPerSecond := by
  obtain ⟨-, -, hnanos⟩ := t.isPoint
  have hmonth := Date.month_ofDay_le (t.seconds / secondsPerDay)
  have hday := Date.day_ofDay_le (t.seconds / secondsPerDay)
  have hpow : Nat.pow 10 2 = 100 := rfl
  simp only [reading, hpow, secondsPerDay, nanosPerSecond] at *
  omega

/-- **The lenient form reads what an instant writes**, to the end. -/
theorem lenient?_chars : Reader.lenient? t.chars = some (t.reading, []) := by
  open Reader in
  obtain ⟨hmonth, hday, hhour, hminute, hsecond, hnanos⟩ := t.reading_lt
  have hhyphen : isBlank '-' = false := by decide
  have hcolon : isBlank ':' = false := by decide
  have hzone : isBlank 'Z' = false := by decide
  have hseparator : ∀ rest : List Char, separator? ('T' :: rest) = some rest := fun _ => rfl
  have hoffset : lenientOffset? ['Z'] = some (0, []) := by decide
  rw [lenient?, chars_eq]
  simp only [skipBlanks_yearText, year?_yearText, Option.bind_eq_bind, Option.bind_some,
    skipBlanks_cons hhyphen, expect?_self, part?_decimalDigits hmonth hhyphen,
    skipBlanks_decimalDigits hday, number?_decimalDigits hday (by decide : 1 ≤ 2), hseparator,
    part?_decimalDigits hhour hcolon, part?_decimalDigits hminute hcolon,
    skipBlanks_decimalDigits hsecond, number?_decimalDigits hsecond (by decide : 1 ≤ 2),
    fraction?_fractionText hnanos, skipBlanks_cons hzone, hoffset]
  rfl

/-- **Reading undoes writing**, but for what settles. -/
@[simp] theorem ofText?_writes : ofText? t.text = some t.settled := by
  rw [ofText?, text, String.toList_ofList, lenient?_chars]
  exact t.toInstant?_reading

/-- The year of universal time. -/
def year : Int := (Date.ofDay (t.seconds / secondsPerDay)).year

/-- Whether the year has four digits and no sign. -/
def IsPlain : Prop := 0 ≤ t.year ∧ t.year ≤ 9999

instance : Decidable t.IsPlain := inferInstanceAs (Decidable (_ ∧ _))

variable {t}

/-- **The strict form reads what an instant writes** if its year has four digits. -/
theorem strict?_chars (h : t.IsPlain) : Reader.strict? t.chars = some (t.reading, []) := by
  open Reader in
  obtain ⟨hmonth, hday, hhour, hminute, hsecond, hnanos⟩ := t.reading_lt
  have hseparator : ∀ rest : List Char, separator? ('T' :: rest) = some rest := fun _ => rfl
  have hoffset : offset? (expect? ':') ['Z'] = some (0, []) := by decide
  have hplain : 0 ≤ t.reading.date.year ∧ t.reading.date.year ≤ 9999 := h
  have hyear : ((t.reading.date.year.natAbs : Nat) : Int) = t.reading.date.year :=
    Int.natAbs_of_nonneg hplain.1
  rw [strict?, chars_eq]
  simp only [number?_yearText hplain, Option.bind_eq_bind, Option.bind_some, expect?_self,
    number?_decimalDigits hmonth (Nat.le_refl 2), number?_decimalDigits hday (Nat.le_refl 2),
    hseparator, number?_decimalDigits hhour (Nat.le_refl 2),
    number?_decimalDigits hminute (Nat.le_refl 2), number?_decimalDigits hsecond (Nat.le_refl 2),
    fraction?_fractionText hnanos, hoffset, hyear]
  rfl

/-- **The strict form reads just the texts of years of four digits.** -/
theorem ofStrictText?_writes :
    ofStrictText? t.text = if t.IsPlain then some t.settled else none := by
  rw [ofStrictText?, text, String.toList_ofList]
  split
  · next h =>
    rw [strict?_chars h]
    exact t.toInstant?_reading
  · next h =>
    have hplain : ¬ (0 ≤ t.reading.date.year ∧ t.reading.date.year ≤ 9999) := h
    rw [Reader.strict?, chars_eq, Reader.number?_yearText_of_not hplain]
    rfl

end Instant

end ScopedDocs
