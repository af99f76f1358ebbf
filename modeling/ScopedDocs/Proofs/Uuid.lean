import ScopedDocs.Instant.Reader
import ScopedDocs.Uuid
/-!
# Identifiers — their text

The text of an identifier reads back as that identifier (`Uuid.ofText?_text`), so
that texts are equal only where identifiers are (`Uuid.text_inj`). No such text
is an instant in the strict form (`Instant.ofStrictText?_text`), which keeps filters
from taking two of them for points in time.
-/


namespace ScopedDocs

/-- Every digit of a positive base lies below it. -/
theorem lt_of_mem_fixedDigits {base width n d : Nat} (hbase : 0 < base)
    (h : d ∈ fixedDigits base width n) : d < base := by
  induction width generalizing n with
  | zero => simp [fixedDigits] at h
  | succ width ih =>
    rw [fixedDigits, List.mem_append, List.mem_singleton] at h
    rcases h with h | rfl
    · exact ih h
    · exact Nat.mod_lt _ hbase

/-- A written hexadecimal digit reads back as its value. -/
theorem hexValue?_digitChar {d : Nat} (h : d < 16) : hexValue? d.digitChar = some d := by
  rcases d with _ | _ | _ | _ | _ | _ | _ | _ | _ | _ | _ | _ | _ | _ | _ | _ | d
  all_goals first | rfl | omega

/-- Written hexadecimal digits read back as their values, one after the other. -/
theorem mapM_hexValue? {digits : List Nat} (h : ∀ d ∈ digits, d < 16) :
    (digits.map Nat.digitChar).mapM hexValue? = some digits := by
  induction digits with
  | nil => rfl
  | cons d rest ih =>
    rw [List.map_cons, List.mapM_cons, hexValue?_digitChar (h d (by simp)),
      ih fun e he => h e (by simp [he])]
    rfl

namespace Uuid

variable {u v : Uuid}

/-- There are 32 digits. -/
theorem length_hexDigits (u : Uuid) : u.hexDigits.length = 32 := by
  rw [hexDigits, List.length_map, length_fixedDigits]

/-- What is written of an identifier is a digit from `0` to `f`: no hyphen, no
brace and no letter of the scheme. -/
theorem ne_of_mem_hexDigits {c : Char} (h : c ∈ u.hexDigits) :
    c ≠ '-' ∧ c ≠ '\x7b' ∧ c ≠ 'u' := by
  obtain ⟨d, hmem, rfl⟩ := List.mem_map.mp h
  have hd : d < 16 := lt_of_mem_fixedDigits (by decide) hmem
  rcases d with _ | _ | _ | _ | _ | _ | _ | _ | _ | _ | _ | _ | _ | _ | _ | _ | d
  all_goals first | decide | omega

/-- The digits read back as the identifier. -/
theorem ofHex?_hexDigits (u : Uuid) : ofHex? u.hexDigits = some u := by
  have hread : u.hexDigits.mapM hexValue? = some (fixedDigits 16 32 u.bits.toNat) :=
    mapM_hexValue? fun d hd => lt_of_mem_fixedDigits (by decide) hd
  have hbits : u.bits.toNat % Nat.pow 16 32 = u.bits.toNat := Nat.mod_eq_of_lt u.bits.isLt
  rw [ofHex?, if_pos (length_hexDigits u), hread, Option.map_some, digitsValue_fixedDigits, hbits,
    BitVec.ofNat_toNat, BitVec.setWidth_eq]

/-- Taking the hyphens out again leaves the digits. -/
theorem filter_hyphenate (u : Uuid) :
    (hyphenate u.hexDigits).filter (· != '-') = u.hexDigits := by
  have hkeep : ∀ part : List Char, part ⊆ u.hexDigits → part.filter (· != '-') = part := by
    intro part hpart
    exact List.filter_eq_self.mpr fun c hc => by simpa using (ne_of_mem_hexDigits (hpart hc)).1
  have hmid : ∀ n, ((u.hexDigits.drop n).take 4).filter (· != '-') = (u.hexDigits.drop n).take 4 :=
    fun n => hkeep _ fun c hc => List.mem_of_mem_drop (List.mem_of_mem_take hc)
  have hfirst := hkeep (u.hexDigits.take 8) (List.take_subset _ _)
  have hlast := hkeep (u.hexDigits.drop 20) (List.drop_subset _ _)
  simp only [hyphenate, List.filter_append, List.filter_cons, hfirst, hlast, hmid]
  -- five consecutive parts of one list
  have h16 := List.take_append_drop 4 (u.hexDigits.drop 16)
  have h12 := List.take_append_drop 4 (u.hexDigits.drop 12)
  have h8 := List.take_append_drop 4 (u.hexDigits.drop 8)
  simp only [List.drop_drop, Nat.reduceAdd] at h16 h12 h8
  simp [h16, h12, h8]

/-- The hyphenated digits read back as the identifier. -/
theorem ofHyphenated?_hyphenate (u : Uuid) : ofHyphenated? (hyphenate u.hexDigits) = some u := by
  simp only [ofHyphenated?, filter_hyphenate, ↓reduceIte, ofHex?_hexDigits]

/-- The text has 36 characters. -/
theorem length_toList_text (u : Uuid) : u.text.toList.length = 36 := by
  rw [text, String.toList_ofList]
  simp [hyphenate, length_hexDigits]

/-- The text starts with eight digits. -/
theorem toList_text (u : Uuid) :
    ∃ a b c d e rest, u.text.toList = a :: b :: c :: d :: e :: rest ∧
      a ∈ u.hexDigits ∧ e ∈ u.hexDigits := by
  have hlen := length_hexDigits u
  match hu : u.hexDigits with
  | a :: b :: c :: d :: e :: f :: g :: h :: tail =>
    have htext : u.text.toList = a :: b :: c :: d :: e :: ([f, g, h] ++ '-' :: tail.take 4 ++
        '-' :: (tail.drop 4).take 4 ++ '-' :: (tail.drop 8).take 4 ++ '-' :: tail.drop 12) := by
      rw [text, String.toList_ofList, hu]
      simp [hyphenate]
    exact ⟨a, b, c, d, e, _, htext, by simp, by simp⟩
  | [] | [_] | [_, _] | [_, _, _] | [_, _, _, _] | [_, _, _, _, _] | [_, _, _, _, _, _]
  | [_, _, _, _, _, _, _] => rw [hu] at hlen; simp at hlen

/-- **Reading undoes writing.** -/
@[simp] theorem ofText?_text (u : Uuid) : ofText? u.text = some u := by
  obtain ⟨a, b, c, d, e, rest, htext, ha, -⟩ := toList_text u
  have hread : ofHyphenated? u.text.toList = some u := by
    rw [text, String.toList_ofList]; exact ofHyphenated?_hyphenate u
  -- the first character is a digit, so that neither a brace nor the scheme is in front
  obtain ⟨-, hbrace, hscheme⟩ := ne_of_mem_hexDigits ha
  unfold ofText?
  split
  · rename_i h; rw [htext] at h; exact absurd (List.cons.inj h).1 hbrace
  · rename_i h; rw [htext] at h; exact absurd (List.cons.inj h).1 hscheme
  · rw [if_neg (by rw [length_toList_text]; decide), hread]

/-- **Texts are equal only where identifiers are.** -/
theorem text_inj : u.text = v.text ↔ u = v := by
  refine ⟨fun h => ?_, congrArg text⟩
  have hu := ofText?_text u
  rw [h, ofText?_text] at hu
  exact (Option.some.inj hu).symm

end Uuid

namespace Instant

/-- A number of exactly `n` digits takes `n` characters. -/
theorem Reader.number?_rest {n k : Nat} {cs rest : List Char}
    (h : number? n n cs = some (k, rest)) : rest = cs.drop n := by
  simp only [number?] at h
  split at h
  · exact absurd h (by simp)
  · rename_i hlong
    have hshort := (List.takeWhile_sublist (l := cs.take n) Char.isDigit).length_le
    have htake := List.length_take_le n cs
    have hlen : ((cs.take n).takeWhile Char.isDigit).length = n := by omega
    rw [hlen] at h
    exact (Prod.mk.inj (Option.some.inj h)).2.symm

/-- A year takes four characters, and a hyphen has to follow. -/
theorem Reader.strict?_eq_none {a b c d e : Char} {rest : List Char} (h : e ≠ '-') :
    strict? (a :: b :: c :: d :: e :: rest) = none := by
  unfold strict?
  cases hyear : number? 4 4 (a :: b :: c :: d :: e :: rest) with
  | none => rfl
  | some found =>
    obtain ⟨year, cs⟩ := found
    have hcs : cs = e :: rest := number?_rest hyear
    simp [hcs, expect?, h]

/-- **No text of an identifier is an instant**: a date has a hyphen behind its
fourth character, and an identifier has a digit there. -/
@[simp] theorem ofStrictText?_text (u : Uuid) : ofStrictText? u.text = none := by
  obtain ⟨a, b, c, d, e, rest, htext, -, he⟩ := Uuid.toList_text u
  rw [ofStrictText?, htext, Reader.strict?_eq_none (Uuid.ne_of_mem_hexDigits he).1]
  rfl

end Instant

end ScopedDocs
