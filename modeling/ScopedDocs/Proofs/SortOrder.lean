import ScopedDocs.Json.Order
import ScopedDocs.Proofs.Rounding
/-!
# The order of sorting

Values are sorted by their kinds, and within a kind as they compare (`Json.sortOrder`).
Numbers and texts are each compared in one of two ways: two values that both have a key
(a 64-bit integer, an instant) by their keys, any other two as they are (`keyedOrder`).
Turning a comparison round always turns its outcome round (`keyedOrder_swap`), but the two
ways need not go together, so that the order of sorting is a total preorder only among
values for which one way is enough (`Json.sortOrder_preorder`). It is none of all values:
an instant can come before another one, and that one before a text which the first comes
after (`Json.sortOrder_cycle`).
-/


namespace ScopedDocs

/-! ## Orders by keys -/

section

variable {α κ : Type} {key : α → Option κ} {byKey : κ → κ → Ordering} {plain : α → α → Ordering}

/-- **An order in which some values have keys.** Two that have one are compared by their
keys, any other two as they are. -/
def keyedOrder (key : α → Option κ) (byKey : κ → κ → Ordering) (plain : α → α → Ordering)
    (a b : α) : Ordering :=
  match key a, key b with
  | some k, some l => byKey k l
  | _, _ => plain a b

/-- Turned round, it has the other outcome, as both of its ways do. -/
theorem keyedOrder_swap [Std.OrientedCmp byKey] [Std.OrientedCmp plain] (a b : α) :
    keyedOrder key byKey plain a b = (keyedOrder key byKey plain b a).swap := by
  unfold keyedOrder
  cases key a with
  | none => cases key b <;> exact Std.OrientedCmp.eq_swap
  | some k =>
    cases key b with
    | none => exact Std.OrientedCmp.eq_swap
    | some l => exact Std.OrientedCmp.eq_swap

/-- **One way of comparing is enough** for some values: they all have keys, or their keys
compare as they do. -/
def OneWay (key : α → Option κ) (byKey : κ → κ → Ordering) (plain : α → α → Ordering)
    (P : α → Prop) : Prop :=
  (∀ a, P a → (key a).isSome = true) ∨
    ∀ a b, P a → P b → keyedOrder key byKey plain a b = plain a b

/-- **Where one way is enough, the order is transitive**, as both of its ways are. -/
theorem keyedOrder_trans [Std.TransCmp byKey] [Std.TransCmp plain] {P : α → Prop}
    (h : OneWay key byKey plain P) {a b c : α} (ha : P a) (hb : P b) (hc : P c)
    (hab : (keyedOrder key byKey plain a b).isLE = true)
    (hbc : (keyedOrder key byKey plain b c).isLE = true) :
    (keyedOrder key byKey plain a c).isLE = true := by
  rcases h with hkeys | hplain
  · obtain ⟨k, hk⟩ := Option.isSome_iff_exists.mp (hkeys a ha)
    obtain ⟨l, hl⟩ := Option.isSome_iff_exists.mp (hkeys b hb)
    obtain ⟨m, hm⟩ := Option.isSome_iff_exists.mp (hkeys c hc)
    simp only [keyedOrder, hk, hl, hm] at hab hbc ⊢
    exact Std.TransCmp.isLE_trans hab hbc
  · rw [hplain a b ha hb] at hab
    rw [hplain b c hb hc] at hbc
    rw [hplain a c ha hc]
    exact Std.TransCmp.isLE_trans hab hbc

end

/-- Instants are ordered in time. -/
instance : Std.TransCmp Instant.compare :=
  inferInstanceAs (Std.TransCmp (compareLex (compareOn Instant.seconds) (compareOn Instant.nanos)))

/-- Doubles are ordered by their values. -/
instance : Std.TransCmp Double.compare :=
  inferInstanceAs (Std.TransCmp (compareOn Double.signedUnits))

/-! ## Numbers and texts -/

/-- Two comparisons agree if what they compare is less, and the same, alike. -/
theorem compareOfLessAndEq_congr {α β : Type} [LT α] [DecidableLT α] [DecidableEq α] [LT β]
    [DecidableLT β] [DecidableEq β] {a b : α} {c d : β} (hlt : a < b ↔ c < d)
    (heq : a = b ↔ c = d) : compareOfLessAndEq a b = compareOfLessAndEq c d := by
  simp only [compareOfLessAndEq, hlt, heq]

/-- A signed integer of 64 bits is the double nearest to it. -/
theorem Number.toDouble_of_toSigned? {a : Number} {m : Int} (h : a.toSigned? = some m) :
    a.toDouble = .ofInt m := by
  cases a with
  | int n =>
    obtain ⟨-, hn⟩ := Option.ite_none_right_eq_some.mp h
    rw [Number.toDouble, Option.some.inj hn]
  | double d => exact absurd h (by simp [Number.toSigned?])

/-- The order of doubles that numbers are nearest to. -/
def Number.compareDoubles (a b : Number) : Ordering := a.toDouble.compare b.toDouble

instance : Std.TransCmp Number.compareDoubles :=
  inferInstanceAs (Std.TransCmp (compareOn fun n : Number => n.toDouble.signedUnits))

/-- Numbers are ordered by the integers of 64 bits with a sign that they are. -/
theorem Number.compare_eq_keyedOrder :
    Number.compare = keyedOrder Number.toSigned? Ord.compare Number.compareDoubles := by
  funext a b
  unfold Number.compare keyedOrder
  cases a.toSigned? <;> cases b.toSigned? <;> rfl

/-- **Where the integers are exact as doubles, one way of comparing numbers is enough.** -/
theorem Number.oneWay_of_exact {P : Number → Prop}
    (h : ∀ a, P a → ∀ m, a.toSigned? = some m → m.natAbs ≤ 2 ^ 53) :
    OneWay Number.toSigned? Ord.compare Number.compareDoubles P := by
  refine .inr fun a b ha hb => ?_
  unfold keyedOrder
  split
  · next m n hm hn =>
    have hone : 0 < (Double.one : Int) := Int.natCast_pos.mpr Double.one_pos
    rw [Number.compareDoubles, Double.compare, Number.toDouble_of_toSigned? hm,
      Number.toDouble_of_toSigned? hn, Double.signedUnits_ofInt_of_le (h a ha m hm),
      Double.signedUnits_ofInt_of_le (h b hb n hn)]
    exact compareOfLessAndEq_congr (Int.mul_lt_mul_right hone).symm
      (Int.mul_eq_mul_right_iff (Int.ne_of_gt hone)).symm
  · rfl

/-- An integer from `-2⁶³` on has 64 bits with a sign if it is below `2⁶³`. -/
theorem Number.toSigned?_int {n : Int} (h : -2 ^ 63 ≤ n) :
    (Number.int n).toSigned? = if n < 2 ^ 63 then some n else none := by
  have hmin : Int64.minValue.toInt = -2 ^ 63 := rfl
  have hmax : Int64.maxValue.toInt = 2 ^ 63 - 1 := rfl
  have hrange : (-2 ^ 63 ≤ n ∧ n ≤ 2 ^ 63 - 1) ↔ n < 2 ^ 63 := by omega
  rw [Number.toSigned?, hmin, hmax]
  simp only [hrange]

/-- **Integers are compared exactly** if both are below `2⁶³`, and as doubles else. -/
theorem Number.compare_ints {m n : Int} (hm : -2 ^ 63 ≤ m) (hn : -2 ^ 63 ≤ n) :
    (Number.int m).compare (.int n) =
      if m < 2 ^ 63 ∧ n < 2 ^ 63 then Ord.compare m n
      else (Double.ofInt m).compare (.ofInt n) := by
  rw [Number.compare, Number.toSigned?_int hm, Number.toSigned?_int hn]
  by_cases hbelow : m < 2 ^ 63
  · by_cases hbelow' : n < 2 ^ 63
    · rw [if_pos hbelow, if_pos hbelow', if_pos ⟨hbelow, hbelow'⟩]
    · rw [if_pos hbelow, if_neg hbelow', if_neg (mt And.right hbelow')]
      rfl
  · rw [if_neg hbelow, if_neg (mt And.left hbelow)]
    rfl

/-- Natural numbers are, too. -/
theorem Number.compare_natCast (m n : Nat) :
    (Number.int m).compare (.int n) =
      if m < 2 ^ 63 ∧ n < 2 ^ 63 then Ord.compare m n
      else Ord.compare (Double.natUnits m) (Double.natUnits n) := by
  have hcast : ∀ k l : Nat, Ord.compare (k : Int) (l : Int) = Ord.compare k l :=
    fun _ _ => compareOfLessAndEq_congr Int.ofNat_lt Int.natCast_inj
  have hbelow : ((m : Int) < 2 ^ 63 ∧ (n : Int) < 2 ^ 63) ↔ (m < 2 ^ 63 ∧ n < 2 ^ 63) := by omega
  rw [Number.compare_ints (by omega) (by omega), Double.compare,
    Double.signedUnits_ofInt_natCast, Double.signedUnits_ofInt_natCast, hcast, hcast]
  simp only [hbelow]

/-- Texts are ordered by the instants that they hold in the strict form. -/
theorem compareTexts_eq_keyedOrder :
    compareTexts = keyedOrder Instant.ofStrictText? Instant.compare Ord.compare := by
  funext a b
  unfold compareTexts keyedOrder
  cases Instant.ofStrictText? a <;> cases Instant.ofStrictText? b <;> rfl

theorem Number.compare_swap (a b : Number) : a.compare b = (b.compare a).swap := by
  rw [Number.compare_eq_keyedOrder]
  exact keyedOrder_swap a b

theorem compareTexts_swap (a b : String) : compareTexts a b = (compareTexts b a).swap := by
  rw [compareTexts_eq_keyedOrder]
  exact keyedOrder_swap a b

namespace Json

/-! ## Values of one kind -/

/-- **Turned round, a comparison has the other outcome.** -/
theorem compare?_swap (x y : Json) : x.compare? y = (y.compare? x).map Ordering.swap := by
  cases x <;> cases y <;> try rfl
  case bool.bool a b => exact congrArg some Std.OrientedCmp.eq_swap
  case num.num a b => exact congrArg some (Number.compare_swap a b)
  case str.str a b => exact congrArg some (compareTexts_swap a b)

/-- The order of values of one kind; those that have none are all equal. -/
def orderWithin (a b : Option Json) : Ordering :=
  match a, b with
  | some x, some y => (x.compare? y).getD .eq
  | _, _ => .eq

theorem orderWithin_swap (a b : Option Json) : orderWithin a b = (orderWithin b a).swap := by
  cases a with
  | none => cases b <;> rfl
  | some x =>
    cases b with
    | none => rfl
    | some y =>
      rw [orderWithin, orderWithin, compare?_swap x y]
      cases y.compare? x <;> rfl

/-- **Sorting goes by kinds first**, and then by the order within a kind. -/
theorem sortOrder_eq (a b : Option Json) :
    sortOrder a b = (Ord.compare (rank a) (rank b)).then (orderWithin a b) := by
  by_cases h : rank a = rank b
  · rw [Nat.compare_eq_eq.mpr h, Ordering.eq_then]
    cases a <;> cases b <;> simp [sortOrder, orderWithin, h]
  · have hthen : ∀ o : Ordering,
        (Ord.compare (rank a) (rank b)).then o = Ord.compare (rank a) (rank b) := by
      intro o
      rcases Nat.lt_or_gt_of_ne h with h | h
      · rw [Nat.compare_eq_lt.mpr h, Ordering.lt_then]
      · rw [Nat.compare_eq_gt.mpr h, Ordering.gt_then]
    rw [hthen]
    cases a <;> cases b <;> simp [sortOrder, h]

theorem isLE_sortOrder {a b : Option Json} :
    (sortOrder a b).isLE = true ↔
      rank a < rank b ∨ rank a = rank b ∧ (orderWithin a b).isLE = true := by
  rw [sortOrder_eq, Ordering.isLE_then_iff_or, Nat.compare_eq_lt, Nat.compare_eq_eq]

/-- **One way of comparing is enough** for the numbers and for the texts among values. -/
structure Uniform (values : List (Option Json)) : Prop where
  /-- The numbers are all integers of 64 bits with a sign, or those compare as doubles. -/
  numbers : OneWay Number.toSigned? Ord.compare Number.compareDoubles
    fun n => some (num n) ∈ values
  /-- The texts are all instants in the strict form, or those compare as texts. -/
  texts : OneWay Instant.ofStrictText? Instant.compare Ord.compare fun s => some (str s) ∈ values

/-- **A criterion for uniform values**: the integers among them are exact as doubles, and
the texts are all instants in the strict form, or none is. -/
theorem uniform_of {values : List (Option Json)}
    (hnumbers : ∀ a, some (num a) ∈ values → ∀ m, a.toSigned? = some m → m.natAbs ≤ 2 ^ 53)
    (htexts : (∀ s, some (str s) ∈ values → (Instant.ofStrictText? s).isSome = true) ∨
      ∀ s, some (str s) ∈ values → Instant.ofStrictText? s = none) : Uniform values := by
  refine ⟨Number.oneWay_of_exact hnumbers, ?_⟩
  rcases htexts with hinstants | hnone
  · exact .inl hinstants
  · refine .inr fun a b ha _ => ?_
    rw [keyedOrder, hnone a ha]

/-- What has the kind of a number is one, and so it is of a text and of a truth value. -/
theorem eq_of_rank {x : Json} {b : Option Json} (h : rank (some x) = rank b) :
    (∀ m, x = num m → ∃ n, b = some (num n)) ∧ (∀ s, x = str s → ∃ t, b = some (str t)) ∧
      ∀ p, x = bool p → ∃ q, b = some (bool q) := by
  refine ⟨?_, ?_, ?_⟩ <;> rintro _ rfl <;>
    rcases b with _ | _ | _ | _ | _ | _ | _ <;> simp [rank] at h ⊢

/-- **Within a kind, the order of uniform values is transitive.** -/
theorem orderWithin_trans {values : List (Option Json)} (h : Uniform values)
    {a b c : Option Json} (ha : a ∈ values) (hb : b ∈ values) (hc : c ∈ values)
    (hab : rank a = rank b) (hbc : rank b = rank c) (hle : (orderWithin a b).isLE = true)
    (hle' : (orderWithin b c).isLE = true) : (orderWithin a c).isLE = true := by
  rcases a with _ | _ | p | m | s | _ | _
  case some.num =>
    obtain ⟨n, rfl⟩ := (eq_of_rank hab).1 m rfl
    obtain ⟨o, rfl⟩ := (eq_of_rank hbc).1 n rfl
    simp only [orderWithin, compare?, Option.getD_some, Number.compare_eq_keyedOrder] at *
    exact keyedOrder_trans h.numbers ha hb hc hle hle'
  case some.str =>
    obtain ⟨t, rfl⟩ := (eq_of_rank hab).2.1 s rfl
    obtain ⟨u, rfl⟩ := (eq_of_rank hbc).2.1 t rfl
    simp only [orderWithin, compare?, Option.getD_some, compareTexts_eq_keyedOrder] at *
    exact keyedOrder_trans h.texts ha hb hc hle hle'
  case some.bool =>
    obtain ⟨q, rfl⟩ := (eq_of_rank hab).2.2 p rfl
    obtain ⟨r, rfl⟩ := (eq_of_rank hbc).2.2 q rfl
    have hle : (Ord.compare p q).isLE = true := hle
    have hle' : (Ord.compare q r).isLE = true := hle'
    have htrans : (Ord.compare p r).isLE = true := Std.TransCmp.isLE_trans hle hle'
    exact htrans
  -- what is absent or `null` and what is compound is equal to all of its kind
  all_goals
    rcases c with _ | _ | _ | _ | _ | _ | _ <;> rfl

/-! ## All kinds -/

/-- **The order of sorting is a total preorder on uniform values**: turned round, it has
the other outcome for any two values, and it is transitive where one way of comparing is
enough for the numbers and for the texts. -/
theorem sortOrder_preorder (a b c : Option Json) :
    sortOrder a b = (sortOrder b a).swap ∧
      (Uniform [a, b, c] →
        sortOrder a b ≠ .gt → sortOrder b c ≠ .gt → sortOrder a c ≠ .gt) := by
  refine ⟨?_, fun h hab hbc => ?_⟩
  · rw [sortOrder_eq a b, sortOrder_eq b a, Ordering.swap_then, ← orderWithin_swap,
      Nat.compare_swap]
  · rw [ne_eq, Ordering.ne_gt_iff_isLE, isLE_sortOrder] at hab hbc ⊢
    rcases hab with hab | ⟨hab, hle⟩ <;> rcases hbc with hbc | ⟨hbc, hle'⟩
    · exact .inl (by omega)
    · exact .inl (by omega)
    · exact .inl (by omega)
    · exact .inr ⟨hab.trans hbc,
        orderWithin_trans h (by simp) (by simp) (by simp) hab hbc hle hle'⟩

/-- Eight o'clock of universal time, written in another zone. -/
def zonedTime : Option Json := some (str "2024-01-01T10:00:00+02:00")

/-- Nine o'clock. -/
def nextTime : Option Json := some (str "2024-01-01T09:00:00Z")

/-- Half past nine. -/
def lastTime : Option Json := some (str "2024-01-01T09:30:00Z")

/-- Half past nine without a zone, which is no instant. -/
def localTime : Option Json := some (str "2024-01-01T09:30")

theorem uniform_times : Uniform [zonedTime, nextTime, lastTime] := by
  refine uniform_of (fun a ha => ?_) (.inl fun s hs => ?_)
  · simp [zonedTime, nextTime, lastTime] at ha
  · simp only [zonedTime, nextTime, lastTime, List.mem_cons, List.not_mem_nil, or_false,
      Option.some.injEq, str.injEq] at hs
    rcases hs with rfl | rfl | rfl <;> decide

/-- The first of the times is sorted before the last one. -/
theorem sortOrder_preorder_times : sortOrder zonedTime lastTime ≠ .gt :=
  (sortOrder_preorder zonedTime nextTime lastTime).2 uniform_times (by decide) (by decide)

/-- **The order of sorting is no preorder**: eight o'clock comes before nine as an instant
and nine before half past as a text, but eight comes after half past as a text. -/
theorem sortOrder_cycle :
    ¬ ∀ a b c : Option Json, sortOrder a b = (sortOrder b a).swap ∧
      (sortOrder a b ≠ .gt → sortOrder b c ≠ .gt → sortOrder a c ≠ .gt) := by
  intro h
  have hfirst : sortOrder zonedTime nextTime = .lt := by decide
  have hsecond : sortOrder nextTime localTime = .lt := by decide
  have hthird : sortOrder zonedTime localTime = .gt := by decide
  refine (h zonedTime nextTime localTime).2 ?_ ?_ hthird
  · rw [hfirst]
    decide
  · rw [hsecond]
    decide

end Json

end ScopedDocs
