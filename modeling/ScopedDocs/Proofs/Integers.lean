import ScopedDocs.Proofs.Filter
import ScopedDocs.Proofs.SortOrder
/-!
# Integers — what filters tell apart

Two stored integers are compared exactly if both have 64 bits with a sign. If one of them is
`2⁶³` or more, they are compared as doubles, and of these there are only multiples of 2048
from `2⁶³` on. So the comparison is exact where the multiples nearest to them differ, and
says that they are equal where these are the same (`Number.compare_int`): two integers near or
above `2⁶³` may not be told apart (`Number.Told`). Just where they are, every filter that
compares the one with the other means what it says (`Filter.integers_compared`);
`Filter.next_integer_taken` has two that are not.
-/


namespace ScopedDocs

namespace Number

variable {a b : Int}

/-- The integers that can be stored. -/
def IsStored (n : Int) : Prop := -2 ^ 63 ≤ n ∧ n < 2 ^ 64

instance : DecidablePred IsStored := fun _ => inferInstanceAs (Decidable (_ ∧ _))

/-- Which multiple of 2048 is nearest to an integer; halfway it is the even one. -/
def nearestStep (n : Int) : Nat := Double.roundHalfEven n.toNat 2048

/-- **Integers that are told apart**, unless they are the same: both are below `2⁶³`, or one
is below what is taken for `2⁶³`, or there is another double for each. -/
def Told (a b : Int) : Prop :=
  (a < 2 ^ 63 ∧ b < 2 ^ 63) ∨ a = b ∨ a < 2 ^ 63 - 512 ∨ b < 2 ^ 63 - 512 ∨
    nearestStep a ≠ nearestStep b

instance : DecidableRel Told := fun _ _ =>
  inferInstanceAs (Decidable (_ ∨ _ ∨ _ ∨ _ ∨ _))

theorem Told.symm (h : Told a b) : Told b a := by
  rcases h with ⟨ha, hb⟩ | heq | ha | hb | hne
  · exact .inl ⟨hb, ha⟩
  · exact .inr (.inl heq.symm)
  · exact .inr (.inr (.inr (.inl ha)))
  · exact .inr (.inr (.inl hb))
  · exact .inr (.inr (.inr (.inr hne.symm)))

theorem nearestStep_mono (h : a ≤ b) : nearestStep a ≤ nearestStep b :=
  Double.roundHalfEven_mono (by decide) (Int.toNat_le_toNat h)

/-! ## Doubles near the top -/

/-- Below `2⁶³ - 512`, the double is less than `2⁶³`. -/
theorem signedUnits_lt_top (h : a < 2 ^ 63 - 512) :
    (Double.ofInt a).signedUnits < 2 ^ 63 * (Double.one : Int) := by
  have hone : 0 < (Double.one : Int) := Int.natCast_pos.mpr Double.one_pos
  rcases Int.lt_or_le a 0 with hneg | hpos
  · have hunits : (Double.ofInt a).signedUnits = -(Double.natUnits a.natAbs : Int) := by
      rw [Double.signedUnits_ofInt, Int.sign_eq_neg_one_of_neg hneg, Int.neg_one_mul]
    omega
  · obtain ⟨n, rfl⟩ := Int.eq_ofNat_of_zero_le hpos
    have hnot : ¬ 2 ^ 63 * Double.one ≤ Double.natUnits n := by
      rw [Double.top_le_natUnits]
      omega
    rw [Double.signedUnits_ofInt_natCast]
    exact_mod_cast Nat.lt_of_not_le hnot

/-- From `2⁶³ - 512` on, the double is the nearest multiple of 2048. -/
theorem signedUnits_of_top (h : 2 ^ 63 - 512 ≤ a) (hstored : IsStored a) :
    (Double.ofInt a).signedUnits = nearestStep a * (2048 * Double.one : Nat) := by
  obtain ⟨n, rfl⟩ := Int.eq_ofNat_of_zero_le (by omega : 0 ≤ a)
  have hbelow : n < 2 ^ 64 := by
    have := hstored.2
    omega
  have hunits := Double.natUnits_of_top (by omega) hbelow
  rw [Double.signedUnits_ofInt_natCast, hunits, nearestStep, Int.toNat_natCast, Int.natCast_mul]

/-- `2⁶³` stands between the doubles of an integer below `2⁶³ - 512` and of one that is no less
than `2⁶³`. -/
theorem compare_across_top (ha : a < 2 ^ 63 - 512) (htop : 2 ^ 63 ≤ b) (hb : IsStored b) :
    (Double.ofInt a).compare (.ofInt b) = .lt := by
  have hstep : 2 ^ 52 ≤ nearestStep b := nearestStep_mono htop
  have hbetween : 2 ^ 63 * (Double.one : Int) ≤ nearestStep b * (2048 * Double.one : Nat) := by
    generalize Double.one = unit
    calc
      2 ^ 63 * (unit : Int) = (2 ^ 52 : Nat) * (2048 * unit : Nat) := by omega
      _ ≤ nearestStep b * (2048 * unit : Nat) :=
        Int.mul_le_mul_of_nonneg_right (Int.ofNat_le.mpr hstep) (Int.natCast_nonneg _)
  rw [Double.compare, signedUnits_of_top (by omega) hb]
  exact Int.compare_eq_lt.mpr (Int.lt_of_lt_of_le (signedUnits_lt_top ha) hbetween)

/-- From `2⁶³ - 512` on, doubles are in the order of the nearest multiples. -/
theorem compare_at_top (ha : 2 ^ 63 - 512 ≤ a) (hb : 2 ^ 63 - 512 ≤ b) (hstored : IsStored a)
    (hstored' : IsStored b) :
    (Double.ofInt a).compare (.ofInt b) = Ord.compare (nearestStep a) (nearestStep b) := by
  have hgrain : 0 < ((2048 * Double.one : Nat) : Int) :=
    Int.natCast_pos.mpr (Nat.mul_pos (by decide) Double.one_pos)
  rw [Double.compare, signedUnits_of_top ha hstored, signedUnits_of_top hb hstored']
  refine compareOfLessAndEq_congr ?_ ?_
  · rw [Int.mul_lt_mul_right hgrain, Int.ofNat_lt]
  · rw [Int.mul_eq_mul_right_iff (Int.ne_of_gt hgrain), Int.natCast_inj]

/-- Where the nearest multiples differ, they are in the order of the integers. -/
theorem compare_nearestStep (h : nearestStep a ≠ nearestStep b) :
    Ord.compare (nearestStep a) (nearestStep b) = Ord.compare a b := by
  have hlt : nearestStep a < nearestStep b ↔ a < b := by
    constructor
    · intro hlt
      by_contra hle
      have hmono := nearestStep_mono (Int.not_lt.mp hle)
      omega
    · intro hlt
      have hmono := nearestStep_mono (Int.le_of_lt hlt)
      omega
  exact compareOfLessAndEq_congr hlt (iff_of_false h fun heq => h (heq ▸ rfl))

/-- **Doubles keep the order of integers** of which one is `2⁶³` or more, where they are told
apart, and take the others for the same. -/
theorem compare_doubles (ha : IsStored a) (hb : IsStored b) (htop : 2 ^ 63 ≤ b) :
    (Double.ofInt a).compare (.ofInt b) = if Told a b then Ord.compare a b else .eq := by
  rcases Int.lt_or_le a (2 ^ 63 - 512) with hbelow | habove
  · have htold : Told a b := .inr (.inr (.inl hbelow))
    rw [if_pos htold, compare_across_top hbelow htop hb]
    exact (Int.compare_eq_lt.mpr (by omega)).symm
  · rw [compare_at_top habove (by omega) ha hb]
    by_cases hstep : nearestStep a = nearestStep b
    · -- neither is below `2⁶³ - 512`, so that only the same integers are told apart
      have hsame : Told a b → a = b := by
        intro htold
        unfold Told at htold
        omega
      rw [hstep, Nat.compare_eq_eq.mpr rfl]
      split
      · next htold => rw [Int.compare_eq_eq.mpr (hsame htold)]
      · rfl
    · rw [if_pos (.inr (.inr (.inr (.inr hstep)))), compare_nearestStep hstep]

/-- **Integers are compared as integers where they are told apart**, and else as equal. -/
theorem compare_int (ha : IsStored a) (hb : IsStored b) :
    (int a).compare (int b) = if Told a b then Ord.compare a b else .eq := by
  rw [compare_ints ha.1 hb.1]
  by_cases hbelow : a < 2 ^ 63 ∧ b < 2 ^ 63
  · rw [if_pos hbelow, if_pos (.inl hbelow)]
  · rw [if_neg hbelow]
    rcases Int.lt_or_le b (2 ^ 63) with hb' | hb'
    · -- turned round, it is the second one that is beyond
      have htold : Told b a ↔ Told a b := ⟨Told.symm, Told.symm⟩
      have hswap : (Double.ofInt a).compare (.ofInt b) =
          ((Double.ofInt b).compare (.ofInt a)).swap := (Int.compare_swap _ _).symm
      rw [hswap, compare_doubles hb ha (by omega), apply_ite Ordering.swap, Int.compare_swap]
      simp only [htold, Ordering.swap_eq]
    · exact compare_doubles ha hb hb'

end Number

namespace Filter

variable {document : Json} {key : String} {segments : List String} {a b : Int}

/-! ## Filters on one stored integer -/

/-- **The first of two integers**, which a document stores at a path, **is compared with the
second one as integers are**, by itself and by every filter that compares. -/
structure Compares (document : Json) (key : String) (a b : Int) : Prop where
  /-- They are ordered as integers. -/
  order : (Json.ofInt a).compare? (.ofInt b) = some (Ord.compare a b)
  /-- A filter asks for the one that is equal. -/
  eq : holds document (.obj [(key, .obj [("$eq", .ofInt b)])]) = .ok (decide (a = b))
  /-- A filter asks for greater ones. -/
  gt : holds document (.obj [(key, .obj [("$gt", .ofInt b)])]) = .ok (decide (b < a))
  /-- A filter asks for those that are no less. -/
  gte : holds document (.obj [(key, .obj [("$gte", .ofInt b)])]) = .ok (decide (b ≤ a))
  /-- A filter asks for lesser ones. -/
  lt : holds document (.obj [(key, .obj [("$lt", .ofInt b)])]) = .ok (decide (a < b))
  /-- A filter asks for those that are no greater. -/
  lte : holds document (.obj [(key, .obj [("$lte", .ofInt b)])]) = .ok (decide (a ≤ b))

/-- A path that reaches an integer is tested on nothing else. -/
theorem candidates_of_ofInt (hread : document.reach segments = [.ofInt a]) :
    document.candidates segments = [.ofInt a] := by
  rw [Json.candidates, hread]
  rfl

theorem equalsAt_ofInt (hread : document.reach segments = [.ofInt a]) (b : Int) :
    equalsAt document segments (.ofInt b) = ((Number.int a).compare (.int b) == .eq) := by
  rw [equalsAt, candidates_of_ofInt hread]
  exact Bool.or_false _

theorem comparesAt_ofInt (hread : document.reach segments = [.ofInt a]) (accepts : Ordering → Bool)
    (b : Int) :
    comparesAt document segments accepts (.ofInt b) =
      accepts ((Number.int a).compare (.int b)) := by
  rw [comparesAt, candidates_of_ofInt hread]
  exact Bool.or_false _

/-- A filter of one comparison asks how the stored integer compares with its operand. -/
theorem holds_comparison {name : String} (accepts : Ordering → Bool)
    (hkey : Key.of key = .path segments) (hread : document.reach segments = [.ofInt a])
    (hword : isWord name = true) (hname : Operator.ofName? name ≠ some .elemMatch)
    (htest : ∀ options operand, testHolds document segments options name operand =
      .ok (comparesAt document segments accepts operand)) (b : Int) :
    holds document (.obj [(key, .obj [(name, .ofInt b)])]) =
      .ok (accepts ((Number.int a).compare (.int b))) := by
  rw [holds_operator hkey hword hname, htest, comparesAt_ofInt hread]

theorem beq_eq_compare_int (a b : Int) : (Ord.compare a b == .eq) = decide (a = b) := by
  rw [Bool.eq_iff_iff, beq_iff_eq, Int.compare_eq_eq, decide_eq_true_iff]

/-- **Where the order is that of integers, the filters are.** -/
theorem compares_of_order (hkey : Key.of key = .path segments)
    (hread : document.reach segments = [.ofInt a])
    (horder : (Number.int a).compare (.int b) = Ord.compare a b) : Compares document key a b where
  order := congrArg some horder
  eq := by
    rw [holds_operator hkey rfl (by decide), ← beq_eq_compare_int, ← horder, ← equalsAt_ofInt hread]
    rfl
  gt := by
    have hgt : (Ord.compare a b).isGT = decide (b < a) := by
      rw [Bool.eq_iff_iff, Ordering.isGT_iff_eq_gt, Int.compare_eq_gt, decide_eq_true_iff]
    rw [holds_comparison Ordering.isGT hkey hread rfl (by decide) fun _ _ => rfl, horder, hgt]
  gte := by
    have hge : (Ord.compare a b).isGE = decide (b ≤ a) := by
      rw [Bool.eq_iff_iff, Int.isGE_compare, decide_eq_true_iff]
    rw [holds_comparison Ordering.isGE hkey hread rfl (by decide) fun _ _ => rfl, horder, hge]
  lt := by
    have hlt : (Ord.compare a b).isLT = decide (a < b) := by
      rw [Bool.eq_iff_iff, Ordering.isLT_iff_eq_lt, Int.compare_eq_lt, decide_eq_true_iff]
    rw [holds_comparison Ordering.isLT hkey hread rfl (by decide) fun _ _ => rfl, horder, hlt]
  lte := by
    have hle : (Ord.compare a b).isLE = decide (a ≤ b) := by
      rw [Bool.eq_iff_iff, Int.isLE_compare, decide_eq_true_iff]
    rw [holds_comparison Ordering.isLE hkey hread rfl (by decide) fun _ _ => rfl, horder, hle]

/-- **The comparison is that of integers just where the two are told apart.** -/
theorem compares_iff_told (ha : Number.IsStored a) (hb : Number.IsStored b)
    (hkey : Key.of key = .path segments) (hread : document.reach segments = [.ofInt a]) :
    Compares document key a b ↔ Number.Told a b := by
  have hcompare := Number.compare_int ha hb
  constructor
  · intro h
    by_contra hnot
    rw [if_neg hnot] at hcompare
    have horder : (Number.int a).compare (.int b) = Ord.compare a b := Option.some.inj h.order
    have heq : a = b := Int.compare_eq_eq.mp (horder.symm.trans hcompare)
    exact hnot (.inr (.inl heq))
  · intro htold
    rw [if_pos htold] at hcompare
    exact compares_of_order hkey hread hcompare

/-- A stored integer is looked for among integers that it is told apart from. -/
theorem holds_in_ints {items : List Int} (ha : Number.IsStored a)
    (hitems : ∀ b ∈ items, Number.IsStored b ∧ Number.Told a b)
    (hkey : Key.of key = .path segments) (hread : document.reach segments = [.ofInt a]) :
    holds document (.obj [(key, .obj [("$in", .arr (items.map .ofInt))])]) =
      .ok (decide (a ∈ items)) := by
  have hequal : ∀ b ∈ items, equalsAt document segments (.ofInt b) = decide (a = b) := by
    intro b hb
    obtain ⟨hstored, htold⟩ := hitems b hb
    rw [equalsAt_ofInt hread, Number.compare_int ha hstored, if_pos htold, beq_eq_compare_int]
  have hany : (items.map Json.ofInt).any (equalsAt document segments) = decide (a ∈ items) := by
    rw [Bool.eq_iff_iff, decide_eq_true_iff, List.any_map, List.any_eq_true]
    constructor
    · rintro ⟨b, hb, h⟩
      have heq : a = b := of_decide_eq_true ((hequal b hb).symm.trans h)
      exact heq ▸ hb
    · intro hmem
      exact ⟨a, hmem, (hequal a hmem).trans (decide_eq_true rfl)⟩
  rw [holds_operator hkey rfl (by decide), ← hany]
  rfl

/-- **What filters tell of a stored integer.** They compare it with another one as integers
just where the two are told apart, and find it among others as an integer if it is told
apart from each of them. -/
theorem integers_compared (ha : Number.IsStored a) (hkey : Key.of key = .path segments)
    (hread : document.reach segments = [.ofInt a]) :
    (∀ b, Number.IsStored b → (Compares document key a b ↔ Number.Told a b)) ∧
      ∀ items : List Int, (∀ b ∈ items, Number.IsStored b ∧ Number.Told a b) →
        holds document (.obj [(key, .obj [("$in", .arr (items.map .ofInt))])]) =
          .ok (decide (a ∈ items)) :=
  ⟨fun _ hb => compares_iff_told ha hb hkey hread,
    fun _ hitems => holds_in_ints ha hitems hkey hread⟩

/-- A document with a serial number beyond the integers of 64 bits with a sign. -/
def serialDocument : Json := .obj [("serial", .ofInt (2 ^ 63 + 4096))]

/-- The number is greater than the first one that far, and it is found among others. -/
theorem integers_compared_serial :
    holds serialDocument (.obj [("serial", .obj [("$gt", .ofInt (2 ^ 63))])]) = .ok true ∧
      holds serialDocument (.obj [("serial", .obj [("$in",
        .arr ([7, 2 ^ 63 + 8192, 2 ^ 63 + 4096].map .ofInt))])]) = .ok true := by
  have hstored : Number.IsStored (2 ^ 63 + 4096) := by decide
  have hkey : Key.of "serial" = .path ["serial"] := rfl
  have hread : serialDocument.reach ["serial"] = [.ofInt (2 ^ 63 + 4096)] := rfl
  obtain ⟨hcompares, hfound⟩ := integers_compared hstored hkey hread
  have htold : Number.Told (2 ^ 63 + 4096) (2 ^ 63) := by decide +kernel
  refine ⟨((hcompares _ (by decide)).mpr htold).gt, hfound _ ?_⟩
  decide +kernel

/-- **A number can be taken for the next one**: the last integer of 64 bits with a sign and
the first that has none have one double. -/
theorem next_integer_taken :
    ¬ ∀ (document : Json) (key : String) (segments : List String) (a b : Int),
      Number.IsStored a → Number.IsStored b → Key.of key = .path segments →
      document.reach segments = [.ofInt a] → Compares document key a b := by
  intro h
  have hkey : Key.of "serial" = .path ["serial"] := rfl
  have hcompares := h (.obj [("serial", .ofInt (2 ^ 63 - 1))]) "serial" ["serial"] (2 ^ 63 - 1)
    (2 ^ 63) (by decide) (by decide) hkey rfl
  have hequal : (Json.ofInt (2 ^ 63 - 1)).compare? (.ofInt (2 ^ 63)) = some .eq := by
    decide +kernel
  exact absurd (hcompares.order.symm.trans hequal) (by decide)

end Filter

end ScopedDocs
