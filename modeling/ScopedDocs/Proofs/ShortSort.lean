import Mathlib.Data.List.Sort
import Mathlib.Order.Defs.LinearOrder
import ScopedDocs.Proofs.Permutation
/-!
# Short sorts — a few values in a stable order

The values are taken from a linear order, which is the one they come in, and compared by
another one (`Sorting.IsOrder`). A way to sort is stable if it answers every increasing
list with its values in order, equal ones as they came (`Sorting.Sorts`). So are insertion
(`Sorting.stable_insertAll`) and both ways to merge (`Sorting.stable_merge`,
`Sorting.stable_meet`): by an order, the merges from the two ends meet, because each of
them takes one end of the one merged list.
-/


namespace ScopedDocs

namespace Sorting

variable {ι : Type} {less : ι → ι → Bool}

/-! ## Orders -/

/-- **What values are compared by is an order.** -/
structure IsOrder (less : ι → ι → Bool) : Prop where
  /-- No value is less than one that is less. -/
  asymm : ∀ {i j}, less i j = true → less j i = false
  /-- What is at most a value is at most what that one is at most. -/
  trans : ∀ {i j k}, less j i = false → less k j = false → less k i = false

namespace IsOrder

variable (h : IsOrder less) {i j k : ι}

include h

theorem less_of_le_of_less (hij : less j i = false) (hjk : less j k = true) : less i k = true :=
  Bool.of_not_eq_false fun hki => absurd hjk (by simp [h.trans hki hij])

theorem less_of_less_of_le (hij : less i j = true) (hjk : less k j = false) : less i k = true :=
  Bool.of_not_eq_false fun hki => absurd hij (by simp [h.trans hjk hki])

end IsOrder

variable [LinearOrder ι]

/-- A value comes before another one: it is less, or no greater and the first of both. -/
def Comes (less : ι → ι → Bool) (i j : ι) : Prop :=
  less i j = true ∨ less j i = false ∧ i < j

theorem comes_of_lt {i j : ι} (hlt : i < j) (h : less j i = false) : Comes less i j :=
  .inr ⟨h, hlt⟩

theorem comes_of_less {i j : ι} (h : less i j = true) : Comes less i j := .inl h

namespace IsOrder

variable (h : IsOrder less) {i j k : ι}

include h

theorem not_less (hij : Comes less i j) : less j i = false := by
  rcases hij with hij | ⟨hij, -⟩
  · exact h.asymm hij
  · exact hij

theorem comes_trans (hij : Comes less i j) (hjk : Comes less j k) : Comes less i k := by
  rcases hij with hij | ⟨hij, hltij⟩
  · exact .inl (h.less_of_less_of_le hij (h.not_less hjk))
  · rcases hjk with hjk | ⟨hjk, hltjk⟩
    · exact .inl (h.less_of_le_of_less hij hjk)
    · exact .inr ⟨h.trans hij hjk, hltij.trans hltjk⟩

theorem comes_asymm (hij : Comes less i j) : ¬ Comes less j i := by
  rintro (hji | ⟨hji, hgt⟩)
  · exact absurd hji (by simp [h.not_less hij])
  · rcases hij with hij | ⟨-, hlt⟩
    · exact absurd hij (by simp [hji])
    · exact absurd hgt hlt.asymm

end IsOrder

/-- **Sorted**: the values of a list in order, equal ones as they come. -/
structure Stable (less : ι → ι → Bool) (input output : List ι) : Prop where
  /-- The values are the same. -/
  perm : output.Perm input
  /-- Each comes before those behind it. -/
  ordered : output.Pairwise (Comes less)

/-- **A way to sort**: it answers every increasing list, and with what is sorted. -/
def Sorts (less : ι → ι → Bool) (sort : List ι → Option (List ι)) : Prop :=
  ∀ input : List ι, input.Pairwise (· < ·) →
    ∃ output, sort input = some output ∧ Stable less input output

/-- There is one way to sort a list. -/
theorem Stable.unique (h : IsOrder less) {input output other : List ι}
    (ho : Stable less input output) (ho' : Stable less input other) : output = other :=
  List.Perm.eq_of_pairwise (fun _ _ _ _ hij hji => absurd hji (h.comes_asymm hij)) ho.ordered
    ho'.ordered (ho.perm.trans ho'.perm.symm)

theorem Stable.append {input output input' output' : List ι} (ho : Stable less input output)
    (ho' : Stable less input' output')
    (hcomes : ∀ i ∈ input, ∀ j ∈ input', Comes less i j) :
    Stable less (input ++ input') (output ++ output') :=
  ⟨ho.perm.append ho'.perm, List.pairwise_append.mpr ⟨ho.ordered, ho'.ordered,
    fun i hi j hj => hcomes i (ho.perm.mem_iff.mp hi) j (ho'.perm.mem_iff.mp hj)⟩⟩

/-! ## Insertion -/

/-- Inserting a value that comes later than all others keeps the descending order. -/
theorem pairwise_insertDescending (h : IsOrder less) {x : ι} {values : List ι}
    (hvalues : values.Pairwise fun i j => Comes less j i) (hx : ∀ y ∈ values, y < x) :
    (insertDescending less x values).Pairwise fun i j => Comes less j i := by
  induction values with
  | nil => exact List.pairwise_singleton _ x
  | cons y rest ih =>
    obtain ⟨hy, hrest⟩ := List.pairwise_cons.mp hvalues
    obtain ⟨hxy, hxrest⟩ := List.forall_mem_cons.mp hx
    rw [insertDescending]
    split
    · next hless =>
      refine List.pairwise_cons.mpr ⟨fun z hz => ?_, ih hrest hxrest⟩
      rcases List.mem_cons.mp ((perm_insertDescending less x rest).mem_iff.mp hz) with rfl | hz
      · exact comes_of_less hless
      · exact hy z hz
    · next hless =>
      -- the first one comes before the value, and the others before the first one
      have hcomes : Comes less y x := comes_of_lt hxy (by simpa using hless)
      refine List.pairwise_cons.mpr ⟨fun z hz => ?_, hvalues⟩
      rcases List.mem_cons.mp hz with rfl | hz
      · exact hcomes
      · exact h.comes_trans (hy z hz) hcomes

theorem stable_insertAll (h : IsOrder less) {input others sorted : List ι}
    (hinput : (input ++ others).Pairwise (· < ·)) (hs : Stable less input sorted) :
    Stable less (input ++ others) (insertAll less sorted others) := by
  refine ⟨(perm_insertAll less sorted others).trans (hs.perm.append_right others), ?_⟩
  -- what is in order so far is arbitrary, so that the induction goes along the others
  have hfold : ∀ others descending : List ι, others.Pairwise (· < ·) →
      (∀ y ∈ descending, ∀ x ∈ others, y < x) →
      (descending.Pairwise fun i j => Comes less j i) →
      (others.foldl (fun descending x => insertDescending less x descending) descending).Pairwise
        fun i j => Comes less j i := by
    intro others
    induction others with
    | nil => exact fun _ _ _ hdescending => hdescending
    | cons x rest ih =>
      intro descending hothers hlater hdescending
      obtain ⟨hx, hrest⟩ := List.pairwise_cons.mp hothers
      refine ih _ hrest (fun y hy z hz => ?_) (pairwise_insertDescending h hdescending
        fun y hy => hlater y hy x List.mem_cons_self)
      rcases List.mem_cons.mp ((perm_insertDescending less x descending).mem_iff.mp hy)
        with rfl | hy
      · exact hx z hz
      · exact hlater y hy z (List.mem_cons_of_mem _ hz)
  obtain ⟨-, hothers, hlater⟩ := List.pairwise_append.mp hinput
  refine List.pairwise_reverse.mpr (hfold others _ hothers (fun y hy => ?_)
    (List.pairwise_reverse.mpr hs.ordered))
  exact hlater y (hs.perm.mem_iff.mp (List.mem_reverse.mp hy))

/-! ## Pairs -/

theorem stable_pair (less : ι → ι → Bool) {i j : ι} (hlt : i < j) :
    Stable less [i, j] [(pair less i j).1, (pair less i j).2] := by
  refine ⟨perm_pair less i j, ?_⟩
  unfold pair
  split
  · next hless => simpa using comes_of_less hless
  · next hless => simpa using comes_of_lt hlt (by simpa using hless)

/-- Two pairs in order, the one before the other, make four values in order. -/
theorem pairwise_ofPairs (h : IsOrder less) {a b c d : ι} (hab : Comes less a b)
    (hcd : Comes less c d) (hac : a < c) (had : a < d) (hbc : b < c) (hbd : b < d) :
    (ofPairs less (a, b) (c, d)).Pairwise (Comes less) := by
  have hless {i j : ι} (hlt : i < j) : less j i = true ∧ Comes less j i ∨
      less j i = false ∧ Comes less i j := by
    cases hji : less j i with
    | true => exact .inl ⟨rfl, comes_of_less hji⟩
    | false => exact .inr ⟨rfl, comes_of_lt hlt hji⟩
  -- the two values in the middle come as they are, or are told apart by the last comparison
  rcases hless hac with ⟨hca, hfirst⟩ | ⟨hca, hfirst⟩ <;>
    rcases hless hbd with ⟨hdb, hlast⟩ | ⟨hdb, hlast⟩
  · have hcb := h.comes_trans hfirst hab
    rcases hless had with ⟨hda, hmiddle⟩ | ⟨hda, hmiddle⟩ <;>
      simp [ofPairs, hca, hdb, hda, hcd, hfirst, hcb, hmiddle, hlast, hab]
  · have hcb := h.comes_trans hfirst hab
    have had' := h.comes_trans hab hlast
    simp [ofPairs, hca, hdb, h.not_less hab, hfirst, hcb, hcd, hab, had', hlast]
  · have had' := h.comes_trans hfirst hcd
    have hcb := h.comes_trans hcd hlast
    simp [ofPairs, hca, hdb, h.not_less hcd, hfirst, had', hab, hcd, hcb, hlast]
  · have had' := h.comes_trans hfirst hcd
    rcases hless hbc with ⟨hcb, hmiddle⟩ | ⟨hcb, hmiddle⟩ <;>
      simp [ofPairs, hca, hdb, hcb, hfirst, hab, had', hmiddle, hcd, hlast]

theorem stable_four (h : IsOrder less) {v₀ v₁ v₂ v₃ : ι}
    (hinput : ([v₀, v₁] ++ [v₂, v₃]).Pairwise (· < ·)) :
    Stable less ([v₀, v₁] ++ [v₂, v₃]) (ofPairs less (pair less v₀ v₁) (pair less v₂ v₃)) := by
  obtain ⟨hfront, hback, hcross⟩ := List.pairwise_append.mp hinput
  have hp := stable_pair less (List.pairwise_pair.mp hfront)
  have hq := stable_pair less (List.pairwise_pair.mp hback)
  have hlt {x y : ι} (hx : x ∈ [(pair less v₀ v₁).1, (pair less v₀ v₁).2])
      (hy : y ∈ [(pair less v₂ v₃).1, (pair less v₂ v₃).2]) : x < y :=
    hcross x (hp.perm.mem_iff.mp hx) y (hq.perm.mem_iff.mp hy)
  have hpairs := pairwise_ofPairs h (List.pairwise_pair.mp hp.ordered)
    (List.pairwise_pair.mp hq.ordered) (hlt (by simp) (by simp)) (hlt (by simp) (by simp))
    (hlt (by simp) (by simp)) (hlt (by simp) (by simp))
  exact ⟨(perm_ofPairs less _ _).trans (hp.perm.append hq.perm), hpairs⟩

/-- One half of a list comes out in order. -/
theorem stable_half (h : IsOrder less) {input : List ι} (hinput : input.Pairwise (· < ·))
    (isLong : Bool) : Stable less input (half less isLong input) := by
  unfold half
  split
  · next v₀ v₁ v₂ v₃ rest =>
    have hsplit : ([v₀, v₁, v₂, v₃] ++ rest).Pairwise (· < ·) := hinput
    exact stable_insertAll h hsplit (stable_four h (List.pairwise_append.mp hsplit).1)
  · have hsplit : ([] ++ input).Pairwise (· < ·) := hinput
    exact stable_insertAll h hsplit ⟨.nil, .nil⟩

/-! ## Merging from one end -/

/-- Merging two lists in order by what tells which of two values comes first. -/
theorem pairwise_merge {α : Type} {r : α → α → Prop} {le : α → α → Bool} {xs ys : List α}
    (htrans : ∀ {i j k}, r i j → r j k → r i k)
    (hle : ∀ x ∈ xs, ∀ y ∈ ys, if le x y = true then r x y else r y x)
    (hxs : xs.Pairwise r) (hys : ys.Pairwise r) : (xs.merge ys le).Pairwise r := by
  induction xs generalizing ys with
  | nil => simpa using hys
  | cons x xs ihx =>
    induction ys with
    | nil => simpa using hxs
    | cons y ys ihy =>
      obtain ⟨hx, hxs'⟩ := List.pairwise_cons.mp hxs
      obtain ⟨hy, hys'⟩ := List.pairwise_cons.mp hys
      have hxy := hle x List.mem_cons_self y List.mem_cons_self
      rw [List.cons_merge_cons]
      split
      · next hfirst =>
        rw [if_pos hfirst] at hxy
        refine List.pairwise_cons.mpr ⟨fun z hz => ?_, ihx (fun x' hx' => hle x'
          (List.mem_cons_of_mem _ hx')) hxs' hys⟩
        rcases List.mem_merge.mp hz with hz | hz
        · exact hx z hz
        · rcases List.mem_cons.mp hz with rfl | hz
          · exact hxy
          · exact htrans hxy (hy z hz)
      · next hfirst =>
        rw [if_neg hfirst] at hxy
        refine List.pairwise_cons.mpr ⟨fun z hz => ?_, ihy (fun x' hx' y' hy' => hle x' hx' y'
          (List.mem_cons_of_mem _ hy')) hys'⟩
        rcases List.mem_merge.mp hz with hz | hz
        · rcases List.mem_cons.mp hz with rfl | hz
          · exact hxy
          · exact htrans hxy (hx z hz)
        · exact hy z hz

section

variable {before after left right : List ι}

/-- Merging from the front. -/
theorem stable_mergeUp (h : IsOrder less) (hinput : (before ++ after).Pairwise (· < ·))
    (hleft : Stable less before left) (hright : Stable less after right) :
    Stable less (before ++ after) (left.merge right fun x y => !less y x) := by
  refine ⟨(List.merge_perm_append _).trans (hleft.perm.append hright.perm),
    pairwise_merge h.comes_trans (fun x hx y hy => ?_) hleft.ordered hright.ordered⟩
  have hlt := (List.pairwise_append.mp hinput).2.2 x (hleft.perm.mem_iff.mp hx) y
    (hright.perm.mem_iff.mp hy)
  cases hless : less y x with
  | true => simpa using comes_of_less hless
  | false => simpa using comes_of_lt hlt hless

/-- Merging from the end. -/
theorem stable_mergeDown (h : IsOrder less) (hinput : (before ++ after).Pairwise (· < ·))
    (hleft : Stable less before left) (hright : Stable less after right) :
    Stable less (before ++ after)
      (right.reverse.merge left.reverse fun y x => !less y x).reverse := by
  refine ⟨(List.reverse_perm _).trans ((List.merge_perm_append _).trans ?_),
    List.pairwise_reverse.mpr (pairwise_merge (fun hij hjk => h.comes_trans hjk hij)
      (fun y hy x hx => ?_) (List.pairwise_reverse.mpr hright.ordered)
      (List.pairwise_reverse.mpr hleft.ordered))⟩
  · exact ((right.reverse_perm.append left.reverse_perm).trans List.perm_append_comm).trans
      (hleft.perm.append hright.perm)
  · have hlt := (List.pairwise_append.mp hinput).2.2 x
      (hleft.perm.mem_iff.mp (List.mem_reverse.mp hx)) y
      (hright.perm.mem_iff.mp (List.mem_reverse.mp hy))
    cases hless : less y x with
    | true => simpa using comes_of_less hless
    | false => simpa using comes_of_lt hlt hless

/-- **Merging is stable.** -/
theorem stable_merge (h : IsOrder less) (hinput : (before ++ after).Pairwise (· < ·))
    (hleft : Stable less before left) (hright : Stable less after right) :
    Stable less (before ++ after) (merge less left right) := by
  unfold merge
  split
  · exact stable_mergeUp h hinput hleft hright
  · exact stable_mergeDown h hinput hleft hright

end

/-! ## Merging from both ends -/

section

variable {α : Type}

/-- The values of a list, counted among some of its own and some of another's. -/
theorem countP_of_disjoint [DecidableEq α] {left right xs ys : List α} (h : left.Disjoint right)
    (hx : xs ⊆ left) (hy : ys ⊆ right) :
    xs.countP (· ∈ left) + ys.countP (· ∈ left) = xs.length := by
  have hxs : xs.countP (· ∈ left) = xs.length :=
    List.countP_eq_length.mpr fun x hxs => decide_eq_true (hx hxs)
  have hys : ys.countP (· ∈ left) = 0 :=
    List.countP_eq_zero.mpr fun y hys hyl => h (of_decide_eq_true hyl) (hy hys)
  rw [hxs, hys, Nat.add_zero]

/-- A merged list starts with values that the two lists start with. -/
theorem take_merge_of_le_one (le : α → α → Bool) (xs ys : List α) {count : Nat} (h : count ≤ 1) :
    ∃ a b, a ≤ xs.length ∧ b ≤ ys.length ∧
      (xs.merge ys le).take count = xs.take a ++ ys.take b := by
  obtain rfl | rfl : count = 0 ∨ count = 1 := by omega
  · exact ⟨0, 0, Nat.zero_le _, Nat.zero_le _, by simp⟩
  · cases xs with
    | nil => exact ⟨0, min 1 ys.length, Nat.zero_le _, by omega, by simp⟩
    | cons x xs =>
      cases ys with
      | nil => exact ⟨1, 0, by simp, Nat.zero_le _, by simp⟩
      | cons y ys =>
        rw [List.cons_merge_cons]
        split
        · exact ⟨1, 0, by simp, Nat.zero_le _, by simp⟩
        · exact ⟨0, 1, Nat.zero_le _, by simp, by simp⟩

/-- The two ends of a list, and what is between them. -/
theorem ends_append {values : List α} {size : Nat} (h : 2 * size ≤ values.length) :
    values.take size ++ (values.drop size).take (values.length - 2 * size) ++
      (values.reverse.take size).reverse = values := by
  have hend : (values.reverse.take size).reverse =
      (values.drop size).drop (values.length - 2 * size) := by
    rw [List.take_reverse, List.reverse_reverse, List.drop_drop]
    congr 1
    omega
  rw [hend, List.append_assoc, List.take_append_drop, List.take_append_drop]

/-- Where two ends of a merged list and what is between them make up all of it, so do their
values from each of the lists. The values of the one list are told from those of the other by
where they are. -/
theorem length_of_ends {le le' : α → α → Bool} {left right : List α} {size i j i' j' a b : Nat}
    (h : left.Disjoint right) (hij : i + j = size) (hij' : i' + j' = size)
    (hfront : (left.merge right le).drop size = (left.drop i).merge (right.drop j) le)
    (hback : (right.reverse.merge left.reverse le').drop size =
      (right.reverse.drop j').merge (left.reverse.drop i') le')
    (ha : a ≤ (left.drop i).length) (hb : b ≤ (right.drop j).length)
    (hsize : size ≤ left.length ∧ size ≤ right.length)
    (hends : (left.merge right le).take size ++ ((left.drop i).take a ++ (right.drop j).take b) ++
      ((right.reverse.merge left.reverse le').take size).reverse = left.merge right le) :
    i + a + i' = left.length ∧ j + b + j' = right.length := by
  classical
  have hfrontCount := (countP_drawn hfront (· ∈ left)).trans
    (countP_of_disjoint h (List.take_subset i left) (List.take_subset j right))
  have hbackCount := (countP_drawn hback (· ∈ left)).trans ((Nat.add_comm ..).trans
    (countP_of_disjoint h (fun x hx => List.mem_reverse.mp (List.mem_of_mem_take hx))
      fun y hy => List.mem_reverse.mp (List.mem_of_mem_take hy)))
  have hbetweenCount := countP_of_disjoint h
    (fun x (hx : x ∈ (left.drop i).take a) => List.mem_of_mem_drop (List.mem_of_mem_take hx))
    fun y (hy : y ∈ (right.drop j).take b) => List.mem_of_mem_drop (List.mem_of_mem_take hy)
  have hall := countP_of_disjoint h (List.Subset.refl left) (List.Subset.refl right)
  rw [← List.countP_append, ← (List.merge_perm_append le).countP_eq] at hall
  have hcount := congrArg (List.countP (· ∈ left)) hends
  simp only [List.countP_append, List.countP_reverse] at hcount
  simp only [List.length_take, List.length_reverse, List.length_drop]
    at hfrontCount hbackCount hbetweenCount ha hb
  have hleft : i + a + i' = left.length := by omega
  have hlength := congrArg List.length hends
  simp only [List.length_append, List.length_reverse, List.length_take, List.length_drop,
    List.length_merge] at hlength
  exact ⟨hleft, by omega⟩

end

/-- **Merging from both ends is stable**, and by an order the two ends meet: the one takes
from the first half what starts the merged list, and the other one what ends it. -/
theorem stable_meet (h : IsOrder less) {before after left right : List ι}
    (hinput : (before ++ after).Pairwise (· < ·)) (hleft : Stable less before left)
    (hright : Stable less after right)
    (hlength : right.length = left.length ∨ right.length = left.length + 1) :
    ∃ output, meet less left right = some output ∧ Stable less (before ++ after) output := by
  have hup := stable_mergeUp h hinput hleft hright
  have hsame := (stable_mergeDown h hinput hleft hright).unique h hup
  obtain ⟨i, j, i', j', hij, hij', hfront, hback, hmeet⟩ := meet_eq_some less hlength
  have hmerged := List.length_merge (fun x y => !less y x) left right
  have hends := ends_append (show 2 * left.length ≤
    (left.merge right fun x y => !less y x).length by omega)
  obtain ⟨a, b, ha, hb, hbetween⟩ := take_merge_of_le_one (fun x y => !less y x) (left.drop i)
    (right.drop j) (show (left.merge right fun x y => !less y x).length - 2 * left.length ≤ 1 by
      omega)
  have hdown : (left.merge right fun x y => !less y x).reverse =
      right.reverse.merge left.reverse fun y x => !less y x := by
    rw [← hsame, List.reverse_reverse]
  rw [hfront, hbetween, hdown] at hends
  have hapart : left.Disjoint right := fun x hxl hxr => lt_irrefl x
    ((List.pairwise_append.mp hinput).2.2 x (hleft.perm.mem_iff.mp hxl) x
      (hright.perm.mem_iff.mp hxr))
  obtain ⟨hparts, hparts'⟩ :=
    length_of_ends hapart hij hij' hfront hback ha hb (by omega) hends
  exact ⟨_, (hmeet _).mpr ⟨a, b, hparts, hparts', hends⟩, hup⟩

/-- **A short list is sorted.** -/
theorem sorts_small (h : IsOrder less) : Sorts less (small less) := by
  intro input hinput
  unfold small
  split
  · next hshort =>
    refine ⟨input, rfl, .rfl, ?_⟩
    match input, hshort with
    | [], _ => exact .nil
    | [x], _ => exact List.pairwise_singleton _ x
  · have hhalves : (input.take (input.length / 2) ++ input.drop (input.length / 2)).Pairwise
        (· < ·) := by rwa [List.take_append_drop]
    obtain ⟨hbefore, hafter, -⟩ := List.pairwise_append.mp hhalves
    have hleft := stable_half h hbefore (decide (8 ≤ input.length))
    have hright := stable_half h hafter (decide (8 ≤ input.length))
    have hlengths := hleft.perm.length_eq
    have hlengths' := hright.perm.length_eq
    rw [List.length_take] at hlengths
    rw [List.length_drop] at hlengths'
    have hmeet := stable_meet h hhalves hleft hright (by omega)
    rwa [List.take_append_drop] at hmeet

end Sorting

end ScopedDocs
