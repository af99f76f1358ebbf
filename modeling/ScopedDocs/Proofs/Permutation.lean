import Mathlib.Data.List.Basic
import ScopedDocs.Sorting.Basic
/-!
# Permutations — what sorting answers

Whatever values are compared by, sorting neither adds nor leaves out a value where it
answers (`Sorting.perm_sorted?`). A merge from both ends answers only if its ends have met
in both lists, and so have taken each value once (`Sorting.perm_meet`).
-/


namespace ScopedDocs

namespace Sorting

variable {α : Type} {less : α → α → Bool}

/-! ## Short lists -/

theorem perm_insertDescending (less : α → α → Bool) (x : α) (values : List α) :
    (insertDescending less x values).Perm (x :: values) := by
  induction values with
  | nil => rfl
  | cons y rest ih =>
    rw [insertDescending]
    split
    · exact (ih.cons y).trans (List.Perm.swap x y rest)
    · rfl

theorem perm_insertAll (less : α → α → Bool) (sorted values : List α) :
    (insertAll less sorted values).Perm (sorted ++ values) := by
  -- what is in order so far is arbitrary, so that the induction goes along the values
  have hfold : ∀ values descending : List α,
      (values.foldl (fun descending x => insertDescending less x descending) descending).Perm
        (descending ++ values) := by
    intro values
    induction values with
    | nil => exact fun descending => by rw [List.append_nil, List.foldl_nil]
    | cons x rest ih =>
      intro descending
      have hinserted := (perm_insertDescending less x descending).append_right rest
      exact (ih _).trans (hinserted.trans List.perm_middle.symm)
  exact (List.reverse_perm _).trans ((hfold values _).trans ((List.reverse_perm _).append_right _))

theorem perm_pair (less : α → α → Bool) (x y : α) :
    [(pair less x y).1, (pair less x y).2].Perm [x, y] := by
  unfold pair
  split
  · exact .swap ..
  · rfl

theorem perm_ofPairs (less : α → α → Bool) (p q : α × α) :
    (ofPairs less p q).Perm [p.1, p.2, q.1, q.2] := by
  classical
  unfold ofPairs
  cases less q.1 p.1 <;> cases less q.2 p.2 <;>
    simp only [if_true, Bool.false_eq_true, if_false] <;> split <;> grind

theorem perm_half (less : α → α → Bool) (isLong : Bool) (values : List α) :
    (half less isLong values).Perm values := by
  unfold half
  split
  · next v₀ v₁ v₂ v₃ rest =>
    have hpairs := (perm_pair less v₀ v₁).append (perm_pair less v₂ v₃)
    exact (perm_insertAll less _ rest).trans
      (((perm_ofPairs less _ _).trans hpairs).append_right rest)
  · exact perm_insertAll less [] values

/-! ## Merging from both ends -/

/-- What is drawn from two lists starts the merged list, and what is left of them ends it. -/
theorem draw_eq (less : α → α → Bool) {count : Nat} {xs ys : List α}
    (hx : count ≤ xs.length) (hy : count ≤ ys.length) :
    ∃ i j, i + j = count ∧
      draw less count xs ys =
        ((xs.merge ys fun x y => !less y x).take count, xs.drop i, ys.drop j) ∧
      (xs.merge ys fun x y => !less y x).drop count =
        (xs.drop i).merge (ys.drop j) fun x y => !less y x := by
  induction count generalizing xs ys with
  | zero => exact ⟨0, 0, rfl, by simp [draw], rfl⟩
  | succ count ih =>
    obtain ⟨x, xs, rfl⟩ := List.exists_cons_of_length_pos (Nat.lt_of_lt_of_le count.succ_pos hx)
    obtain ⟨y, ys, rfl⟩ := List.exists_cons_of_length_pos (Nat.lt_of_lt_of_le count.succ_pos hy)
    rw [List.length_cons] at hx hy
    rw [draw, List.cons_merge_cons]
    cases hless : less y x with
    | true =>
      have hxs : count ≤ (x :: xs).length := by rw [List.length_cons]; omega
      obtain ⟨i, j, hcount, hdraw, hdrop⟩ := ih hxs (Nat.le_of_succ_le_succ hy)
      exact ⟨i, j + 1, by omega, by simp [hdraw], by simpa using hdrop⟩
    | false =>
      have hys : count ≤ (y :: ys).length := by rw [List.length_cons]; omega
      obtain ⟨i, j, hcount, hdraw, hdrop⟩ := ih (Nat.le_of_succ_le_succ hx) hys
      exact ⟨i + 1, j, by omega, by simp [hdraw], by simpa using hdrop⟩

/-- What is counted before and behind a place is counted in all. -/
theorem countP_take_add_drop (p : α → Bool) (values : List α) (i : Nat) :
    (values.take i).countP p + (values.drop i).countP p = values.countP p := by
  rw [← List.countP_append, List.take_append_drop]

/-- What is drawn is what is taken off the two lists. -/
theorem countP_drawn {le : α → α → Bool} {xs ys : List α} {count i j : Nat}
    (h : (xs.merge ys le).drop count = (xs.drop i).merge (ys.drop j) le) (p : α → Bool) :
    ((xs.merge ys le).take count).countP p = (xs.take i).countP p + (ys.take j).countP p := by
  have hmerge (left right : List α) :
      (left.merge right le).countP p = left.countP p + right.countP p := by
    rw [(List.merge_perm_append le).countP_eq, List.countP_append]
  have hall := countP_take_add_drop p (xs.merge ys le) count
  have hxs := countP_take_add_drop p xs i
  have hys := countP_take_add_drop p ys j
  rw [h, hmerge, hmerge] at hall
  omega

/-- **Merging from both ends.** So many values come from the front of each list and so many
from its end. The merge answers if that leaves none of them, or the one in between, and the
answer is what has been drawn from the fronts, that one, and what has been drawn from the
ends. -/
theorem meet_eq_some (less : α → α → Bool) {left right : List α}
    (hlength : right.length = left.length ∨ right.length = left.length + 1) :
    ∃ i j i' j', i + j = left.length ∧ i' + j' = left.length ∧
      ((left.merge right fun x y => !less y x).drop left.length =
        (left.drop i).merge (right.drop j) fun x y => !less y x) ∧
      ((right.reverse.merge left.reverse fun y x => !less y x).drop left.length =
        (right.reverse.drop j').merge (left.reverse.drop i') fun y x => !less y x) ∧
      ∀ output, meet less left right = some output ↔
        ∃ a b, i + a + i' = left.length ∧ j + b + j' = right.length ∧
          (left.merge right fun x y => !less y x).take left.length ++
            ((left.drop i).take a ++ (right.drop j).take b) ++
            ((right.reverse.merge left.reverse fun y x => !less y x).take left.length).reverse =
              output := by
  have hfront : left.length ≤ right.length := by omega
  obtain ⟨i, j, hij, hdraw, hdrop⟩ := draw_eq less (Nat.le_refl _) hfront
  have hback : left.length ≤ right.reverse.length := by rwa [List.length_reverse]
  have hback' : left.length ≤ left.reverse.length := Nat.le_of_eq List.length_reverse.symm
  obtain ⟨j', i', hij', hdraw', hdrop'⟩ := draw_eq (fun x y => less y x) hback hback'
  refine ⟨i, j, i', j', hij, by omega, hdrop, hdrop', fun output => ?_⟩
  have hstart : left.length - (left.drop i).length = i := by rw [List.length_drop]; omega
  have hbelow : (left.reverse.drop i').length = left.length - i' := by simp
  simp only [meet, hdraw, hdraw', hstart, hbelow]
  constructor
  · intro h
    split at h
    · obtain ⟨hmeet, h⟩ := Option.ite_none_right_eq_some.mp h
      exact ⟨0, 0, by omega, by omega, by simpa using Option.some.inj h⟩
    · split at h
      · obtain ⟨hmeet, h⟩ := Option.ite_none_right_eq_some.mp h
        exact ⟨1, 0, by omega, by omega, by simpa using Option.some.inj h⟩
      · obtain ⟨hmeet, h⟩ := Option.ite_none_right_eq_some.mp h
        exact ⟨0, 1, by omega, by omega, by simpa using Option.some.inj h⟩
  · rintro ⟨a, b, ha, hb, rfl⟩
    rcases hlength with hlength | hlength
    · obtain ⟨rfl, rfl⟩ : a = 0 ∧ b = 0 := by omega
      rw [if_pos hlength, if_pos (by omega)]
      simp
    · rw [if_neg (by omega)]
      obtain ⟨rfl, rfl⟩ | ⟨rfl, rfl⟩ : a = 1 ∧ b = 0 ∨ a = 0 ∧ b = 1 := by omega
      · rw [if_pos (by omega), if_pos (by omega)]
        simp
      · rw [if_neg (by omega), if_pos (by omega)]
        simp

/-- **Where the two ends meet**, each value has been taken once. -/
theorem perm_meet {left right output : List α}
    (hlength : right.length = left.length ∨ right.length = left.length + 1)
    (h : meet less left right = some output) : output.Perm (left ++ right) := by
  classical
  obtain ⟨i, j, i', j', -, -, hfront, hback, hmeet⟩ := meet_eq_some less hlength
  obtain ⟨a, b, ha, hb, rfl⟩ := (hmeet output).mp h
  refine List.perm_iff_count.mpr fun x => ?_
  simp only [List.count, List.countP_append, List.countP_reverse]
  have hfrontCount := countP_drawn hfront (· == x)
  have hbackCount := countP_drawn hback (· == x)
  rw [List.take_reverse, List.take_reverse, List.countP_reverse, List.countP_reverse]
    at hbackCount
  -- a list is what is taken from its front, what is in between, and what is taken from its end
  have hparts (values : List α) (k m k' : Nat) (hk : k + m + k' = values.length) :
      (values.take k).countP (· == x) + ((values.drop k).take m).countP (· == x) +
        (values.drop (values.length - k')).countP (· == x) = values.countP (· == x) := by
    have hrest := countP_take_add_drop (· == x) (values.drop k) m
    have hall := countP_take_add_drop (· == x) values k
    rw [List.drop_drop, show k + m = values.length - k' by omega] at hrest
    omega
  have hleft := hparts left i a i' ha
  have hright := hparts right j b j' hb
  omega

/-- **A way to sort that loses nothing**: what it answers are the values it was given. -/
def Permutes (sort : List α → Option (List α)) : Prop :=
  ∀ values output, sort values = some output → output.Perm values

theorem permutes_small (less : α → α → Bool) : Permutes (small less) := by
  intro values output h
  unfold small at h
  split at h
  · rw [← Option.some.inj h]
  · have hfront := perm_half less (decide (8 ≤ values.length)) (values.take (values.length / 2))
    have hback := perm_half less (decide (8 ≤ values.length)) (values.drop (values.length / 2))
    have hlengths := hfront.length_eq
    have hlengths' := hback.length_eq
    rw [List.length_take] at hlengths
    rw [List.length_drop] at hlengths'
    have hperm := (perm_meet (by omega) h).trans (hfront.append hback)
    rwa [List.take_append_drop] at hperm

/-! ## Runs -/

theorem length_start (less : α → α → Bool) {values : List α} (h : values ≠ []) :
    0 < (start less values).1 := by
  unfold start
  split
  · exact Nat.succ_pos _
  · exact List.length_pos_iff.mpr h

theorem enough_pos {size : Nat} (h : 0 < size) : 0 < enough size := by
  unfold enough
  split
  · omega
  · next hlong =>
    have hlog : 1 ≤ size.log2 := (Nat.le_log2 (by omega)).mpr (by omega)
    have htwo : Nat.pow 2 1 ≤ Nat.pow 2 ((1 + size.log2) / 2) :=
      Nat.pow_le_pow_right (by omega) (by omega)
    change 2 ≤ _ at htwo
    dsimp only
    generalize Nat.pow 2 ((1 + size.log2) / 2) = part at htwo
    have hsum := Nat.le_add_right part (size / part)
    omega

/-- The first run has the first values. -/
theorem perm_firstRun {enough : Nat} {isEager : Bool} {values : List α} {run : Run α}
    (henough : 0 < enough) (hne : values ≠ [])
    (h : firstRun less enough isEager values = some run) :
    0 < run.values.length ∧ run.values.Perm (values.take run.values.length) := by
  have hpos := List.length_pos_iff.mpr hne
  -- as many values as a run has are the first so many, or all
  have htake {count : Nat} {output : List α} (hcount : 0 < count)
      (hperm : output.Perm (values.take count)) :
      0 < output.length ∧ output.Perm (values.take output.length) := by
    have hlength := hperm.length_eq
    rw [List.length_take] at hlength
    refine ⟨by omega, ?_⟩
    rwa [hlength, ← List.take_take, List.take_length]
  unfold firstRun at h
  dsimp only at h
  split at h
  · rw [← Option.some.inj h]
    refine htake (length_start less hne) ?_
    split
    · exact List.reverse_perm _
    · rfl
  · split at h
    · obtain ⟨output, houtput, rfl⟩ := Option.map_eq_some_iff.mp h
      exact htake (by decide) (permutes_small less _ _ houtput)
    · rw [← Option.some.inj h]
      exact htake henough .rfl

theorem perm_runs {enough : Nat} {isEager : Bool} (henough : 0 < enough) (values : List α)
    {found : List (Run α)} (h : runs less enough isEager values = some found) :
    (found.map Run.values).flatten.Perm values := by
  match values with
  | [] =>
    rw [runs] at h
    rw [← Option.some.inj h]
    rfl
  | x :: rest =>
    rw [runs] at h
    obtain ⟨run, hrun, h⟩ := Option.bind_eq_some_iff.mp h
    obtain ⟨others, hothers, h⟩ := Option.bind_eq_some_iff.mp h
    obtain ⟨hpos, hperm⟩ := perm_firstRun henough (List.cons_ne_nil x rest) hrun
    have hrest := perm_runs henough _ hothers
    obtain ⟨size, hsize⟩ := Nat.exists_eq_succ_of_ne_zero (Nat.pos_iff_ne_zero.mp hpos)
    rw [hsize, List.take_succ_cons] at hperm
    rw [hsize, Nat.succ_sub_one] at hrest
    have hall := hperm.append hrest
    rw [List.cons_append, List.take_append_drop] at hall
    rw [← Option.some.inj h]
    exact hall
termination_by values.length
decreasing_by simp only [List.length_drop, List.length_cons]; omega

/-! ## Merging -/

theorem perm_merge (less : α → α → Bool) (left right : List α) :
    (merge less left right).Perm (left ++ right) := by
  unfold merge
  split
  · exact List.merge_perm_append _
  · refine (List.reverse_perm _).trans ((List.merge_perm_append _).trans ?_)
    exact ((List.reverse_perm _).append (List.reverse_perm _)).trans List.perm_append_comm

section

variable {sort : List α → Option (List α)} {room : Nat} (hsort : Permutes sort)

include hsort

theorem perm_settled {run : Run α} {output : List α} (h : run.settled sort = some output) :
    output.Perm run.values := by
  unfold Run.settled at h
  split at h
  · rw [← Option.some.inj h]
  · exact hsort _ _ h

theorem perm_join {left right joined : Run α} (h : join less sort room left right = some joined) :
    joined.values.Perm (left.values ++ right.values) := by
  unfold join at h
  split at h
  · rw [← Option.some.inj h]
  · obtain ⟨front, hfront, h⟩ := Option.bind_eq_some_iff.mp h
    obtain ⟨back, hback, h⟩ := Option.bind_eq_some_iff.mp h
    rw [← Option.some.inj h]
    exact (perm_merge less front back).trans
      ((perm_settled hsort hfront).append (perm_settled hsort hback))

/-- The values of the runs of a stack. -/
theorem perm_collapse {level : Nat} {run joined : Run α} {stack waiting : List (Run α × Nat)}
    (h : collapse less sort room level run stack = some (joined, waiting)) :
    (level = 0 → waiting = []) ∧
      (joined.values ++ waiting.flatMap fun entry => entry.1.values).Perm
        (run.values ++ stack.flatMap fun entry => entry.1.values) := by
  induction stack generalizing run with
  | nil =>
    obtain ⟨rfl, rfl⟩ := Prod.mk.inj (Option.some.inj h)
    exact ⟨fun _ => rfl, .rfl⟩
  | cons entry stack ih =>
    obtain ⟨left, deep⟩ := entry
    rw [collapse] at h
    split at h
    · obtain ⟨between, hbetween, h⟩ := Option.bind_eq_some_iff.mp h
      refine ⟨(ih h).1, (ih h).2.trans ?_⟩
      rw [List.flatMap_cons, ← List.append_assoc]
      exact ((perm_join hsort hbetween).trans List.perm_append_comm).append_right _
    · next hdeep =>
      obtain ⟨rfl, rfl⟩ := Prod.mk.inj (Option.some.inj h)
      exact ⟨fun hzero => absurd (hzero ▸ Nat.zero_le deep) hdeep, .rfl⟩

theorem perm_weave {factor place : Nat} {stack : List (Run α × Nat)} {run whole : Run α}
    {following : List (Run α)}
    (h : weave less sort room factor stack place run following = some whole) :
    whole.values.Perm (run.values ++ (stack.flatMap fun entry => entry.1.values) ++
      (following.map Run.values).flatten) := by
  induction following generalizing stack place run with
  | nil =>
    obtain ⟨⟨joined, waiting⟩, hcollapse, rfl⟩ := Option.map_eq_some_iff.mp h
    obtain ⟨hnone, hperm⟩ := perm_collapse hsort hcollapse
    obtain rfl := hnone rfl
    simpa using hperm
  | cons next following ih =>
    rw [weave] at h
    obtain ⟨⟨joined, waiting⟩, hcollapse, h⟩ := Option.bind_eq_some_iff.mp h
    have hstack := (perm_collapse hsort hcollapse).2
    rw [List.map_cons, List.flatten_cons, ← List.append_assoc]
    exact (ih h).trans
      (((hstack.append_left next.values).trans List.perm_append_comm).append_right _)

theorem permutes_drift (less : α → α → Bool) (room : Nat) (isEager : Bool) :
    Permutes (drift less sort room isEager) := by
  intro values output h
  obtain ⟨found, hfound, h⟩ := Option.bind_eq_some_iff.mp h
  cases values with
  | nil =>
    rw [runs] at hfound
    rw [← Option.some.inj hfound] at h
    rw [← Option.some.inj h]
  | cons x rest =>
    have hall := perm_runs (enough_pos (Nat.succ_pos rest.length)) _ hfound
    cases found with
    | nil => exact absurd hall.length_eq (by simp)
    | cons run following =>
      obtain ⟨whole, hweave, h⟩ := Option.bind_eq_some_iff.mp h
      refine ((perm_settled hsort h).trans (perm_weave hsort hweave)).trans ?_
      simpa using hall

end

/-! ## Pivots -/

/-- A pivot stays with those that pass a test, or fail it. -/
theorem perm_around (before after : List α) (x : α) (p : α → Bool) :
    ((before.filter p ++ x :: after.filter p) ++ (before ++ after).filter fun y => !p y).Perm
      (before ++ x :: after) := by
  have hbefore := List.filter_append_perm p before
  have hafter := List.filter_append_perm p after
  rw [List.filter_append]
  classical
  refine List.perm_iff_count.mpr fun a => ?_
  have hb := hbefore.count_eq a
  have ha := hafter.count_eq a
  simp only [List.count_append, List.count_cons] at *
  omega

theorem permutes_quick {fallback : List α → Option (List α)} (hfallback : Permutes fallback)
    (limit : Nat) (ancestor : Option α) : Permutes (quick less fallback limit ancestor) := by
  induction limit generalizing ancestor with
  | zero =>
    intro values output h
    rw [quick] at h
    split at h
    · exact permutes_small less _ _ h
    · exact hfallback _ _ h
  | succ limit ih =>
    intro values output h
    rw [quick] at h
    split at h
    · exact permutes_small less _ _ h
    · dsimp only at h
      split at h
      · exact absurd h (by simp)
      · next x after hx =>
        have hsplit := List.take_append_drop (pivot less values) values
        rw [hx] at hsplit
        generalize values.take (pivot less values) = before at h hsplit
        rw [← hsplit]
        split at h
        · obtain ⟨above, habove, rfl⟩ := Option.map_eq_some_iff.mp h
          have haround := perm_around before after x fun y => !less x y
          simp only [Bool.not_not] at haround
          exact ((ih none _ _ habove).append_left _).trans haround
        · obtain ⟨back, hback, h⟩ := Option.bind_eq_some_iff.mp h
          obtain ⟨front, hfront, h⟩ := Option.bind_eq_some_iff.mp h
          have haround := perm_around before after x fun y => !less y x
          simp only [Bool.not_not] at haround
          rw [← Option.some.inj h]
          exact (((ih ancestor _ _ hfront).append (ih (some x) _ _ hback)).trans
            List.perm_append_comm).trans haround

/-! ## Sorting -/

/-- **Sorting loses nothing**: what it answers are the values it was given. -/
theorem perm_sorted? (less : α → α → Bool) : Permutes (sorted? less) := by
  intro values output h
  unfold sorted? at h
  dsimp only at h
  split at h
  · rw [← Option.some.inj h]
    exact perm_insertAll less [] values
  · refine permutes_drift (fun between => ?_) less _ _ _ _ h
    exact permutes_quick (permutes_drift (permutes_small less) less _ true) _ none between

end Sorting

end ScopedDocs
