import ScopedDocs.Proofs.ShortSort
/-!
# Stable sorts — lists of any length

Each step of sorting a long list keeps what it holds: a run holds a part of the list, in
order or as it came (`Sorting.Run.Holds`), and so do two runs that are joined
(`Sorting.holds_join`) and all runs in the end (`Sorting.holds_weave`). Sorting by pivots
puts what is less than the pivot before the rest (`Sorting.sorts_quick`). So sorting by an
order answers every list, and is stable (`Sorting.sorts_sorted?`).
-/


namespace ScopedDocs

namespace Sorting

variable {ι : Type} [LinearOrder ι] {less : ι → ι → Bool}

theorem Stable.of_perm {input other output : List ι} (h : Stable less input output)
    (hperm : input.Perm other) : Stable less other output :=
  ⟨h.perm.trans hperm, h.ordered⟩

/-! ## Runs -/

/-- **What a run holds**: a part of the list, in order if it says so, else as it came. -/
def Run.Holds (less : ι → ι → Bool) (part : List ι) (run : Run ι) : Prop :=
  if run.isSorted then Stable less part run.values else run.values = part

theorem Run.Holds.length_eq {part : List ι} {run : Run ι} (h : run.Holds less part) :
    run.values.length = part.length := by
  unfold Holds at h
  split at h
  · exact h.perm.length_eq
  · rw [h]

/-- The first values that are as they should be, if what is next to one another is. -/
theorem pairwise_stretch (less : ι → ι → Bool) {r : ι → ι → Prop} {isFalling : Bool}
    (htrans : ∀ i j k, r i j → r j k → r i k)
    (hnext : ∀ i j, i < j → less j i = isFalling → r i j) {x : ι} {rest : List ι}
    (hinput : (x :: rest).Pairwise (· < ·)) :
    stretch less isFalling x rest ≤ rest.length ∧
      (x :: rest.take (stretch less isFalling x rest)).Pairwise r := by
  induction rest generalizing x with
  | nil => exact ⟨le_rfl, List.pairwise_singleton _ x⟩
  | cons y rest ih =>
    obtain ⟨hx, hrest⟩ := List.pairwise_cons.mp hinput
    obtain ⟨hle, hpairs⟩ := ih hrest
    rw [stretch]
    split
    · next hless =>
      have hxy := hnext x y (hx y List.mem_cons_self) hless
      refine ⟨Nat.succ_le_succ hle, ?_⟩
      rw [List.take_succ_cons]
      refine List.pairwise_cons.mpr ⟨List.forall_mem_cons.mpr ⟨hxy, fun z hz => ?_⟩, hpairs⟩
      exact htrans x y z hxy ((List.pairwise_cons.mp hpairs).1 z hz)
    · exact ⟨Nat.zero_le _, List.pairwise_singleton _ x⟩

/-- The run a list starts with is in order, the one way or the other. -/
theorem start_spec (h : IsOrder less) {input : List ι} (hinput : input.Pairwise (· < ·))
    (hne : input ≠ []) :
    0 < (start less input).1 ∧ (start less input).1 ≤ input.length ∧
      Stable less (input.take (start less input).1)
        (if (start less input).2 then (input.take (start less input).1).reverse
          else input.take (start less input).1) := by
  match input, hinput with
  | [], _ => exact absurd rfl hne
  | [x], _ => exact ⟨Nat.one_pos, le_rfl, .rfl, List.pairwise_singleton _ x⟩
  | x :: y :: rest, hinput =>
    rw [start]
    cases hless : less y x with
    | true =>
      obtain ⟨hle, hpairs⟩ := pairwise_stretch less (r := fun i j => Comes less j i)
        (fun _ _ _ hij hjk => h.comes_trans hjk hij) (fun _ _ _ => comes_of_less) hinput
      refine ⟨Nat.succ_pos _, Nat.succ_le_succ hle, List.reverse_perm _, ?_⟩
      exact List.pairwise_reverse.mpr hpairs
    | false =>
      obtain ⟨hle, hpairs⟩ := pairwise_stretch less (r := Comes less)
        (fun _ _ _ => h.comes_trans) (fun _ _ => comes_of_lt) hinput
      exact ⟨Nat.succ_pos _, Nat.succ_le_succ hle, .rfl, hpairs⟩

/-- The first run holds the first values. -/
theorem holds_firstRun (h : IsOrder less) {enough : Nat} (henough : 0 < enough) (isEager : Bool)
    {input : List ι} (hinput : input.Pairwise (· < ·)) (hne : input ≠ []) :
    ∃ run, firstRun less enough isEager input = some run ∧ 0 < run.values.length ∧
      run.Holds less (input.take run.values.length) := by
  have hpos := List.length_pos_iff.mpr hne
  have htake (count : Nat) : input.take (input.take count).length = input.take count := by
    rw [List.length_take, ← List.take_take, List.take_length]
  obtain ⟨hsize, hle, hstart⟩ := start_spec h hinput hne
  unfold firstRun
  simp only
  split
  · have hlength := hstart.perm.length_eq
    rw [List.length_take, Nat.min_eq_left hle] at hlength
    refine ⟨_, rfl, by rwa [hlength], ?_⟩
    simp only [Run.Holds, hlength, if_true]
    exact hstart
  · split
    · obtain ⟨output, hsmall, hstable⟩ := sorts_small h (input.take 32) (hinput.sublist
        (List.take_sublist 32 input))
      have hlength := hstable.perm.length_eq
      rw [hsmall]
      refine ⟨_, rfl, ?_, ?_⟩
      · simp only [hlength, List.length_take]
        omega
      · simp only [Run.Holds, hlength, htake, if_true]
        exact hstable
    · refine ⟨_, rfl, ?_, ?_⟩
      · simp only [List.length_take]
        omega
      · simp [Run.Holds]

/-- **The runs of a list** hold it, part by part. -/
theorem holds_runs (h : IsOrder less) {enough : Nat} (henough : 0 < enough) (isEager : Bool)
    (input : List ι) (hinput : input.Pairwise (· < ·)) :
    ∃ parts found, runs less enough isEager input = some found ∧
      List.Forall₂ (Run.Holds less) parts found ∧ parts.flatten = input := by
  match input with
  | [] => exact ⟨[], [], by rw [runs], .nil, rfl⟩
  | x :: rest =>
    obtain ⟨run, hrun, hpos, hholds⟩ := holds_firstRun h henough isEager hinput (by simp)
    obtain ⟨parts, found, hfound, hparts, hflatten⟩ :=
      holds_runs h henough isEager (rest.drop (run.values.length - 1))
        (hinput.tail.sublist (List.drop_sublist _ rest))
    refine ⟨_, _, ?_, hparts.cons hholds, ?_⟩
    · rw [runs, hrun]
      simp [hfound]
    · obtain ⟨size, hsize⟩ := Nat.exists_eq_succ_of_ne_zero hpos.ne'
      rw [List.flatten_cons, hflatten, hsize, List.take_succ_cons, Nat.succ_sub_one,
        List.cons_append, List.take_append_drop]
termination_by input.length
decreasing_by simp only [List.length_drop, List.length_cons]; omega

/-! ## Joining runs -/

section

variable {sort : List ι → Option (List ι)} {room : Nat}

theorem exists_settled (hsort : Sorts less sort) {part : List ι} {run : Run ι}
    (hpart : part.Pairwise (· < ·)) (h : run.Holds less part) :
    ∃ output, run.settled sort = some output ∧ Stable less part output := by
  unfold Run.Holds at h
  unfold Run.settled
  split at h
  · next hsorted => exact ⟨_, if_pos hsorted, h⟩
  · next hsorted =>
    rw [if_neg hsorted, h]
    exact hsort part hpart

/-- **Two runs that are joined** hold both parts. -/
theorem holds_join (h : IsOrder less) (hsort : Sorts less sort) {before after : List ι}
    {left right : Run ι} (hinput : (before ++ after).Pairwise (· < ·))
    (hleft : left.Holds less before) (hright : right.Holds less after) :
    ∃ run, join less sort room left right = some run ∧ run.Holds less (before ++ after) := by
  unfold join
  split
  · next hlater =>
    obtain ⟨-, hl, hr⟩ := hlater
    refine ⟨_, rfl, ?_⟩
    simp only [Run.Holds, hl, hr, Bool.false_eq_true, if_false] at hleft hright ⊢
    rw [hleft, hright]
  · obtain ⟨hbefore, hafter, -⟩ := List.pairwise_append.mp hinput
    obtain ⟨front, hfront, hstable⟩ := exists_settled hsort hbefore hleft
    obtain ⟨back, hback, hstable'⟩ := exists_settled hsort hafter hright
    rw [hfront, hback]
    refine ⟨_, rfl, ?_⟩
    simp only [Run.Holds, if_true]
    exact stable_merge h hinput hstable hstable'

/-- What a stack of runs holds, the last one first. -/
def Stacked (less : ι → ι → Bool) (parts : List (List ι)) (stack : List (Run ι × Nat)) : Prop :=
  List.Forall₂ (fun part entry => entry.1.Holds less part) parts stack

/-- Joining a run to some before it keeps what all of them hold. -/
theorem holds_collapse (h : IsOrder less) (hsort : Sorts less sort) (level : Nat)
    {parts : List (List ι)} {stack : List (Run ι × Nat)} (hstack : Stacked less parts stack)
    {part : List ι} {run : Run ι} (hrun : run.Holds less part)
    (hinput : (parts.reverse.flatten ++ part).Pairwise (· < ·)) :
    ∃ joined waiting parts' part', collapse less sort room level run stack =
        some (joined, waiting) ∧ Stacked less parts' waiting ∧ joined.Holds less part' ∧
      parts'.reverse.flatten ++ part' = parts.reverse.flatten ++ part ∧
      (level = 0 → parts' = []) := by
  induction hstack generalizing part run with
  | nil => exact ⟨run, [], [], part, rfl, .nil, hrun, rfl, fun _ => rfl⟩
  | @cons first entry parts stack hfirst hstack ih =>
    obtain ⟨left, deep⟩ := entry
    rw [List.reverse_cons, List.flatten_append, List.flatten_singleton, List.append_assoc]
      at hinput ⊢
    rw [collapse]
    split
    · obtain ⟨joined, hjoined, hholds⟩ :=
        holds_join h hsort (List.pairwise_append.mp hinput).2.1 hfirst hrun
      rw [hjoined]
      exact ih hholds hinput
    · next hdeep =>
      refine ⟨run, _, first :: parts, part, rfl, .cons hfirst hstack, hrun, ?_, fun hzero => ?_⟩
      · simp
      · exact absurd (hzero ▸ Nat.zero_le deep) hdeep

/-- **All runs in the end** are one that holds the list. -/
theorem holds_weave (h : IsOrder less) (hsort : Sorts less sort) (factor : Nat)
    {rest : List (List ι)} {following : List (Run ι)}
    (hrest : List.Forall₂ (Run.Holds less) rest following)
    {parts : List (List ι)} {stack : List (Run ι × Nat)} (hstack : Stacked less parts stack)
    {part : List ι} {run : Run ι} (hrun : run.Holds less part) (place : Nat)
    (hinput : (parts.reverse.flatten ++ part ++ rest.flatten).Pairwise (· < ·)) :
    ∃ whole, weave less sort room factor stack place run following = some whole ∧
      whole.Holds less (parts.reverse.flatten ++ part ++ rest.flatten) := by
  induction hrest generalizing parts stack part run place with
  | nil =>
    rw [List.flatten_nil, List.append_nil] at hinput ⊢
    obtain ⟨joined, waiting, parts', part', hcollapse, -, hholds, hall, hnone⟩ :=
      holds_collapse h hsort 0 hstack hrun hinput
    rw [hnone rfl] at hall
    rw [weave, hcollapse, ← hall]
    exact ⟨joined, rfl, hholds⟩
  | @cons next nextRun rest following hnext hrest ih =>
    rw [weave]
    obtain ⟨joined, waiting, parts', part', hcollapse, hwaiting, hholds, hall, -⟩ :=
      holds_collapse h hsort (depth factor (place - run.values.length) place
        (place + nextRun.values.length)) hstack hrun (List.pairwise_append.mp hinput).1
    have hsame : (part' :: parts').reverse.flatten ++ next ++ rest.flatten =
        parts.reverse.flatten ++ part ++ (next :: rest).flatten := by
      rw [← hall]
      simp
    rw [hcollapse, ← hsame]
    rw [← hsame] at hinput
    have hstacked : Stacked less (part' :: parts') ((joined, depth factor
        (place - run.values.length) place (place + nextRun.values.length)) :: waiting) :=
      .cons hholds hwaiting
    exact ih hstacked hnext _ hinput

/-- **Sorting by runs** sorts, if runs that are not in order can be sorted. -/
theorem sorts_drift (h : IsOrder less) (hsort : Sorts less sort) (isEager : Bool) :
    Sorts less (drift less sort room isEager) := by
  intro input hinput
  unfold drift
  cases input with
  | nil => exact ⟨[], by simp [runs], .rfl, .nil⟩
  | cons x rest =>
    obtain ⟨parts, found, hfound, hparts, hflatten⟩ :=
      holds_runs h (enough_pos (Nat.succ_pos rest.length)) isEager (x :: rest) hinput
    rw [List.length_cons, hfound, Option.bind_some]
    cases hparts with
    | nil => exact absurd hflatten (by simp)
    | @cons part run parts following hrun hparts =>
      rw [List.flatten_cons] at hflatten
      rw [← hflatten] at hinput ⊢
      obtain ⟨whole, hweave, hholds⟩ : ∃ whole, weave less sort room
          (scale (rest.length + 1)) [] run.values.length run following = some whole ∧
            whole.Holds less (part ++ parts.flatten) :=
        holds_weave h hsort _ hparts .nil hrun _ hinput
      obtain ⟨output, hsettled, hstable⟩ := exists_settled hsort hinput hholds
      exact ⟨output, by simp only [hweave, Option.bind_some, hsettled], hstable⟩

end

/-! ## Sorting by pivots -/

theorem median_cases (comes : Nat → Nat → Bool) (a b c : Nat) :
    median comes a b c = a ∨ median comes a b c = b ∨ median comes a b c = c := by
  unfold median
  split
  · split
    · exact .inr (.inl rfl)
    · exact .inr (.inr rfl)
  · exact .inl rfl

/-- The middle one of three places is within what is behind them. -/
theorem middle_lt (comes : Nat → Nat → Bool) {a b c size count : Nat} (hpos : 0 < size)
    (ha : a + size ≤ count) (hb : b + size ≤ count) (hc : c + size ≤ count) :
    middle comes a b c size < count := by
  rw [middle]
  split
  · have among {first : Nat} (hfirst : first + size ≤ count) :
        middle comes first (first + 4 * (size / 8)) (first + 7 * (size / 8)) (size / 8) < count :=
      middle_lt comes (by omega) (by omega) (by omega) (by omega)
    rcases median_cases comes _ _ _ with h | h | h
    · exact h ▸ among ha
    · exact h ▸ among hb
    · exact h ▸ among hc
  · rcases median_cases comes a b c with h | h | h <;> rw [h] <;> omega
termination_by size
decreasing_by omega

theorem pivot_lt {α : Type} (less : α → α → Bool) {input : List α} (h : 8 ≤ input.length) :
    pivot less input < input.length := by
  have hpart : input.length / 8 * 8 ≤ input.length := Nat.div_mul_le_self _ 8
  exact middle_lt _ (by omega) (by omega) (by omega) (by omega)

/-- A list falls into what comes before the rest of it, once both are sorted. -/
theorem stable_filter {input front back : List ι} {p : ι → Bool}
    (hfront : Stable less (input.filter p) front)
    (hback : Stable less (input.filter fun x => !p x) back)
    (hcomes : ∀ i j, p i = true → p j = false → Comes less i j) :
    Stable less input (front ++ back) := by
  refine (hfront.append hback fun i hi j hj => ?_).of_perm (List.filter_append_perm p input)
  exact hcomes i j (List.mem_filter.mp hi).2 (by simpa using (List.mem_filter.mp hj).2)

/-- **One pivot**: by an order it is one of those that are not less than it, and one of those
equal to it, so that a long list is sorted by what its values are compared to the pivot. -/
theorem exists_pivot {α : Type} {less : α → α → Bool} (h : IsOrder less)
    (fallback : List α → Option (List α)) (limit : Nat) (ancestor : Option α) {input : List α}
    (hlong : ¬ input.length ≤ 32) :
    ∃ x, quick less fallback (limit + 1) ancestor input =
      if (input.filter (less · x)).isEmpty || ancestor.any (!less · x) then
        (quick less fallback limit none (input.filter (less x ·))).map
          (input.filter (!less x ·) ++ ·)
      else
        (quick less fallback limit (some x) (input.filter (!less · x))).bind fun back =>
          (quick less fallback limit ancestor (input.filter (less · x))).bind fun front =>
            some (front ++ back) := by
  have hpivot := pivot_lt less (show 8 ≤ input.length by omega)
  obtain ⟨x, after, hx⟩ : ∃ x after, input.drop (pivot less input) = x :: after :=
    List.exists_cons_of_length_pos (by rw [List.length_drop]; omega)
  have hsplit : input.take (pivot less input) ++ x :: after = input := by
    rw [← hx, List.take_append_drop]
  have hself : less x x = false := by
    cases hxx : less x x with
    | true => exact hxx.symm.trans (h.asymm hxx)
    | false => rfl
  refine ⟨x, ?_⟩
  rw [quick, if_neg hlong]
  generalize input.take (pivot less input) = before at hsplit
  simp only [hx]
  simp [← hsplit, hself]

/-- Values equal to one that none is less than are in order as they come. -/
theorem stable_equal (h : IsOrder less) {input : List ι} {x : ι}
    (hinput : input.Pairwise (· < ·)) (hnone : ∀ y ∈ input, less y x = false) :
    Stable less (input.filter (!less x ·)) (input.filter (!less x ·)) := by
  refine ⟨.rfl, (hinput.filter _).imp_of_mem fun hi hj hlt => comes_of_lt hlt ?_⟩
  rw [List.mem_filter, Bool.not_eq_true'] at hi hj
  exact h.trans hi.2 (hnone _ hj.1)

/-- **Sorting by pivots sorts.** What is sorted behind a pivot has no value less than it. -/
theorem stable_quick (h : IsOrder less) {fallback : List ι → Option (List ι)}
    (hfallback : Sorts less fallback) (limit : Nat) (ancestor : Option ι) (input : List ι)
    (hinput : input.Pairwise (· < ·))
    (hancestor : ∀ a ∈ ancestor, ∀ x ∈ input, less x a = false) :
    ∃ output, quick less fallback limit ancestor input = some output ∧
      Stable less input output := by
  induction limit generalizing ancestor input with
  | zero =>
    rw [quick]
    split
    · exact sorts_small h input hinput
    · exact hfallback input hinput
  | succ limit ih =>
    by_cases hlong : input.length ≤ 32
    · rw [quick, if_pos hlong]
      exact sorts_small h input hinput
    · obtain ⟨x, hx⟩ := exists_pivot h fallback limit ancestor hlong
      rw [hx]
      split
      · next hleast =>
        have hnone : ∀ y ∈ input, less y x = false := by
          rcases Bool.or_eq_true_iff.mp hleast with hempty | hequal
          · simpa using hempty
          · obtain ⟨a, rfl, ha⟩ := (Option.any_eq_true _ _).mp hequal
            exact fun y hy => h.trans (by simpa using ha) (hancestor a rfl y hy)
        obtain ⟨back, hback, hstable⟩ := ih none (input.filter (less x ·))
          (hinput.filter _) (by simp)
        rw [hback]
        refine ⟨_, rfl, stable_filter (stable_equal h hinput hnone) (by simpa using hstable)
          fun i j hi hj => ?_⟩
        exact comes_of_less (h.less_of_le_of_less (by simpa using hi) (by simpa using hj))
      · obtain ⟨back, hback, hstable⟩ := ih (some x) (input.filter (!less · x))
          (hinput.filter _) (by simp)
        obtain ⟨front, hfront, hstable'⟩ := ih ancestor (input.filter (less · x))
          (hinput.filter _) fun a ha y hy => hancestor a ha y (List.mem_of_mem_filter hy)
        rw [hback, hfront]
        exact ⟨_, rfl, stable_filter hstable' hstable fun i j hi hj =>
          comes_of_less (h.less_of_less_of_le hi hj)⟩

/-- **Sorting by an order** answers every list, and is stable. -/
theorem sorts_sorted? (h : IsOrder less) : Sorts less (sorted? less) := by
  intro input hinput
  unfold sorted?
  dsimp only
  split
  · have hsplit : ([] ++ input).Pairwise (· < ·) := hinput
    exact ⟨_, rfl, stable_insertAll h hsplit ⟨.nil, .nil⟩⟩
  · refine sorts_drift h (fun values hvalues => ?_) _ input hinput
    exact stable_quick h (sorts_drift h (sorts_small h) true) _ none values hvalues (by simp)

end Sorting

end ScopedDocs
