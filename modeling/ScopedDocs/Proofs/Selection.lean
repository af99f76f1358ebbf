import ScopedDocs.Proofs.Filter
import ScopedDocs.Store.Collection
import ScopedDocs.Store.Rows
/-!
# Selection — what a filter takes from a list of documents

The operations of a store try a filter on one document after the other. Where the
filter is total they are those of a test on lists (`Rows.select_of_total`,
`Collection.split?_of_total`). Where it is confined, the documents outside change
nothing of what is selected, counted or found first (`Rows.select_confined`,
`Collection.count_confined`, `Collection.split?_confined`).
-/


namespace ScopedDocs

variable {condition : Json} {test : Json → Bool}

/-! ## Selecting and counting -/

namespace Rows

/-- What is selected goes in front of what was gathered before. -/
theorem filterAuxM_append (tries : Json → Except Error Bool) (documents gathered : List Json) :
    documents.filterAuxM tries gathered =
      (documents.filterAuxM tries []).map (· ++ gathered) := by
  induction documents generalizing gathered with
  | nil => rfl
  | cons d rest ih =>
    simp only [List.filterAuxM]
    cases tries d with
    | error e => rfl
    | ok b =>
      simp only [ok_bind]
      -- what the head adds is gathered in both runs, in front of what was there
      rw [ih (cond b (d :: gathered) gathered), ih (cond b [d] [])]
      cases rest.filterAuxM tries [] with
      | error e => rfl
      | ok found => cases b <;> simp [Except.map]

/-- **Selecting**, document by document. -/
theorem select_cons (document : Json) (rest : List Json) :
    select condition (document :: rest) =
      (Filter.holds document condition >>= fun b =>
        (select condition rest).map fun found => if b then document :: found else found) := by
  simp only [select, List.filterM, List.filterAuxM]
  cases Filter.holds document condition with
  | error e => rfl
  | ok b =>
    simp only [ok_bind]
    rw [filterAuxM_append _ rest (cond b [document] [])]
    cases rest.filterAuxM (fun d => Filter.holds d condition) [] with
    | error e => rfl
    | ok found => cases b <;> simp [Except.map, pure, Except.pure]

/-- A total filter selects those that satisfy it. -/
theorem select_of_total (h : Filter.Total condition) (documents : List Json) :
    select condition documents = .ok (documents.filter (Filter.satisfies · condition)) := by
  induction documents with
  | nil => rfl
  | cons d rest ih =>
    rw [select_cons, h d, ih, List.filter_cons]
    rfl

/-- **A confined filter selects** from the documents it is confined to, and fails
only on these. -/
theorem select_confined (h : Filter.Confined condition test) (documents : List Json) :
    select condition (documents.filter test) = select condition documents := by
  induction documents with
  | nil => rfl
  | cons d rest ih =>
    rw [select_cons, ← ih]
    cases hd : test d with
    | false =>
      -- outside the test the filter answers, so nothing fails that is left out
      rw [List.filter_cons_of_neg (by simp [hd]), h d hd]
      cases select condition (rest.filter test) <;> rfl
    | true => rw [List.filter_cons_of_pos hd, select_cons]

/-- A pipeline runs its first stage and then the others. -/
theorem run_cons (documents : List Json) (stage : Stage) (rest : Pipeline) :
    run documents (Pipeline.toJson (stage :: rest)) =
      (applyStage documents stage >>= fun rows => run rows (Pipeline.toJson rest)) := by
  simp only [run, Pipeline.toJson, List.map_cons, List.foldlM_cons, Stage.ofJson?_toJson]

end Rows

namespace Collection

/-- **Counting** is the length of what is selected. -/
theorem count_eq_select (c : Collection) :
    c.count condition = (Rows.select condition c.documents).map List.length := by
  -- the count so far is arbitrary, so that the induction goes along the list
  have hfold : ∀ (documents : List Json) (n : Nat),
      documents.foldlM (fun n document => do
        if ← Filter.holds document condition then Except.ok (n + 1) else .ok n) n =
        (Rows.select condition documents).map (n + ·.length) := by
    intro documents
    induction documents with
    | nil => intro n; rfl
    | cons d rest ih =>
      intro n
      rw [List.foldlM_cons, Rows.select_cons]
      cases Filter.holds d condition with
      | error e => rfl
      | ok b =>
        cases b <;> simp only [ok_bind, ↓reduceIte, Bool.false_eq_true, ih] <;>
          cases Rows.select condition rest <;> simp [Except.map]
        omega
  rw [count, hfold]
  simp

/-- **A confined filter counts** the documents it is confined to. -/
theorem count_confined (h : Filter.Confined condition test) (c : Collection) :
    c.count condition =
      (Rows.select condition (c.documents.filter test)).map List.length := by
  rw [count_eq_select, Rows.select_confined h]

/-! ## The first document that satisfies a filter -/

/-- **What a split finds**: the first document on which the filter holds. -/
theorem split?_eq_some {documents before after : List Json} {found : Json}
    (h : split? condition documents = .ok (some (before, found, after))) :
    documents = before ++ found :: after ∧
      (∀ d ∈ before, Filter.holds d condition = .ok false) ∧
      Filter.holds found condition = .ok true := by
  induction documents generalizing before with
  | nil => exact absurd h (by simp [split?])
  | cons d rest ih =>
    simp only [split?, bind_eq_ok] at h
    obtain ⟨b, hb, h⟩ := h
    cases b with
    | true =>
      simp only [↓reduceIte, Except.ok.injEq, Option.some.injEq, Prod.mk.injEq] at h
      obtain ⟨rfl, rfl, rfl⟩ := h
      exact ⟨rfl, by simp, hb⟩
    | false =>
      simp only [Bool.false_eq_true, ↓reduceIte, bind_eq_ok, Except.ok.injEq,
        Option.map_eq_some_iff, Prod.mk.injEq] at h
      obtain ⟨_, hrest, ⟨before', d', after'⟩, rfl, rfl, rfl, rfl⟩ := h
      obtain ⟨rfl, hbefore, hfound⟩ := ih hrest
      refine ⟨rfl, fun e he => ?_, hfound⟩
      rcases List.mem_cons.mp he with rfl | he
      · exact hb
      · exact hbefore e he

/-- A split that finds nothing has tried the filter on every document. -/
theorem split?_eq_none {documents : List Json} (h : split? condition documents = .ok none) :
    ∀ d ∈ documents, Filter.holds d condition = .ok false := by
  induction documents with
  | nil => simp
  | cons d rest ih =>
    simp only [split?, bind_eq_ok] at h
    obtain ⟨b, hb, h⟩ := h
    cases b with
    | true => exact absurd h (by simp)
    | false =>
      simp only [Bool.false_eq_true, ↓reduceIte, bind_eq_ok, Except.ok.injEq,
        Option.map_eq_none_iff] at h
      obtain ⟨_, hrest, rfl⟩ := h
      intro e he
      rcases List.mem_cons.mp he with rfl | he
      · exact hb
      · exact ih hrest e he

/-- A total filter is split without an error. -/
theorem split?_of_total (h : Filter.Total condition) (documents : List Json) :
    ∃ found, split? condition documents = .ok found := by
  induction documents with
  | nil => exact ⟨none, rfl⟩
  | cons d rest ih =>
    obtain ⟨found, hrest⟩ := ih
    rw [split?, h d, hrest]
    cases Filter.satisfies d condition with
    | true => exact ⟨some ([], d, rest), rfl⟩
    | false => exact ⟨_, rfl⟩

/-- **A confined filter splits** the documents it is confined to where it splits
all of them. -/
theorem split?_confined (h : Filter.Confined condition test) (documents : List Json) :
    split? condition (documents.filter test) =
      (split? condition documents).map
        (Option.map fun (before, found, after) =>
          (before.filter test, found, after.filter test)) := by
  induction documents with
  | nil => rfl
  | cons d rest ih =>
    cases hd : test d with
    | false =>
      -- a document outside the test is passed over, and then left out of what is before
      rw [List.filter_cons_of_neg (by simp [hd]), ih, split?, h d hd]
      cases split? condition rest with
      | error e => rfl
      | ok found => cases found <;> simp [Except.map, hd]
    | true =>
      rw [List.filter_cons_of_pos hd, split?, split?, ih]
      cases Filter.holds d condition with
      | error e => rfl
      | ok b =>
        cases b with
        | true => rfl
        | false =>
          cases split? condition rest with
          | error e => rfl
          | ok found => cases found <;> simp [Except.map, hd]

/-- What a total filter selects starts with what a split finds. -/
theorem head?_filter_of_split? {documents : List Json}
    {found : Option (List Json × Json × List Json)}
    (h : split? condition documents = .ok found) :
    (documents.filter (Filter.satisfies · condition)).head? = found.map (·.2.1) := by
  cases found with
  | none =>
    have hnone : documents.filter (Filter.satisfies · condition) = [] :=
      List.filter_eq_nil_iff.mpr fun d hd => by
        simp [Filter.satisfies_of_holds (split?_eq_none h d hd)]
    rw [hnone]
    rfl
  | some parts =>
    obtain ⟨before, d, after⟩ := parts
    obtain ⟨rfl, hbefore, hfound⟩ := split?_eq_some h
    have hnone : before.filter (Filter.satisfies · condition) = [] :=
      List.filter_eq_nil_iff.mpr fun e he => by simp [Filter.satisfies_of_holds (hbefore e he)]
    rw [List.filter_append, hnone,
      List.filter_cons_of_pos (by simp [Filter.satisfies_of_holds hfound])]
    rfl

/-- **Taking out one document** takes out what a split finds. -/
theorem remaining_first (documents : List Json) :
    remaining condition false documents =
      (split? condition documents).map fun
        | none => (0, documents)
        | some (before, _, after) => (1, before ++ after) := by
  induction documents with
  | nil => rfl
  | cons d rest ih =>
    rw [remaining, split?, ih]
    cases Filter.holds d condition with
    | error e => rfl
    | ok b =>
      cases b with
      | true => rfl
      | false =>
        cases split? condition rest with
        | error e => rfl
        | ok found => cases found <;> rfl

end Collection

end ScopedDocs
