import ScopedDocs.Proofs.Writes
/-!
# Refusal — what a refused write leaves

A single write that is refused leaves every document and every index as it was,
with one exception: a deletion whose filter fails on a document it is tried on. The
documents are taken out before the filter is tried, and none comes back
(`SingleWrite.refused_keeps_iff`).
-/


namespace ScopedDocs

/-! ## Filters that fail -/

/-- **A filter fails on documents**, tried on one after the other: it comes to one
it cannot be tried on. If only the first that satisfies it is asked for, none does
before. -/
def Filter.FailsOn (condition : Json) (many : Bool) (documents : List Json) : Prop :=
  ∃ before d after e, documents = before ++ d :: after ∧ Filter.holds d condition = .error e ∧
    ∀ b ∈ before, ∃ v, Filter.holds b condition = .ok v ∧ (v = true → many = true)

namespace Filter

variable {condition : Json} {many : Bool}

/-- A filter fails on the first document, or behind it where it is tried there. -/
theorem failsOn_cons {d : Json} {rest : List Json} :
    FailsOn condition many (d :: rest) ↔
      (∃ e, holds d condition = .error e) ∨
        ∃ v, holds d condition = .ok v ∧ (v = true → many = true) ∧
          FailsOn condition many rest := by
  constructor
  · rintro ⟨before, d', after, e, hdocuments, he, hbefore⟩
    cases before with
    | nil =>
      obtain ⟨rfl, -⟩ := List.cons.inj hdocuments
      exact .inl ⟨e, he⟩
    | cons b before =>
      obtain ⟨rfl, hrest⟩ := List.cons.inj hdocuments
      obtain ⟨v, hv, hmany⟩ := hbefore d (by simp)
      refine .inr ⟨v, hv, hmany, before, d', after, e, hrest, he, fun b hb => ?_⟩
      exact hbefore b (by simp [hb])
  · rintro (⟨e, he⟩ | ⟨v, hv, hmany, before, d', after, e, rfl, he, hbefore⟩)
    · exact ⟨[], d, rest, e, rfl, he, by simp⟩
    · refine ⟨d :: before, d', after, e, rfl, he, fun b hb => ?_⟩
      rcases List.mem_cons.mp hb with rfl | hb
      · exact ⟨v, hv, hmany⟩
      · exact hbefore b hb

theorem ne_nil_of_failsOn {documents : List Json} (h : FailsOn condition many documents) :
    documents ≠ [] := by
  obtain ⟨before, d, after, _, rfl, -⟩ := h
  simp

end Filter

namespace Collection

variable {condition : Json} {many : Bool} {c : Collection}

/-- **What stays cannot be told** just when the filter fails. -/
theorem remaining_error_iff {documents : List Json} :
    (∃ e, remaining condition many documents = .error e) ↔
      Filter.FailsOn condition many documents := by
  induction documents with
  | nil =>
    refine ⟨fun ⟨e, h⟩ => absurd h (by simp [remaining]), fun h => ?_⟩
    exact absurd rfl (Filter.ne_nil_of_failsOn h)
  | cons d rest ih =>
    rw [Filter.failsOn_cons, ← ih, remaining]
    cases Filter.holds d condition with
    | error e => simp [Bind.bind, Except.bind]
    | ok v =>
      -- where the filter holds, one is enough or the rest is tried, too
      cases v <;> cases many <;> cases remaining condition _ rest <;>
        simp [Bind.bind, Except.bind]

/-- **A deletion is refused** just when its filter fails. -/
theorem delete_refused_iff :
    (∃ e, (c.delete condition many).1 = .error e) ↔ Filter.FailsOn condition many c.documents := by
  rw [← remaining_error_iff, delete]
  cases remaining condition many c.documents <;> simp

/-- And then it leaves no document. -/
theorem delete_refused (h : Filter.FailsOn condition many c.documents) :
    (c.delete condition many).2 = { c with documents := [] } := by
  obtain ⟨e, he⟩ := remaining_error_iff.mpr h
  rw [delete, he]

end Collection

/-! ## Single writes -/

/-- Two stores with the same documents and indexes in every collection. -/
def Store.SameContents (s t : Store) : Prop :=
  ∀ name, t.documents name = s.documents name ∧ t.indexes name = s.indexes name

/-- A write of one document, a deletion, or the making of an index. -/
inductive SingleWrite where
  | insertOne (document : Json)
  | updateOne (condition change : Json)
  | replaceOne (condition replacement : Json)
  | deleteOne (condition : Json)
  | deleteMany (condition : Json)
  | createIndex (i : Index)

namespace SingleWrite

variable {name : String} {s : Store}

/-- The write, without its count. -/
def run (name : String) : SingleWrite → StoreM Unit
  | insertOne document => Store.insertOne name document
  | updateOne condition change => (fun _ => ()) <$> Store.updateOne name condition change
  | replaceOne condition replacement =>
    (fun _ => ()) <$> Store.replaceOne name condition replacement
  | deleteOne condition => (fun _ => ()) <$> Store.deleteOne name condition
  | deleteMany condition => (fun _ => ()) <$> Store.deleteMany name condition
  | createIndex i => Store.createIndex name i

/-- Whether the write is a deletion whose filter fails on documents. -/
def FailsOn : SingleWrite → List Json → Prop
  | deleteOne condition => Filter.FailsOn condition false
  | deleteMany condition => Filter.FailsOn condition true
  | _ => fun _ => False

/-- A write of a collection, without its count. -/
def silently {α : Type} (write : Collection → Except Error α × Collection) (c : Collection) :
    Except Error Unit × Collection :=
  ((write c).1.map fun _ => (), (write c).2)

/-- What the write does to its collection. -/
def act (name : String) : SingleWrite → Collection → Except Error Unit × Collection
  | insertOne document => Store.changed (Collection.insert name document)
  | updateOne condition change =>
    silently (Store.changing (Collection.update name condition change))
  | replaceOne condition replacement =>
    silently (Store.changing (Collection.replace name condition replacement))
  | deleteOne condition => silently (Collection.delete condition false)
  | deleteMany condition => silently (Collection.delete condition true)
  | createIndex i => Store.changed (Collection.addIndex name i)

theorem silently_error_iff {α : Type} {write : Collection → Except Error α × Collection}
    {c : Collection} :
    (∃ e, (silently write c).1 = .error e) ↔ ∃ e, (write c).1 = .error e := by
  rw [silently]
  cases (write c).1 <;> simp [Except.map]

/-- A write that may find no collection acts as on an empty one. -/
theorem silently_acts {α : Type} {absent : α} (write : Collection → Except Error α × Collection)
    (h : write {} = (.ok absent, {})) (name : String) (s : Store) :
    ((fun _ => ()) <$> Store.writingIfPresent name absent write).result s =
        (silently write (s.collection name)).1 ∧
      ∀ other,
        (((fun _ => ()) <$> Store.writingIfPresent name absent write).after s).collection other =
          if other = name then (silently write (s.collection name)).2 else s.collection other := by
  refine ⟨?_, fun other => ?_⟩
  · rw [StoreM.result_map, Store.result_writingIfPresent h]
    rfl
  · rw [StoreM.after_map, Store.collection_writingIfPresent h]
    rfl

/-- **A single write acts on one collection.** -/
theorem run_acts (w : SingleWrite) (name : String) (s : Store) :
    (w.run name).result s = (w.act name (s.collection name)).1 ∧
      ∀ other, ((w.run name).after s).collection other =
        if other = name then (w.act name (s.collection name)).2 else s.collection other := by
  cases w with
  | insertOne document => exact ⟨rfl, fun other => Store.collection_writing name other s⟩
  | updateOne condition change =>
    exact silently_acts (Store.changing (Collection.update name condition change)) rfl name s
  | replaceOne condition replacement =>
    exact silently_acts (Store.changing (Collection.replace name condition replacement)) rfl name s
  | deleteOne condition => exact silently_acts (Collection.delete condition false) rfl name s
  | deleteMany condition => exact silently_acts (Collection.delete condition true) rfl name s
  | createIndex i => exact ⟨rfl, fun other => Store.collection_writing name other s⟩

/-- **A refused write leaves its collection as it is**, unless it is a deletion
whose filter fails. -/
theorem act_refused {w : SingleWrite} {c : Collection} (hfails : ¬ w.FailsOn c.documents)
    (h : ∃ e, (w.act name c).1 = .error e) : (w.act name c).2 = c := by
  cases w with
  | insertOne document => exact Store.changing_refused h
  | updateOne condition change => exact Store.changing_refused (silently_error_iff.mp h)
  | replaceOne condition replacement => exact Store.changing_refused (silently_error_iff.mp h)
  | deleteOne condition =>
    exact absurd (Collection.delete_refused_iff.mp (silently_error_iff.mp h)) hfails
  | deleteMany condition =>
    exact absurd (Collection.delete_refused_iff.mp (silently_error_iff.mp h)) hfails
  | createIndex i => exact Store.changing_refused h

/-- **A deletion whose filter fails** is refused and leaves no document. -/
theorem act_failed (name : String) {w : SingleWrite} {c : Collection} (h : w.FailsOn c.documents) :
    (∃ e, (w.act name c).1 = .error e) ∧ (w.act name c).2 = { c with documents := [] } ∧
      c.documents ≠ [] := by
  cases w with
  | deleteOne condition =>
    exact ⟨silently_error_iff.mpr (Collection.delete_refused_iff.mpr h),
      Collection.delete_refused h, Filter.ne_nil_of_failsOn h⟩
  | deleteMany condition =>
    exact ⟨silently_error_iff.mpr (Collection.delete_refused_iff.mpr h),
      Collection.delete_refused h, Filter.ne_nil_of_failsOn h⟩
  | _ => exact absurd h id

/-- **Refused writes.** For every store, every collection and every single write: if
it is refused, all documents and indexes are what they were before, unless it is a
deletion whose filter fails on a document it is tried on. Such a deletion is
refused, and it leaves its collection, which had documents, without any; the indexes
and the other collections stay. -/
theorem refused_keeps_iff (w : SingleWrite) (name : String) (s : Store) :
    (((∃ e, (w.run name).result s = .error e) → s.SameContents ((w.run name).after s)) ↔
        ¬ w.FailsOn (s.documents name)) ∧
      (w.FailsOn (s.documents name) →
        (∃ e, (w.run name).result s = .error e) ∧ s.documents name ≠ [] ∧
          ∀ other, ((w.run name).after s).collection other =
            if other = name then { s.collection name with documents := [] }
            else s.collection other) := by
  obtain ⟨hresult, hafter⟩ := run_acts w name s
  have hfailed (h : w.FailsOn (s.documents name)) :
      (∃ e, (w.run name).result s = .error e) ∧ s.documents name ≠ [] ∧
        ∀ other, ((w.run name).after s).collection other =
          if other = name then { s.collection name with documents := [] }
          else s.collection other := by
    obtain ⟨he, hempty, hne⟩ := act_failed name h
    exact ⟨hresult ▸ he, hne, fun other => by rw [hafter, hempty]⟩
  refine ⟨⟨fun hkeeps h => ?_, fun hfails he => ?_⟩, hfailed⟩
  · -- a collection that had documents has none now
    obtain ⟨he, hne, hempty⟩ := hfailed h
    have hsame := (hkeeps he name).1
    rw [Store.documents, hempty, if_pos rfl] at hsame
    exact hne hsame.symm
  · have hsame := act_refused hfails (hresult ▸ he)
    intro other
    have hcollection : ((w.run name).after s).collection other = s.collection other := by
      rw [hafter, hsame]
      split
      · next heq => rw [heq]
      · rfl
    exact ⟨congrArg Collection.documents hcollection, congrArg Collection.indexes hcollection⟩

/-- A deletion by a filter with an operator there is none of. -/
def strayDeletion : SingleWrite := deleteOne (.obj [("$x", .ofInt 1)])

/-- A store of one document. -/
def oneDocument : Store := ⟨[("a", ⟨[.obj [("_id", .ofInt 1)]], []⟩)]⟩

/-- It fails on the one document. -/
theorem refused_keeps_iff_stray :
    strayDeletion.FailsOn (oneDocument.documents "a") ∧
      (∃ e, (strayDeletion.run "a").result oneDocument = .error e) ∧
      ((strayDeletion.run "a").after oneDocument).documents "a" = [] := by
  have hfails : strayDeletion.FailsOn (oneDocument.documents "a") :=
    ⟨[], .obj [("_id", .ofInt 1)], [], _, rfl, rfl, by simp⟩
  obtain ⟨he, -, hempty⟩ := (refused_keeps_iff strayDeletion "a" oneDocument).2 hfails
  exact ⟨hfails, he, by rw [Store.documents, hempty]; rfl⟩

/-- So not every refused write leaves the documents as they were. -/
theorem refused_deletion_empties :
    ¬ ∀ (w : SingleWrite) (name : String) (s : Store),
      (∃ e, (w.run name).result s = .error e) → s.SameContents ((w.run name).after s) := by
  intro h
  have hsame : [] = [Json.obj [("_id", .ofInt 1)]] :=
    (h strayDeletion "a" oneDocument ⟨_, rfl⟩ "a").1
  exact absurd hsame (by simp)

end SingleWrite

end ScopedDocs
