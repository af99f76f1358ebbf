import ScopedDocs.Proofs.Refusal
import ScopedDocs.Proofs.Uniqueness
/-!
# Reached stores — unique keys after any writes

A store is reached by writes of any kind, one after the other and done or refused,
from the empty one (`Reached`). What comes in is well formed, as values are that were
read from text. In every collection of such a store the documents stand beside each
other (`Reached.apart`), and so no two share their primary key or a key of a unique
index (`Reached.unique_keys`).
-/


namespace ScopedDocs

/-- A write that brings in well-formed values only. -/
def SingleWrite.WellFormed : SingleWrite → Prop
  | insertOne document => document.isWellFormed = true
  | updateOne _ change => change.isWellFormed = true
  | replaceOne _ replacement => replacement.isWellFormed = true
  | deleteOne _ | deleteMany _ | createIndex _ => True

/-- A write of a transaction that brings in well-formed values only. -/
def Write.WellFormed : Write → Prop
  | insert _ document => document.isWellFormed = true
  | replace _ _ document => document.isWellFormed = true
  | update _ _ change => change.isWellFormed = true
  | delete _ _ => True

/-- **A store that writes have reached** from the empty one. A refused write may have
changed the store, too, and its store counts as well. -/
inductive Reached : Store → Prop where
  /-- The empty store. -/
  | empty : Reached {}
  /-- A single write, or the making of an index. -/
  | single {s : Store} (h : Reached s) (name : String) (w : SingleWrite) (hw : w.WellFormed) :
    Reached ((w.run name).after s)
  /-- An insertion of documents in order. -/
  | insertMany {s : Store} (h : Reached s) (name : String) (documents : List Json)
    (hdocuments : ∀ d ∈ documents, d.isWellFormed = true) :
    Reached ((Store.insertMany name documents).after s)
  /-- A transaction. -/
  | transaction {s : Store} (h : Reached s) (writes : List Write)
    (hwrites : ∀ w ∈ writes, w.WellFormed) : Reached ((Store.transaction writes).after s)

/-! ## One collection -/

namespace Collection.Apart

variable {α : Type} {name : String} {c : Collection}

/-- A change that is refused changes nothing. -/
theorem changing {change : Collection → Except Error (α × Collection)} (h : c.Apart)
    (hchange : ∀ a c', change c = .ok (a, c') → c'.Apart) : (Store.changing change c).2.Apart := by
  unfold Store.changing
  split
  · next hok => exact hchange _ _ hok
  · exact h

theorem changed {change : Collection → Except Error Collection} (h : c.Apart)
    (hchange : ∀ c', change c = .ok c' → c'.Apart) : (Store.changed change c).2.Apart := by
  refine h.changing fun _ c' hok => ?_
  obtain ⟨c'', hc, heq⟩ := map_eq_ok.mp hok
  obtain ⟨-, rfl⟩ := Prod.mk.inj heq
  exact hchange c'' hc

/-- The same for a change that counts, and whose count is dropped. -/
theorem changed_count {change : Collection → Except Error (α × Collection)} (h : c.Apart)
    (hchange : ∀ a c', change c = .ok (a, c') → c'.Apart) :
    (Store.changed (fun c => (change c).map (·.2)) c).2.Apart := by
  refine h.changed fun c' hok => ?_
  obtain ⟨⟨a, c''⟩, hc, rfl⟩ := map_eq_ok.mp hok
  exact hchange a c'' hc

/-- **A single write** keeps the documents of its collection apart. -/
theorem act {w : SingleWrite} (h : c.Apart) (hw : w.WellFormed) : (w.act name c).2.Apart := by
  cases w with
  | insertOne document => exact h.changed fun _ hok => h.insert hw hok
  | updateOne condition change => exact h.changing fun _ _ hok => h.update hw hok
  | replaceOne condition replacement => exact h.changing fun _ _ hok => h.replace hw hok
  | deleteOne condition => exact h.delete condition false
  | deleteMany condition => exact h.delete condition true
  | createIndex i => exact h.changed fun _ hok => h.addIndex hok

end Collection.Apart

/-! ## All collections -/

namespace Store

/-- A store whose collections are all apart. -/
def Apart (s : Store) : Prop := ∀ name, (s.collection name).Apart

variable {s t : Store} {name : String}

theorem apart_empty : Apart {} := fun _ => .empty

/-- A store in which one collection has changed is apart if that one is. -/
theorem Apart.of_write {c : Collection} (h : s.Apart) (hc : c.Apart)
    (hwrite : ∀ other, t.collection other = if other = name then c else s.collection other) :
    t.Apart := by
  intro other
  rw [hwrite]
  split
  · exact hc
  · exact h other

theorem Apart.writing {α : Type} {write : Collection → Except Error α × Collection} (h : s.Apart)
    (hwrite : (write (s.collection name)).2.Apart) : ((Store.writing name write).after s).Apart :=
  h.of_write hwrite fun other => collection_writing name other s

theorem Apart.applyWrite {w : Write} (h : s.Apart) (hw : w.WellFormed) :
    ((Store.applyWrite w).after s).Apart := by
  cases w with
  | insert name document =>
    exact h.writing ((h name).changed fun _ hok => (h name).insert hw hok)
  | replace name condition document =>
    exact h.writing ((h name).changed_count fun _ _ hok => (h name).replace hw hok)
  | update name condition change =>
    exact h.writing ((h name).changed_count fun _ _ hok => (h name).update hw hok)
  | delete name condition =>
    rw [Store.applyWrite, StoreM.after_bind_of_keeps fun _ _ => rfl]
    exact h.of_write ((h name).delete condition true) fun other =>
      collection_writingIfPresent (Collection.delete_empty condition true) name other s

/-- **A transaction** keeps the documents apart. -/
theorem Apart.transaction {writes : List Write} (h : s.Apart)
    (hwrites : ∀ w ∈ writes, w.WellFormed) : ((Store.transaction writes).after s).Apart := by
  rcases after_transaction writes s with heq | heq <;> rw [heq]
  · exact h
  · exact StoreM.after_forM (fun w hw _ hs => hs.applyWrite (hwrites w hw)) h

end Store

namespace Reached

variable {s : Store}

/-- **Every store that is reached is apart.** -/
theorem apart (h : Reached s) : s.Apart := by
  induction h with
  | empty => exact Store.apart_empty
  | single _ name w hw ih => exact ih.of_write ((ih name).act hw) (w.run_acts name _).2
  | insertMany _ name documents hdocuments ih => exact ih.writing ((ih name).insertAll hdocuments)
  | transaction _ writes hwrites ih => exact ih.transaction hwrites

/-- **Unique keys.** In every collection of a store that is reached, two documents in
different places do not have the same primary key, where they have one, and not the
same key in any unique index that covers both. -/
theorem unique_keys (h : Reached s) (name : String) {m n : Nat} {a b : Json} (hne : m ≠ n)
    (ha : (s.documents name)[m]? = some a) (hb : (s.documents name)[n]? = some b) :
    (∀ x y, a.get? Schema.idPath = some x → b.get? Schema.idPath = some y → x.same y = false) ∧
      ∀ i ∈ s.indexes name, i.unique = true → i.Covers a → i.Covers b →
        Index.sameKey (i.key a) (i.key b) = false := by
  have hapart := h.apart name
  have hbeside : Collection.Beside (s.indexes name) a b := by
    obtain ⟨hm, rfl⟩ := List.getElem?_eq_some_iff.mp ha
    obtain ⟨hn, rfl⟩ := List.getElem?_eq_some_iff.mp hb
    have hpairs := List.pairwise_iff_getElem.mp hapart.beside
    rcases Nat.lt_or_gt_of_ne hne with hlt | hlt
    · exact hpairs m n hm hn hlt
    · -- the later document was looked at beside the earlier one
      have hback := hpairs n m hn hm hlt
      exact hback.symm (hapart.wellFormed _ (List.getElem_mem hn))
        (hapart.wellFormed _ (List.getElem_mem hm))
  refine ⟨fun x y hx hy => ?_, fun i hi hunique hcovers hcovers' => ?_⟩
  · simpa only [Collection.sharesId, hx, hy] using hbeside.1
  · simpa only [Collection.sharesKey, Index.keyOf?_of_covers hcovers,
      Index.keyOf?_of_covers hcovers'] using hbeside.2 i hi hunique

/-- A sparse unique index on the tags of a document. -/
def tagIndex : Index :=
  { name := "tags", keys := [⟨"tags.name", .ascending⟩], unique := true, sparse := true }

/-- A document with a primary key and a tag. -/
def tagged (id : Int) (tag : String) : Json :=
  .obj [("_id", .ofInt id), ("tags", .arr [.obj [("name", .str tag)]])]

/-- The index is made, two documents come, a third takes the tag of the first and is
refused, and the second takes the tag of none. -/
def tagging : Store :=
  let s := ((SingleWrite.createIndex tagIndex).run "a").after {}
  let s := (Store.insertMany "a" [tagged 1 "x", tagged 2 "y", tagged 3 "x"]).after s
  ((SingleWrite.updateOne (.obj [("_id", .ofInt 2)])
    (.obj [("$set", .obj [("tags", .arr [.obj [("name", .str "z")]])])])).run "a").after s

theorem reached_tagging : Reached tagging := by
  refine .single (.insertMany (.single .empty "a" (.createIndex tagIndex) trivial) "a" _ ?_) "a" _ ?_
  · decide
  · rfl

/-- Two of the three documents are there, under different tags. -/
theorem unique_keys_tags :
    tagging.documents "a" = [tagged 1 "x", tagged 2 "z"] ∧
      Index.sameKey (tagIndex.key (tagged 1 "x")) (tagIndex.key (tagged 2 "z")) = false := by
  have hcovers (id : Int) (tag : String) : tagIndex.Covers (tagged id tag) :=
    fun _ => ⟨"tags.name", by decide, rfl⟩
  refine ⟨rfl, ?_⟩
  exact (unique_keys reached_tagging "a" (by decide) (m := 0) (n := 1) rfl rfl).2 tagIndex
    (by decide) rfl (hcovers 1 "x") (hcovers 2 "z")

end Reached

end ScopedDocs
