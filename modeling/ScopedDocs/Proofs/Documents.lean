import ScopedDocs.Proofs.Naming
import ScopedDocs.Proofs.Transactions
import ScopedDocs.Proofs.Uniqueness
/-!
# Documents — what is stored stays a document, with its primary key

A write adds documents, takes some out, or puts one in the place of another
(`SingleWrite.Affects`). What is put in a place has the primary key of what was there
(`Json.KeepsId`), and it is an object, if a replacement is one. So all that writes of
objects have stored are objects (`Filled.keeps_documents`). A replacement is not looked at,
and one that is no object takes the primary key away (`Filled.replaced_by_number`).
-/


namespace ScopedDocs

/-! ## One document -/

namespace Json

variable {document changed value : Json} {segments : List String}

/-- Where a path can be set, an object is set in an object. -/
theorem isObject_setAt? (hne : segments ≠ [])
    (hset : setAt? value segments document = some changed) : changed.isObject = true := by
  obtain ⟨segment, rest, rfl⟩ := List.exists_cons_of_ne_nil hne
  cases document with
  | obj members =>
    obtain ⟨child, -, rfl⟩ := Option.map_eq_some_iff.mp hset
    rfl
  | _ => simp [setAt?] at hset

/-- An object stays one without what a path reaches. -/
theorem isObject_removeAt (segments : List String) (h : document.isObject = true) :
    (removeAt segments document).isObject = true := by
  cases document with
  | obj members => rcases segments with _ | ⟨segment, _ | ⟨next, rest⟩⟩ <;> rfl
  | _ => exact absurd h (by simp [isObject])

/-- **Keeping the primary key**: where a document has one, the other has the same, or one that
compares as the same. -/
def KeepsId (old new : Json) : Prop :=
  ∀ id, old.get? Schema.idPath = some id →
    ∃ id', new.get? Schema.idPath = some id' ∧ (id' = id ∨ id'.same id = true)

end Json

/-- An updated object is one. -/
theorem Update.isObject_apply {change document changed : Json} (h : document.isObject = true)
    (happly : apply change document = .ok changed) : changed.isObject = true := by
  cases change with
  | obj operators =>
    refine apply_induction (P := fun d => d.isObject = true) ?_
      (fun segments _ hd => Json.isObject_removeAt segments hd) h happly
    exact fun _ _ _ _ m _ _ _ _ hset => Json.isObject_setAt? (Dotted.segments_ne_nil m.1) hset
  | _ => simp [apply] at happly

/-! ## One collection -/

/-- **A document in the place of another one**, with its primary key, or nothing changed. -/
def InPlace (documents documents' : List Json) : Prop :=
  documents' = documents ∨
    ∃ before old new after, documents = before ++ old :: after ∧
      documents' = before ++ new :: after ∧ old.KeepsId new ∧
      (old.isObject = true → new.isObject = true)

/-- Objects stay objects where one is put in the place of another. -/
theorem InPlace.areObjects {documents documents' : List Json} (h : InPlace documents documents')
    (hobjects : ∀ d ∈ documents, d.isObject = true) : ∀ d ∈ documents', d.isObject = true := by
  rcases h with rfl | ⟨before, old, new, after, rfl, rfl, -, hnew⟩
  · exact hobjects
  · rw [List.forall_mem_append, List.forall_mem_cons] at hobjects ⊢
    exact ⟨hobjects.1, hnew hobjects.2.1, hobjects.2.2⟩

namespace Collection

variable {name : String} {condition : Json} {c c' : Collection}

/-- What is inserted is an object. -/
theorem isObject_of_insert {document : Json} (h : c.insert name document = .ok c') :
    document.isObject = true := by
  unfold insert at h
  cases hobj : document.isObject with
  | false => exact absurd h (by simp [hobj])
  | true => rfl

/-- Inserting in order inserts objects, as far as it comes. -/
theorem areObjects_insertAll (name : String) (documents : List Json)
    (h : ∀ d ∈ c.documents, d.isObject = true) :
    ∀ d ∈ (insertAll name documents c).2.documents, d.isObject = true := by
  induction documents generalizing c with
  | nil => exact h
  | cons d rest ih =>
    rw [insertAll]
    cases hd : c.insert name d with
    | error e => exact h
    | ok c' =>
      refine ih ?_
      rw [insert_ok hd, List.forall_mem_append, List.forall_mem_singleton]
      exact ⟨h, isObject_of_insert hd⟩

/-- An object that takes the place of a document has its primary key. -/
theorem keepsId_keepId (old : Json) {replacement : Json} (h : replacement.isObject = true) :
    old.KeepsId (keepId old replacement) ∧ (keepId old replacement).isObject = true := by
  refine ⟨fun id hid => ⟨id, get?_keepId hid h, .inl rfl⟩, ?_⟩
  unfold keepId
  split
  · rfl
  · exact h

/-- Documents that agree on the primary key keep it. -/
theorem keepsId_of_agreeOnId {old new : Json} (h : agreeOnId new old = true) :
    old.KeepsId new := by
  intro id hid
  rw [agreeOnId, hid] at h
  cases hnew : new.get? Schema.idPath with
  | none => simp [hnew] at h
  | some id' =>
    rw [hnew] at h
    exact ⟨id', rfl, .inr h⟩

/-- **Replacing** by an object puts it in the place of a document. -/
theorem inPlace_replace {replacement : Json} {written : WriteCount}
    (hreplacement : replacement.isObject = true)
    (h : c.replace name condition replacement = .ok (written, c')) :
    InPlace c.documents c'.documents := by
  rcases replace_ok h with ⟨-, rfl⟩ | ⟨before, old, after, hsplit, rfl⟩
  · exact .inl rfl
  · obtain ⟨hkeeps, hobj⟩ := keepsId_keepId old hreplacement
    exact .inr ⟨before, old, _, after, (split?_eq_some hsplit).1, rfl, hkeeps, fun _ => hobj⟩

/-- **Updating** puts a document in the place of another one. -/
theorem inPlace_update {change : Json} {written : WriteCount}
    (h : c.update name condition change = .ok (written, c')) :
    InPlace c.documents c'.documents := by
  obtain ⟨found, hsplit, h⟩ := bind_eq_ok.mp h
  rcases found with _ | ⟨before, old, after⟩
  · obtain ⟨-, rfl⟩ := Prod.mk.inj (Except.ok.inj h)
    exact .inl rfl
  · obtain ⟨new, happly, h⟩ := bind_eq_ok.mp h
    split at h
    · next hagree =>
      obtain ⟨⟨⟩, -, h⟩ := bind_eq_ok.mp h
      obtain ⟨-, rfl⟩ := Prod.mk.inj (Except.ok.inj h)
      exact .inr ⟨before, old, new, after, (split?_eq_some hsplit).1, rfl,
        keepsId_of_agreeOnId hagree, fun hobj => Update.isObject_apply hobj happly⟩
    · exact absurd h (by simp)

/-- A deletion leaves some of the documents. -/
theorem sublist_delete (condition : Json) (many : Bool) (c : Collection) :
    (c.delete condition many).2.documents.Sublist c.documents := by
  unfold delete
  split
  · next hremaining => exact Apart.sublist_of_remaining hremaining
  · exact List.nil_sublist _

end Collection

namespace SingleWrite

variable {name : String} {s t : Store}

/-- A write that puts objects only in the place of documents. -/
def PutsDocuments : SingleWrite → Prop
  | replaceOne _ replacement => replacement.isObject = true
  | _ => True

/-- **What a write does to the documents of its collection**, whether it is refused or not. -/
def Effect : SingleWrite → List Json → List Json → Prop
  | insertOne document => fun documents documents' =>
    documents' = documents ∨ (document.isObject = true ∧ documents' = documents ++ [document])
  | updateOne _ _ | replaceOne _ _ => InPlace
  | deleteOne _ | deleteMany _ => fun documents documents' => documents'.Sublist documents
  | createIndex _ => fun documents documents' => documents' = documents

/-- A change that puts a document in place does so, or is refused and does nothing. -/
theorem inPlace_changing {α : Type} {change : Collection → Except Error (α × Collection)}
    {c : Collection}
    (h : ∀ a c', change c = .ok (a, c') → InPlace c.documents c'.documents) :
    InPlace c.documents (silently (Store.changing change) c).2.documents := by
  rw [silently, Store.changing]
  cases hchange : change c with
  | error e => exact .inl rfl
  | ok written => exact h written.1 written.2 hchange

/-- **A write acts on its collection** with its effect. -/
theorem act_effect {w : SingleWrite} (hw : w.PutsDocuments) (name : String) (c : Collection) :
    w.Effect c.documents (w.act name c).2.documents := by
  cases w with
  | insertOne document =>
    rw [act, Store.changed_eq]
    cases h : c.insert name document with
    | error e => exact .inl rfl
    | ok c' =>
      have happended := Collection.insert_ok h
      exact .inr ⟨Collection.isObject_of_insert h, congrArg Collection.documents happended⟩
  | updateOne condition change => exact inPlace_changing fun _ _ h => Collection.inPlace_update h
  | replaceOne condition replacement =>
    exact inPlace_changing fun _ _ h => Collection.inPlace_replace hw h
  | deleteOne condition => exact Collection.sublist_delete condition false c
  | deleteMany condition => exact Collection.sublist_delete condition true c
  | createIndex i =>
    rw [act, Store.changed_eq]
    cases h : c.addIndex name i with
    | error e => rfl
    | ok c' => exact Collection.addIndex_documents h

/-- All documents that a write of objects leaves are objects. -/
theorem Effect.areObjects {w : SingleWrite} {documents documents' : List Json}
    (h : w.Effect documents documents') (hobjects : ∀ d ∈ documents, d.isObject = true) :
    ∀ d ∈ documents', d.isObject = true := by
  cases w with
  | insertOne document =>
    rcases h with rfl | ⟨hdocument, rfl⟩
    · exact hobjects
    · rw [List.forall_mem_append, List.forall_mem_singleton]
      exact ⟨hobjects, hdocument⟩
  | updateOne condition change => exact InPlace.areObjects h hobjects
  | replaceOne condition replacement => exact InPlace.areObjects h hobjects
  | deleteOne condition => exact fun d hd => hobjects d (List.Sublist.subset h hd)
  | deleteMany condition => exact fun d hd => hobjects d (List.Sublist.subset h hd)
  | createIndex i => exact h ▸ hobjects

/-! ## All collections -/

/-- **What a write does to a store**: its effect in the collection it names, and nothing in
any other one. -/
structure Affects (w : SingleWrite) (name : String) (s t : Store) : Prop where
  /-- The effect in the collection. -/
  effect : w.Effect (s.documents name) (t.documents name)
  /-- All other collections hold what they did. -/
  others : ∀ other, other ≠ name → t.documents other = s.documents other

/-- A write that acts on one collection affects this one as it should, and no other. -/
theorem affects_of_act {w : SingleWrite} (hw : w.PutsDocuments)
    (h : ∀ other, t.collection other =
      if other = name then (w.act name (s.collection name)).2 else s.collection other) :
    w.Affects name s t := by
  refine ⟨?_, fun other hother => ?_⟩
  · rw [Store.documents, Store.documents, h, if_pos rfl]
    exact w.act_effect hw name _
  · rw [Store.documents, h, if_neg hother, Store.documents]

/-- **A single write**, made by itself. -/
theorem run_affects {w : SingleWrite} (hw : w.PutsDocuments) (name : String) (s : Store) :
    w.Affects name s ((w.run name).after s) :=
  affects_of_act hw (w.run_acts name s).2

/-- **A write of a transaction.** -/
theorem applyWrite_affects {w : Write} (hw : w.single.PutsDocuments) (s : Store) :
    w.single.Affects w.collection s ((Store.applyWrite w).after s) :=
  affects_of_act hw (Store.applyWrite_acts w s).2

end SingleWrite

namespace Store

variable {s t : Store} {name : String}

/-- A store that holds nothing but objects. -/
def HoldsObjects (s : Store) : Prop := ∀ name, ∀ d ∈ s.documents name, d.isObject = true

theorem HoldsObjects.affected {w : SingleWrite} (h : s.HoldsObjects) (hw : w.Affects name s t) :
    t.HoldsObjects := by
  intro other
  by_cases hother : other = name
  · subst hother
    exact hw.effect.areObjects (h other)
  · rw [hw.others other hother]
    exact h other

/-- Inserting in order leaves objects in the collection. -/
theorem HoldsObjects.insertMany (h : s.HoldsObjects) (name : String) (documents : List Json) :
    ((Store.insertMany name documents).after s).HoldsObjects := by
  intro other
  rw [Store.documents, Store.insertMany, collection_writing]
  split
  · exact Collection.areObjects_insertAll name documents (h name)
  · exact h other

end Store

/-! ## Runs of writes -/

/-- **A store that writes have filled** from the empty one, in any order, done or refused:
single writes, insertions in order, and transactions. Which single writes there may be, by
themselves and in transactions, is left open. -/
inductive Filled (allowed : SingleWrite → Prop) : Store → Prop where
  /-- The empty store. -/
  | empty : Filled allowed {}
  /-- A single write, or the making of an index. -/
  | single {s : Store} (h : Filled allowed s) (name : String) (w : SingleWrite) (hw : allowed w) :
    Filled allowed ((w.run name).after s)
  /-- An insertion of documents in order. -/
  | insertMany {s : Store} (h : Filled allowed s) (name : String) (documents : List Json) :
    Filled allowed ((Store.insertMany name documents).after s)
  /-- A transaction. -/
  | transaction {s : Store} (h : Filled allowed s) (writes : List Write)
    (hwrites : ∀ w ∈ writes, allowed w.single) :
    Filled allowed ((Store.transaction writes).after s)

namespace Filled

variable {s : Store}

/-- **All that is stored are objects.** -/
theorem holdsObjects (h : Filled SingleWrite.PutsDocuments s) : s.HoldsObjects := by
  induction h with
  | empty => simp [Store.HoldsObjects, Store.documents, Store.collection]
  | single _ name w hw ih => exact ih.affected (SingleWrite.run_affects hw name _)
  | insertMany _ name documents ih => exact ih.insertMany name documents
  | transaction _ writes hwrites ih =>
    rcases Store.after_transaction writes _ with heq | heq <;> rw [heq]
    · exact ih
    · exact StoreM.after_forM (P := Store.HoldsObjects) (fun w hw u hu =>
        hu.affected (SingleWrite.applyWrite_affects (hwrites w hw) u)) ih

/-- **What is stored stays a document, with its primary key.** In a store that writes have
filled whose replacements are objects, all documents are objects. A replacement or an update
that is made next leaves them all, or puts one in the place of another that keeps its
primary key, and so does each of a transaction, whatever the writes before it have left;
the other writes add documents or take some out, and leave those that stay as they are. -/
theorem keeps_documents (h : Filled SingleWrite.PutsDocuments s) :
    s.HoldsObjects ∧
      (∀ (name : String) (w : SingleWrite), w.PutsDocuments →
        w.Affects name s ((w.run name).after s)) ∧
      ∀ (before : List Write) (w : Write), w.single.PutsDocuments →
        w.single.Affects w.collection ((before.forM Store.applyWrite).after s)
          ((Store.applyWrite w).after ((before.forM Store.applyWrite).after s)) :=
  ⟨h.holdsObjects, fun name _ hw => SingleWrite.run_affects hw name s,
    fun _ _ hw => SingleWrite.applyWrite_affects hw _⟩

/-- A store of one document, which has been inserted. -/
theorem filled_oneDocument {allowed : SingleWrite → Prop}
    (h : allowed (.insertOne (.obj [("_id", .ofInt 1)]))) : Filled allowed SingleWrite.oneDocument :=
  .single .empty "a" (.insertOne (.obj [("_id", .ofInt 1)])) h

/-- A replacement that leaves the primary key to the document. -/
def titling : SingleWrite := .replaceOne (.obj []) (.obj [("title", .str "x")])

/-- The document that is replaced has its primary key still. -/
theorem keeps_documents_titled :
    ((titling.run "a").after SingleWrite.oneDocument).documents "a" =
        [.obj [("title", .str "x"), ("_id", .ofInt 1)]] ∧
      SingleWrite.oneDocument.HoldsObjects ∧
      titling.Affects "a" SingleWrite.oneDocument
        ((titling.run "a").after SingleWrite.oneDocument) := by
  have hfilled : Filled SingleWrite.PutsDocuments SingleWrite.oneDocument :=
    filled_oneDocument trivial
  obtain ⟨hobjects, hnext, -⟩ := keeps_documents hfilled
  exact ⟨rfl, hobjects, hnext "a" titling rfl⟩

/-- A replacement by a number. -/
def numbering : SingleWrite := .replaceOne (.obj []) (.ofInt 5)

/-- **A replacement that is no object is stored**, and the primary key is gone. -/
theorem replaced_by_number :
    (¬ ∀ s, Filled (fun _ => True) s → s.HoldsObjects) ∧
      ¬ ∀ (s : Store) (name : String) (w : SingleWrite), Filled (fun _ => True) s →
        w.Affects name s ((w.run name).after s) := by
  have hfilled : Filled (fun _ => True) SingleWrite.oneDocument := filled_oneDocument trivial
  have hafter : ((numbering.run "a").after SingleWrite.oneDocument).documents "a" = [.ofInt 5] :=
    rfl
  constructor
  · intro h
    have hobject := h _ (hfilled.single "a" numbering trivial) "a" (.ofInt 5) (by simp [hafter])
    exact absurd hobject (by decide)
  · intro h
    have heffect : InPlace [.obj [("_id", .ofInt 1)]] [.ofInt 5] :=
      (h _ "a" numbering hfilled).effect
    rcases heffect with heq | ⟨before, old, new, after, hold, hnew, hkeeps, -⟩
    · exact absurd (congrArg (List.map Json.isObject) heq) (by decide)
    · -- there is one document, so it is the one that is replaced
      obtain ⟨rfl, rfl, rfl⟩ : before = [] ∧ old = .obj [("_id", .ofInt 1)] ∧ after = [] := by
        simpa [List.cons_eq_append_iff] using hold
      obtain rfl : Json.ofInt 5 = new := by simpa using hnew
      obtain ⟨id, hid, -⟩ := hkeeps (.ofInt 1) rfl
      exact absurd hid (by simp [Json.get?, Json.ofInt])

end Filled

end ScopedDocs
