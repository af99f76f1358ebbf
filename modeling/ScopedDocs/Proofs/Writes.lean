import ScopedDocs.Proofs.Collections
import ScopedDocs.Proofs.Run
/-!
# Writes — one collection at a time

A single write acts on the collection it names and answers what the collection
answers; every other collection stays as it is (`Store.collection_writing`,
`Store.collection_writingIfPresent`). A write that answers `absent` where there is
no collection does so on an empty one, too, and the two are not told apart.
-/


namespace ScopedDocs

variable {α : Type}

namespace Store

variable {name other : String} {s : Store}

/-- A collection put in place is there. -/
@[simp] theorem collection_put_self (s : Store) (name : String) (c : Collection) :
    (s.put name c).collection name = c := by
  simp [collection, put]

/-- Every other collection stays. -/
theorem collection_put_of_ne (c : Collection) (h : other ≠ name) :
    (s.put name c).collection other = s.collection other := by
  simp only [collection, put, Members.lookup_putSorted_of_ne c _ h]

section

variable {write : Collection → Except Error α × Collection} {absent : α}

/-- A write answers what its collection answers. -/
@[simp] theorem result_writing (name : String) (s : Store) :
    (writing name write).result s = (write (s.collection name)).1 := rfl

/-- **A write acts on the collection it names**, and on no other one. -/
theorem collection_writing (name other : String) (s : Store) :
    ((writing name write).after s).collection other =
      if other = name then (write (s.collection name)).2 else s.collection other := by
  change (s.put name (write (s.collection name)).2).collection other = _
  split
  · next h => rw [h, collection_put_self]
  · next h => exact collection_put_of_ne _ h

/-- A write that may find no collection answers what an empty one answers. -/
theorem result_writingIfPresent (h : write {} = (.ok absent, {})) (name : String) (s : Store) :
    (writingIfPresent name absent write).result s = (write (s.collection name)).1 := by
  simp only [StoreM.result, writingIfPresent, collection, ExceptT.run, ExceptT.mk, StateT.run]
  cases s.collections.lookup name with
  | none => rw [Option.getD_none, h]
  | some c => rfl

theorem collection_writingIfPresent (h : write {} = (.ok absent, {})) (name other : String)
    (s : Store) :
    ((writingIfPresent name absent write).after s).collection other =
      if other = name then (write (s.collection name)).2 else s.collection other := by
  have hafter : (writingIfPresent name absent write).after s =
      ((s.collections.lookup name).map fun c => s.put name (write c).2).getD s := by
    simp only [StoreM.after, writingIfPresent, ExceptT.run, ExceptT.mk, StateT.run]
    cases s.collections.lookup name <;> rfl
  rw [hafter]
  cases hc : s.collections.lookup name with
  | none =>
    -- nothing is put, and an absent collection reads as the empty one
    have hempty : s.collection name = {} := by rw [collection, hc]; rfl
    rw [Option.map_none, Option.getD_none, hempty, h]
    by_cases heq : other = name
    · rw [if_pos heq, heq, hempty]
    · rw [if_neg heq]
  | some c =>
    have hthere : s.collection name = c := by rw [collection, hc]; rfl
    rw [Option.map_some, Option.getD_some, hthere]
    by_cases heq : other = name
    · rw [if_pos heq, heq, collection_put_self]
    · rw [if_neg heq, collection_put_of_ne _ heq]

end

/-- A refused change leaves the collection as it is. -/
theorem changing_refused {change : Collection → Except Error (α × Collection)} {c : Collection}
    (h : ∃ e, (changing change c).1 = .error e) : (changing change c).2 = c := by
  unfold changing at h ⊢
  cases hchange : change c with
  | ok written =>
    obtain ⟨e, h⟩ := h
    exact absurd h (by simp [hchange])
  | error e => rfl

/-! ## Inserting -/

/-- A change of a collection is done as a whole or not at all. -/
theorem changed_eq (change : Collection → Except Error Collection) (c : Collection) :
    changed change c =
      match change c with
      | .ok c' => (.ok (), c')
      | .error e => (.error e, c) := by
  simp only [changed, changing]
  cases change c <;> rfl

/-- **Appending.** A store with the first few of some documents at the end of a
collection, and nothing else changed. -/
def Appends (name : String) (documents : List Json) (s t : Store) : Prop :=
  ∃ front, front <+: documents ∧ ∀ other, t.collection other =
    if other = name then { s.collection name with documents := s.documents name ++ front }
    else s.collection other

namespace Appends

variable {documents : List Json} {t : Store}

theorem of_same (name : String) (documents : List Json)
    (h : ∀ other, t.collection other = s.collection other) : Appends name documents s t := by
  refine ⟨[], List.nil_prefix, fun other => ?_⟩
  rw [h other]
  split
  · next heq => rw [heq, List.append_nil]; rfl
  · rfl

/-- The first document and then some of the others are some of all. -/
theorem cons {d : Json} {u : Store}
    (hfirst : ∀ other, t.collection other =
      if other = name then { s.collection name with documents := s.documents name ++ [d] }
      else s.collection other)
    (hrest : Appends name documents t u) : Appends name (d :: documents) s u := by
  obtain ⟨front, hfront, hu⟩ := hrest
  refine ⟨d :: front, List.cons_prefix_cons.mpr ⟨rfl, hfront⟩, fun other => ?_⟩
  rw [hu other, hfirst other, Store.documents, hfirst name, if_pos rfl]
  split
  · simp
  · rfl

end Appends

/-- **Inserting** appends the document, or it is refused and changes nothing. -/
theorem insertOne_cases (name : String) (document : Json) (s : Store) :
    (∃ e, (insertOne name document).result s = .error e ∧
      ∀ other, ((insertOne name document).after s).collection other = s.collection other) ∨
    ((insertOne name document).result s = .ok () ∧
      ∀ other, ((insertOne name document).after s).collection other =
        if other = name then
          { s.collection name with documents := s.documents name ++ [document] }
        else s.collection other) := by
  rw [insertOne, result_writing]
  simp only [collection_writing, changed_eq]
  cases h : (s.collection name).insert name document with
  | error e =>
    refine .inl ⟨e, rfl, fun other => ?_⟩
    split
    · next heq => rw [heq]
    · rfl
  | ok c =>
    obtain rfl := Collection.insert_ok h
    exact .inr ⟨rfl, fun _ => rfl⟩

/-- Inserting appends. -/
theorem appends_insertOne (name : String) (document : Json) (s : Store) :
    Appends name [document] s ((insertOne name document).after s) := by
  rcases insertOne_cases name document s with ⟨-, -, h⟩ | ⟨-, h⟩
  · exact .of_same name _ h
  · exact .cons h (.of_same name [] fun _ => rfl)

/-- Inserting in order appends. -/
theorem appends_insertMany (name : String) (documents : List Json) (s : Store) :
    Appends name documents s ((insertMany name documents).after s) := by
  obtain ⟨front, hfront, hafter⟩ := Collection.insertAll_appends name documents (s.collection name)
  exact ⟨front, hfront, fun other => by rw [insertMany, collection_writing, hafter]; rfl⟩

/-- One insertion after the other appends. -/
theorem appends_inserts (name : String) (documents : List Json) (s : Store) :
    Appends name documents s
      (((documents.map (Write.insert name)).forM applyWrite).after s) := by
  induction documents generalizing s with
  | nil => exact .of_same name [] fun _ => rfl
  | cons d rest ih =>
    rw [List.map_cons, StoreM.after_forM_cons, applyWrite]
    rcases insertOne_cases name d s with ⟨e, hresult, h⟩ | ⟨hresult, h⟩
    · -- a refused insertion ends the sequence
      rw [hresult]
      exact .of_same name _ h
    · rw [hresult]
      exact .cons h (ih _)

/-- A transaction leaves what its writes leave, if none is refused. -/
theorem after_transaction (writes : List Write) (s : Store) :
    (transaction writes).after s = s ∨
      (transaction writes).after s = (writes.forM applyWrite).after s := by
  unfold transaction
  split
  · exact .inl rfl
  · simp only [StoreM.after, ExceptT.run, ExceptT.mk, StateT.run]
    rcases (writes.forM applyWrite) s with ⟨e | _, t⟩
    · exact .inl rfl
    · exact .inr rfl

/-- **A transaction of insertions** appends. -/
theorem appends_transaction (name : String) (documents : List Json) (s : Store) :
    Appends name documents s ((transaction (documents.map (Write.insert name))).after s) := by
  rcases after_transaction (documents.map (Write.insert name)) s with h | h <;> rw [h]
  · exact .of_same name documents fun _ => rfl
  · exact appends_inserts name documents s

/-! ## Replacing -/

/-- **Replacing** changes nothing, or it puts the replacement in the place of the
document that a split finds. -/
theorem replaceOne_cases (name : String) (condition replacement : Json) (s : Store) :
    (∀ other, ((replaceOne name condition replacement).after s).collection other =
      s.collection other) ∨
    ∃ before old after,
      Collection.split? condition (s.documents name) = .ok (some (before, old, after)) ∧
        ∀ other, ((replaceOne name condition replacement).after s).collection other =
          if other = name then
            { s.collection name with
              documents := before ++ Collection.keepId old replacement :: after }
          else s.collection other := by
  have hempty : changing (Collection.replace name condition replacement) {} = (.ok {}, {}) := rfl
  rw [replaceOne]
  simp only [collection_writingIfPresent hempty, changing]
  cases h : (s.collection name).replace name condition replacement with
  | error e =>
    refine .inl fun other => ?_
    split
    · next heq => rw [heq]
    · rfl
  | ok written =>
    obtain ⟨count, c⟩ := written
    rcases Collection.replace_ok h with ⟨-, rfl⟩ | ⟨before, old, after, hsplit, rfl⟩
    · refine .inl fun other => ?_
      split
      · next heq => rw [heq]
      · rfl
    · exact .inr ⟨before, old, after, hsplit, fun _ => rfl⟩

/-! ## Deleting -/

/-- Deleting answers what the collection answers. -/
theorem result_deleteOne (name : String) (condition : Json) (s : Store) :
    (deleteOne name condition).result s = ((s.collection name).delete condition false).1 :=
  result_writingIfPresent (Collection.delete_empty condition false) name s

/-- Deleting acts on one collection. -/
theorem collection_deleteOne (name other : String) (condition : Json) (s : Store) :
    ((deleteOne name condition).after s).collection other =
      if other = name then ((s.collection name).delete condition false).2
      else s.collection other :=
  collection_writingIfPresent (Collection.delete_empty condition false) name other s

/-! ## Indexes -/

/-- Making an index leaves every document as it is. -/
theorem documents_createIndex (name other : String) (i : Index) (s : Store) :
    ((createIndex name i).after s).documents other = s.documents other := by
  rw [documents, createIndex, collection_writing, changed_eq]
  split
  · next heq =>
    subst heq
    cases h : (s.collection other).addIndex other i with
    | error e => rfl
    | ok c => exact Collection.addIndex_documents h
  · rfl

end Store

end ScopedDocs
