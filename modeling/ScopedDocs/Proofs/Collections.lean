import ScopedDocs.Proofs.Selection
/-!
# Collections — what a write does to the documents

An insertion appends documents (`Collection.insertAll_appends`), a replacement
changes the document that a split finds and keeps its primary key
(`Collection.replace_ok`), and a deletion takes it out (`Collection.delete_found`).
-/


namespace ScopedDocs

namespace Collection

variable {name : String} {condition : Json} {c c' : Collection}

/-! ## Inserting -/

/-- **Inserting** appends the document. -/
theorem insert_ok {document : Json} (h : c.insert name document = .ok c') :
    c' = { c with documents := c.documents ++ [document] } := by
  unfold insert at h
  cases hobj : document.isObject with
  | false => exact absurd h (by simp [hobj])
  | true =>
    simp only [hobj, Bool.not_true, Bool.false_eq_true, ↓reduceIte, bind_eq_ok,
      Except.ok.injEq] at h
    obtain ⟨-, -, rfl⟩ := h
    rfl

/-- **Inserting in order** appends as many documents as are accepted. -/
theorem insertAll_appends (name : String) (documents : List Json) (c : Collection) :
    ∃ front, front <+: documents ∧
      (insertAll name documents c).2 = { c with documents := c.documents ++ front } := by
  induction documents generalizing c with
  | nil => exact ⟨[], List.prefix_rfl, by simp [insertAll]⟩
  | cons d rest ih =>
    rw [insertAll]
    cases h : c.insert name d with
    | error e => exact ⟨[], List.nil_prefix, by simp⟩
    | ok c' =>
      -- the rest is inserted behind the document, whatever becomes of it
      obtain ⟨front, hfront, hrest⟩ := ih c'
      refine ⟨d :: front, List.cons_prefix_cons.mpr ⟨rfl, hfront⟩, ?_⟩
      dsimp only
      rw [hrest, insert_ok h]
      simp

/-! ## Replacing -/

/-- A replacement has the primary key of the document it replaces. -/
theorem get?_keepId {old replacement id : Json} (hid : old.get? Schema.idPath = some id)
    (hobj : replacement.isObject = true) :
    (keepId old replacement).get? Schema.idPath = some id := by
  cases replacement with
  | obj members =>
    simp only [keepId, hid]
    exact Members.lookup_put_self _ _ _
  | _ => exact absurd hobj (by simp [Json.isObject])

/-- A replacement that has this primary key already is put in place as it is. -/
theorem keepId_of_get? {old replacement id : Json} (hold : old.get? Schema.idPath = some id)
    (h : replacement.get? Schema.idPath = some id) : keepId old replacement = replacement := by
  cases replacement with
  | obj members =>
    simp only [keepId, hold]
    rw [Members.put_of_lookup h]
  | _ => exact absurd h (by simp [Json.get?])

theorem get?_keepId_of_ne {key : String} (old replacement : Json) (h : key ≠ Schema.idPath) :
    (keepId old replacement).get? key = replacement.get? key := by
  unfold keepId
  split
  · exact Members.lookup_put_of_ne _ _ h
  · rfl

/-- **Replacing** puts the replacement in the place of the document that a split
finds, if it finds one. -/
theorem replace_ok {replacement : Json} {written : WriteCount}
    (h : c.replace name condition replacement = .ok (written, c')) :
    (split? condition c.documents = .ok none ∧ c' = c) ∨
      ∃ before old after, split? condition c.documents = .ok (some (before, old, after)) ∧
        c' = { c with documents := before ++ keepId old replacement :: after } := by
  rw [replace, bind_eq_ok] at h
  obtain ⟨found, hsplit, h⟩ := h
  rcases found with _ | ⟨before, old, after⟩
  · simp only [Except.ok.injEq, Prod.mk.injEq] at h
    exact .inl ⟨hsplit, h.2.symm⟩
  · simp only [putBetween, bind_eq_ok, Except.ok.injEq, Prod.mk.injEq] at h
    obtain ⟨-, -, -, rfl⟩ := h
    exact .inr ⟨before, old, after, hsplit, rfl⟩

/-! ## Deleting -/

theorem delete_empty (condition : Json) (many : Bool) :
    delete condition many {} = (.ok 0, {}) := rfl

/-- **Deleting one document** takes out what a split finds. -/
theorem delete_found {before after : List Json} {found : Json}
    (h : split? condition c.documents = .ok (some (before, found, after))) :
    c.delete condition false = (.ok 1, { c with documents := before ++ after }) := by
  rw [delete, remaining_first, h]
  rfl

theorem delete_none (h : split? condition c.documents = .ok none) :
    c.delete condition false = (.ok 0, c) := by
  rw [delete, remaining_first, h]
  rfl

/-! ## Indexes -/

/-- Making an index leaves the documents. -/
theorem addIndex_documents {i : Index} (h : c.addIndex name i = .ok c') :
    c'.documents = c.documents := by
  unfold addIndex at h
  split at h
  · rw [← Except.ok.inj h]
  · split at h
    · exact absurd h (by simp [duplicate])
    · rw [← Except.ok.inj h]

end Collection

end ScopedDocs
