import ScopedDocs.Proofs.Refusal
/-!
# Transactions — the same as their writes one by one

A transaction does what the single calls of its writes do in turn, if none of them is
refused, and nothing at all if one is (`Store.transaction_in_turn`). The two go
different ways: a write of a transaction makes its collection where the single call
answers that there is none. What they leave is therefore compared by what collections
hold (`Store.SameContents`), and one induction carries that relation along both runs
(`Store.writes_alike`).
-/

namespace ScopedDocs

/-- The single call that does what a write of a transaction does. -/
def Write.single : Write → SingleWrite
  | insert _ document => .insertOne document
  | replace _ condition document => .replaceOne condition document
  | update _ condition change => .updateOne condition change
  | delete _ condition => .deleteMany condition

/-- Makes the single call of a write. -/
def Write.call (w : Write) : StoreM Unit := w.single.run w.collection

namespace Collection

variable {name : String} {c : Collection}

/-- **Where an insertion in order stops**, it has appended what comes before the first
document that is refused. -/
theorem insertAll_refused {documents : List Json} {e : Error}
    (h : (insertAll name documents c).1 = .error e) :
    ∃ before d after, documents = before ++ d :: after ∧
      insertAll name before c = (.ok (), { c with documents := c.documents ++ before }) ∧
      insert name d { c with documents := c.documents ++ before } = .error e ∧
      (insertAll name documents c).2 = { c with documents := c.documents ++ before } := by
  induction documents generalizing c with
  | nil => exact absurd h (by simp [insertAll])
  | cons d rest ih =>
    rw [insertAll] at h ⊢
    cases hd : c.insert name d with
    | error e' =>
      rw [hd] at h
      have hself : { c with documents := c.documents ++ [] } = c := by simp
      refine ⟨[], d, rest, rfl, ?_, ?_, ?_⟩
      · rw [hself, insertAll]
      · have hsame : e' = e := Except.error.inj h
        rw [hself, hd, hsame]
      · exact hself.symm
    | ok c' =>
      rw [hd] at h
      obtain ⟨before, d', after, hrest, hbefore, hrefused, hleft⟩ := ih h
      have hone := insert_ok hd
      have hmoved : { c' with documents := c'.documents ++ before } =
          { c with documents := c.documents ++ (d :: before) } := by
        rw [hone]
        simp
      rw [hmoved] at hbefore hrefused hleft
      refine ⟨d :: before, d', after, ?_, ?_, hrefused, hleft⟩
      · rw [hrest, List.cons_append]
      · rw [insertAll, hd]
        exact hbefore

end Collection

namespace Store

variable {s t : Store} {name : String} {writes : List Write}

/-- **Writes in turn**: the single calls one after the other, up to the first that is
refused. -/
def inTurn (writes : List Write) : StoreM Unit := writes.forM Write.call

theorem result_inTurn_cons (w : Write) (rest : List Write) (s : Store) :
    (inTurn (w :: rest)).result s =
      (w.call.result s >>= fun _ => (inTurn rest).result (w.call.after s)) :=
  StoreM.result_forM_cons Write.call w rest s

theorem after_inTurn_cons (w : Write) (rest : List Write) (s : Store) :
    (inTurn (w :: rest)).after s =
      match w.call.result s with
      | .ok _ => (inTurn rest).after (w.call.after s)
      | .error _ => w.call.after s :=
  StoreM.after_forM_cons Write.call w rest s

theorem sameContents_iff : s.SameContents t ↔ ∀ name, t.collection name = s.collection name := by
  constructor
  · intro h name
    obtain ⟨hdocuments, hindexes⟩ := h name
    have hs : s.collection name = ⟨s.documents name, s.indexes name⟩ := rfl
    have ht : t.collection name = ⟨t.documents name, t.indexes name⟩ := rfl
    rw [hs, ht, hdocuments, hindexes]
  · intro h name
    exact ⟨congrArg Collection.documents (h name), congrArg Collection.indexes (h name)⟩

theorem SameContents.symm (h : s.SameContents t) : t.SameContents s :=
  fun name => ⟨(h name).1.symm, (h name).2.symm⟩

theorem SameContents.trans {u : Store} (h : s.SameContents t) (hu : t.SameContents u) :
    s.SameContents u :=
  fun name => ⟨(hu name).1.trans (h name).1, (hu name).2.trans (h name).2⟩

/-! ## One write -/

/-- A change that counts does the same whether its count is dropped before it is done
or after. -/
theorem changed_count {α : Type} (change : Collection → Except Error (α × Collection))
    (c : Collection) :
    changed (fun c => (change c).map (·.2)) c = SingleWrite.silently (changing change) c := by
  rw [changed_eq, SingleWrite.silently, changing]
  cases change c <;> rfl

/-- **A write of a transaction acts as its single call** on one collection. -/
theorem applyWrite_acts (w : Write) (s : Store) :
    (applyWrite w).result s = (w.single.act w.collection (s.collection w.collection)).1 ∧
      ∀ other, ((applyWrite w).after s).collection other =
        if other = w.collection then (w.single.act w.collection (s.collection w.collection)).2
        else s.collection other := by
  cases w with
  | insert name document => exact SingleWrite.run_acts (.insertOne document) name s
  | replace name condition document =>
    have hcount := changed_count (Collection.replace name condition document) (s.collection name)
    refine ⟨congrArg Prod.fst hcount, fun other => ?_⟩
    rw [applyWrite, collection_writing, hcount]
    rfl
  | update name condition change =>
    have hcount := changed_count (Collection.update name condition change) (s.collection name)
    refine ⟨congrArg Prod.fst hcount, fun other => ?_⟩
    rw [applyWrite, collection_writing, hcount]
    rfl
  | delete name condition =>
    have hrun : applyWrite (.delete name condition) =
        (SingleWrite.deleteMany condition).run name := by
      rw [applyWrite, SingleWrite.run, map_eq_pure_bind]
    rw [hrun]
    exact SingleWrite.run_acts (.deleteMany condition) name s

/-- **One step.** From stores with the same contents, a write and its single call answer
the same and leave the same contents. -/
theorem applyWrite_alike (h : s.SameContents t) (w : Write) :
    (applyWrite w).result s = w.call.result t ∧
      ((applyWrite w).after s).SameContents (w.call.after t) := by
  obtain ⟨hresult, hafter⟩ := applyWrite_acts w s
  obtain ⟨hresult', hafter'⟩ := SingleWrite.run_acts w.single w.collection t
  have hsame := sameContents_iff.mp h
  constructor
  · rw [hresult, Write.call, hresult', hsame]
  · refine sameContents_iff.mpr fun other => ?_
    rw [hafter, Write.call, hafter', hsame, hsame]

/-! ## All writes -/

/-- **The whole run.** The writes of a transaction and their single calls answer the
same, and leave the same contents, where they are refused, too. -/
theorem writes_alike (writes : List Write) (h : s.SameContents t) :
    (writes.forM applyWrite).result s = (inTurn writes).result t ∧
      ((writes.forM applyWrite).after s).SameContents ((inTurn writes).after t) := by
  induction writes generalizing s t with
  | nil => exact ⟨rfl, h⟩
  | cons w rest ih =>
    obtain ⟨hresult, hafter⟩ := applyWrite_alike h w
    rw [result_inTurn_cons, after_inTurn_cons, StoreM.result_forM_cons, StoreM.after_forM_cons,
      ← hresult]
    cases (applyWrite w).result s with
    | error e => exact ⟨rfl, hafter⟩
    | ok => exact ih hafter

/-- **Where writes in turn stop**: at the first that is refused, with its error. -/
theorem inTurn_refused {e : Error} (h : (inTurn writes).result s = .error e) :
    ∃ before w after, writes = before ++ w :: after ∧ (inTurn before).result s = .ok () ∧
      w.call.result ((inTurn before).after s) = .error e := by
  induction writes generalizing s with
  | nil => exact absurd h (by simp [inTurn])
  | cons w rest ih =>
    rw [result_inTurn_cons] at h
    cases hw : w.call.result s with
    | error e' =>
      rw [hw] at h
      exact ⟨[], w, rest, rfl, rfl, hw.trans h⟩
    | ok =>
      rw [hw] at h
      obtain ⟨before, w', after, hrest, hbefore, hrefused⟩ := ih h
      refine ⟨w :: before, w', after, ?_, ?_, ?_⟩
      · rw [hrest, List.cons_append]
      · rw [result_inTurn_cons, hw]
        exact hbefore
      · rw [after_inTurn_cons, hw]
        exact hrefused

/-- A transaction answers what its writes answer, and keeps what they leave only if none
is refused. -/
theorem transaction_run (hne : writes ≠ []) (s : Store) :
    (transaction writes).result s = (writes.forM applyWrite).result s ∧
      (transaction writes).after s =
        match (writes.forM applyWrite).result s with
        | .ok _ => (writes.forM applyWrite).after s
        | .error _ => s := by
  have hnotEmpty : writes.isEmpty = false := by simpa using hne
  simp only [transaction, hnotEmpty, Bool.false_eq_true, ↓reduceIte]
  simp only [StoreM.result, StoreM.after, ExceptT.run, ExceptT.mk, StateT.run]
  rcases (writes.forM applyWrite) s with ⟨e | _, t⟩ <;> exact ⟨rfl, rfl⟩

/-! ## Insertions -/

/-- Inserting in order inserts the first document, and the others if that is done. -/
theorem insertMany_cons (name : String) (d : Json) (rest : List Json) (s : Store) :
    (insertMany name (d :: rest)).result s =
        ((insertOne name d).result s >>= fun _ =>
          (insertMany name rest).result ((insertOne name d).after s)) ∧
      ((insertMany name (d :: rest)).after s).SameContents
        (match (insertOne name d).result s with
          | .ok _ => (insertMany name rest).after ((insertOne name d).after s)
          | .error _ => (insertOne name d).after s) := by
  have hone : ((insertOne name d).after s).collection name =
      (changed (Collection.insert name d) (s.collection name)).2 := by
    rw [insertOne, collection_writing, if_pos rfl]
  have hresult : (insertOne name d).result s =
      (changed (Collection.insert name d) (s.collection name)).1 := rfl
  have hmany : (insertMany name (d :: rest)).result s =
      (Collection.insertAll name (d :: rest) (s.collection name)).1 := rfl
  rw [hmany, hresult]
  rw [changed_eq] at hone ⊢
  cases hd : (s.collection name).insert name d with
  | error e =>
    rw [Collection.insertAll, hd]
    refine ⟨rfl, sameContents_iff.mpr fun other => ?_⟩
    simp only [insertOne, insertMany, collection_writing, changed_eq, Collection.insertAll, hd]
  | ok c =>
    rw [hd] at hone
    rw [Collection.insertAll, hd, ok_bind]
    constructor
    · rw [insertMany, result_writing, hone]
    · refine sameContents_iff.mpr fun other => ?_
      -- the others are inserted into the collection that the first one left
      simp only [insertMany, collection_writing, hone, Collection.insertAll, hd]
      split
      · rfl
      · next hother => rw [insertOne, collection_writing, if_neg hother]

/-- **Inserting in order** is inserting in turn. -/
theorem insertMany_alike (name : String) (documents : List Json) (h : s.SameContents t) :
    (insertMany name documents).result s =
        (inTurn (documents.map (Write.insert name))).result t ∧
      ((insertMany name documents).after s).SameContents
        ((inTurn (documents.map (Write.insert name))).after t) := by
  induction documents generalizing s t with
  | nil =>
    have hnothing : ((insertMany name []).after s).SameContents s := by
      refine sameContents_iff.mpr fun other => ?_
      rw [insertMany, collection_writing]
      split
      · next heq => rw [heq, Collection.insertAll]
      · rfl
    exact ⟨rfl, hnothing.trans h⟩
  | cons d rest ih =>
    obtain ⟨hmany, hleft⟩ := insertMany_cons name d rest s
    obtain ⟨hresult, hafter⟩ := applyWrite_alike h (.insert name d)
    rw [applyWrite] at hresult hafter
    rw [List.map_cons, result_inTurn_cons, after_inTurn_cons, hmany, ← hresult]
    cases hone : (insertOne name d).result s with
    | error e =>
      rw [hone] at hleft
      exact ⟨rfl, hleft.trans hafter⟩
    | ok =>
      rw [hone] at hleft
      obtain ⟨hothers, hend⟩ := ih hafter
      exact ⟨hothers, hleft.trans hend⟩

/-! ## The whole -/

/-- **Transactions.** A transaction is done just when the single calls of its writes are
all done in turn, and then it leaves the same documents and indexes. If one is refused,
it fails with the error of the first that is and leaves the store as it was. Inserting
documents in order answers what the transaction of the insertions answers and leaves the
same if it is done; if not, the documents before the first refused one have been added
and nothing else has changed. -/
theorem transaction_in_turn (s : Store) :
    (∀ writes : List Write, writes ≠ [] →
      ((transaction writes).result s = .ok () ↔ (inTurn writes).result s = .ok ()) ∧
      ((inTurn writes).result s = .ok () →
        ((inTurn writes).after s).SameContents ((transaction writes).after s)) ∧
      ∀ e, (inTurn writes).result s = .error e →
        (transaction writes).result s = .error e ∧ (transaction writes).after s = s ∧
          ∃ before w after, writes = before ++ w :: after ∧
            (inTurn before).result s = .ok () ∧
            w.call.result ((inTurn before).after s) = .error e) ∧
    ∀ (name : String) (documents : List Json), documents ≠ [] →
      (insertMany name documents).result s =
        (transaction (documents.map (Write.insert name))).result s ∧
      ((insertMany name documents).result s = .ok () →
        ((transaction (documents.map (Write.insert name))).after s).SameContents
          ((insertMany name documents).after s)) ∧
      ∀ e, (insertMany name documents).result s = .error e →
        ∃ before d after, documents = before ++ d :: after ∧
          (insertMany name before).result s = .ok () ∧
          (insertOne name d).result ((insertMany name before).after s) = .error e ∧
          ∀ other, ((insertMany name documents).after s).collection other =
            if other = name then
              { s.collection name with documents := s.documents name ++ before }
            else s.collection other := by
  have hself : s.SameContents s := fun _ => ⟨rfl, rfl⟩
  constructor
  · intro writes hne
    obtain ⟨hresult, hafter⟩ := transaction_run hne s
    obtain ⟨halike, hcontents⟩ := writes_alike writes hself
    rw [halike] at hresult hafter
    refine ⟨by rw [hresult], fun hok => ?_, fun e he => ?_⟩
    · rw [hok] at hafter
      rw [hafter]
      exact hcontents.symm
    · rw [he] at hafter hresult
      exact ⟨hresult, hafter, inTurn_refused he⟩
  · intro name documents hne
    have hwrites : documents.map (Write.insert name) ≠ [] := by simpa using hne
    obtain ⟨hresult, hafter⟩ := transaction_run hwrites s
    obtain ⟨halike, hcontents⟩ := writes_alike (documents.map (Write.insert name)) hself
    obtain ⟨hmany, hleft⟩ := insertMany_alike name documents hself
    rw [halike, ← hmany] at hresult hafter
    refine ⟨hresult.symm, fun hok => ?_, fun e he => ?_⟩
    · rw [hok] at hafter
      rw [hafter]
      exact hcontents.trans hleft.symm
    · obtain ⟨before, d, after, hsplit, hbefore, hrefused, hend⟩ :=
        Collection.insertAll_refused (c := s.collection name) he
      refine ⟨before, d, after, hsplit, congrArg Prod.fst hbefore, ?_, fun other => ?_⟩
      · have hthere : ((insertMany name before).after s).collection name =
            { s.collection name with documents := s.documents name ++ before } := by
          rw [insertMany, collection_writing, if_pos rfl, hbefore]
          rfl
        rw [insertOne, result_writing, hthere, changed_eq]
        rw [← Store.documents] at hrefused
        rw [hrefused]
      · rw [insertMany, collection_writing, hend]
        rfl

/-- A second document. -/
def secondDocument : Json := .obj [("_id", .ofInt 2)]

/-- A replacement where there is no collection, and an insertion. -/
def twoWrites : List Write :=
  [.replace "b" (.obj []) secondDocument, .insert "a" secondDocument]

/-- Done once they leave what they leave in turn. Done twice they are refused, and so
is inserting the same document twice, but that leaves it there once. -/
theorem transaction_in_turn_two :
    (twoWrites ≠ [] ∧ (inTurn twoWrites).result SingleWrite.oneDocument = .ok () ∧
      ((inTurn twoWrites).after SingleWrite.oneDocument).SameContents
        ((transaction twoWrites).after SingleWrite.oneDocument)) ∧
    (twoWrites ++ twoWrites ≠ [] ∧
      (transaction (twoWrites ++ twoWrites)).result SingleWrite.oneDocument =
        .error (.store (.duplicateKey "a")) ∧
      (transaction (twoWrites ++ twoWrites)).after SingleWrite.oneDocument =
        SingleWrite.oneDocument) ∧
    [secondDocument, secondDocument] ≠ [] ∧
      (insertMany "a" [secondDocument, secondDocument]).result SingleWrite.oneDocument =
        .error (.store (.duplicateKey "a")) ∧
      ((insertMany "a" [secondDocument, secondDocument]).after
        SingleWrite.oneDocument).documents "a" = [.obj [("_id", .ofInt 1)], secondDocument] := by
  obtain ⟨htransactions, hinsertions⟩ := transaction_in_turn SingleWrite.oneDocument
  have hrefused := (htransactions (twoWrites ++ twoWrites) (by simp [twoWrites])).2.2
    (.store (.duplicateKey "a")) rfl
  have hmany := hinsertions "a" [secondDocument, secondDocument] (by simp)
  refine ⟨⟨by simp [twoWrites], rfl, ?_⟩, ⟨by simp [twoWrites], hrefused.1, hrefused.2.1⟩,
    by simp, hmany.1.trans rfl, rfl⟩
  exact (htransactions twoWrites (by simp [twoWrites])).2.1 rfl

end Store

end ScopedDocs
