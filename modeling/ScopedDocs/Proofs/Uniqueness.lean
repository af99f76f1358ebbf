import ScopedDocs.Proofs.Writes
import ScopedDocs.Proofs.WellFormed
/-!
# Uniqueness — documents that stand beside each other

A document stands beside another one if they share neither their primary key nor
their key in a unique index (`Collection.Beside`). A collection in which each two
documents do stays one under every write (`Collection.Apart`): the checks look in one
direction only, from the documents that are there to the one that comes, and this is
enough since among well-formed values sameness is symmetric.
-/


namespace ScopedDocs

namespace Index

/-- A document that an index has a key for: a sparse index asks for one of its
paths. -/
def Covers (i : Index) (document : Json) : Prop :=
  i.sparse = true → ∃ path ∈ i.paths, (document.first? path).isSome

/-- The key of a document: what each path reaches first, `null` where there is none. -/
def key (i : Index) (document : Json) : List Json :=
  i.paths.map fun path => (document.first? path).getD .null

variable {i : Index} {document : Json}

/-- **A key is taken** from just the documents that are covered. -/
theorem keyOf?_of_covers (h : i.Covers document) : i.keyOf? document = some (i.key document) := by
  have hsome : (i.sparse && (i.paths.map document.first?).all Option.isNone) = false := by
    rw [Bool.and_eq_false_iff, or_iff_not_imp_left, Bool.not_eq_false]
    intro hsparse
    obtain ⟨path, hpath, hfound⟩ := h hsparse
    rw [List.all_eq_false]
    exact ⟨_, List.mem_map_of_mem hpath, by simpa [Option.isSome_iff_ne_none] using hfound⟩
  simp only [keyOf?, hsome, Bool.false_eq_true, ↓reduceIte, List.map_map, Function.comp_def, key]

/-- The key of a well-formed document is well formed. -/
theorem isWellFormed_of_mem_keyOf? {key : List Json} (h : document.isWellFormed = true)
    (hkey : i.keyOf? document = some key) : ∀ v ∈ key, v.isWellFormed = true := by
  rw [keyOf?] at hkey
  split at hkey
  · exact absurd hkey (by simp)
  · obtain rfl := Option.some.inj hkey
    intro v hv
    obtain ⟨found, hfound, rfl⟩ := List.mem_map.mp hv
    obtain ⟨path, -, rfl⟩ := List.mem_map.mp hfound
    cases hfirst : document.first? path with
    | none => rfl
    | some value => exact Json.isWellFormed_of_first? h hfirst

/-- Keys that are the same are so both ways round. -/
theorem sameKey_comm {as bs : List Json} (has : ∀ v ∈ as, v.isWellFormed = true)
    (hbs : ∀ v ∈ bs, v.isWellFormed = true) : sameKey as bs = sameKey bs as := by
  have harr := Json.same_comm (Json.isWellFormed_arr.mpr has) (Json.isWellFormed_arr.mpr hbs)
  rwa [Json.same, Json.same] at harr

end Index

namespace Collection

/-- **Two documents that may stand beside each other**: they share neither the
primary key nor a key in a unique index. -/
def Beside (indexes : List Index) (a b : Json) : Prop :=
  sharesId a b = false ∧ ∀ i ∈ indexes, i.unique = true → sharesKey i a b = false

section

variable {indexes : List Index} {a b : Json}

/-- A document fits just where it may stand beside every other one. -/
theorem fits_iff {document : Json} {others : List Json} :
    fits indexes document others = true ↔ ∀ other ∈ others, Beside indexes other document := by
  simp [fits, Beside, ← Bool.not_eq_true, ← imp_iff_not_or]

/-- The check accepts just what fits. -/
theorem fits_of_checkUnique {name : String} {document : Json} {others : List Json}
    (h : checkUnique name indexes document others = .ok ()) :
    fits indexes document others = true := by
  unfold checkUnique at h
  split at h
  · assumption
  · exact absurd h (by simp [duplicate])

/-- What is inserted fits beside all that is there. -/
theorem fits_of_insert {name : String} {document : Json} {c c' : Collection}
    (h : c.insert name document = .ok c') : fits c.indexes document c.documents = true := by
  unfold insert at h
  split at h
  · exact absurd h (by simp)
  · obtain ⟨⟨⟩, hunique, -⟩ := bind_eq_ok.mp h
    exact fits_of_checkUnique hunique

theorem sharesId_comm (ha : a.isWellFormed = true) (hb : b.isWellFormed = true) :
    sharesId a b = sharesId b a := by
  unfold sharesId
  cases hx : a.get? Schema.idPath <;> cases hy : b.get? Schema.idPath
  case some.some x y =>
    exact Json.same_comm (Json.isWellFormed_of_get? ha hx) (Json.isWellFormed_of_get? hb hy)
  all_goals rfl

theorem sharesKey_comm (i : Index) (ha : a.isWellFormed = true) (hb : b.isWellFormed = true) :
    sharesKey i a b = sharesKey i b a := by
  unfold sharesKey
  cases hx : i.keyOf? a <;> cases hy : i.keyOf? b
  case some.some x y =>
    exact Index.sameKey_comm (Index.isWellFormed_of_mem_keyOf? ha hx)
      (Index.isWellFormed_of_mem_keyOf? hb hy)
  all_goals rfl

/-- Standing beside each other is symmetric. -/
theorem Beside.symm (ha : a.isWellFormed = true) (hb : b.isWellFormed = true)
    (h : Beside indexes a b) : Beside indexes b a := by
  refine ⟨sharesId_comm ha hb ▸ h.1, fun i hi hunique => ?_⟩
  rw [← sharesKey_comm i ha hb]
  exact h.2 i hi hunique

/-- With one index more, there is one key more that is not to be shared. -/
theorem Beside.concat {i : Index} (h : Beside indexes a b)
    (hkey : i.unique = true → sharesKey i a b = false) : Beside (indexes ++ [i]) a b := by
  refine ⟨h.1, fun j hj hunique => ?_⟩
  rcases List.mem_append.mp hj with hj | hj
  · exact h.2 j hj hunique
  · obtain rfl := List.mem_singleton.mp hj
    exact hkey hunique

/-- Keys are distinct just if no two documents share one. -/
theorem distinctKeys_iff {i : Index} {documents : List Json} :
    distinctKeys i documents = true ↔ documents.Pairwise fun a b => sharesKey i a b = false := by
  induction documents with
  | nil => simp [distinctKeys]
  | cons d rest ih => simp [distinctKeys, ih]

end

/-- **A collection whose documents stand beside each other**, all of them well
formed. -/
structure Apart (c : Collection) : Prop where
  /-- No object has a key twice. -/
  wellFormed : ∀ d ∈ c.documents, d.isWellFormed = true
  /-- No two documents share a key. -/
  beside : c.documents.Pairwise (Beside c.indexes)

namespace Apart

variable {name : String} {condition : Json} {c c' : Collection}

theorem empty : Apart {} := ⟨by simp, .nil⟩

/-- Fewer documents stand beside each other as all did. -/
theorem of_sublist {documents : List Json} (h : c.Apart) (hsub : documents.Sublist c.documents) :
    Apart { c with documents } :=
  ⟨fun d hd => h.wellFormed d (hsub.subset hd), h.beside.sublist hsub⟩

/-- **A document that fits** may stand anywhere among the others. -/
theorem between {before after : List Json} {document : Json}
    (h : Apart { c with documents := before ++ after })
    (hdocument : document.isWellFormed = true)
    (hfits : fits c.indexes document (before ++ after) = true) :
    Apart { c with documents := before ++ document :: after } := by
  have hothers := fits_iff.mp hfits
  obtain ⟨hbefore, hafter, hacross⟩ := List.pairwise_append.mp h.beside
  refine ⟨fun d hd => ?_, List.pairwise_append.mpr ⟨hbefore, ?_, fun a ha b hb => ?_⟩⟩
  · rcases List.mem_append.mp hd with hd | hd
    · exact h.wellFormed d (by simp [hd])
    · rcases List.mem_cons.mp hd with rfl | hd
      · exact hdocument
      · exact h.wellFormed d (by simp [hd])
  · -- the check was made from the others to the document; behind it, it is needed the other way
    refine List.pairwise_cons.mpr ⟨fun b hb => ?_, hafter⟩
    have hb' : b ∈ before ++ after := List.mem_append_right _ hb
    exact (hothers b hb').symm (h.wellFormed b hb') hdocument
  · rcases List.mem_cons.mp hb with rfl | hb
    · exact hothers a (List.mem_append_left _ ha)
    · exact hacross a ha b hb

/-! ## Inserting -/

theorem insert {document : Json} (h : c.Apart) (hdocument : document.isWellFormed = true)
    (hinsert : c.insert name document = .ok c') : c'.Apart := by
  have hfits := fits_of_insert hinsert
  obtain rfl := insert_ok hinsert
  -- the end of a collection is a place with nothing behind it
  refine between ?_ hdocument ?_ <;> rw [List.append_nil]
  · exact h
  · exact hfits

/-- Of a batch, as many documents are inserted as fit. -/
theorem insertAll {documents : List Json} (h : c.Apart)
    (hdocuments : ∀ d ∈ documents, d.isWellFormed = true) :
    (insertAll name documents c).2.Apart := by
  induction documents generalizing c with
  | nil => exact h
  | cons d rest ih =>
    rw [Collection.insertAll]
    cases hinsert : c.insert name d with
    | error e => exact h
    | ok c' =>
      obtain ⟨hd, hrest⟩ := List.forall_mem_cons.mp hdocuments
      exact ih (h.insert hd hinsert) hrest

/-! ## Replacing and updating -/

/-- A document put in the place of another one is looked at beside all but that
one. -/
theorem putBetween {before after : List Json} {old new : Json} {written : WriteCount}
    (h : c.Apart) (hdocuments : c.documents = before ++ old :: after)
    (hnew : new.isWellFormed = true)
    (hput : putBetween name c before old new after = .ok (written, c')) : c'.Apart := by
  obtain ⟨⟨⟩, hunique, hput⟩ := bind_eq_ok.mp hput
  obtain ⟨-, rfl⟩ := Prod.mk.inj (Except.ok.inj hput)
  refine between (h.of_sublist ?_) hnew (fits_of_checkUnique hunique)
  rw [hdocuments]
  exact (List.sublist_cons_self old after).append_left before

/-- A replacement with a primary key of its own place is well formed. -/
theorem isWellFormed_keepId {old replacement : Json} (hold : old.isWellFormed = true)
    (h : replacement.isWellFormed = true) : (keepId old replacement).isWellFormed = true := by
  unfold keepId
  split
  · next hid => exact Json.isWellFormed_put h (Json.isWellFormed_of_get? hold hid)
  · exact h

theorem replace {replacement : Json} {written : WriteCount} (h : c.Apart)
    (hreplacement : replacement.isWellFormed = true)
    (hreplace : c.replace name condition replacement = .ok (written, c')) : c'.Apart := by
  obtain ⟨found, hsplit, hreplace⟩ := bind_eq_ok.mp hreplace
  rcases found with _ | ⟨before, old, after⟩
  · obtain ⟨-, rfl⟩ := Prod.mk.inj (Except.ok.inj hreplace)
    exact h
  · obtain ⟨hdocuments, -⟩ := split?_eq_some hsplit
    have hold : old.isWellFormed = true := h.wellFormed old (by simp [hdocuments])
    exact h.putBetween hdocuments (isWellFormed_keepId hold hreplacement) hreplace

theorem update {change : Json} {written : WriteCount} (h : c.Apart)
    (hchange : change.isWellFormed = true)
    (hupdate : c.update name condition change = .ok (written, c')) : c'.Apart := by
  obtain ⟨found, hsplit, hupdate⟩ := bind_eq_ok.mp hupdate
  rcases found with _ | ⟨before, old, after⟩
  · obtain ⟨-, rfl⟩ := Prod.mk.inj (Except.ok.inj hupdate)
    exact h
  · obtain ⟨hdocuments, -⟩ := split?_eq_some hsplit
    have hold : old.isWellFormed = true := h.wellFormed old (by simp [hdocuments])
    obtain ⟨new, happly, hupdate⟩ := bind_eq_ok.mp hupdate
    split at hupdate
    · exact h.putBetween hdocuments (Update.isWellFormed_apply hold hchange happly) hupdate
    · exact absurd hupdate (by simp)

/-! ## Deleting -/

/-- What stays of documents is some of them. -/
theorem sublist_of_remaining {many : Bool} {documents kept : List Json} {gone : Nat}
    (h : remaining condition many documents = .ok (gone, kept)) : kept.Sublist documents := by
  induction documents generalizing gone kept with
  | nil =>
    obtain ⟨-, rfl⟩ := Prod.mk.inj (Except.ok.inj h)
    exact .slnil
  | cons d rest ih =>
    obtain ⟨holds, -, h⟩ := bind_eq_ok.mp h
    split at h
    · split at h
      · obtain ⟨⟨_, _⟩, hrest, h⟩ := bind_eq_ok.mp h
        obtain ⟨-, rfl⟩ := Prod.mk.inj (Except.ok.inj h)
        exact (ih hrest).cons d
      · obtain ⟨-, rfl⟩ := Prod.mk.inj (Except.ok.inj h)
        exact List.sublist_cons_self d rest
    · obtain ⟨⟨_, _⟩, hrest, h⟩ := bind_eq_ok.mp h
      obtain ⟨-, rfl⟩ := Prod.mk.inj (Except.ok.inj h)
      exact (ih hrest).cons_cons d

/-- A deletion leaves some of the documents, or none where it is refused. -/
theorem delete (h : c.Apart) (condition : Json) (many : Bool) :
    (c.delete condition many).2.Apart := by
  unfold Collection.delete
  split
  · next hremaining => exact h.of_sublist (sublist_of_remaining hremaining)
  · exact h.of_sublist (List.nil_sublist _)

/-! ## Indexes -/

/-- **An index is made** where it has distinct keys for what is there. -/
theorem addIndex {i : Index} (h : c.Apart) (hadd : c.addIndex name i = .ok c') : c'.Apart := by
  unfold Collection.addIndex at hadd
  split at hadd
  · rwa [← Except.ok.inj hadd]
  · split at hadd
    · exact absurd hadd (by simp [duplicate])
    · next hdistinct =>
      rw [← Except.ok.inj hadd]
      refine ⟨h.wellFormed, ?_⟩
      rw [Bool.not_eq_true, Bool.and_eq_false_iff, Bool.not_eq_false'] at hdistinct
      rcases hdistinct with hplain | hdistinct
      · -- an index that is not unique asks for nothing
        exact h.beside.imp fun hbeside => hbeside.concat fun hunique =>
          absurd hunique (by simp [hplain])
      · exact (h.beside.and (distinctKeys_iff.mp hdistinct)).imp fun hbeside =>
          hbeside.1.concat fun _ => hbeside.2

end Apart

end Collection

end ScopedDocs
