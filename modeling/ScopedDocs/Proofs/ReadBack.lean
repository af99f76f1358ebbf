import ScopedDocs.Proofs.Agreement
import ScopedDocs.Proofs.Answers
/-!
# Read back — callers find what they wrote

What a creation or an update answers is stored as it is (`Repository.create_stores`,
`Repository.update_stores`). A stored record with a primary key of its own is what a lookup
of this key answers, whoever asks for it directly, and whoever has it in scope and searches
(`Written.finds_stored`). And it stays where it is while only callers write that do not have
it in scope (`Spared.keeps`). So callers read what they wrote, also later on
(`Written.reads_back`).
-/


namespace ScopedDocs

variable {α : Type}

/-! ## In scope -/

/-- **What callers own they see**: the owner of what a caller writes is covered at every
audience at which the guard accepts the caller. -/
theorem Guard.covers_own {r : Request} {o : Owner} {audience : Audience} {terms : List Json}
    (howner : r.owner = .ok o) (h : scopeTerms r.source audience r = .ok terms) :
    Covers r.caller r.source audience o := by
  obtain ⟨tenant, htenant, -, hcases⟩ := scopeTerms_cases h
  rw [Request.owner, htenant] at howner
  rw [← Except.ok.inj howner]
  refine ⟨⟨tenant, (usable_eq_some.mp htenant).1, rfl⟩, ?_⟩
  -- the identifier that the audience needs is usable, and so it is the stored one
  have hsame {id : Option Uuid} {u : Uuid} (h : usable (usable id) = some u) :
      usable id = some u := (usable_eq_some.mp h).1
  rcases hcases with ⟨rfl, client, hclient, -⟩ | ⟨rfl, -, group, hgroup, -⟩ |
    ⟨rfl, -, user, huser, -⟩
  · exact ⟨client, (usable_eq_some.mp hclient).1, hclient⟩
  · exact .inr ⟨group, hgroup, hsame hgroup⟩
  · exact .inl ⟨user, huser, hsame huser⟩

/-- Where something is in scope, the guard has accepted the caller. -/
theorem Guard.enforce_of_inScope {v : Visibility} {r : Request} {document : Json}
    (condition : Json) (h : inScope v r document = true) :
    ∃ enforced, enforce condition v r = .ok enforced := by
  cases hterms : scopeTerms v.source v.audience r with
  | error e => exact absurd h (by simp [inScope, hterms])
  | ok terms => exact ⟨combine terms condition, by rw [enforce, hterms]; rfl⟩

/-! ## What is stored -/

namespace Repository

variable {repo : Repository α} {r : Request} {record a : α} {now : Instant} {s : Store}

/-- **What a creation answers is stored**, under the caller's ownership. -/
theorem create_stores (h : (repo.create r record).result s = .ok a) :
    repo.admission r = .ok () ∧
      repo.entity.toJson a ∈ ((repo.create r record).after s).documents repo.collection ∧
      ∃ o, r.owner = .ok o ∧ a = repo.entity.withOwner o record := by
  rw [create, StoreM.result_bind, StoreM.result_answer] at h
  obtain ⟨o, howner, h⟩ := bind_eq_ok.mp h
  rw [StoreM.after_answer, StoreM.result_bind, result_call] at h
  obtain ⟨⟨⟩, hinsert, h⟩ := bind_eq_ok.mp h
  obtain ⟨⟨⟩, hlet, hinsert⟩ := bind_eq_ok.mp hinsert
  obtain rfl := Except.ok.inj h
  have hafter : (repo.create r record).after s = (Store.insertOne repo.collection
      (repo.entity.toJson (repo.entity.withOwner o record))).after s := by
    rw [create, StoreM.after_bind, StoreM.result_answer, howner]
    dsimp only
    rw [StoreM.after_bind_of_keeps fun _ _ => rfl, after_call, hlet]
    rfl
  refine ⟨hlet, ?_, o, howner, rfl⟩
  rcases Store.insertOne_cases repo.collection
    (repo.entity.toJson (repo.entity.withOwner o record)) s with ⟨e, herror, -⟩ | ⟨-, hdone⟩
  · exact absurd (hinsert.symm.trans herror) (by simp)
  · rw [hafter, Store.documents, hdone, if_pos rfl]
    exact List.mem_append_right _ (List.mem_singleton_self _)

/-- **What an update answers is stored**, in the place of the document with its primary
key. -/
theorem update_stores (hlawful : repo.entity.Lawful) (hkeeps : repo.entity.KeepsId)
    (hrecords : ∀ d ∈ s.documents repo.collection, ∃ o, d.IsRecordOf o)
    (h : (repo.update now r record).result s = .ok a) :
    repo.admission r = .ok () ∧
      repo.entity.toJson a ∈ ((repo.update now r record).after s).documents repo.collection := by
  cases hgate : repo.ownedFilter r (repo.entity.id record) >>= fun _ => repo.admission r with
  | error e => exact absurd ((update_refused hgate).1.symm.trans h) (by simp)
  | ok =>
    obtain ⟨condition, hfilter, hlet⟩ := bind_eq_ok.mp hgate
    refine ⟨hlet, ?_⟩
    obtain ⟨found, hsplit⟩ := Collection.split?_of_total (total_ownedFilter hfilter)
      (s.documents repo.collection)
    rcases found with _ | ⟨before, d, after⟩
    · exact absurd ((update_none hfilter hlet hsplit).1.symm.trans h) (by simp [notFound])
    · obtain ⟨hdocuments, -, hholds⟩ := Collection.split?_eq_some hsplit
      rw [holds_ownedFilter hfilter, Except.ok.injEq, Bool.and_eq_true] at hholds
      obtain ⟨o, hrecord⟩ := hrecords d (by simp [hdocuments])
      rcases update_found now hfilter hlet hsplit (storedOwner_of_isRecordOf hrecord) with
        ⟨hdone, hstore⟩ | ⟨hshares, -⟩
      · obtain rfl := Except.ok.inj (hdone.symm.trans h)
        rw [Store.documents, hstore, if_pos rfl,
          keepId_toJson hlawful hkeeps hrecord.id hholds.1 now o]
        simp
      · exact absurd (hshares.symm.trans h) (by simp [Collection.duplicate])

end Repository

/-- **A stored record is what a lookup of its primary key answers**: directly, and by a
search at every audience at which the caller has it in scope. -/
theorem Written.finds_stored {s : Store} (h : Written s) {repo : Repository α} {r : Request}
    {a : α} (hlawful : repo.entity.Lawful) (hvalid : repo.config.validate = .ok ())
    (hid : repo.schema.RegistersId) (hlet : repo.admission r = .ok ())
    (hread : repo.entity.ofJson? (repo.entity.toJson a) = some a)
    (hstored : repo.entity.toJson a ∈ s.documents repo.collection) :
    (repo.getById r (repo.entity.id a)).result s = .ok (some a) ∧
      ∀ audience condition enforced,
        Guard.enforce condition ⟨r.source, audience⟩ r = .ok enforced →
        Guard.inScope ⟨r.source, audience⟩ r (repo.entity.toJson a) = true →
        (repo.search r (Search.byId r (repo.entity.id a) audience)).result s = .ok [a] := by
  have hone := (h.keyed repo.collection).filter_eq hstored (hlawful.id a)
  have hdecode : repo.decode (repo.entity.toJson a) = .ok a := by
    simp only [Repository.decode, hread]
  refine ⟨?_, fun audience condition enforced henforce hscope => ?_⟩
  · rw [Repository.result_getById, hlet, hone]
    simp only [List.head?_cons, hdecode]
    rfl
  · rw [Repository.result_search_byId hvalid hid hlet henforce]
    simp only [Bool.and_comm (Filter.satisfies _ _), ← List.filter_filter, hone,
      List.filter_cons, hscope, ↓reduceIte, List.filter_nil, List.take_succ_cons, List.take_zero,
      List.mapM_cons, hdecode]
    rfl

/-! ## Later on -/

/-- **A document that later operations spare**: calls are made, of any repositories and by
any callers, but in the collection of the document only by callers who do not have it in
scope at their default audience. -/
inductive Spared (name : String) (document : Json) (s : Store) : Store → Prop where
  /-- Nothing has happened yet. -/
  | refl : Spared name document s s
  /-- A call is made, and done or refused. -/
  | call {t : Store} (h : Spared name document s t) (c : Call)
    (hunseen : c.repo.collection = name → c.repo.mayChange c.request document = false) :
    Spared name document s (c.after t)
  /-- An index is made. -/
  | index {t : Store} (h : Spared name document s t) (other : String) (i : Index) :
    Spared name document s ((Store.createIndex other i).after t)

/-- A change leaves what its caller does not see. -/
theorem Change.mem_of_unseen {sees : Json → Bool} {owner : Except Error Owner} {d : Json}
    {documents documents' : List Json} (h : Change sees owner documents documents')
    (hunseen : sees d = false) (hd : d ∈ documents) : d ∈ documents' := by
  cases h with
  | added _ new _ => exact List.mem_append_left _ hd
  | replaced before after old new seen _ _ =>
    have hne : d ≠ old := fun heq => by simp [← heq, hunseen] at seen
    simp only [List.mem_append, List.mem_cons, hne, false_or] at hd ⊢
    rcases hd with hd | hd
    · exact .inl hd
    · exact .inr (.inr hd)
  | removed before after old seen =>
    have hne : d ≠ old := fun heq => by simp [← heq, hunseen] at seen
    simpa only [List.mem_append, List.mem_cons, hne, false_or] using hd

/-- **What is spared stays.** -/
theorem Spared.keeps {name : String} {document : Json} {s t : Store}
    (h : Spared name document s t) (hs : Written s) (hd : document ∈ s.documents name) :
    Written t ∧ document ∈ t.documents name := by
  induction h with
  | refl => exact ⟨hs, hd⟩
  | @call t _ c hunseen ih =>
    obtain ⟨hwritten, hmem⟩ := ih
    refine ⟨hwritten.call c, ?_⟩
    obtain ⟨hchange, hothers⟩ := hwritten.changes_only_own c
    by_cases hname : c.repo.collection = name
    · subst hname
      exact hchange.mem_of_unseen (hunseen rfl) hmem
    · rwa [Store.documents, hothers name (Ne.symm hname)]
  | index _ other i ih => exact ⟨ih.1.index other i, by rw [Store.documents_createIndex]; exact ih.2⟩

/-! ## The whole -/

/-- **Callers read what they wrote.** In a store that operations have written, a record that
a creation answers, and that is read as it is stored, is what the caller is answered with who
asks for its primary key; and it alone is found by a search for the key, at every audience at
which the guard accepts the caller. A record that an update answers is so, too, at the
default audience. All this stays as it is while only callers write that do not have the
record in scope. -/
theorem Written.reads_back {s : Store} (h : Written s) {repo : Repository α}
    (hlawful : repo.entity.Lawful) (hkeeps : repo.entity.KeepsId)
    (hvalid : repo.config.validate = .ok ()) (hid : repo.schema.RegistersId) (r : Request) :
    (∀ record a, (repo.create r record).result s = .ok a →
      repo.entity.ofJson? (repo.entity.toJson a) = some a →
      ∀ t, Spared repo.collection (repo.entity.toJson a) ((repo.create r record).after s) t →
        (repo.getById r (repo.entity.id a)).result t = .ok (some a) ∧
        ∀ audience condition enforced,
          Guard.enforce condition ⟨r.source, audience⟩ r = .ok enforced →
          (repo.search r (Search.byId r (repo.entity.id a) audience)).result t = .ok [a]) ∧
    ∀ now record a, (repo.update now r record).result s = .ok a →
      repo.entity.ofJson? (repo.entity.toJson a) = some a →
      ∀ t, Spared repo.collection (repo.entity.toJson a)
          ((repo.update now r record).after s) t →
        (repo.getById r (repo.entity.id a)).result t = .ok (some a) ∧
        (repo.search r (Search.byId r (repo.entity.id a) repo.config.defaultAudience)).result t =
          .ok [a] := by
  constructor
  · intro record a hcreate hread t ht
    obtain ⟨hlet, hstored, o, howner, rfl⟩ := Repository.create_stores hcreate
    obtain ⟨hwritten, hthere⟩ := ht.keeps (h.call ⟨repo, hlawful, r, .create record⟩) hstored
    obtain ⟨hget, hsearch⟩ := hwritten.finds_stored hlawful hvalid hid hlet hread hthere
    refine ⟨hget, fun audience condition enforced henforce =>
      hsearch audience condition enforced henforce ?_⟩
    obtain ⟨terms, hterms, -⟩ := map_eq_ok.mp henforce
    exact (Guard.inScope_iff_covers hterms (hlawful.owner o record)).mpr
      (Guard.covers_own howner hterms)
  · intro now record a hupdate hread t ht
    have hrecords := h.records repo.collection
    obtain ⟨hlet, hstored⟩ := Repository.update_stores hlawful hkeeps hrecords hupdate
    obtain ⟨hwritten, hthere⟩ := ht.keeps (h.call ⟨repo, hlawful, r, .update now record⟩) hstored
    obtain ⟨hget, hsearch⟩ := hwritten.finds_stored hlawful hvalid hid hlet hread hthere
    -- what a caller may change is in scope at the default audience, so the guard has accepted
    have hscope := Repository.update_in_scope hlawful hrecords hupdate
    rw [Repository.mayChange_eq] at hscope
    obtain ⟨enforced, henforce⟩ := Guard.enforce_of_inScope (.obj []) hscope
    exact ⟨hget, hsearch _ _ enforced henforce hscope⟩

/-- Another user tries to take the record out. -/
def meddling : Call where
  repo := Repository.submissions
  lawful := Record.lawful_entity
  request := Repository.userRequest ⟨3⟩
  operation := .delete ⟨7⟩

open Repository in
/-- The user finds the record that was sent in, before and after. -/
theorem Written.reads_back_submission :
    (submissions.getById (userRequest ⟨2⟩) ⟨7⟩).result (meddling.after (sending.after {})) =
        .ok (some (submissionOf ⟨2⟩ ⟨7⟩ "k")) ∧
      (submissions.search (userRequest ⟨2⟩)
        (Search.byId (userRequest ⟨2⟩) ⟨7⟩ .user)).result (meddling.after (sending.after {})) =
        .ok [submissionOf ⟨2⟩ ⟨7⟩ "k"] ∧
      (submissions.search (userRequest ⟨2⟩) (Search.byId (userRequest ⟨2⟩) ⟨7⟩ .user)).result
        ((submissions.update default (userRequest ⟨2⟩) (submission ⟨7⟩ "m")).after
          (sending.after {})) = .ok [submissionOf ⟨2⟩ ⟨7⟩ "m"] := by
  have hread (key : String) : Record.entity.ofJson? (Record.entity.toJson
      (submissionOf ⟨2⟩ ⟨7⟩ key)) = some (submissionOf ⟨2⟩ ⟨7⟩ key) :=
    ofJson?_submission ⟨⟨1⟩, none, none, some ⟨2⟩⟩ ⟨7⟩ key
  have hempty : Written {} := .start fun _ => rfl
  have hcreated := (hempty.reads_back Record.lawful_entity Record.keepsId_entity rfl
    registersId_submissions (userRequest ⟨2⟩)).1 (submission ⟨7⟩ "k") (submissionOf ⟨2⟩ ⟨7⟩ "k")
    rfl (hread "k") (meddling.after (sending.after {})) (.call .refl meddling fun _ => rfl)
  have hupdated := ((hempty.call sending).reads_back Record.lawful_entity Record.keepsId_entity rfl
    registersId_submissions (userRequest ⟨2⟩)).2 default (submission ⟨7⟩ "m")
    (submissionOf ⟨2⟩ ⟨7⟩ "m") rfl (hread "m") _ .refl
  exact ⟨hcreated.1, hcreated.2 .user .null _ rfl, hupdated.2⟩

end ScopedDocs
