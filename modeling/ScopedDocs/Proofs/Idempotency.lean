import ScopedDocs.Proofs.Change
import ScopedDocs.Proofs.Storage
/-!
# Idempotency — the record that is there already

A record that is stored once and comes again is answered with the first document of
the caller's tenant whose key equals the record's (`Repository.alreadyExists_found`).
The store refuses a record because its key is the same as a stored one; it finds the
stored one by the equality of filters, which takes texts of one instant as equal and
looks into arrays (`Filter.equalsAt_text_iff`). So the answer is the record of another
key where one is stored that filters do not tell apart, and it is of the very key
where keys are single texts and the given one names no instant.
-/


namespace ScopedDocs

/-! ## Equality in filters -/

/-- Instants that are at one time are the same. -/
theorem Instant.compare_eq_iff {s t : Instant} : s.compare t = .eq ↔ s = t := by
  cases s
  cases t
  simp [Instant.compare, Ordering.then_eq_eq]

/-- **Texts that filters do not tell apart**: one text, or two of one instant. -/
def EqualTexts (a b : String) : Prop :=
  a = b ∨ ∃ t, Instant.ofStrictText? a = some t ∧ Instant.ofStrictText? b = some t

/-- Texts compare as equal just when filters do not tell them apart. -/
theorem compareTexts_eq_iff {a b : String} : compareTexts a b = .eq ↔ EqualTexts a b := by
  unfold compareTexts EqualTexts
  cases hs : Instant.ofStrictText? a with
  | none => simp
  | some s =>
    cases ht : Instant.ofStrictText? b with
    | none => simp
    | some t =>
      simp only [Instant.compare_eq_iff, Option.some.injEq]
      refine ⟨fun h => .inr ⟨s, rfl, h.symm⟩, ?_⟩
      rintro (rfl | ⟨_, rfl, rfl⟩)
      · exact Option.some.inj (hs.symm.trans ht)
      · rfl

namespace Json

/-- A value equals a text in filters just when it is a text they do not tell apart. -/
theorem matchesValue_str_iff {v : Json} {text : String} :
    v.matchesValue (str text) = true ↔ ∃ t, v = str t ∧ EqualTexts t text := by
  cases v <;> simp [matchesValue, isCompound, compare?, same, compareTexts_eq_iff]

end Json

namespace Filter

/-- **A path equals a text** if it reaches such a text, or an array that holds one. -/
theorem equalsAt_text_iff {document : Json} {segments : List String} {text : String} :
    equalsAt document segments (.str text) = true ↔
      ∃ t, .str t ∈ document.candidates segments ∧ EqualTexts t text := by
  have hvalues : equalsAt document segments (.str text) =
      (document.candidates segments).any fun value => value.matchesValue (.str text) := by
    unfold equalsAt
    cases document.candidates segments <;> rfl
  rw [hvalues, List.any_eq_true]
  constructor
  · rintro ⟨v, hv, hmatch⟩
    obtain ⟨t, rfl, ht⟩ := Json.matchesValue_str_iff.mp hmatch
    exact ⟨t, hv, ht⟩
  · rintro ⟨t, hv, ht⟩
    exact ⟨.str t, hv, Json.matchesValue_str_iff.mpr ⟨t, rfl, ht⟩⟩

/-- A member that is a text is an equality test. -/
theorem memberHolds_text {key : String} {segments : List String} (h : Key.of key = .path segments)
    (document : Json) (text : String) :
    memberHolds document key (.str text) = .ok (equalsAt document segments (.str text)) := by
  rw [← holds_single, holds_text h]

end Filter

/-! ## The owner that is read -/

/-- **What is asked of reading a type of records**: the owner is read from where
owners are stored. -/
def Entity.ReadsOwner {α : Type} (e : Entity α) : Prop :=
  ∀ document a, e.ofJson? document = some a → ∃ value o, document.get? Owner.path = some value ∧
    Owner.ofJson? value = some o ∧ (e.toJson a).get? Owner.path = some o.toJson

namespace Json.Decode

/-- Only texts are identifiers. -/
theorem text_of_uuid? {value : Json} {u : Uuid} (h : uuid? value = some u) :
    ∃ t, value = .str t ∧ Uuid.ofText? t = some u := by
  cases value <;> simp_all [uuid?, Json.string?]

/-- A level that was read is no object. -/
theorem get?_of_optional? {value : Json} {id : Option Uuid} (h : optional? uuid? value = some id)
    (key : String) : value.get? key = none := by
  cases value <;> simp_all [optional?, uuid?, Json.string?, Json.get?]

end Json.Decode

namespace Owner

open Json.Decode in
/-- An owner that was read is written by its levels, in an object or in their order. -/
theorem ofJson?_eq_some {value : Json} {o : Owner} (h : ofJson? value = some o) :
    ∃ tenant rest, uuid? tenant = some o.tenant ∧
      (∀ level ∈ rest, ∀ v, level = some v → ∃ id, optional? uuid? v = some id) ∧
      fields? ([OwnerLevel.tenant, .client, .group, .user].map OwnerLevel.key) value =
        some (some tenant :: rest) := by
  unfold ofJson? at h
  split at h
  · next tenant client group user hfields =>
    simp only [Option.bind_eq_bind, Option.bind_eq_some_iff, Option.some.injEq] at h
    obtain ⟨t, htenant, c, hclient, g, hgroup, u, huser, rfl⟩ := h
    obtain ⟨v, rfl, hv⟩ := Option.bind_eq_some_iff.mp htenant
    refine ⟨v, [client, group, user], hv, ?_, hfields⟩
    intro level hlevel w hw
    simp only [List.mem_cons, List.not_mem_nil, or_false] at hlevel
    rcases hlevel with rfl | rfl | rfl
    · exact ⟨c, by simpa [hw, orElse?] using hclient⟩
    · exact ⟨g, by simpa [hw, orElse?] using hgroup⟩
    · exact ⟨u, by simpa [hw, orElse?] using huser⟩
  · exact absurd h (by simp)

/-- The tenant of an owner that is an object is the text at its key. -/
theorem lookup_tenant {members : Members Json} {o : Owner}
    (hread : ofJson? (.obj members) = some o) :
    ∃ text, members.lookup OwnerLevel.tenant.key = some (.str text) ∧
      Uuid.ofText? text = some o.tenant := by
  obtain ⟨tenant, rest, htenant, -, hfields⟩ := ofJson?_eq_some hread
  obtain ⟨text, rfl, htext⟩ := Json.Decode.text_of_uuid? htenant
  simp only [Json.Decode.fields?, List.map_cons, Option.some.injEq, List.cons.injEq] at hfields
  exact ⟨text, hfields.1, htext⟩

/-- The levels of an owner that lists them in their order are no objects. -/
theorem get?_of_listed {items : List Json} {o : Owner} (hread : ofJson? (.arr items) = some o)
    (key : String) : ∀ item ∈ items, item.get? key = none := by
  obtain ⟨tenant, rest, htenant, hrest, hfields⟩ := ofJson?_eq_some hread
  intro item hitem
  have hmem : some item ∈ some tenant :: rest := by
    simp only [Json.Decode.fields?] at hfields
    split at hfields
    · rw [← Option.some.inj hfields]
      exact List.mem_append_left _ (List.mem_map_of_mem hitem)
    · exact absurd hfields (by simp)
  rcases List.mem_cons.mp hmem with heq | hmem
  · obtain ⟨text, rfl, -⟩ := Json.Decode.text_of_uuid? htenant
    rw [Option.some.inj heq]
    rfl
  · obtain ⟨id, hid⟩ := hrest _ hmem item rfl
    exact Json.Decode.get?_of_optional? hid key

/-- **The tenant that filters see** is the one that is read. -/
theorem tenant_of_equalsAt {document value : Json} {o : Owner} {u : Uuid}
    (hstored : document.get? path = some value) (hread : ofJson? value = some o)
    (h : Filter.equalsAt document [path, OwnerLevel.tenant.key] (.str u.text) = true) :
    o.tenant = u := by
  obtain ⟨t, hreach, hequal⟩ := Filter.equalsAt_text_iff.mp h
  have hchildren := Json.children_of_get? hstored (Json.isObject_of_get? hstored)
  simp only [Json.candidates, Json.reach, hchildren, List.flatMap_cons, List.flatMap_nil,
    List.append_nil] at hreach
  cases value with
  | obj members =>
    obtain ⟨text, hlook, htext⟩ := lookup_tenant hread
    simp only [Json.children, hlook, Option.toList_some, List.flatMap_cons, List.flatMap_nil,
      List.append_nil, Json.withItems, Json.items?, Option.getD_none, List.mem_singleton,
      Json.str.injEq] at hreach
    subst hreach
    rcases hequal with rfl | ⟨i, -, hinstant⟩
    · rw [Uuid.ofText?_text, Option.some.injEq] at htext
      exact htext.symm
    · exact absurd hinstant (by simp)
  | arr items =>
    -- no path leads on from listed levels
    have hempty : items.filterMap (·.get? OwnerLevel.tenant.key) = [] :=
      List.filterMap_eq_nil_iff.mpr (get?_of_listed hread _)
    simp [Json.children, hempty] at hreach
  | _ => simp [Json.children] at hreach

end Owner

/-- **Records with any further fields** are read with the owner they are stored
under. -/
theorem Record.readsOwner : Record.entity.ReadsOwner := by
  intro document a h
  cases document with
  | obj members =>
    obtain ⟨base, hbase, rfl⟩ := Option.map_eq_some_iff.mp h
    unfold RecordBase.ofJson? at hbase
    split at hbase
    · next id owner createdAt updatedAt hfields =>
      simp only [Option.bind_eq_bind, Option.bind_eq_some_iff, Option.some.injEq] at hbase
      obtain ⟨_, -, o, howner, _, -, _, -, rfl⟩ := hbase
      obtain ⟨value, rfl, hvalue⟩ := Option.bind_eq_some_iff.mp howner
      simp only [Json.Decode.fields?, RecordBase.keys, List.map_cons, Option.some.injEq,
        List.cons.injEq] at hfields
      exact ⟨value, o, hfields.2.1, hvalue, rfl⟩
    · exact absurd hbase (by simp)
  | _ => exact absurd h (by simp [Record.entity, Record.ofJson?])

/-- What a caller writes belongs to the caller's tenant. -/
theorem Request.tenant_of_owner {r : Request} {o : Owner} (h : r.owner = .ok o) :
    usable r.caller.tenant = some o.tenant := by
  unfold Request.owner at h
  split at h
  · next htenant => rw [htenant, ← Except.ok.inj h]
  · exact absurd h (by simp)

namespace Repository

variable {α : Type} {repo : Repository α} {r : Request} {s : Store} {path key : String} {o : Owner}

/-! ## Looking for the key -/

/-- **The filter of a key** tests the key and the tenant. -/
theorem holds_keyFilter (h : Schema.Leads path) (key : String) (o : Owner) (document : Json) :
    Filter.holds document (keyFilter path key o) =
      .ok (Filter.equalsAt document (Dotted.segments path) (.str key) &&
        Filter.equalsAt document [Owner.path, OwnerLevel.tenant.key] (.str o.tenant.text)) := by
  have hne : Owner.levelPath .tenant ≠ path := by
    rintro rfl
    exact h.apart (by decide)
  have hkeys : keyFilter path key o =
      .obj [(path, .str key), (Owner.levelPath .tenant, .str o.tenant.text)] := by
    simp [keyFilter, Members.put, hne]
  rw [hkeys, Filter.holds, Filter.membersHold, Filter.membersHold, Filter.membersHold,
    Filter.memberHolds_text h.key, Filter.memberHolds_text (Guard.keyOf_levelPath .tenant)]
  cases Filter.equalsAt document (Dotted.segments path) (.str key) with
  | false => rfl
  | true =>
    cases Filter.equalsAt document [Owner.path, OwnerLevel.tenant.key] (.str o.tenant.text) <;> rfl

/-- A record that is refused leaves every collection as it is. -/
theorem create_refused {record : α} {e : Error} (h : (repo.create r record).result s = .error e)
    (name : String) : ((repo.create r record).after s).collection name = s.collection name := by
  rw [create, StoreM.result_bind, StoreM.result_answer] at h
  rw [create, StoreM.after_bind, StoreM.result_answer]
  cases howner : r.owner with
  | error e => rfl
  | ok o =>
    simp only [howner, ok_bind, StoreM.after_answer, StoreM.result_bind, result_call] at h
    dsimp only
    rw [StoreM.after_bind_of_keeps fun _ _ => rfl, after_call]
    cases hlet : repo.admission r with
    | error e => rfl
    | ok _ =>
      rcases Store.insertOne_cases repo.collection
          (repo.entity.toJson (repo.entity.withOwner o record)) s with ⟨-, -, hsame⟩ | ⟨hdone, -⟩
      · exact hsame name
      · -- an accepted record is the answer
        rw [hlet, ok_bind, hdone] at h
        exact absurd h (by simp)

/-- **The record of a taken key** is that of the first document of the caller's tenant
with an equal key. -/
theorem existing_ok {a : α} (hleads : Schema.Leads path)
    (h : (repo.existing r path key).result s = .ok a) :
    ∃ o before d after, r.owner = .ok o ∧
      s.documents repo.collection = before ++ d :: after ∧
      (∀ b ∈ before, Filter.holds b (keyFilter path key o) = .ok false) ∧
      Filter.holds d (keyFilter path key o) = .ok true ∧ repo.entity.ofJson? d = some a := by
  rw [existing, StoreM.result_bind, StoreM.result_answer] at h
  obtain ⟨o, howner, h⟩ := bind_eq_ok.mp h
  have htotal : Filter.Total (keyFilter path key o) :=
    Filter.total_of_holds (holds_keyFilter hleads key o)
  obtain ⟨found, hsplit⟩ := Collection.split?_of_total htotal (s.documents repo.collection)
  rw [StoreM.after_answer, StoreM.result_bind, result_findFirst htotal hsplit] at h
  obtain ⟨first, hfirst, h⟩ := bind_eq_ok.mp h
  obtain ⟨-, -, rfl⟩ := map_eq_ok.mp hfirst
  rcases found with _ | ⟨before, d, after⟩
  · exact absurd h (by simp)
  · obtain ⟨hdocuments, hbefore, hd⟩ := Collection.split?_eq_some hsplit
    refine ⟨o, before, d, after, howner, hdocuments, hbefore, hd, ?_⟩
    simp only [Option.map_some, StoreM.result_answer, decode] at h
    split at h
    · next hread => rw [hread, Except.ok.inj h]
    · exact absurd h (by simp)

/-- **What already exists** was found by the record's key in the documents that were
there. -/
theorem alreadyExists_found {record a : α} (hbuilt : repo.schema.IsBuilt)
    (h : (repo.createIdempotent r record).result s = .ok (.alreadyExists a)) :
    ∃ key path o before d after, repo.entity.idempotencyKey record = some key ∧
      repo.schema.idempotencyPath = some path ∧ r.owner = .ok o ∧
      s.documents repo.collection = before ++ d :: after ∧
      (∀ b ∈ before, Filter.holds b (keyFilter path key o) = .ok false) ∧
      Filter.holds d (keyFilter path key o) = .ok true ∧ repo.entity.ofJson? d = some a := by
  unfold createIdempotent at h
  split at h
  · rw [StoreM.result_map] at h
    obtain ⟨_, -, heq⟩ := map_eq_ok.mp h
    exact absurd heq (by simp)
  · next key hkey =>
    split at h
    · exact absurd h (by simp)
    · next path hpath =>
      rw [StoreM.result_tryCatch, StoreM.result_map, StoreM.after_map] at h
      cases hcreate : (repo.create r record).result s with
      | ok created => exact absurd h (by simp [hcreate, Except.map])
      | error e =>
        simp only [hcreate, Except.map] at h
        split at h
        · rw [StoreM.result_map] at h
          obtain ⟨_, hexisting, heq⟩ := map_eq_ok.mp h
          obtain rfl := IdempotentResult.alreadyExists.inj heq
          obtain ⟨o, before, d, after, howner, hdocuments, hrest⟩ :=
            existing_ok (hbuilt.sound.2 path hpath) hexisting
          rw [Store.documents, create_refused hcreate] at hdocuments
          exact ⟨key, path, o, before, d, after, hkey, hpath, howner, hdocuments, hrest⟩
        · exact absurd h (by simp)

/-! ## Whose key it is -/

/-- **A document of a tenant with an equal key**: its path reaches a text that filters
do not tell apart from the key, or an array that holds one. -/
def HasKey (tenant : Uuid) (path key : String) (document : Json) : Prop :=
  Filter.equalsAt document [Owner.path, OwnerLevel.tenant.key] (.str tenant.text) = true ∧
    ∃ t, .str t ∈ document.candidates (Dotted.segments path) ∧ EqualTexts t key

theorem holds_keyFilter_iff (h : Schema.Leads path) {document : Json} :
    Filter.holds document (keyFilter path key o) = .ok true ↔
      HasKey o.tenant path key document := by
  rw [holds_keyFilter h, Except.ok.injEq, Bool.and_eq_true, Filter.equalsAt_text_iff, HasKey,
    and_comm]

/-- A single text is the key itself, if the key names no instant. -/
theorem HasKey.exact {tenant : Uuid} {document : Json} {t : String}
    (h : HasKey tenant path key document) (hkey : Instant.ofStrictText? key = none)
    (hplain : document.reach (Dotted.segments path) = [.str t]) :
    document.first? path = some (.str key) := by
  obtain ⟨-, t', hreach, hequal⟩ := h
  simp only [Json.candidates, hplain, List.flatMap_cons, List.flatMap_nil, Json.withItems,
    Json.items?, Option.getD_none, List.append_nil, List.mem_singleton, Json.str.injEq] at hreach
  subst hreach
  rcases hequal with rfl | ⟨_, -, hinstant⟩
  · rw [Json.first?, hplain, List.head?_cons]
  · rw [hkey] at hinstant
    exact absurd hinstant (by simp)

/-- **The record that is answered.** It is read from the first document of the
caller's tenant whose key equals the given one as filters compare, and it belongs to
that tenant. Where this document has a single text as its key and the given key names
no instant, the two are the very same. -/
theorem alreadyExists_equal_key {record a : α} (hbuilt : repo.schema.IsBuilt)
    (hreads : repo.entity.ReadsOwner)
    (h : (repo.createIdempotent r record).result s = .ok (.alreadyExists a)) :
    ∃ key path tenant before d after, repo.entity.idempotencyKey record = some key ∧
      repo.schema.idempotencyPath = some path ∧ usable r.caller.tenant = some tenant ∧
      s.documents repo.collection = before ++ d :: after ∧
      (∀ b ∈ before, ¬ HasKey tenant path key b) ∧ HasKey tenant path key d ∧
      repo.entity.ofJson? d = some a ∧
      (∃ o : Owner, (repo.entity.toJson a).get? Owner.path = some o.toJson ∧ o.tenant = tenant) ∧
      (Instant.ofStrictText? key = none →
        (∃ t, d.reach (Dotted.segments path) = [.str t]) → d.first? path = some (.str key)) := by
  obtain ⟨key, path, o, before, d, after, hkey, hpath, howner, hdocuments, hbefore, hd, hread⟩ :=
    alreadyExists_found hbuilt h
  have hleads := hbuilt.sound.2 path hpath
  have hhas := (holds_keyFilter_iff hleads).mp hd
  obtain ⟨value, o', hstored, hvalue, howned⟩ := hreads d a hread
  refine ⟨key, path, o.tenant, before, d, after, hkey, hpath, r.tenant_of_owner howner, hdocuments, ?_, hhas,
    hread,
    ⟨o', howned, Owner.tenant_of_equalsAt hstored hvalue hhas.1⟩, ?_⟩
  · intro b hb hkeyed
    exact absurd ((hbefore b hb).symm.trans ((holds_keyFilter_iff hleads).mpr hkeyed)) (by simp)
  · rintro hinstant ⟨t, hplain⟩
    exact hhas.exact hinstant hplain

/-- The declarations of records that are submitted once. -/
def submissionDraft : Schema.Draft :=
  ((Schema.Draft.start "submission" "submissions").map "Key" "idempotency_key").idempotent "Key"

/-- The index of their keys. -/
def submissionIndex : Index :=
  ⟨"idempotency_key_unique", [⟨"idempotency_key", .ascending⟩], true, true⟩

/-- A repository of records that are submitted once. -/
def submissions : Repository Record :=
  ⟨{ entityType := "submission", collection := "submissions", access := [("ID", true)],
      mapping := [("ID", "_id"), ("Key", "idempotency_key")], fields := [],
      indexes := [submissionIndex], idempotencyPath := some "idempotency_key" }, {}, Record.entity⟩

theorem isBuilt_submissions : submissions.schema.IsBuilt := ⟨submissionDraft, rfl⟩

/-- A record with a key. -/
def submission (id : Uuid) (key : String) : Record :=
  ⟨⟨id, Owner.nobody, default, default⟩, [("idempotency_key", .str key)]⟩

/-- A user of a tenant. -/
def userRequest (user : Uuid) : Request :=
  ⟨{ tenant := some ⟨1⟩, user := some user }, none, none, false⟩

/-- A record as a user's submission is stored. -/
def submissionOf (user id : Uuid) (key : String) : Record :=
  (submission id key).withOwner ⟨⟨1⟩, none, none, some user⟩

/-- The store that a user's submissions with keys leave, one after the other. -/
def submitted (user : Uuid) (records : List (Uuid × String)) : Store :=
  records.foldl (fun s (id, key) =>
    (submissions.createIdempotent (userRequest user) (submission id key)).after s)
    (submissions.ensureIndexes.after {})

/-- A second record of a key is answered with the first one. -/
theorem alreadyExists_equal_key_again :
    (submissions.createIdempotent (userRequest ⟨2⟩) (submission ⟨8⟩ "k")).result
        (submitted ⟨2⟩ [(⟨7⟩, "k")]) = .ok (.alreadyExists (submissionOf ⟨2⟩ ⟨7⟩ "k")) ∧
      ∃ d ∈ (submitted ⟨2⟩ [(⟨7⟩, "k")]).documents "submissions",
        Record.ofJson? d = some (submissionOf ⟨2⟩ ⟨7⟩ "k") ∧
          d.first? "idempotency_key" = some (.str "k") := by
  have hresult : (submissions.createIdempotent (userRequest ⟨2⟩) (submission ⟨8⟩ "k")).result
      (submitted ⟨2⟩ [(⟨7⟩, "k")]) = .ok (.alreadyExists (submissionOf ⟨2⟩ ⟨7⟩ "k")) := rfl
  obtain ⟨key, path, tenant, before, d, after, hkey, hpath, -, hdocuments, -, -, hread, -, hexact⟩ :=
    alreadyExists_equal_key isBuilt_submissions Record.readsOwner hresult
  obtain rfl : "k" = key := Option.some.inj hkey
  obtain rfl : "idempotency_key" = path := Option.some.inj hpath
  have hd : d ∈ (submitted ⟨2⟩ [(⟨7⟩, "k")]).documents "submissions" := by
    change d ∈ (submitted ⟨2⟩ [(⟨7⟩, "k")]).documents submissions.collection
    rw [hdocuments]
    simp
  refine ⟨hresult, d, hd, hread, hexact rfl ⟨"k", ?_⟩⟩
  have hone : (submitted ⟨2⟩ [(⟨7⟩, "k")]).documents "submissions" =
    [(submissionOf ⟨2⟩ ⟨7⟩ "k").toJson] := rfl
  rw [hone, List.mem_singleton] at hd
  rw [hd]
  rfl

/-- Whether the index of a key is in force: it is there, and no two documents share a
key in it. -/
def KeyInForce (repo : Repository α) (path : String) (s : Store) : Prop :=
  ∃ i ∈ s.indexes repo.collection, i.unique = true ∧ i.paths = [path] ∧
    Collection.distinctKeys i (s.documents repo.collection) = true

/-- **The answer may be the record of another key.** Two keys name one instant in two
ways, and a third record with the second key is answered with the record of the
first. -/
theorem alreadyExists_other_key :
    ¬ ∀ (repo : Repository Record) (r : Request) (s : Store) (record a : Record)
      (path key : String), repo.schema.IsBuilt → repo.schema.idempotencyPath = some path →
      repo.KeyInForce path s → repo.entity.idempotencyKey record = some key →
      (repo.entity.toJson record).first? path = some (.str key) →
      (repo.createIdempotent r record).result s = .ok (.alreadyExists a) →
      ∃ d ∈ s.documents repo.collection, repo.entity.ofJson? d = some a ∧
        d.first? path = some (.str key) := by
  intro h
  obtain ⟨d, hd, hread, hkey⟩ := h submissions (userRequest ⟨2⟩)
    (submitted ⟨2⟩ [(⟨7⟩, "2024-01-01T01:00:00+01:00"), (⟨8⟩, "2024-01-01T00:00:00Z")])
    (submission ⟨9⟩ "2024-01-01T00:00:00Z") (submissionOf ⟨2⟩ ⟨7⟩ "2024-01-01T01:00:00+01:00")
    "idempotency_key" "2024-01-01T00:00:00Z" isBuilt_submissions rfl
    ⟨submissionIndex, by decide, rfl, rfl, rfl⟩ rfl rfl rfl
  change d ∈ [(submissionOf ⟨2⟩ ⟨7⟩ "2024-01-01T01:00:00+01:00").toJson,
    (submissionOf ⟨2⟩ ⟨8⟩ "2024-01-01T00:00:00Z").toJson] at hd
  simp only [List.mem_cons, List.not_mem_nil, or_false] at hd
  rcases hd with rfl | rfl
  · -- the first record has the first key
    have hfirst : some (Json.str "2024-01-01T01:00:00+01:00") =
      some (.str "2024-01-01T00:00:00Z") := hkey
    exact absurd hfirst (by simp)
  · -- and the second one is not the answer
    have hid : (⟨8⟩ : Uuid) = ⟨7⟩ := congrArg (·.base.id) (Option.some.inj hread)
    exact absurd hid (by decide)

end Repository

end ScopedDocs
