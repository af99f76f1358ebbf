import ScopedDocs.Guard
import ScopedDocs.Proofs.Filter
import ScopedDocs.Proofs.Owner
/-!
# The guard — the terms of a scope

What `Guard.scopeTerms` accepts and builds (`Guard.scopeTerms_cases`), and what
the terms test. Each of them can be tried on every document, and the guard tries
them in front of the caller's filter, so that a filter is evaluated on documents
in scope and on no others (`Guard.holds_combine`). On a stored owner the terms
say what `Guard.Covers` says of the owner itself.
-/


namespace ScopedDocs

namespace Json

/-- A member is the one child of its object at its key. -/
theorem children_of_get? {document value : Json} {key : String}
    (h : document.get? key = some value) (hobj : document.isObject = true) :
    document.children key = [value] := by
  cases document with
  | obj members =>
    have hlook : members.lookup key = some value := h
    simp [children, hlook]
  | _ => exact absurd hobj (by simp [isObject])

/-- Only objects have members. -/
theorem isObject_of_get? {document value : Json} {key : String}
    (h : document.get? key = some value) : document.isObject = true := by
  cases document with
  | obj members => rfl
  | _ => exact absurd h (by simp [get?])

/-- The text of an identifier equals the text of that identifier and no other,
in filters too. -/
theorem matchesValue_text (u v : Uuid) :
    (str u.text).matchesValue (str v.text) = decide (u = v) := by
  simp only [matchesValue, isCompound, Bool.or_self, Bool.false_eq_true, ↓reduceIte, compare?,
    compareTexts, Instant.ofStrictText?_text]
  rw [Bool.eq_iff_iff]
  simp [Uuid.text_inj]

end Json

namespace Guard

variable {document : Json} {o : Owner} {r : Request} {declared : Owner} {audience : Audience}
variable {terms : List Json}

/-! ## Single terms -/

/-- The path of a level is the owner's and the level's key. -/
theorem keyOf_levelPath (level : OwnerLevel) :
    Filter.Key.of (Owner.levelPath level) = .path [Owner.path, level.key] := by
  cases level <;> rfl

/-- A term on a level compares what is stored at the level's path. -/
theorem holds_ownerTerm (document : Json) (level : OwnerLevel) (id : Uuid) :
    Filter.holds document (ownerTerm level id) =
      .ok (Filter.equalsAt document [Owner.path, level.key] (.str id.text)) :=
  Filter.holds_text (keyOf_levelPath level) document id.text

/-- A term on a level is total. -/
theorem total_ownerTerm (level : OwnerLevel) (id : Uuid) : Filter.Total (ownerTerm level id) :=
  Filter.total_of_holds fun d => holds_ownerTerm d level id

/-- **A term on a stored owner** tests the owner's identifier at the level. -/
theorem satisfies_ownerTerm (ho : document.get? Owner.path = some o.toJson) (level : OwnerLevel)
    (id : Uuid) :
    Filter.satisfies document (ownerTerm level id) = decide (o.at? level = some id) := by
  have hpath := Json.children_of_get? ho (Json.isObject_of_get? ho)
  have hlevel := Owner.get?_toJson o level
  rw [Filter.satisfies_of_holds (holds_ownerTerm document level id), Filter.equalsAt,
    Json.candidates, Json.reach, hpath]
  cases hid : o.at? level with
  | none =>
    rw [hid] at hlevel
    have hnone : o.toJson.children level.key = [] := by
      simpa [Owner.toJson, Json.children, Json.get?] using hlevel
    simp [Json.reach, hnone, Json.same]
  | some u =>
    -- the path reaches the one value of the level, since owners hold no arrays
    rw [hid] at hlevel
    have hsome := Json.children_of_get? hlevel rfl
    simp [Json.reach, hsome, Json.withItems, Json.items?, Json.matchesValue_text]

/-- One of several total terms holds if one of them is satisfied. -/
theorem holds_anyOf (hne : terms ≠ []) (h : ∀ t ∈ terms, Filter.Total t) (document : Json) :
    Filter.holds document (anyOf terms) = .ok (terms.any (Filter.satisfies document)) := by
  match terms, hne with
  | [t], _ => simpa [anyOf] using h t (by simp) document
  | t :: u :: rest, _ => exact Filter.holds_or_of_total (by simp) h document

/-! ## What the guard accepts -/

/-- An identifier is usable if it is there and not nil. -/
theorem usable_eq_some {id : Option Uuid} {u : Uuid} :
    usable id = some u ↔ id = some u ∧ u.isNil = false := by
  simp [usable, Option.filter_eq_some_iff]

/-- The tenant's term: the caller's tenant is usable and the declared one. -/
theorem tenantTerm_ok {caller : Caller} {term : Json} (h : tenantTerm caller declared = .ok term) :
    ∃ tenant, usable caller.tenant = some tenant ∧ declared.tenant = tenant ∧
      term = ownerTerm .tenant tenant := by
  unfold tenantTerm at h
  split at h
  · exact absurd h (by simp [refuse])
  · rename_i tenant htenant
    split at h
    · exact absurd h (by simp [refuse])
    · split at h
      · exact absurd h (by simp [refuse])
      · rename_i hsame
        exact ⟨tenant, htenant, Decidable.not_not.mp hsame, (Except.ok.inj h).symm⟩

/-- The client's term: the caller's client is usable and the declared one. -/
theorem clientTerm_ok {caller : Caller} {term : Json} (h : clientTerm caller declared = .ok term) :
    ∃ client, usable caller.client = some client ∧ usable declared.client = some client ∧
      term = ownerTerm .client client := by
  unfold clientTerm at h
  split at h
  · exact absurd h (by simp [refuse])
  · rename_i client hclient
    split at h
    · exact absurd h (by simp [refuse])
    · rename_i other hother
      split at h
      · exact absurd h (by simp [refuse])
      · rename_i hsame
        exact ⟨client, hclient, by rw [hother, Decidable.not_not.mp hsame], (Except.ok.inj h).symm⟩

/-- A checked identifier is the declared one, and the caller's if there is one. -/
theorem checked_ok {level : OwnerLevel} {own id found : Option Uuid}
    (h : checked level own id = .ok found) :
    found = usable id ∧ ∀ u, usable id = some u → usable own = some u := by
  unfold checked at h
  split at h
  · rename_i hnone
    exact ⟨by rw [hnone, Except.ok.inj h], by rw [hnone]; simp⟩
  · rename_i u hsome
    split at h
    · rename_i hown
      refine ⟨by rw [hsome, Except.ok.inj h], fun v hv => ?_⟩
      rw [hsome] at hv
      rw [hown, hv]
    · exact absurd h (by simp [refuse])

/-- A member's term: the identifier the audience needs is there. -/
theorem memberTerm_ok {needed other : OwnerLevel} {id otherId : Option Uuid} {term : Json}
    (h : memberTerm needed other id otherId = .ok term) :
    ∃ u, id = some u ∧
      term = anyOf (ownerTerm needed u :: (otherId.map (ownerTerm other)).toList) := by
  cases id with
  | none => exact absurd h (by simp [memberTerm, refuse])
  | some u => exact ⟨u, rfl, (Except.ok.inj h).symm⟩

/-- The checks of a declared group and a declared user. -/
structure DeclaresOwn (caller : Caller) (declared : Owner) : Prop where
  /-- A declared group is the caller's. -/
  group : ∀ g, usable declared.group = some g → usable caller.group = some g
  /-- A declared user is the caller. -/
  user : ∀ u, usable declared.user = some u → usable caller.user = some u

/-- **What the guard accepts**, and the terms it builds, by audience. -/
theorem scopeTerms_cases (h : scopeTerms declared audience r = .ok terms) :
    ∃ tenant, usable r.caller.tenant = some tenant ∧ declared.tenant = tenant ∧
      ((audience = .client ∧ ∃ client, usable r.caller.client = some client ∧
          usable declared.client = some client ∧
          terms = [ownerTerm .tenant tenant, ownerTerm .client client]) ∨
        (audience = .group ∧ DeclaresOwn r.caller declared ∧
          ∃ group, usable declared.group = some group ∧
            terms = [ownerTerm .tenant tenant, anyOf (ownerTerm .group group ::
              ((usable declared.user).map (ownerTerm .user)).toList)]) ∨
        (audience = .user ∧ DeclaresOwn r.caller declared ∧
          ∃ user, usable declared.user = some user ∧
            terms = [ownerTerm .tenant tenant, anyOf (ownerTerm .user user ::
              ((usable declared.group).map (ownerTerm .group)).toList)])) := by
  simp only [scopeTerms, bind_eq_ok] at h
  obtain ⟨term, hterm, h⟩ := h
  obtain ⟨tenant, htenant, hsame, rfl⟩ := tenantTerm_ok hterm
  refine ⟨tenant, htenant, hsame, ?_⟩
  -- a group and a user differ only in which of the two has to be declared
  cases audience with
  | tenant => exact absurd h (by simp)
  | unknown => exact absurd h (by simp)
  | client =>
    simp only [bind_eq_ok] at h
    obtain ⟨term, hclient, h⟩ := h
    obtain ⟨client, hown, hdeclared, rfl⟩ := clientTerm_ok hclient
    exact .inl ⟨rfl, client, hown, hdeclared, (Except.ok.inj h).symm⟩
  | group =>
    simp only [bind_eq_ok] at h
    obtain ⟨group, hgroup, user, huser, term, hmember, h⟩ := h
    obtain ⟨rfl, hgroupOwn⟩ := checked_ok hgroup
    obtain ⟨rfl, huserOwn⟩ := checked_ok huser
    obtain ⟨g, hg, rfl⟩ := memberTerm_ok hmember
    exact .inr (.inl ⟨rfl, ⟨hgroupOwn, huserOwn⟩, g, hg, (Except.ok.inj h).symm⟩)
  | user =>
    simp only [bind_eq_ok] at h
    obtain ⟨group, hgroup, user, huser, term, hmember, h⟩ := h
    obtain ⟨rfl, hgroupOwn⟩ := checked_ok hgroup
    obtain ⟨rfl, huserOwn⟩ := checked_ok huser
    obtain ⟨u, hu, rfl⟩ := memberTerm_ok hmember
    exact .inr (.inr ⟨rfl, ⟨hgroupOwn, huserOwn⟩, u, hu, (Except.ok.inj h).symm⟩)

/-! ## What the terms test -/

/-- The term of a level beside an alternative holds if one of the two does. -/
theorem holds_either (document : Json) (needed other : OwnerLevel) (u : Uuid) (id : Option Uuid) :
    Filter.holds document (anyOf (ownerTerm needed u :: (id.map (ownerTerm other)).toList)) =
      .ok ((ownerTerm needed u :: (id.map (ownerTerm other)).toList).any
        (Filter.satisfies document)) := by
  refine holds_anyOf (by simp) (fun t ht => ?_) document
  rcases List.mem_cons.mp ht with rfl | ht
  · exact total_ownerTerm needed u
  · obtain ⟨v, -, rfl⟩ := Option.map_eq_some_iff.mp (Option.mem_toList.mp ht)
    exact total_ownerTerm other v

theorem total_either (needed other : OwnerLevel) (u : Uuid) (id : Option Uuid) :
    Filter.Total (anyOf (ownerTerm needed u :: (id.map (ownerTerm other)).toList)) :=
  Filter.total_of_holds fun d => holds_either d needed other u id

/-- A scope has terms, and each of them can be tried on every document. -/
theorem scopeTerms_total (h : scopeTerms declared audience r = .ok terms) :
    terms ≠ [] ∧ ∀ t ∈ terms, Filter.Total t := by
  obtain ⟨tenant, -, -, hcases⟩ := scopeTerms_cases h
  rcases hcases with ⟨-, client, -, -, rfl⟩ | ⟨-, -, group, -, rfl⟩ | ⟨-, -, user, -, rfl⟩
  · simp [total_ownerTerm]
  · simp [total_ownerTerm, total_either]
  · simp [total_ownerTerm, total_either]

/-- **The scope of a request**: the documents that satisfy the terms which the
guard builds, and none where it refuses. -/
def inScope (v : Visibility) (r : Request) (document : Json) : Bool :=
  match scopeTerms v.source v.audience r with
  | .ok terms => terms.all (Filter.satisfies document)
  | .error _ => false

/-- **The guard's terms come first.** A filter is tried on documents in scope, and
every other document fails the whole without it. -/
theorem holds_combine (h : scopeTerms declared audience r = .ok terms) (document : Json)
    (condition : Members Json) :
    Filter.holds document (combine terms (.obj condition)) =
      if inScope ⟨declared, audience⟩ r document then Filter.holds document (.obj condition)
      else .ok false := by
  obtain ⟨hne, htotal⟩ := scopeTerms_total h
  have hscope : inScope ⟨declared, audience⟩ r document =
      terms.all (Filter.satisfies document) := by
    simp only [inScope, h]
  have hterms := Filter.allHold_of_total fun t ht => htotal t ht document
  -- an empty filter is left out, and holds of every document
  cases condition with
  | nil =>
    rw [combine, asksNothing, if_pos rfl, Filter.holds_and document hne, hterms, hscope,
      Filter.holds, Filter.membersHold]
    cases terms.all (Filter.satisfies document) <;> rfl
  | cons member rest =>
    have hnot : asksNothing (.obj (member :: rest)) = false := rfl
    rw [combine, hnot, if_neg (by simp), Filter.holds_and document (by simp),
      Filter.allHold_append, hterms, hscope]
    cases terms.all (Filter.satisfies document) with
    | false => rfl
    | true =>
      simp only [ok_bind, ↓reduceIte, Filter.allHold]
      cases Filter.holds document (.obj (member :: rest)) with
      | error e => rfl
      | ok b => cases b <;> rfl

/-- **An enforced filter** is the caller's filter within the scope. -/
theorem holds_enforce {condition : Members Json} {v : Visibility} {enforced : Json}
    (h : enforce (.obj condition) v r = .ok enforced) (document : Json) :
    Filter.holds document enforced =
      if inScope v r document then Filter.holds document (.obj condition) else .ok false := by
  obtain ⟨terms, hterms, rfl⟩ := map_eq_ok.mp h
  exact holds_combine hterms document condition

/-- **An enforced filter is confined to the scope**, whatever the caller's filter
is. -/
theorem confined_enforce {condition : Json} {v : Visibility} {enforced : Json}
    (h : enforce condition v r = .ok enforced) : Filter.Confined enforced (inScope v r) := by
  obtain ⟨terms, hterms, rfl⟩ := map_eq_ok.mp h
  obtain ⟨hne, htotal⟩ := scopeTerms_total hterms
  intro d hd
  -- the terms come first, and the one that fails ends the conjunction
  have hfail : Filter.allHold d terms = .ok false := by
    rw [Filter.allHold_of_total fun t ht => htotal t ht d]
    simpa [inScope, hterms] using hd
  unfold combine
  split
  · rw [Filter.holds_and d hne, hfail]
  · rw [Filter.holds_and d (by simp), Filter.allHold_append, hfail]
    rfl

/-- The filter of writes holds in scope and nowhere else. -/
theorem holds_ownershipFilter {condition : Json} (h : ownershipFilter r audience = .ok condition)
    (document : Json) :
    Filter.holds document condition = .ok (inScope ⟨r.source, audience⟩ r document) := by
  rw [holds_enforce h document, Filter.holds, Filter.membersHold]
  cases inScope ⟨r.source, audience⟩ r document <;> rfl

/-- A caller with a user and a group. -/
def memberRequest : Request :=
  ⟨{ tenant := some ⟨1⟩, client := none, group := some ⟨3⟩, user := some ⟨2⟩ }, none, none, false⟩

/-- What another user of that group owns. -/
def sharedOwner : Owner := ⟨⟨1⟩, none, some ⟨3⟩, some ⟨4⟩⟩

/-- What the group shares is in a member's scope. -/
example : inScope ⟨memberRequest.source, .user⟩ memberRequest
    (.obj [(Owner.path, sharedOwner.toJson)]) = true := rfl

end Guard

end ScopedDocs
