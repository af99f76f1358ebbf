import ScopedDocs.Proofs.Scope
/-!
# Enforcement — whose records a filter reaches

`Guard.Covers` says of an owner, without any filter, whether a caller may see
what it owns under a declared scope. On every document with a stored owner the
scope of the guard is that predicate (`Guard.inScope_iff_covers`), so that an
enforced filter reaches a record just when its owner is covered and the caller's
own filter holds.
-/


namespace ScopedDocs

/-- Whether an owner has an identifier at a level, and there is one. -/
def Owner.Has (o : Owner) (level : OwnerLevel) (id : Option Uuid) : Prop :=
  ∃ u, id = some u ∧ o.at? level = some u

namespace Guard

variable {document : Json} {o : Owner} {r : Request} {declared : Owner} {audience : Audience}

/-- **Whose records a caller may see** under a declared scope: those of the
caller's tenant and, by audience, of the caller's client application, or of the
declared user or the declared group as far as these are usable. -/
def Covers (caller : Caller) (declared : Owner) (audience : Audience) (o : Owner) : Prop :=
  o.Has .tenant caller.tenant ∧
    match audience with
    | .client => o.Has .client caller.client
    | .group => o.Has .user (usable declared.user) ∨ o.Has .group (usable declared.group)
    | .user => o.Has .user (usable declared.user) ∨ o.Has .group (usable declared.group)
    | .tenant => False
    | .unknown => False

/-- An owner has an identifier just when its level stores it. -/
theorem has_some {level : OwnerLevel} {u : Uuid} : o.Has level (some u) ↔ o.at? level = some u := by
  simp [Owner.Has]

/-- A document of a stored owner satisfies the term of a level just when the
owner has the identifier. -/
theorem satisfies_ownerTerm_iff (ho : document.get? Owner.path = some o.toJson) (level : OwnerLevel)
    (u : Uuid) :
    Filter.satisfies document (ownerTerm level u) = true ↔ o.Has level (some u) := by
  rw [satisfies_ownerTerm ho, decide_eq_true_iff, has_some]

/-- And the term of a level beside an alternative, just when it has one of the
two. -/
theorem satisfies_either_iff (ho : document.get? Owner.path = some o.toJson)
    (needed other : OwnerLevel) (u : Uuid) (id : Option Uuid) :
    Filter.satisfies document (anyOf (ownerTerm needed u :: (id.map (ownerTerm other)).toList)) =
      true ↔ o.Has needed (some u) ∨ o.Has other id := by
  rw [Filter.satisfies_of_holds (holds_either document needed other u id), List.any_cons,
    Bool.or_eq_true, satisfies_ownerTerm_iff ho]
  cases id with
  | none => simp [Owner.Has]
  | some v => simp [satisfies_ownerTerm_iff ho]

/-- **The scope of a stored owner.** Where the guard has terms, a document with a
stored owner is in scope just when the owner is covered. -/
theorem inScope_iff_covers {terms : List Json} (h : scopeTerms declared audience r = .ok terms)
    (ho : document.get? Owner.path = some o.toJson) :
    inScope ⟨declared, audience⟩ r document = true ↔ Covers r.caller declared audience o := by
  have hscope : inScope ⟨declared, audience⟩ r document =
      terms.all (Filter.satisfies document) := by
    simp only [inScope, h]
  obtain ⟨tenant, htenant, -, hcases⟩ := scopeTerms_cases h
  have hcaller := (usable_eq_some.mp htenant).1
  rw [hscope]
  rcases hcases with ⟨rfl, client, hown, -, rfl⟩ | ⟨rfl, -, group, hgroup, rfl⟩ |
    ⟨rfl, -, user, huser, rfl⟩
  · have hclient := (usable_eq_some.mp hown).1
    simp only [List.all_cons, List.all_nil, Bool.and_true, Bool.and_eq_true,
      satisfies_ownerTerm_iff ho, Covers, hcaller, hclient]
  · simp only [List.all_cons, List.all_nil, Bool.and_true, Bool.and_eq_true,
      satisfies_ownerTerm_iff ho, satisfies_either_iff ho, Covers, hcaller, hgroup]
    rw [or_comm]
  · simp only [List.all_cons, List.all_nil, Bool.and_true, Bool.and_eq_true,
      satisfies_ownerTerm_iff ho, satisfies_either_iff ho, Covers, hcaller, huser]

/-- **Enforcement is exact.** On a document with a stored owner an enforced filter
holds just when the owner is covered and the caller's filter holds, whatever that
filter asks; and it can be tried wherever the caller's can. -/
theorem enforced_holds_iff {condition : Members Json} {enforced : Json}
    (h : enforce (.obj condition) ⟨declared, audience⟩ r = .ok enforced)
    (ho : document.get? Owner.path = some o.toJson) :
    (Filter.holds document enforced = .ok true ↔
        Covers r.caller declared audience o ∧ Filter.holds document (.obj condition) = .ok true) ∧
      ((∃ b, Filter.holds document (.obj condition) = .ok b) →
        ∃ b, Filter.holds document enforced = .ok b) := by
  obtain ⟨terms, hterms, -⟩ := map_eq_ok.mp h
  have hcovers := inScope_iff_covers hterms ho
  rw [holds_enforce h document]
  -- out of scope neither side holds, and in scope the caller's filter decides
  cases hscope : inScope ⟨declared, audience⟩ r document with
  | false =>
    rw [hscope] at hcovers
    have hnot : ¬ Covers r.caller declared audience o := fun hc => by simpa using hcovers.mpr hc
    exact ⟨by simp [hnot], fun _ => ⟨false, rfl⟩⟩
  | true =>
    have hc := hcovers.mp hscope
    exact ⟨by simp [hc], fun hb => hb⟩

/-- A record shared with the group. -/
def sharedRecord : Json :=
  .obj [("_id", .ofInt 7), (Owner.path, sharedOwner.toJson), ("score", .ofInt 9)]

/-- An alternative that holds at once, so that its malformed clause is not tried. -/
def scoreFilter : Members Json :=
  [("$or", .arr [.obj [("score", .obj [("$gt", .ofInt 5)])], .null])]

/-- The record is reached by the filter of a member of the group. -/
theorem enforced_holds_shared :
    ∃ enforced,
      enforce (.obj scoreFilter) ⟨memberRequest.source, .user⟩ memberRequest = .ok enforced ∧
      sharedRecord.get? Owner.path = some sharedOwner.toJson ∧
      Filter.holds sharedRecord enforced = .ok true := by
  have ho : sharedRecord.get? Owner.path = some sharedOwner.toJson := rfl
  have hcondition : Filter.holds sharedRecord (.obj scoreFilter) = .ok true :=
    Filter.satisfies_iff.mp (by decide +kernel)
  have hcovers : Covers memberRequest.caller memberRequest.source .user sharedOwner :=
    ⟨⟨⟨1⟩, rfl, rfl⟩, Or.inr ⟨⟨3⟩, by decide, rfl⟩⟩
  exact ⟨_, rfl, ho, (enforced_holds_iff rfl ho).1.mpr ⟨hcovers, hcondition⟩⟩

end Guard

end ScopedDocs
