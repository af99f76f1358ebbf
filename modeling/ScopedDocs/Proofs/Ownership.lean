import ScopedDocs.Proofs.Scope
import ScopedDocs.Repository.Basic
/-!
# Ownership — the documents a caller may change

A repository changes a document only through the filter of one record
(`Repository.ownedFilter`). This filter can be tried on every document, and it
holds for a document with the identifier which the caller may change
(`Repository.holds_ownedFilter`).
-/


namespace ScopedDocs

namespace Repository

variable {α : Type} (repo : Repository α) (r : Request) {id : Uuid} {condition : Json}

/-- Whether the caller may change a document: it satisfies the filter of writes,
if there is one. -/
def mayChange (document : Json) : Bool :=
  match Guard.ownershipFilter r repo.config.defaultAudience with
  | .ok condition => Filter.satisfies document condition
  | .error _ => false

/-- **The caller may change what is in scope** at the default audience. -/
theorem mayChange_eq :
    repo.mayChange r = Guard.inScope ⟨r.source, repo.config.defaultAudience⟩ r := by
  funext d
  unfold mayChange
  cases h : Guard.ownershipFilter r repo.config.defaultAudience with
  | ok condition => exact Filter.satisfies_of_holds (Guard.holds_ownershipFilter h d)
  | error e =>
    simp only [Guard.ownershipFilter, Guard.enforce, Except.map] at h
    split at h
    · next hterms => simp only [Guard.inScope, hterms]
    · exact absurd h (by simp)

/-- The filter of a primary key tests the primary key. -/
theorem holds_idFilter (id : Uuid) (document : Json) :
    Filter.holds document (idFilter id) =
      .ok (Filter.equalsAt document [Schema.idPath] (.str id.text)) :=
  Filter.holds_text rfl document id.text

variable {repo r}

/-- **The filter of a record** holds for a document with its identifier that the
caller may change. -/
theorem holds_ownedFilter (h : repo.ownedFilter r id = .ok condition) (document : Json) :
    Filter.holds document condition =
      .ok (Filter.satisfies document (idFilter id) && repo.mayChange r document) := by
  obtain ⟨ownership, hownership, rfl⟩ := map_eq_ok.mp h
  have hscope : ∀ d, Filter.holds d ownership = .ok (repo.mayChange r d) := by
    intro d
    rw [mayChange_eq]
    exact Guard.holds_ownershipFilter hownership d
  have htotal : ∀ c ∈ [idFilter id, ownership], Filter.Total c := by
    intro c hc
    rcases (by simpa using hc : c = idFilter id ∨ c = ownership) with rfl | rfl
    · exact Filter.total_of_holds (holds_idFilter id)
    · exact Filter.total_of_holds hscope
  rw [Filter.holds_and_of_total (by simp) htotal, List.all_cons, List.all_cons, List.all_nil,
    Bool.and_true, Filter.satisfies_of_holds (hscope document)]

theorem total_ownedFilter (h : repo.ownedFilter r id = .ok condition) : Filter.Total condition :=
  Filter.total_of_holds (holds_ownedFilter h)

theorem confined_ownedFilter (h : repo.ownedFilter r id = .ok condition) :
    Filter.Confined condition (repo.mayChange r) := by
  intro d hd
  rw [holds_ownedFilter h d, hd, Bool.and_false]

end Repository

end ScopedDocs
