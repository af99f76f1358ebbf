import ScopedDocs.Proofs.Declarations
import ScopedDocs.Proofs.Rows
/-!
# Denial — what is denied is neither picked nor sorted by

A search picks and sorts by names, and none of these touches a name that is denied
(`Search.shows_asked`). Rows hold what is stored at paths, and what is denied can have
another name that leads to the same place. A denied name without such aliases is not
shown (`Search.shown_apart`).
-/


namespace ScopedDocs

namespace Schema

variable {s : Schema} {name : String}

/-- A name is held back just when it touches one that is denied. -/
theorem touchesDenied_iff :
    s.touchesDenied name = true ↔
      ∃ entry, (entry, false) ∈ s.access ∧
        Dotted.Touches (Dotted.stem name) (Dotted.stem entry) := by
  rw [touchesDenied, List.any_eq_true]
  constructor
  · rintro ⟨⟨entry, allowed⟩, hentry, h⟩
    simp only [Bool.and_eq_true, Bool.not_eq_true', Bool.or_eq_true, beq_iff_eq] at h
    obtain ⟨rfl, h⟩ := h
    refine ⟨entry, hentry, ?_⟩
    rcases h with (h | h) | h
    · exact .inl h.symm
    · exact .inr (.inl h)
    · exact .inr (.inr h)
  · rintro ⟨entry, hentry, h⟩
    refine ⟨(entry, false), hentry, ?_⟩
    simp only [Bool.and_eq_true, Bool.not_eq_true', Bool.or_eq_true, beq_iff_eq, true_and]
    rcases h with h | h | h
    · exact .inl (.inl h.symm)
    · exact .inl (.inr h)
    · exact .inr h

end Schema

/-! ## What a search shows -/

namespace Search

/-- The fields a search picks or sorts by. -/
def asked (search : Search) : List String :=
  search.options.picked ++ search.sort.map SortKey.field

/-- The paths a plan of a search picks or sorts by. -/
def Shows (search : Search) (p : Pipeline) (path : String) : Prop :=
  (search.options.picked ≠ [] ∧
    ∃ fields, Stage.project (.obj fields) ∈ p ∧ path ∈ Members.keys fields) ∨
  ∃ keys, Stage.sort (.obj keys) ∈ p ∧ path ∈ Members.keys keys

variable {c : Config} {s : Schema} {search : Search} {p : Pipeline} {path : String}

theorem picked_asked {o : ResultOptions} {fields : Members Json} (hpicked : o.picked ≠ [])
    (h : o.projection s = .ok (some (.obj fields))) (hpath : path ∈ fields.keys) :
    ∃ name ∈ o.picked, ∃ r, s.resolveUnrestricted name = .ok r ∧ r.path = path := by
  rcases ResultOptions.projection_cases h with
    ⟨hnone, -⟩ | ⟨-, -, paths, hpaths, hfields⟩ | ⟨hnone, -⟩
  · exact absurd hnone hpicked
  · obtain rfl := Json.obj.inj (Option.some.inj hfields)
    obtain ⟨_, hpair⟩ := Members.mem_keys_ofList.mp hpath
    obtain ⟨r, hr, heq⟩ := List.mem_map.mp hpair
    obtain ⟨name, hname, hresolve⟩ := ok_of_mem_mapM hpaths hr
    exact ⟨name, hname, r, hresolve, (Prod.mk.inj heq).1⟩
  · exact absurd hnone hpicked

theorem mem_keys_addSortKey {keys : Members Json} {key : String} {direction : Direction}
    (h : path ∈ (addSortKey keys key direction).keys) : path = key ∨ path ∈ keys.keys := by
  unfold addSortKey at h
  split at h
  · exact .inr h
  · rw [Members.keys, List.map_append, List.mem_append] at h
    exact h.symm.imp_left List.mem_singleton.mp

theorem sorted_asked {sort : List SortKey} {keys : Members Json}
    (h : sortOf s sort = .ok (some (.obj keys))) (hpath : path ∈ keys.keys) :
    ∃ key ∈ sort, ∃ r, s.resolveUnrestricted key.field = .ok r ∧ r.path = path := by
  unfold sortOf at h
  split at h
  · exact absurd (Except.ok.inj h) (by simp)
  · obtain ⟨resolved, hresolved, h⟩ := bind_eq_ok.mp h
    obtain rfl := Json.obj.inj (Option.some.inj (Except.ok.inj h))
    have hfold : ∀ (rest : List (String × Direction)) (keys : Members Json),
        path ∈ Members.keys (rest.foldl (fun m key => addSortKey m key.1 key.2) keys) →
        path ∈ rest.map Prod.fst ∨ path ∈ keys.keys := by
      intro rest
      induction rest with
      | nil => exact fun _ h => .inr h
      | cons pair rest ih =>
        intro keys h
        rcases ih _ h with h | h
        · exact .inl (List.mem_cons_of_mem _ h)
        · rcases mem_keys_addSortKey h with rfl | h
          · exact .inl List.mem_cons_self
          · exact .inr h
    rcases hfold resolved [] hpath with hmem | hmem
    · obtain ⟨pair, hpair, rfl⟩ := List.mem_map.mp hmem
      obtain ⟨key, hkey, hpairs⟩ := ok_of_mem_mapM hresolved hpair
      obtain ⟨r, hr, rfl⟩ := map_eq_ok.mp hpairs
      exact ⟨key, hkey, r, hr, rfl⟩
    · exact absurd hmem List.not_mem_nil

/-- **What a plan shows** was asked for, by a name that touches nothing denied. -/
theorem shows_asked (hplan : search.plan c s = .ok p) (h : search.Shows p path) :
    ∃ name ∈ search.asked, ∃ r, s.resolveUnrestricted name = .ok r ∧ r.path = path := by
  simp only [plan, bind_eq_ok, Except.ok.injEq] at hplan
  obtain ⟨condition, -, projection, hprojection, sort, hsort, limit, -, rfl⟩ := hplan
  rcases h with ⟨hpicked, fields, hfields, hpath⟩ | ⟨keys, hkeys, hpath⟩
  · obtain rfl : projection = some (.obj fields) := by
      simpa using hfields
    obtain ⟨name, hname, hr⟩ := picked_asked hpicked hprojection hpath
    exact ⟨name, List.mem_append_left _ hname, hr⟩
  · obtain rfl : sort = some (.obj keys) := by
      simpa using hkeys
    obtain ⟨key, hkey, hr⟩ := sorted_asked hsort hpath
    exact ⟨key.field, List.mem_append_right _ (List.mem_map.mpr ⟨key, hkey, rfl⟩), hr⟩

/-- **What is denied is not shown.** A path that a plan picks or sorts by is where a
field is stored that was asked for, by a name that touches no denied one. So it does not
touch where a denied name without aliases is stored. This leaves out fields that are asked
for by a wildcard of a wildcard. -/
theorem shown_apart {entry : String} {denied : Resolved} (hentry : (entry, false) ∈ s.access)
    (hdenied : s.resolve (Dotted.stem entry) = .ok denied) (hplan : search.plan c s = .ok p)
    (hshows : search.Shows p path) :
    ∃ name ∈ search.asked, (∃ r, s.resolve name = .ok r ∧ r.path = path) ∧
      ¬ Dotted.Touches (Dotted.stem name) (Dotted.stem entry) ∧
      (s.Unaliased (Dotted.stem entry) → Dotted.stem? (Dotted.stem name) = none →
        ¬ Dotted.Touches path denied.path) := by
  obtain ⟨name, hname, r, hr, rfl⟩ := shows_asked hplan hshows
  unfold Schema.resolveUnrestricted at hr
  split at hr
  · exact absurd hr (by simp)
  · next hpasses =>
    have hapart : ¬ Dotted.Touches (Dotted.stem name) (Dotted.stem entry) :=
      fun htouches => hpasses (Schema.touchesDenied_iff.mpr ⟨entry, hentry, htouches⟩)
    refine ⟨name, hname, ⟨r, hr, rfl⟩, hapart, fun halone hplain htouches => hapart ?_⟩
    exact halone.touches hdenied hr hplain htouches

/-- A schema with a profile, whose key is denied. -/
def profileSchema : Schema :=
  { entityType := "user", collection := "users", access := [("ID", true), ("Profile.Key", false)],
    mapping := [("ID", "_id"), ("Profile.*", "profile"), ("Title", "title")], fields := [] }

/-- Names and ages from profiles, by title. -/
def profileSearch : Search :=
  { options := { picked := ["Profile.Name", "Profile.Age"] }, sort := [⟨"Title", .ascending⟩] }

/-- The name in a profile is not where its key is. -/
theorem shown_apart_profile :
    ∃ p, profileSearch.plan {} profileSchema = .ok p ∧ profileSearch.Shows p "profile.Name" ∧
      ("Profile.Key", false) ∈ profileSchema.access ∧
      profileSchema.resolve (Dotted.stem "Profile.Key") = .ok ⟨"profile.Key", false⟩ ∧
      ¬ Dotted.Touches "profile.Name" "profile.Key" := by
  obtain ⟨p, hplan, hshows⟩ : ∃ p, profileSearch.plan {} profileSchema = .ok p ∧
      profileSearch.Shows p "profile.Name" := by
    refine ⟨_, rfl, .inl ⟨by decide, _, List.mem_cons_of_mem _ List.mem_cons_self, ?_⟩⟩
    decide
  have hentry : ("Profile.Key", false) ∈ profileSchema.access := by decide
  have halone : profileSchema.Unaliased (Dotted.stem "Profile.Key") := by decide
  obtain ⟨name, hname, -, -, hapart⟩ := shown_apart hentry rfl hplan hshows
  have hplain : ∀ name ∈ profileSearch.asked, Dotted.stem? (Dotted.stem name) = none := by decide
  exact ⟨p, hplan, hshows, hentry, rfl, hapart halone (hplain name hname)⟩

/-- A schema that stores one field under two names, of which one is denied. -/
def aliasSchema : Schema :=
  { entityType := "user", collection := "users", access := [("ID", true), ("Secret", false)],
    mapping := [("Alias", "secret"), ("ID", "_id"), ("Secret", "secret")], fields := [] }

theorem isBuilt_aliasSchema : aliasSchema.IsBuilt :=
  ⟨(((Schema.Draft.start "user" "users").map "Secret" "secret").map "Alias" "secret").deny
    ["Secret"], rfl⟩

/-- **What is denied can be shown by another name.** -/
theorem shown_by_alias :
    ¬ ∀ (c : Config) (s : Schema) (search : Search) (p : Pipeline) (path entry : String)
      (denied : Resolved), s.IsBuilt → (entry, false) ∈ s.access →
      s.resolve (Dotted.stem entry) = .ok denied → search.plan c s = .ok p →
      search.Shows p path → ¬ Dotted.Touches path denied.path := by
  intro h
  have hshows : ∃ p, (Search.picking {} ["Alias"]).plan {} aliasSchema = .ok p ∧
      (Search.picking {} ["Alias"]).Shows p "secret" := by
    refine ⟨_, rfl, .inl ⟨by decide, _, List.mem_cons_of_mem _ List.mem_cons_self, ?_⟩⟩
    decide
  obtain ⟨p, hplan, hshows⟩ := hshows
  exact h {} aliasSchema _ p "secret" "Secret" ⟨"secret", false⟩ isBuilt_aliasSchema (by decide)
    rfl hplan hshows (.inl rfl)

end Search

end ScopedDocs
