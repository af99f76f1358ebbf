import ScopedDocs.Proofs.Permutation
import ScopedDocs.Proofs.Selection
import ScopedDocs.Proofs.Storage
import ScopedDocs.Proofs.WellFormed
import ScopedDocs.Search.Plan
/-!
# Rows — what the stages of a plan leave of documents

Every stage but a projection passes on some of the rows it gets
(`Rows.mem_of_run`). A projection along paths that lead into records either leaves a
row without an owner or with the owner of its document (`Projection.get?_row`).
-/


namespace ScopedDocs

/-! ## Stages -/

/-- Whether a stage changes the shape of rows. -/
def Stage.isProjection : Stage → Bool
  | .project _ => true
  | _ => false

namespace Rows

variable {condition : Json} {documents rows : List Json} {row : Json}

/-- What is selected was there and satisfies the filter. -/
theorem mem_of_select (h : select condition documents = .ok rows) (hrow : row ∈ rows) :
    row ∈ documents ∧ Filter.holds row condition = .ok true := by
  induction documents generalizing rows with
  | nil =>
    rw [← Except.ok.inj h] at hrow
    exact absurd hrow (by simp)
  | cons d rest ih =>
    rw [select_cons] at h
    obtain ⟨b, hb, h⟩ := bind_eq_ok.mp h
    obtain ⟨found, hfound, rfl⟩ := map_eq_ok.mp h
    cases b with
    | false => exact (ih hfound hrow).imp_left (List.mem_cons_of_mem _)
    | true =>
      rcases List.mem_cons.mp hrow with rfl | hrow
      · exact ⟨List.mem_cons_self, hb⟩
      · exact (ih hfound hrow).imp_left (List.mem_cons_of_mem _)

theorem sortBy_eq_ok {keys : Members Json} :
    sortBy keys documents = .ok rows ↔
      sortWith (fun a b => compareAll keys a b == .lt) documents = some rows := by
  unfold sortBy
  cases sortWith (fun a b => compareAll keys a b == .lt) documents <;> simp

/-- **Sorting** neither adds nor leaves out anything. -/
theorem perm_of_sortWith {α : Type} {precedes : α → α → Bool} {values sorted : List α}
    (h : sortWith precedes values = some sorted) : sorted.Perm values := by
  obtain ⟨places, hplaces, rfl⟩ := Option.map_eq_some_iff.mp h
  have hperm := (Sorting.perm_sorted? _ _ _ hplaces).map values.get
  rwa [List.map_get_finRange] at hperm

/-- A stage that is no projection passes on some of its rows. -/
theorem mem_of_applyStage {stage : Stage} (h : applyStage documents stage = .ok rows)
    (hstage : stage.isProjection = false) (hrow : row ∈ rows) : row ∈ documents := by
  unfold applyStage at h
  split at h
  · exact (mem_of_select h hrow).1
  · exact absurd hstage (by simp [Stage.isProjection])
  · exact (perm_of_sortWith (sortBy_eq_ok.mp h)).mem_iff.mp hrow
  · rw [← Except.ok.inj h] at hrow
    exact List.mem_of_mem_drop hrow
  · rw [← Except.ok.inj h] at hrow
    exact List.mem_of_mem_take hrow
  · exact absurd h (by simp [unsupported])

/-- **Stages without a projection** pass on some of the documents. -/
theorem mem_of_run {stages : Pipeline} (h : run documents stages.toJson = .ok rows)
    (hstages : ∀ stage ∈ stages, stage.isProjection = false) (hrow : row ∈ rows) :
    row ∈ documents := by
  induction stages generalizing documents with
  | nil =>
    rw [← Except.ok.inj h] at hrow
    exact hrow
  | cons stage rest ih =>
    rw [run_cons] at h
    obtain ⟨between, hstage, h⟩ := bind_eq_ok.mp h
    obtain ⟨hfirst, hrest⟩ := List.forall_mem_cons.mp hstages
    exact mem_of_applyStage hstage hfirst (ih h hrest)

end Rows

/-! ## Projections -/

namespace Json

variable {segments : List String} {key : String}

/-- Copying along a path changes no other key. -/
theorem get?_copyAt_of_ne (h : segments.head? ≠ some key) (source target : Json) :
    (copyAt segments source target).get? key = target.get? key := by
  unfold copyAt
  split
  · next segment rest _ _ =>
    have hne : key ≠ segment := fun heq => h (by rw [heq, List.head?_cons])
    split
    · rfl
    · split
      · exact Members.lookup_put_of_ne _ _ hne
      · split
        · exact Members.lookup_put_of_ne _ _ hne
        · split
          · exact Members.lookup_put_of_ne _ _ hne
          · rfl
        · rfl
  · rfl

theorem lookup_removeAtMember_of_ne {segment : String} {rest : List String}
    {members : Members Json} (h : key ≠ segment) :
    (removeAtMember segment rest members).lookup key = members.lookup key := by
  induction members with
  | nil => rfl
  | cons m members ih =>
    obtain ⟨k, v⟩ := m
    rw [removeAtMember]
    split
    · next heq =>
      have hne : (key == k) = false := by simpa [← beq_iff_eq.mp heq] using h
      simp [List.lookup_cons, hne]
    · simp only [List.lookup_cons, ih]

/-- Removing along a path changes no other key of a well-formed document. -/
theorem get?_removeAt_of_ne (h : segments.head? ≠ some key) {document : Json}
    (hdocument : document.isWellFormed = true) :
    (removeAt segments document).get? key = document.get? key := by
  cases document with
  | obj members =>
    match segments with
    | [] => simp [removeAt]
    | [segment] =>
      have hne : key ≠ segment := fun heq => h (by rw [heq, List.head?_cons])
      simpa [removeAt, get?] using
        Members.lookup_erase_of_ne (isWellFormed_obj.mp hdocument).1 hne
    | segment :: next :: rest =>
      have hne : key ≠ segment := fun heq => h (by rw [heq, List.head?_cons])
      have hmember : removeAt (segment :: next :: rest) (obj members) =
          obj (removeAtMember segment (next :: rest) members) := rfl
      rw [hmember]
      exact lookup_removeAtMember_of_ne hne
  | arr items => rw [removeAt]; rfl
  | _ => simp [removeAt]

end Json

/-- A path that leads into records does not start where owners are. -/
theorem Schema.Leads.head?_ne {path : String} (h : Leads path) :
    (Dotted.segments path).head? ≠ some Owner.path := by
  rw [Dotted.segments_head?]
  intro heq
  refine h.apart ?_
  rw [← Option.some.inj heq, String.toList_ofList]

namespace Projection

variable {fields : Members Json} {document : Json}

/-- Copying along paths into records brings in no owner. -/
theorem get?_copyAll {paths : List String} (h : ∀ path ∈ paths, Schema.Leads path)
    (document target : Json) :
    (copyAll document target paths).get? Owner.path = target.get? Owner.path := by
  induction paths generalizing target with
  | nil => rfl
  | cons path rest ih =>
    obtain ⟨hpath, hrest⟩ := List.forall_mem_cons.mp h
    have hstep := Json.get?_copyAt_of_ne hpath.head?_ne document target
    rw [← hstep]
    exact ih hrest _

/-- Removing along paths into records leaves the owner. -/
theorem get?_removeAll {paths : List String} (h : ∀ path ∈ paths, Schema.Leads path)
    (hdocument : document.isWellFormed = true) :
    (document.removeAll paths).get? Owner.path = document.get? Owner.path := by
  induction paths generalizing document with
  | nil => rfl
  | cons path rest ih =>
    obtain ⟨hpath, hrest⟩ := List.forall_mem_cons.mp h
    rw [← Json.get?_removeAt_of_ne hpath.head?_ne hdocument]
    exact ih hrest (Json.isWellFormed_removeAt _ hdocument)

theorem leads_idPath : Schema.Leads Schema.idPath := ⟨by decide, by decide⟩

/-- **The owner of a row** is that of its document, or there is none. -/
theorem get?_row (hfields : ∀ path ∈ fields.keys, Schema.Leads path)
    (hdocument : document.isWellFormed = true) {value : Json}
    (h : (row fields document).get? Owner.path = some value) :
    document.get? Owner.path = some value := by
  unfold row at h
  split at h
  · rwa [get?_removeAll hfields hdocument] at h
  · have hpicked : ∀ path ∈ picked fields, Schema.Leads path := by
      intro path hpath
      exact hfields path ((List.filter_sublist.map Prod.fst).subset hpath)
    rw [get?_copyAll ?_ document] at h
    · exact absurd h (by simp [Json.get?])
    · intro path hpath
      rcases List.mem_append.mp hpath with hid | hpath
      · split at hid
        · rw [List.mem_singleton.mp hid]
          exact leads_idPath
        · exact absurd hid (by simp)
      · exact hpicked path hpath

end Projection

/-- **The projection of a search**, by what the search asks for: none, one of the fields it
picks, or one of those it leaves out. -/
theorem ResultOptions.projection_cases {o : ResultOptions} {s : Schema} {fields : Option Json}
    (h : o.projection s = .ok fields) :
    (o.picked = [] ∧ o.omitted = [] ∧ fields = none) ∨
      (o.picked ≠ [] ∧ o.omitted = [] ∧ ∃ paths,
        o.picked.mapM s.resolveUnrestricted = .ok paths ∧ fields = some (flagged 1 paths)) ∨
      (o.picked = [] ∧ o.omitted ≠ [] ∧ ∃ paths,
        o.omitted.mapM s.resolve = .ok paths ∧ fields = some (flagged 0 paths)) := by
  unfold projection at h
  cases hpicked : o.picked with
  | nil =>
    cases homitted : o.omitted with
    | nil =>
      rw [hpicked, homitted] at h
      exact .inl ⟨rfl, rfl, (Except.ok.inj h).symm⟩
    | cons name rest =>
      rw [hpicked, homitted] at h
      obtain ⟨paths, hpaths, h⟩ := bind_eq_ok.mp h
      exact .inr (.inr ⟨rfl, List.cons_ne_nil _ _, paths, hpaths, (Except.ok.inj h).symm⟩)
  | cons name rest =>
    cases homitted : o.omitted with
    | nil =>
      rw [hpicked, homitted] at h
      obtain ⟨paths, hpaths, h⟩ := bind_eq_ok.mp h
      exact .inr (.inl ⟨List.cons_ne_nil _ _, rfl, paths, hpaths, (Except.ok.inj h).symm⟩)
    | cons =>
      rw [hpicked, homitted] at h
      exact absurd h (by simp)

/-- **The projection of a search** follows paths that lead into records. -/
theorem ResultOptions.projection_ok {o : ResultOptions} {s : Schema} {fields : Json}
    (hsound : s.Sound) (h : o.projection s = .ok (some fields)) :
    ∃ members, fields = .obj members ∧ ∀ path ∈ Members.keys members, Schema.Leads path := by
  have hflagged (flag : Int) (names : List String) (paths : List Resolved)
      (resolve : String → Except Error Resolved)
      (hresolve : ∀ name r, resolve name = .ok r → Schema.Leads r.path)
      (hpaths : names.mapM resolve = .ok paths) :
      ∃ members, flagged flag paths = .obj members ∧
        ∀ path ∈ Members.keys members, Schema.Leads path := by
    refine ⟨_, rfl, fun path hpath => ?_⟩
    obtain ⟨_, hpair⟩ := Members.mem_keys_ofList.mp hpath
    obtain ⟨r, hr, heq⟩ := List.mem_map.mp hpair
    obtain ⟨name, -, hname⟩ := ok_of_mem_mapM hpaths hr
    rw [← (Prod.mk.inj heq).1]
    exact hresolve name r hname
  rcases projection_cases h with
    ⟨-, -, hnone⟩ | ⟨-, -, paths, hpaths, hsome⟩ | ⟨-, -, paths, hpaths, hsome⟩
  · exact absurd hnone (by simp)
  · obtain rfl := Option.some.inj hsome
    exact hflagged 1 _ paths _ (fun _ _ => hsound.resolveUnrestricted) hpaths
  · obtain rfl := Option.some.inj hsome
    exact hflagged 0 _ paths _ (fun _ _ => hsound.resolve) hpaths

end ScopedDocs
