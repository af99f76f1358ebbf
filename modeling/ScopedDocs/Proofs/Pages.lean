import ScopedDocs.Proofs.Enforcement
import ScopedDocs.Proofs.Isolation
import ScopedDocs.Proofs.Sortable
/-!
# Pages — all rows of a search, each of them once

The pages of a search are cut out of one list of rows, which is as long as counting
says (`Repository.pages_of_rows`). A page has the size that was asked for, or the
default size, and never more than the configuration allows
(`Config.effectiveLimit_ok`); so pages that follow one another hold every row once
(`flatten_slices`).
-/


namespace ScopedDocs

variable {α : Type}

/-- Slices of one size that follow one another make up the start of a list. -/
theorem flatten_slices (rows : List α) (size count : Nat) :
    ((List.range count).map fun i => (rows.drop (i * size)).take size).flatten =
      rows.take (count * size) := by
  induction count with
  | zero => simp
  | succ count ih =>
    rw [List.range_succ, List.map_append, List.flatten_append, ih, Nat.succ_mul, List.take_add]
    simp

/-- **The page size of a search** under a configuration that makes sense. -/
theorem Config.effectiveLimit_ok {c : Config} {requested size : UInt64}
    (hvalid : c.validate = .ok ()) (h : c.effectiveLimit requested = .ok size) :
    size = (if requested = 0 then c.defaultPageSize else requested) ∧
      1 ≤ size.toNat ∧ size.toNat ≤ c.maxPageSize.toNat := by
  have hsize : c.defaultPageSize ≠ 0 ∧ ¬ c.maxPageSize < c.defaultPageSize := by
    unfold validate at hvalid
    split at hvalid
    · exact absurd hvalid (by simp [invalid])
    · split at hvalid
      · exact absurd hvalid (by simp [invalid])
      · next h => simpa using h
  unfold effectiveLimit at h
  split at h
  · next hzero =>
    obtain rfl := Except.ok.inj h
    rw [if_pos hzero]
    have hpos : c.defaultPageSize.toNat ≠ 0 := fun h => hsize.1 (UInt64.toNat_inj.mp h)
    have hle := UInt64.le_iff_toNat_le.mp (UInt64.not_lt.mp hsize.2)
    exact ⟨rfl, by omega, hle⟩
  · next hzero =>
    split at h
    · exact absurd h (by simp)
    · next hle =>
      obtain rfl := Except.ok.inj h
      rw [if_neg hzero]
      have hpos : requested.toNat ≠ 0 := fun h => hzero (UInt64.toNat_inj.mp h)
      have hle := UInt64.le_iff_toNat_le.mp (UInt64.not_lt.mp hle)
      exact ⟨rfl, by omega, hle⟩

namespace Repository

/-- **One page of a search**: the rows it has for a skip and a limit. -/
def page (repo : Repository α) (r : Request) (search : Search) (s : Store)
    (skip limit : UInt64) : Except Error (List Json) := do
  let p ← repo.explain r ((search.skipping skip).limitedTo limit)
  s.aggregate repo.collection p.toJson

/-- The first pages of a search, each behind the one before. -/
def firstPages (repo : Repository α) (r : Request) (search : Search) (s : Store)
    (limit : UInt64) (size count : Nat) : Except Error (List (List Json)) :=
  (List.range count).mapM fun i => repo.page r search s (.ofNat (i * size)) limit

variable {repo : Repository α} {r : Request} {search : Search} {s : Store}

/-- A page is cut out of the rows of all documents the filter selects. -/
theorem page_eq {condition enforced : Json} {fields keys : Option (Members Json)}
    {found : List Json} (skip : UInt64) {limit size : UInt64}
    (hcondition : filterOf repo.config repo.schema search.aggregations = .ok condition)
    (henforced : Guard.enforce condition search.visibility r = .ok enforced)
    (hfields : search.options.projection repo.schema = .ok (fields.map .obj))
    (hkeys : sortOf repo.schema search.sort = .ok (keys.map .obj))
    (hfound : Rows.select enforced (s.documents repo.collection) = .ok found)
    (hlimit : repo.config.effectiveLimit limit = .ok size) :
    repo.page r search s skip limit = (Rows.arranged fields keys found).map fun rows =>
      (rows.drop skip.toNat).take size.toNat := by
  have hplan : repo.explain r ((search.skipping skip).limitedTo limit) =
      .ok (.ofParts enforced fields keys skip.toNat size.toNat) :=
    explain_iff.mpr ⟨condition, enforced, fields, keys, size, hcondition, henforced, hfields,
      hkeys, hlimit, rfl⟩
  rw [page, hplan, ok_bind, Store.aggregate, Rows.run_plan, hfound]
  rfl

/-- Pages that follow one another make up the start of the rows, as long as the number
of rows before each can be asked for. -/
theorem firstPages_eq {rows : List Json} {limit size : UInt64} {count : Nat}
    (hpage : ∀ skip, repo.page r search s skip limit =
      .ok ((rows.drop skip.toNat).take size.toNat))
    (hcount : ∀ i < count, i * size.toNat < UInt64.size) :
    ∃ pages, repo.firstPages r search s limit size.toNat count = .ok pages ∧
      pages.flatten = rows.take (count * size.toNat) := by
  refine ⟨_, mapM_of_ok fun i hi => ?_, flatten_slices rows size.toNat count⟩
  have hskip : (UInt64.ofNat (i * size.toNat)).toNat = i * size.toNat :=
    UInt64.toNat_ofNat_of_lt (hcount i (List.mem_range.mp hi))
  rw [hpage, hskip]

/-- **Pages that lose nothing and repeat nothing.** A search has one list of rows, of the
length that counting answers, and each page that has a plan is a slice of it: of the size
that is asked for, or the default size, behind what is skipped. Pages that follow one
another make up the list. -/
def Paged (repo : Repository α) (r : Request) (search : Search) (s : Store) : Prop :=
  ∃ rows : List Json,
    (repo.count r search).result s = (repo.admission r).map (fun _ => rows.length) ∧
    ∀ skip limit plan,
      ((search.skipping skip).limitedTo limit).plan repo.config repo.schema = .ok plan →
      ∃ size : UInt64, size = (if limit = 0 then repo.config.defaultPageSize else limit) ∧
        1 ≤ size.toNat ∧ size.toNat ≤ repo.config.maxPageSize.toNat ∧
        repo.page r search s skip limit = .ok ((rows.drop skip.toNat).take size.toNat) ∧
        ((rows.drop skip.toNat).take size.toNat).length =
          min size.toNat (rows.length - skip.toNat) ∧
        (∀ count, (∀ i < count, i * size.toNat < UInt64.size) →
          ∃ pages, repo.firstPages r search s limit size.toNat count = .ok pages ∧
            pages.flatten = rows.take (count * size.toNat)) ∧
        (rows.length < UInt64.size → ∃ count pages,
          repo.firstPages r search s limit size.toNat count = .ok pages ∧ pages.flatten = rows)

section

variable {condition enforced : Json} {fields keys : Option (Members Json)} {found : List Json}

/-- A page that has a plan has a size. -/
theorem exists_effectiveLimit {skip limit : UInt64} {plan : Pipeline}
    (h : ((search.skipping skip).limitedTo limit).plan repo.config repo.schema = .ok plan) :
    ∃ size, repo.config.effectiveLimit limit = .ok size := by
  simp only [Search.plan, bind_eq_ok] at h
  obtain ⟨_, -, _, -, _, -, size, hlimit, -⟩ := h
  exact ⟨size, hlimit⟩

/-- Rows that are arranged are paged. -/
theorem paged_of_arranged {rows : List Json} (hvalid : repo.config.validate = .ok ())
    (hcondition : filterOf repo.config repo.schema search.aggregations = .ok condition)
    (henforced : Guard.enforce condition search.visibility r = .ok enforced)
    (hfields : search.options.projection repo.schema = .ok (fields.map .obj))
    (hkeys : sortOf repo.schema search.sort = .ok (keys.map .obj))
    (hfound : Rows.select enforced (s.documents repo.collection) = .ok found)
    (hrows : Rows.arranged fields keys found = .ok rows) : repo.Paged r search s := by
  refine ⟨rows, ?_, fun skip limit plan hpaged => ?_⟩
  · rw [result_count hcondition henforced, hfound, Rows.length_of_arranged hrows]
    rfl
  · obtain ⟨size, hlimit⟩ := exists_effectiveLimit hpaged
    obtain ⟨hsize, hpos, hle⟩ := Config.effectiveLimit_ok hvalid hlimit
    have hpage (skip : UInt64) : repo.page r search s skip limit =
        .ok ((rows.drop skip.toNat).take size.toNat) := by
      rw [page_eq skip hcondition henforced hfields hkeys hfound hlimit, hrows]
      rfl
    refine ⟨size, hsize, hpos, hle, hpage skip, by rw [List.length_take, List.length_drop],
      fun count => firstPages_eq hpage, fun hlength => ?_⟩
    -- the last page starts at or before the last row
    have hstarts : ∀ i < rows.length / size.toNat + 1, i * size.toNat < UInt64.size := by
      intro i hi
      have hstart := Nat.mul_le_of_le_div _ _ _ (Nat.lt_succ_iff.mp hi)
      omega
    have hcover := Nat.lt_mul_div_succ rows.length hpos
    obtain ⟨pages, hpages, hflatten⟩ := firstPages_eq hpage hstarts
    refine ⟨_, pages, hpages, hflatten.trans (List.take_of_length_le ?_)⟩
    rw [Nat.mul_comm]
    omega

end

/-- **A search whose filter can be tried on every document is paged**, or sorting gives up,
and with it every page that has a plan. It does not give up where what it sorts is
sortable. -/
theorem pages_of_rows {p : Pipeline} {condition : Json} (hvalid : repo.config.validate = .ok ())
    (hplan : repo.explain r search = .ok p) (hcondition : p.filter? = some condition)
    (hholds : ∀ d ∈ s.documents repo.collection, ∃ v, Filter.holds d condition = .ok v) :
    (repo.Paged r search s ∨ ∀ skip limit plan,
      ((search.skipping skip).limitedTo limit).plan repo.config repo.schema = .ok plan →
      repo.page r search s skip limit = .error .noOrder) ∧
    (p.Sortable (s.documents repo.collection) → repo.Paged r search s) := by
  obtain ⟨asked, enforced, fields, keys, _, hasked, henforced, hfields, hkeys, -, rfl⟩ :=
    explain_iff.mp hplan
  obtain rfl : enforced = condition := Option.some.inj hcondition
  obtain ⟨found, hfound⟩ := Rows.exists_select hholds
  refine ⟨?_, fun hsortable => ?_⟩
  · cases hrows : Rows.arranged fields keys found with
    | ok rows => exact .inl (paged_of_arranged hvalid hasked henforced hfields hkeys hfound hrows)
    | error e =>
      obtain rfl := Rows.eq_noOrder_of_arranged hrows
      refine .inr fun skip limit plan hpaged => ?_
      obtain ⟨size, hlimit⟩ := exists_effectiveLimit hpaged
      rw [page_eq skip hasked henforced hfields hkeys hfound hlimit, hrows]
      rfl
  · obtain ⟨rows, hrows⟩ :=
      Rows.exists_arranged (Pipeline.sortable_ofParts.mp hsortable found hfound)
    exact paged_of_arranged hvalid hasked henforced hfields hkeys hfound hrows

/-! ## Notes with times -/

/-- Notes that may be sorted by a time. -/
def datedSchema : Schema :=
  { entityType := "note", collection := "notes", access := [("ID", true)],
    mapping := [("At", "at"), ("ID", "_id")], fields := [] }

theorem isBuilt_datedSchema : datedSchema.IsBuilt :=
  ⟨(Schema.Draft.start "note" "notes").map "At" "at", rfl⟩

/-- A repository of such notes. -/
def dated : Repository Record := ⟨datedSchema, {}, Record.entity⟩

/-- A member looks for notes by their times. -/
def byTime : Search := memberSearch.sortedBy ⟨"At", .ascending⟩

/-- A note of a group with a time. -/
def datedNote (id : Uuid) (time : Json) : Record :=
  { note id Guard.sharedOwner with extra := [("at", time)] }

/-- Two notes, the later one first. -/
def twoTimes : Store :=
  notesOf [datedNote ⟨7⟩ (.str "2024-01-01T09:00:00Z"),
    datedNote ⟨8⟩ (.str "2024-01-01T10:00:00+02:00")]

/-- The later one is on a page of its own, behind the other. -/
theorem pages_of_rows_two :
    ∃ (p : Pipeline) (condition : Json),
      dated.config.validate = .ok () ∧ dated.explain Guard.memberRequest byTime = .ok p ∧
      p.filter? = some condition ∧
      (∀ d ∈ twoTimes.documents dated.collection, ∃ v, Filter.holds d condition = .ok v) ∧
      p.Sortable (twoTimes.documents dated.collection) ∧
      dated.Paged Guard.memberRequest byTime twoTimes ∧
      dated.page Guard.memberRequest byTime twoTimes 1 1 =
        .ok [(datedNote ⟨7⟩ (.str "2024-01-01T09:00:00Z")).toJson] := by
  have hvalid : dated.config.validate = .ok () := rfl
  obtain ⟨condition, howned, hplan⟩ :
      ∃ condition, Guard.ownershipFilter Guard.memberRequest .user = .ok condition ∧
        dated.explain Guard.memberRequest byTime =
          .ok (.ofParts condition none (some [("at", .ofInt 1)]) 0 50) := ⟨_, rfl, rfl⟩
  have hholds : ∀ d ∈ twoTimes.documents dated.collection,
      ∃ v, Filter.holds d condition = .ok v :=
    fun d _ => ⟨_, Guard.holds_ownershipFilter howned d⟩
  have hsortable : Rows.Sortable [("at", .ofInt 1)] (twoTimes.documents dated.collection) := by
    decide +kernel
  have hp : Pipeline.Sortable (.ofParts condition none (some [("at", .ofInt 1)]) 0 50)
      (twoTimes.documents dated.collection) := by
    refine Pipeline.sortable_ofParts.mpr fun found hfound sort hsort => ?_
    obtain rfl := Option.some.inj hsort
    have hplain : found.map (Projection.shape none) = found := List.map_id' found
    rw [hplain]
    exact hsortable.of_subset fun d hd => (Rows.mem_of_select hfound hd).1
  exact ⟨_, condition, hvalid, hplan, rfl, hholds, hp,
    (pages_of_rows hvalid hplan rfl hholds).2 hp, by rfl⟩

/-- Notes whose times come round. -/
def roundNotes : List Record :=
  Rows.roundabout.zipIdx.map fun p => datedNote ⟨.ofNat 128 p.2⟩ (Rows.roundTime p.1)

theorem first?_datedNote (id : Uuid) (k : Fin 3) :
    (datedNote id (Rows.roundTime k)).toJson.first? "at" = some (Rows.roundTime k) := by
  match k with
  | 0 => rfl
  | 1 => rfl
  | 2 => rfl

theorem arranged_roundNotes :
    Rows.arranged none (some [("at", .ofInt 1)]) (roundNotes.map Record.toJson) =
      .error .noOrder := by
  have hplain (documents : List Json) : documents.map (Projection.shape none) = documents :=
    List.map_id' documents
  have hkinds : Rows.roundabout.zipIdx.map Prod.fst = Rows.roundabout := List.zipIdx_map_fst ..
  rw [Rows.arranged, hplain]
  refine Rows.sortBy_roundTime ?_
  rw [← hkinds, roundNotes, List.map_map, List.map_map, List.map_map]
  exact List.map_congr_left fun p _ => first?_datedNote ⟨.ofNat 128 p.2⟩ p.1

theorem inScope_datedNote (id : Uuid) (time : Json) :
    Guard.inScope ⟨Guard.memberRequest.source, .user⟩ Guard.memberRequest
      (datedNote id time).toJson = true := by
  have howner : (datedNote id time).toJson.get? Owner.path = some Guard.sharedOwner.toJson := rfl
  exact (Guard.inScope_iff_covers rfl howner).mpr
    ⟨⟨_, rfl, rfl⟩, .inr ⟨_, rfl, rfl⟩⟩

/-- A member sees all of them. -/
theorem select_roundNotes {condition : Json}
    (h : Guard.ownershipFilter Guard.memberRequest .user = .ok condition) :
    Rows.select condition (roundNotes.map Record.toJson) = .ok (roundNotes.map Record.toJson) := by
  have hholds (d : Json) := Guard.holds_ownershipFilter h d
  rw [Rows.select_of_total (Filter.total_of_holds hholds), Except.ok.injEq, List.filter_eq_self]
  intro d hd
  obtain ⟨n, hn, rfl⟩ := List.mem_map.mp hd
  obtain ⟨p, -, rfl⟩ := List.mem_map.mp hn
  rw [Filter.satisfies_of_holds (hholds _)]
  exact inScope_datedNote ..

/-- **Sorting may give up on every page**: among the times of some notes, each comes before
another one. -/
theorem pages_end :
    ¬ ∀ (repo : Repository Record) (r : Request) (search : Search) (s : Store) (p : Pipeline)
      (condition : Json), repo.config.validate = .ok () → repo.explain r search = .ok p →
      p.filter? = some condition →
      (∀ d ∈ s.documents repo.collection, ∃ v, Filter.holds d condition = .ok v) →
      repo.Paged r search s := by
  intro h
  obtain ⟨condition, howned, henforced, hplan⟩ :
      ∃ condition, Guard.ownershipFilter Guard.memberRequest .user = .ok condition ∧
        Guard.enforce (.obj []) byTime.visibility Guard.memberRequest = .ok condition ∧
        dated.explain Guard.memberRequest byTime =
          .ok (.ofParts condition none (some [("at", .ofInt 1)]) 0 50) := ⟨_, rfl, rfl, rfl⟩
  have hasked : filterOf dated.config dated.schema byTime.aggregations = .ok (.obj []) := rfl
  have hfields : byTime.options.projection dated.schema =
      .ok ((none : Option (Members Json)).map .obj) := rfl
  have hkeys : sortOf dated.schema byTime.sort =
      .ok ((some [("at", .ofInt 1)] : Option (Members Json)).map .obj) := rfl
  have hlimit : dated.config.effectiveLimit 0 = .ok 50 := rfl
  have hfound : Rows.select condition ((notesOf roundNotes).documents dated.collection) =
      .ok (roundNotes.map Record.toJson) := select_roundNotes howned
  have hpage : dated.page Guard.memberRequest byTime (notesOf roundNotes) 0 0 =
      .error .noOrder := by
    rw [page_eq 0 hasked henforced hfields hkeys hfound hlimit, arranged_roundNotes]
    rfl
  obtain ⟨rows, -, hpages⟩ := h dated Guard.memberRequest byTime (notesOf roundNotes) _ condition
    rfl hplan rfl fun d _ => ⟨_, Guard.holds_ownershipFilter howned d⟩
  obtain ⟨size, -, -, -, hrows, -⟩ := hpages 0 0 _ rfl
  exact absurd (hpage.symm.trans hrows) (by simp)

end Repository

end ScopedDocs
