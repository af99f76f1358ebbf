import ScopedDocs.Proofs.Removal
import ScopedDocs.Proofs.Writes
/-!
# Updates — what the fields of an updated document read

An update is a list of edits, each of which sets a path or takes it out (`Update.edits`). One
edit makes its own path read what it was given and leaves every path apart from it
(`Edit.reach_self`, `Edit.reach_of_apart`). So edits of paths apart from each other, one after
the other, do not undo one another (`Edit.edited_run`), and an update changes the first
document that satisfies its filter in the edited paths and nowhere else
(`Store.updates_exactly`).
-/


namespace ScopedDocs

/-! ## Setting along a path -/

namespace Json

variable {value document changed : Json} {path other : List String}

/-- **What is set is read**, and nothing beside it. -/
theorem reach_setAt?_self (h : setAt? value path document = some changed) :
    changed.reach path = [value] := by
  induction path generalizing document changed with
  | nil =>
    obtain rfl := Option.some.inj h
    rw [reach]
  | cons segment rest ih =>
    cases document with
    | obj members =>
      obtain ⟨child, hchild, rfl⟩ := Option.map_eq_some_iff.mp h
      rw [reach, children, Members.lookup_put_self, Option.toList_some, List.flatMap_singleton,
        ih hchild]
    | _ => simp [setAt?] at h

/-- In a new document no path reaches anything. -/
theorem reach_new (h : path ≠ []) : (obj []).reach path = [] := by
  obtain ⟨segment, rest, rfl⟩ := List.exists_cons_of_ne_nil h
  rfl

/-- **What a path reaches** is not touched by setting along a path apart from it. -/
theorem reach_setAt? (habove : ¬ path <+: other) (hbelow : ¬ other <+: path)
    (h : setAt? value path document = some changed) :
    changed.reach other = document.reach other := by
  induction path generalizing document changed other with
  | nil => exact absurd other.nil_prefix habove
  | cons segment rest ih =>
    cases other with
    | nil => exact absurd List.nil_prefix hbelow
    | cons key other =>
      cases document with
      | obj members =>
        obtain ⟨child, hchild, rfl⟩ := Option.map_eq_some_iff.mp h
        rw [reach, reach, children, children]
        by_cases heq : key = segment
        · subst heq
          have hrest : ¬ rest <+: other := fun hprefix =>
            habove (List.cons_prefix_cons.mpr ⟨rfl, hprefix⟩)
          have hother : ¬ other <+: rest := fun hprefix =>
            hbelow (List.cons_prefix_cons.mpr ⟨rfl, hprefix⟩)
          have hread := ih hrest hother hchild
          rw [Members.lookup_put_self, Option.toList_some, List.flatMap_singleton, hread]
          cases members.lookup key with
          | none =>
            -- the document made on the way holds the path that is set and no other one
            have hne : other ≠ [] := fun hnil => hother (hnil ▸ rest.nil_prefix)
            exact reach_new hne
          | some child => rw [Option.getD_some, Option.toList_some, List.flatMap_singleton]
        · rw [Members.lookup_put_of_ne _ _ heq]
      | _ => simp [setAt?] at h

end Json

/-! ## Edits -/

/-- **An edit**: a path, and the value it gets, or none where it is taken out. -/
structure Edit where
  path : String
  value : Option Json

namespace Edit

/-- What an edit makes of a document, unless a value is in its way. -/
def on? (e : Edit) (document : Json) : Option Json :=
  match e.value with
  | some value => Json.setAt? value (Dotted.segments e.path) document
  | none => some (document.removeAt (Dotted.segments e.path))

/-- **Edited.** Each edited path reads the value it was given, or nothing where it was taken
out, and every path apart from the edited ones reads what it read. -/
structure Edited (edits : List Edit) (old new : Json) : Prop where
  read : ∀ e ∈ edits, new.reach (Dotted.segments e.path) = e.value.toList
  kept : ∀ path, (∀ e ∈ edits, ¬ Dotted.Touches e.path path) →
    new.reach (Dotted.segments path) = old.reach (Dotted.segments path)

variable {e : Edit} {edits : List Edit} {document changed : Json}

/-- **An edited path** reads what it was given. -/
theorem reach_self (hdocument : document.isWellFormed = true) (h : e.on? document = some changed) :
    changed.reach (Dotted.segments e.path) = e.value.toList := by
  unfold on? at h
  split at h
  · next value hvalue =>
    rw [hvalue, Option.toList_some]
    exact Json.reach_setAt?_self h
  · next hvalue =>
    obtain rfl := Option.some.inj h
    rw [hvalue, Option.toList_none]
    exact Json.reach_removeAt_eq_nil (Dotted.segments_ne_nil _) List.prefix_rfl hdocument

/-- **A path apart from an edited one** reads what it read. -/
theorem reach_of_apart {path : String} (hapart : ¬ Dotted.Touches e.path path)
    (hdocument : document.isWellFormed = true) (h : e.on? document = some changed) :
    changed.reach (Dotted.segments path) = document.reach (Dotted.segments path) := by
  rw [Dotted.touches_iff, not_or] at hapart
  unfold on? at h
  split at h
  · exact Json.reach_setAt? hapart.1 hapart.2 h
  · obtain rfl := Option.some.inj h
    exact Json.reach_removeAt hapart.1 hapart.2 hdocument

theorem isWellFormed_on? (hvalue : ∀ value ∈ e.value, value.isWellFormed = true)
    (hdocument : document.isWellFormed = true) (h : e.on? document = some changed) :
    changed.isWellFormed = true := by
  unfold on? at h
  split at h
  · next value heq =>
    have hset : value.isWellFormed = true := hvalue value (heq ▸ Option.mem_some_self value)
    exact Json.isWellFormed_setAt? hset hdocument h
  · obtain rfl := Option.some.inj h
    exact Json.isWellFormed_removeAt _ hdocument

/-- Edits one after the other, unless one of them cannot be made. -/
def run? (edits : List Edit) (document : Json) : Option Json :=
  edits.foldlM (fun d e => e.on? d) document

theorem run?_cons (e : Edit) (edits : List Edit) (document : Json) :
    run? (e :: edits) document = (e.on? document).bind (run? edits) := rfl

theorem run?_append (front back : List Edit) (document : Json) :
    run? (front ++ back) document = (run? front document).bind (run? back) :=
  List.foldlM_append

/-- **Edits of paths apart from each other** edit the document. -/
theorem edited_run (hvalues : ∀ e ∈ edits, ∀ value ∈ e.value, value.isWellFormed = true)
    (hapart : edits.Pairwise fun e e' => ¬ Dotted.Touches e.path e'.path)
    (hdocument : document.isWellFormed = true) (h : run? edits document = some changed) :
    Edited edits document changed := by
  induction edits generalizing document with
  | nil =>
    obtain rfl := Option.some.inj h
    exact ⟨fun e he => absurd he List.not_mem_nil, fun _ _ => rfl⟩
  | cons e edits ih =>
    obtain ⟨hvalue, hvalues⟩ := List.forall_mem_cons.mp hvalues
    obtain ⟨hfirst, hapart⟩ := List.pairwise_cons.mp hapart
    rw [run?_cons] at h
    obtain ⟨next, hnext, hrun⟩ := Option.bind_eq_some_iff.mp h
    have hrest := ih hvalues hapart (isWellFormed_on? hvalue hdocument hnext) hrun
    refine ⟨fun e' he' => ?_, fun path hpath => ?_⟩
    · rcases List.mem_cons.mp he' with rfl | he'
      · -- the other edits are apart from the first, so they keep what it made its path read
        have hothers : ∀ e ∈ edits, ¬ Dotted.Touches e.path e'.path := fun e he htouches =>
          hfirst e he htouches.symm
        rw [hrest.kept e'.path hothers, reach_self hdocument hnext]
      · exact hrest.read e' he'
    · obtain ⟨hthis, hothers⟩ := List.forall_mem_cons.mp hpath
      rw [hrest.kept path hothers, reach_of_apart hthis hdocument hnext]

end Edit

/-! ## Updates as edits -/

namespace Update

/-- The edits of one operator of an update: `$set` gives values, and `$unset` takes out. -/
def editsOf (operator : String) (fields : Json) : List Edit :=
  (fields.members?.getD []).map fun (path, value) =>
    ⟨path, if operator = "$set" then some value else none⟩

/-- **The edits of an update**, in its order. -/
def edits (update : Json) : List Edit :=
  (update.members?.getD []).flatMap fun (operator, fields) => editsOf operator fields

variable {document changed : Json}

theorem run?_of_setAll {fields : Members Json} (h : setAll document fields = .ok changed) :
    Edit.run? (editsOf "$set" (.obj fields)) document = some changed := by
  induction fields generalizing document with
  | nil =>
    obtain rfl := Except.ok.inj h
    rfl
  | cons field rest ih =>
    obtain ⟨path, value⟩ := field
    rw [setAll] at h
    split at h
    · next next hset =>
      have hrest := ih h
      change (Json.setAt? value (Dotted.segments path) document).bind _ = _
      rw [hset]
      exact hrest
    · exact absurd h (by simp)

theorem run?_removeAll {operator : String} (hoperator : operator ≠ "$set") (fields : Members Json)
    (document : Json) :
    Edit.run? (editsOf operator (.obj fields)) document =
      some (document.removeAll fields.keys) := by
  induction fields generalizing document with
  | nil => rfl
  | cons field rest ih =>
    obtain ⟨path, value⟩ := field
    have hfirst : editsOf operator (.obj ((path, value) :: rest)) =
        ⟨path, none⟩ :: editsOf operator (.obj rest) := by
      simp [editsOf, Json.members?, hoperator]
    rw [hfirst, Edit.run?_cons]
    exact ih _

theorem run?_of_step {operator : String} {fields : Members Json}
    (h : step document operator fields = .ok changed) :
    Edit.run? (editsOf operator (.obj fields)) document = some changed := by
  unfold step at h
  split at h
  · next hset =>
    subst hset
    exact run?_of_setAll h
  · next hset =>
    split at h
    · rw [run?_removeAll hset, Except.ok.inj h]
    · exact absurd h (by simp)

/-- **An update that can be applied** makes its edits. -/
theorem run?_of_apply {update : Json} (h : apply update document = .ok changed) :
    Edit.run? (edits update) document = some changed := by
  cases update with
  | obj operators =>
    have hedits : edits (.obj operators) =
        operators.flatMap fun (operator, fields) => editsOf operator fields := rfl
    rw [apply] at h
    rw [hedits]
    induction operators generalizing document with
    | nil =>
      obtain rfl := Except.ok.inj h
      rfl
    | cons first rest ih =>
      obtain ⟨operator, fields⟩ := first
      cases fields with
      | obj fields =>
        obtain ⟨next, hstep, hrest⟩ := bind_eq_ok.mp h
        rw [List.flatMap_cons, Edit.run?_append, run?_of_step hstep]
        exact ih hrest rfl
      | _ => simp [steps] at h
  | _ => simp [apply] at h

/-- The values of an update are well formed as it is. -/
theorem isWellFormed_edits {update : Json} (h : update.isWellFormed = true) :
    ∀ e ∈ edits update, ∀ value ∈ e.value, value.isWellFormed = true := by
  intro e he value hvalue
  obtain ⟨⟨operator, fields⟩, hoperator, he⟩ := List.mem_flatMap.mp he
  obtain ⟨⟨path, given⟩, hfield, rfl⟩ := List.mem_map.mp he
  cases update with
  | obj operators =>
    have hfields := (Json.isWellFormed_obj.mp h).2 _ hoperator
    cases fields with
    | obj members =>
      have hgiven := (Json.isWellFormed_obj.mp hfields).2 _ hfield
      obtain ⟨-, heq⟩ := Option.ite_none_right_eq_some.mp (Option.mem_def.mp hvalue)
      exact Option.some.inj heq ▸ hgiven
    | _ => exact absurd hfield List.not_mem_nil
  | _ => exact absurd hoperator List.not_mem_nil

end Update

/-! ## Updates in a store -/

namespace Store

variable {name : String} {condition change : Json} {written : WriteCount} {s : Store}

/-- **An update that matches a document** puts the updated document in its place. -/
theorem updateOne_found (h : (updateOne name condition change).result s = .ok written)
    (hmatched : written.matched ≠ 0) :
    ∃ before old new after,
      Collection.split? condition (s.documents name) = .ok (some (before, old, after)) ∧
      Update.apply change old = .ok new ∧
      ∀ other, ((updateOne name condition change).after s).collection other =
        if other = name then
          { s.collection name with documents := before ++ new :: after }
        else s.collection other := by
  have hempty : changing (Collection.update name condition change) {} = (.ok {}, {}) := rfl
  rw [updateOne, result_writingIfPresent hempty] at h
  simp only [updateOne, collection_writingIfPresent hempty]
  unfold changing at h ⊢
  cases hupdate : Collection.update name condition change (s.collection name) with
  | error e => exact absurd h (by simp [hupdate])
  | ok outcome =>
    obtain ⟨count, c⟩ := outcome
    simp only [hupdate, Except.ok.injEq] at h ⊢
    subst h
    obtain ⟨found, hsplit, hupdate⟩ := bind_eq_ok.mp hupdate
    rcases found with _ | ⟨before, old, after⟩
    · obtain ⟨rfl, -⟩ := Prod.mk.inj (Except.ok.inj hupdate)
      exact absurd rfl hmatched
    · obtain ⟨new, happly, hupdate⟩ := bind_eq_ok.mp hupdate
      split at hupdate
      · obtain ⟨-, -, hput⟩ := bind_eq_ok.mp hupdate
        obtain ⟨-, rfl⟩ := Prod.mk.inj (Except.ok.inj hput)
        exact ⟨before, old, new, after, hsplit, happly, fun _ => rfl⟩
      · exact absurd hupdate (by simp)

/-- **An update changes what it names.** Where an update of paths apart from each other matches
a document, the first document that satisfies the filter is edited in its place, and all others
stay as they are. -/
theorem updates_exactly (hdocuments : ∀ d ∈ s.documents name, d.isWellFormed = true)
    (hchange : change.isWellFormed = true)
    (hapart : (Update.edits change).Pairwise fun e e' => ¬ Dotted.Touches e.path e'.path)
    (h : (updateOne name condition change).result s = .ok written)
    (hmatched : written.matched ≠ 0) :
    ∃ before old new after,
      s.documents name = before ++ old :: after ∧
      (∀ d ∈ before, Filter.holds d condition = .ok false) ∧
      Filter.holds old condition = .ok true ∧
      (∀ other, ((updateOne name condition change).after s).collection other =
        if other = name then
          { s.collection name with documents := before ++ new :: after }
        else s.collection other) ∧
      Edit.Edited (Update.edits change) old new := by
  obtain ⟨before, old, new, after, hsplit, happly, hafter⟩ := updateOne_found h hmatched
  obtain ⟨hsplits, hbefore, hold⟩ := Collection.split?_eq_some hsplit
  have hwell : old.isWellFormed = true := hdocuments old (by rw [hsplits]; simp)
  have hedited := Edit.edited_run (Update.isWellFormed_edits hchange) hapart hwell
    (Update.run?_of_apply happly)
  exact ⟨before, old, new, after, hsplits, hbefore, hold, hafter, hedited⟩

/-- Two boards that have scores, and one that has none. -/
def boards : Store :=
  ⟨[("boards", { documents := [
    .obj [("_id", .ofInt 1)],
    .obj [("_id", .ofInt 2), ("total", .ofInt 5), ("tags", .arr [
      .obj [("mark", .ofInt 8), ("label", .str "x")], .ofInt 7, .obj [("mark", .ofInt 9)]])],
    .obj [("_id", .ofInt 3), ("total", .ofInt 6)]] })]⟩

/-- Boards with a score. -/
def scored : Json := .obj [("total", .obj [("$gt", .ofInt 4)])]

/-- Takes out the marks of all tags, and sets a best score two documents deep. -/
def rescore : Json :=
  .obj [("$unset", .obj [("tags.mark", .null)]),
    ("$set", .obj [("stats.best.score", .ofInt 9), ("total", .ofInt 14)])]

/-- The first board with a score is changed, in its place, and its tags keep their labels. -/
theorem updates_exactly_boards :
    (∃ before old new after,
      boards.documents "boards" = before ++ old :: after ∧
      ((updateOne "boards" scored rescore).after boards).documents "boards" =
        before ++ new :: after ∧
      new.reach ["stats", "best", "score"] = [.ofInt 9] ∧
      new.reach ["tags", "mark"] = [] ∧
      new.reach ["tags", "label"] = old.reach ["tags", "label"]) ∧
    Json.sameItems (((updateOne "boards" scored rescore).after boards).documents "boards")
      [.obj [("_id", .ofInt 1)],
        .obj [("_id", .ofInt 2), ("total", .ofInt 14),
          ("tags", .arr [.obj [("label", .str "x")], .ofInt 7, .obj []]),
          ("stats", .obj [("best", .obj [("score", .ofInt 9)])])],
        .obj [("_id", .ofInt 3), ("total", .ofInt 6)]] = true := by
  have hwell : ∀ d ∈ boards.documents "boards", d.isWellFormed = true := by decide +kernel
  have hchange : rescore.isWellFormed = true := by decide +kernel
  have hapart : (Update.edits rescore).Pairwise fun e e' => ¬ Dotted.Touches e.path e'.path := by
    decide +kernel
  have hmatched : ((updateOne "boards" scored rescore).result boards).toOption.map
      WriteCount.matched = some 1 := by decide +kernel
  refine ⟨?_, by decide +kernel⟩
  cases hresult : (updateOne "boards" scored rescore).result boards with
  | error e => exact absurd hmatched (by simp [hresult, Except.toOption])
  | ok written =>
    have hone : written.matched ≠ 0 := by
      rw [hresult] at hmatched
      have hcount := Option.some.inj hmatched
      omega
    obtain ⟨before, old, new, after, hsplit, -, -, hafter, hedited⟩ :=
      updates_exactly hwell hchange hapart hresult hone
    have hbest := hedited.read ⟨"stats.best.score", some (.ofInt 9)⟩
      (List.mem_cons_of_mem _ List.mem_cons_self)
    have hmarks := hedited.read ⟨"tags.mark", none⟩ List.mem_cons_self
    have hlabels := hedited.kept "tags.label" (by decide +kernel)
    refine ⟨before, old, new, after, hsplit, ?_, hbest, hmarks, hlabels⟩
    rw [documents, hafter "boards", if_pos rfl]

end Store

end ScopedDocs
