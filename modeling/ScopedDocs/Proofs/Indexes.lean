import ScopedDocs.Proofs.Operations
import ScopedDocs.Proofs.Storage
/-!
# Indexes — what is in force once they are ensured

Making an index adds it, unless there is one of its name already
(`Store.createIndex_cases`). So a schema whose indexes have been ensured has those in force
that are the first it declares under their names (`Repository.Runs.installed_iff`), and no
operation takes one away. Two documents of a store that is reached later do not agree on
the keys of such an index, where it is unique (`Repository.Runs.declared_unique`). Of two
indexes that are declared under one name, the second is not made
(`Repository.Runs.second_not_made`).
-/


namespace ScopedDocs

variable {α : Type}

/-! ## Making one index -/

/-- **Making an index** adds it, keeps one of its name that is there, or is refused. -/
theorem Collection.addIndex_cases (name : String) (i : Index) (c : Collection) :
    (∃ e, c.addIndex name i = .error e) ∨
    (c.addIndex name i = .ok c ∧ ∃ j ∈ c.indexes, j.name = i.name) ∨
    (c.addIndex name i = .ok { c with indexes := c.indexes ++ [i] } ∧
      ∀ j ∈ c.indexes, j.name ≠ i.name) := by
  unfold addIndex
  split
  · next hthere =>
    obtain ⟨j, hj, hname⟩ := List.any_eq_true.mp hthere
    exact .inr (.inl ⟨rfl, j, hj, by simpa using hname⟩)
  · next hfree =>
    split
    · exact .inl ⟨_, rfl⟩
    · exact .inr (.inr ⟨rfl, by simpa using hfree⟩)

namespace Store

variable {name other : String} {s : Store} {i : Index}

/-- The same, seen from the store. -/
theorem createIndex_cases (name : String) (i : Index) (s : Store) :
    ((∃ e, (createIndex name i).result s = .error e) ∧
      ((createIndex name i).after s).indexes name = s.indexes name) ∨
    ((createIndex name i).result s = .ok () ∧
      ((createIndex name i).after s).indexes name = s.indexes name ∧
      ∃ j ∈ s.indexes name, j.name = i.name) ∨
    ((createIndex name i).result s = .ok () ∧
      ((createIndex name i).after s).indexes name = s.indexes name ++ [i] ∧
      ∀ j ∈ s.indexes name, j.name ≠ i.name) := by
  have hafter : ((createIndex name i).after s).collection name =
      (changed (Collection.addIndex name i) (s.collection name)).2 := by
    rw [createIndex, collection_writing, if_pos rfl]
  rw [createIndex, result_writing, ← createIndex, indexes, hafter, changed_eq]
  rcases Collection.addIndex_cases name i (s.collection name) with
    ⟨e, h⟩ | ⟨h, hthere⟩ | ⟨h, hfree⟩ <;> rw [h]
  · exact .inl ⟨⟨e, rfl⟩, rfl⟩
  · exact .inr (.inl ⟨rfl, rfl, hthere⟩)
  · exact .inr (.inr ⟨rfl, rfl, hfree⟩)

/-- Making an index leaves those of other collections. -/
theorem indexes_createIndex_of_ne (h : other ≠ name) :
    ((createIndex name i).after s).indexes other = s.indexes other := by
  rw [indexes, createIndex, collection_writing, if_neg h]
  rfl

/-- The indexes that are there stay. -/
theorem mem_indexes_createIndex {j : Index} (h : j ∈ s.indexes other) :
    j ∈ ((createIndex name i).after s).indexes other := by
  by_cases hother : other = name
  · subst hother
    rcases createIndex_cases other i s with ⟨-, h'⟩ | ⟨-, h', -⟩ | ⟨-, h', -⟩ <;> rw [h']
    · exact h
    · exact h
    · exact List.mem_append_left _ h
  · rwa [indexes_createIndex_of_ne hother]

end Store

/-! ## The first of each name -/

/-- An index that is the first of its name among some. -/
def Index.IsFirst (i : Index) (indexes : List Index) : Prop :=
  indexes.find? (fun j => j.name == i.name) = some i

namespace Index.IsFirst

variable {i j : Index} {indexes : List Index}

/-- There is one first index of each name. -/
theorem unique (hi : i.IsFirst indexes) (hj : j.IsFirst indexes) (h : j.name = i.name) : j = i := by
  rw [IsFirst, h] at hj
  exact Option.some.inj (hj.symm.trans hi)

/-- An index behind others is the first of its name if none of these has it. -/
theorem behind {before after : List Index} (h : ∀ j ∈ before, j.name ≠ i.name) :
    i.IsFirst (before ++ i :: after) := by
  have hbefore : before.find? (fun j => j.name == i.name) = none := by
    simpa using h
  simp [IsFirst, hbefore]

end Index.IsFirst

/-- **Where making indexes stands** when some have been asked for: their names are taken, and
all that are there are the first of their names. -/
structure Index.Made (asked declared there : List Index) : Prop where
  /-- There is an index of each name that was asked for. -/
  taken : ∀ i ∈ asked, ∃ j ∈ there, j.name = i.name
  /-- All that are there are the first of their names among those declared. -/
  first : ∀ j ∈ there, j.IsFirst declared

namespace Index.Made

variable {i : Index} {asked declared rest there : List Index}

/-- One more has been asked for whose name was taken. -/
theorem kept (h : Made asked declared there) (hthere : ∃ j ∈ there, j.name = i.name) :
    Made (asked ++ [i]) declared there := by
  refine ⟨fun k hk => ?_, h.first⟩
  rcases List.mem_append.mp hk with hk | hk
  · exact h.taken k hk
  · rwa [List.mem_singleton.mp hk]

/-- One more has been asked for whose name was free. No index before has its name, for all of
their names are taken. -/
theorem added (h : Made asked declared there) (hdeclared : declared = asked ++ i :: rest)
    (hfree : ∀ j ∈ there, j.name ≠ i.name) : Made (asked ++ [i]) declared (there ++ [i]) := by
  have hfirst : i.IsFirst declared := by
    rw [hdeclared]
    refine Index.IsFirst.behind fun k hk heq => ?_
    obtain ⟨j, hj, hname⟩ := h.taken k hk
    exact hfree j hj (hname.trans heq)
  refine ⟨fun k hk => ?_, fun j hj => ?_⟩
  · rcases List.mem_append.mp hk with hk | hk
    · obtain ⟨j, hj, hname⟩ := h.taken k hk
      exact ⟨j, List.mem_append_left _ hj, hname⟩
    · exact ⟨i, List.mem_append_right _ (List.mem_singleton_self i),
        by rw [List.mem_singleton.mp hk]⟩
  · rcases List.mem_append.mp hj with hj | hj
    · exact h.first j hj
    · rwa [List.mem_singleton.mp hj]

end Index.Made

namespace Store

variable {name : String} {s : Store} {asked declared rest : List Index}

/-- **One step**: an index is asked for. -/
theorem createIndex_made {i : Index} (h : Index.Made asked declared (s.indexes name))
    (hdeclared : declared = asked ++ i :: rest) :
    (∀ j ∈ ((createIndex name i).after s).indexes name, j.IsFirst declared) ∧
      ((createIndex name i).result s = .ok () →
        Index.Made (asked ++ [i]) declared (((createIndex name i).after s).indexes name)) := by
  rcases createIndex_cases name i s with
    ⟨⟨e, hresult⟩, hafter⟩ | ⟨-, hafter, hthere⟩ | ⟨-, hafter, hfree⟩ <;> rw [hafter]
  · exact ⟨h.first, fun hdone => absurd (hresult.symm.trans hdone) (by simp)⟩
  · exact ⟨h.first, fun _ => h.kept hthere⟩
  · have hmade := h.added hdeclared hfree
    exact ⟨hmade.first, fun _ => hmade⟩

/-- **The whole run**: all that are declared are asked for, if none is refused. -/
theorem createIndexes_made (h : Index.Made asked declared (s.indexes name))
    (hdeclared : declared = asked ++ rest) :
    (∀ j ∈ ((rest.forM (createIndex name)).after s).indexes name, j.IsFirst declared) ∧
      ((rest.forM (createIndex name)).result s = .ok () →
        Index.Made declared declared (((rest.forM (createIndex name)).after s).indexes name)) := by
  induction rest generalizing asked s with
  | nil =>
    rw [List.append_nil] at hdeclared
    exact ⟨h.first, fun _ => hdeclared ▸ h⟩
  | cons i rest ih =>
    obtain ⟨hfirst, hmade⟩ := createIndex_made h hdeclared
    rw [StoreM.after_forM_cons, StoreM.result_forM_cons]
    cases hresult : (createIndex name i).result s with
    | error e => exact ⟨hfirst, fun hdone => absurd hdone (by simp)⟩
    | ok => exact ih (hmade hresult) (by simp [hdeclared])

end Store

/-! ## Runs -/

namespace Repository

variable {repo : Repository α} {s t : Store}

/-- **Ensuring indexes** leaves the first of each name, where only these are there before, and
all of them if it is done. -/
theorem ensureIndexes_made (repo : Repository α)
    (h : ∀ j ∈ s.indexes repo.collection, j.IsFirst repo.schema.indexes) :
    (∀ j ∈ (repo.ensureIndexes.after s).indexes repo.collection,
        j.IsFirst repo.schema.indexes) ∧
      (repo.ensureIndexes.result s = .ok () → Index.Made repo.schema.indexes repo.schema.indexes
        ((repo.ensureIndexes.after s).indexes repo.collection)) := by
  have hnone : Index.Made [] repo.schema.indexes (s.indexes repo.collection) := ⟨by simp, h⟩
  exact Store.createIndexes_made hnone rfl

/-- **A run of operations** from one store to another, by any callers, in any order, done or
refused. Other repositories may write to the store, too. They may make indexes in other
collections, and in the one of the repository those that it declares. -/
inductive Runs (repo : Repository α) (s : Store) : Store → Prop where
  /-- Nothing is done. -/
  | start : repo.Runs s s
  /-- An operation, of records whose stored forms are well formed. -/
  | operation {t : Store} {β : Type} (h : repo.Runs s t) (other : Repository β) (r : Request)
    (op : Operation β) (hop : ∀ record ∈ op.records, other.entity.WritesWell record) :
    repo.Runs s (op.after other r t)
  /-- Indexes are ensured. -/
  | ensureIndexes {t : Store} {β : Type} (h : repo.Runs s t) (other : Repository β)
    (hother : other.collection = repo.collection → other.schema.indexes = repo.schema.indexes) :
    repo.Runs s (other.ensureIndexes.after t)

namespace Runs

/-- A run leads from a store that is reached to one that is. -/
theorem reached (h : repo.Runs s t) (hs : Reached s) : Reached t := by
  induction h with
  | start => exact hs
  | operation _ other r op hop ih => exact (op.writes r _ hop).reached ih
  | ensureIndexes _ other _ ih =>
    exact StoreM.after_forM (fun i _ _ hu => hu.single _ (.createIndex i) trivial) ih

/-- An index that is there stays. -/
theorem mem_indexes {i : Index} {name : String} (h : repo.Runs s t) (hi : i ∈ s.indexes name) :
    i ∈ t.indexes name := by
  induction h with
  | start => exact hi
  | operation _ other r op hop ih => rwa [(op.writes r _ hop).indexes]
  | ensureIndexes _ other _ ih =>
    exact StoreM.after_forM (P := fun u => i ∈ u.indexes name)
      (fun _ _ _ h => Store.mem_indexes_createIndex h) ih

/-- Only indexes that are the first of their names are made. -/
theorem isFirst (h : repo.Runs s t)
    (hs : ∀ j ∈ s.indexes repo.collection, j.IsFirst repo.schema.indexes) :
    ∀ j ∈ t.indexes repo.collection, j.IsFirst repo.schema.indexes := by
  induction h with
  | start => exact hs
  | operation _ other r op hop ih => rwa [(op.writes r _ hop).indexes]
  | @ensureIndexes t _ _ other hother ih =>
    by_cases hname : other.collection = repo.collection
    · rw [← hname, ← hother hname] at ih ⊢
      exact (other.ensureIndexes_made ih).1
    · exact StoreM.after_forM
        (P := fun u => ∀ j ∈ u.indexes repo.collection, j.IsFirst repo.schema.indexes)
        (fun i _ u hu => by rwa [Store.indexes_createIndex_of_ne (Ne.symm hname)]) ih

/-- **What is in force.** Once the indexes of a repository have been ensured, in a store
that runs have led to from the empty one, those are in force that are the first it declares
under their names. -/
theorem installed_iff (hbefore : repo.Runs {} s) (hdone : repo.ensureIndexes.result s = .ok ())
    (hafter : repo.Runs (repo.ensureIndexes.after s) t) (i : Index) :
    i ∈ t.indexes repo.collection ↔ i.IsFirst repo.schema.indexes := by
  have hfirst := hbefore.isFirst (by simp [Store.indexes, Store.collection])
  have hmade := (repo.ensureIndexes_made hfirst).2 hdone
  refine ⟨hafter.isFirst hmade.first i, fun hi => ?_⟩
  obtain ⟨j, hj, hname⟩ := hmade.taken i (List.mem_of_find?_eq_some hi)
  rw [hi.unique (hmade.first j hj) hname] at hj
  exact hafter.mem_indexes hj

/-- **Declared keys are unique.** Once the indexes of a repository have been ensured, no two
documents of a store that is reached later agree on the keys of a unique index that is the
first the repository declares under its name, where both have a value at one of its paths
at least. -/
theorem declared_unique {i : Index} {m n : Nat} {a b : Json} (hbefore : repo.Runs {} s)
    (hdone : repo.ensureIndexes.result s = .ok ())
    (hafter : repo.Runs (repo.ensureIndexes.after s) t) (hi : i.IsFirst repo.schema.indexes)
    (hunique : i.unique = true) (hne : m ≠ n)
    (ha : (t.documents repo.collection)[m]? = some a)
    (hb : (t.documents repo.collection)[n]? = some b)
    (hcovers : ∃ path ∈ i.paths, (a.first? path).isSome)
    (hcovers' : ∃ path ∈ i.paths, (b.first? path).isSome) :
    Index.sameKey (i.key a) (i.key b) = false := by
  have hinstalled := (installed_iff hbefore hdone hafter i).mpr hi
  have hreached : Reached t :=
    hafter.reached ((hbefore.ensureIndexes repo fun _ => rfl).reached .empty)
  have hkeys := (hreached.unique_keys repo.collection hne ha hb).2
  exact hkeys i hinstalled hunique (fun _ => hcovers) fun _ => hcovers'

/-- A schema of orders that have a code and a reference of their own. The index of the
references has a name to choose. -/
def orderSchema (name : String) : Schema :=
  { entityType := "order", collection := "orders", access := [("ID", true)],
    mapping := [("Code", "code"), ("ID", "_id"), ("Ref", "ref")], fields := [],
    indexes := [⟨"by_code", [⟨"code", .ascending⟩], true, true⟩,
      ⟨name, [⟨"ref", .ascending⟩], true, true⟩] }

theorem isBuilt_orderSchema (name : String) : (orderSchema name).IsBuilt :=
  ⟨((((Schema.Draft.start "order" "orders").map "Code" "code").map "Ref" "ref").uniqueIndex
    "by_code" ["Code"]).uniqueIndex name ["Ref"], rfl⟩

/-- A repository of orders. -/
def orders (name : String) : Repository Record := ⟨orderSchema name, {}, Record.entity⟩

/-- An order. -/
def order (id : Uuid) (code ref : String) : Record :=
  ⟨⟨id, Owner.nobody, default, default⟩, [("code", .str code), ("ref", .str ref)]⟩

theorem writesWell_order (id : Uuid) (code ref : String) :
    Record.entity.WritesWell (order id code ref) := by
  refine Record.writesWell rfl ?_
  change ∀ key ∈ ["code", "ref"], key ∉ RecordBase.keys
  decide

/-- An order as a member of the group stores it. -/
def orderOf (id : Uuid) (code ref : String) : Json :=
  ((order id code ref).withOwner Guard.memberRequest.source).toJson

/-- The store that a member's orders leave, one after the other. -/
def ordered (name : String) (records : List Record) : Store :=
  records.foldl (fun s record => ((orders name).create Guard.memberRequest record).after s)
    ((orders name).ensureIndexes.after {})

/-- Storing records one after the other continues a run. -/
theorem creates (r : Request) {records : List α}
    (hrecords : ∀ record ∈ records, repo.entity.WritesWell record) (h : repo.Runs s t) :
    repo.Runs s (records.foldl (fun s record => (repo.create r record).after s) t) := by
  induction records generalizing t with
  | nil => exact h
  | cons record rest ih =>
    obtain ⟨hrecord, hrest⟩ := List.forall_mem_cons.mp hrecords
    exact ih hrest (h.operation repo r (.create record) (by simpa [Operation.records] using hrecord))

theorem runs_ordered (name : String) (records : List Record)
    (h : ∀ record ∈ records, Record.entity.WritesWell record) :
    (orders name).Runs ((orders name).ensureIndexes.after {}) (ordered name records) :=
  creates Guard.memberRequest h .start

/-- A third order that takes the reference of the first is refused. -/
theorem declared_unique_orders :
    (ordered "by_ref" [order ⟨1⟩ "a" "x", order ⟨2⟩ "b" "y", order ⟨3⟩ "c" "x"]).documents
        "orders" = [orderOf ⟨1⟩ "a" "x", orderOf ⟨2⟩ "b" "y"] ∧
      Index.sameKey (Index.key ⟨"by_ref", [⟨"ref", .ascending⟩], true, true⟩ (orderOf ⟨1⟩ "a" "x"))
        (Index.key ⟨"by_ref", [⟨"ref", .ascending⟩], true, true⟩ (orderOf ⟨2⟩ "b" "y")) = false := by
  have hruns := runs_ordered "by_ref" [order ⟨1⟩ "a" "x", order ⟨2⟩ "b" "y", order ⟨3⟩ "c" "x"]
    (by simp [writesWell_order])
  have hfound (id : Uuid) (code ref : String) :
      ∃ path ∈ ["ref"], ((orderOf id code ref).first? path).isSome :=
    ⟨"ref", List.mem_singleton_self _, rfl⟩
  refine ⟨rfl, ?_⟩
  exact declared_unique (m := 0) (n := 1) .start rfl hruns rfl rfl (by decide) rfl rfl
    (hfound ⟨1⟩ "a" "x") (hfound ⟨2⟩ "b" "y")

/-- **Of two indexes that are declared under one name, the second is not made**, and two
orders come to have one reference. -/
theorem second_not_made :
    ¬ ∀ (repo : Repository Record) (s t : Store) (i : Index) (m n : Nat) (a b : Json),
      repo.schema.IsBuilt → repo.Runs {} s → repo.ensureIndexes.result s = .ok () →
      repo.Runs (repo.ensureIndexes.after s) t → i ∈ repo.schema.indexes → i.unique = true →
      m ≠ n → (t.documents repo.collection)[m]? = some a →
      (t.documents repo.collection)[n]? = some b →
      (∃ path ∈ i.paths, (a.first? path).isSome) → (∃ path ∈ i.paths, (b.first? path).isSome) →
      Index.sameKey (i.key a) (i.key b) = false := by
  intro h
  have hruns := runs_ordered "by_code" [order ⟨1⟩ "a" "x", order ⟨2⟩ "b" "x"]
    (by simp [writesWell_order])
  have hfound (id : Uuid) (code ref : String) :
      ∃ path ∈ ["ref"], ((orderOf id code ref).first? path).isSome :=
    ⟨"ref", List.mem_singleton_self _, rfl⟩
  have hdistinct := h (orders "by_code") {} _ ⟨"by_code", [⟨"ref", .ascending⟩], true, true⟩ 0 1
    (orderOf ⟨1⟩ "a" "x") (orderOf ⟨2⟩ "b" "x") (isBuilt_orderSchema "by_code") .start rfl hruns
    (List.mem_cons_of_mem _ List.mem_cons_self) rfl (by decide) rfl rfl (hfound ⟨1⟩ "a" "x")
    (hfound ⟨2⟩ "b" "x")
  exact absurd hdistinct (by decide)

end Runs

end Repository

end ScopedDocs
