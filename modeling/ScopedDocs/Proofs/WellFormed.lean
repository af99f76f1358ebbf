import Mathlib.Data.List.Perm.Subperm
import ScopedDocs.Proofs.Outcome
import ScopedDocs.Update
/-!
# JSON — well-formed values

A value is well formed if no object in it has a key twice (`Json.isWellFormed`), as
everything is that was read from text. Among such values sameness is symmetric
(`Json.same_comm`), and what a path reaches, what an update makes of a document and
what erasing leaves are well formed again.
-/


namespace ScopedDocs

namespace Members

variable {α : Type}

/-- The keys after setting one. -/
theorem mem_keys_put {key other : String} {value : α} {m : Members α} :
    other ∈ (put key value m).keys ↔ other = key ∨ other ∈ m.keys := by
  induction m with
  | nil => simp [put, keys]
  | cons entry rest ih =>
    obtain ⟨k, v⟩ := entry
    simp only [keys] at ih
    by_cases hk : key = k
    · simp [put, keys, hk]
    · simp only [put, keys, beq_eq_false_iff_ne.mpr hk, Bool.false_eq_true, ↓reduceIte,
        List.map_cons, List.mem_cons, ih]
      rw [or_left_comm]

/-- Setting leaves no two members with one key where there were none. -/
theorem nodup_keys_put (key : String) (value : α) {m : Members α} (h : m.keys.Nodup) :
    (put key value m).keys.Nodup := by
  induction m with
  | nil => simp [put, keys]
  | cons entry rest ih =>
    obtain ⟨k, v⟩ := entry
    obtain ⟨hnot, hrest⟩ := List.nodup_cons.mp h
    by_cases hk : key = k
    · subst hk
      simpa [put, keys] using And.intro hnot hrest
    · have hput : put key value ((k, v) :: rest) = (k, v) :: put key value rest := by
        simp [put, hk]
      rw [hput]
      refine List.nodup_cons.mpr ⟨fun hmem => ?_, ih hrest⟩
      rcases mem_keys_put.mp hmem with heq | hmem
      · exact hk heq.symm
      · exact hnot hmem

/-- What is there after setting a key was there or is the new value. -/
theorem mem_put {key : String} {value : α} {entry : String × α} {m : Members α}
    (h : entry ∈ put key value m) : entry.2 = value ∨ entry ∈ m := by
  induction m with
  | nil =>
    simp only [put, List.mem_singleton] at h
    exact .inl (by rw [h])
  | cons first rest ih =>
    obtain ⟨k, v⟩ := first
    rw [put] at h
    split at h
    · rcases List.mem_cons.mp h with rfl | h
      · exact .inl rfl
      · exact .inr (List.mem_cons_of_mem _ h)
    · rcases List.mem_cons.mp h with rfl | h
      · exact .inr List.mem_cons_self
      · exact (ih h).imp_right (List.mem_cons_of_mem _)

/-- What a key reads is one of the members. -/
theorem mem_of_lookup {key : String} {value : α} {m : Members α} (h : m.lookup key = some value) :
    (key, value) ∈ m := by
  induction m with
  | nil => simp at h
  | cons entry rest ih =>
    obtain ⟨k, v⟩ := entry
    rw [List.lookup_cons] at h
    split at h
    · next heq =>
      obtain rfl := beq_iff_eq.mp heq
      rw [Option.some.inj h]
      exact List.mem_cons_self
    · exact List.mem_cons_of_mem _ (ih h)

theorem isSome_lookup {key : String} {m : Members α} :
    (m.lookup key).isSome = true ↔ key ∈ m.keys := by
  rw [List.lookup_isSome_iff, keys, List.mem_map]
  exact exists_congr fun m => and_congr_right fun _ => beq_iff_eq.trans eq_comm

/-- **The keys of members that were listed** are those of the list. -/
theorem mem_keys_ofList {pairs : List (String × α)} {key : String} :
    key ∈ (ofList pairs).keys ↔ ∃ value, (key, value) ∈ pairs := by
  -- the members listed so far are arbitrary, so that the induction goes along the rest
  have hfold : ∀ (pairs : List (String × α)) (m : Members α),
      key ∈ (pairs.foldl (fun m pair => put pair.1 pair.2 m) m).keys ↔
        (∃ value, (key, value) ∈ pairs) ∨ key ∈ m.keys := by
    intro pairs
    induction pairs with
    | nil => simp
    | cons pair rest ih =>
      obtain ⟨k, v⟩ := pair
      intro m
      rw [List.foldl_cons, ih, mem_keys_put]
      simp only [List.mem_cons, Prod.mk.injEq, exists_or, exists_and_left, exists_eq, and_true]
      rw [or_left_comm, or_assoc]
  rw [ofList, hfold]
  simp [keys]

/-- Members that were listed have no key twice. -/
theorem nodup_keys_ofList (pairs : List (String × α)) : (ofList pairs).keys.Nodup :=
  List.foldlRecOn (motive := fun m : Members α => m.keys.Nodup) pairs _ List.nodup_nil
    fun _ hm pair _ => nodup_keys_put pair.1 pair.2 hm

/-- The values of members that were listed are those of the list. -/
theorem mem_of_mem_ofList {pairs : List (String × α)} {m : String × α}
    (h : m ∈ ofList pairs) : ∃ pair ∈ pairs, pair.2 = m.2 := by
  have hfold : ∀ (rest : List (String × α)) (listed : Members α), rest ⊆ pairs →
      (∀ m ∈ listed, ∃ pair ∈ pairs, pair.2 = m.2) →
      ∀ m ∈ rest.foldl (fun listed pair => put pair.1 pair.2 listed) listed,
        ∃ pair ∈ pairs, pair.2 = m.2 := by
    intro rest
    induction rest with
    | nil => exact fun _ _ hlisted => hlisted
    | cons pair rest ih =>
      intro listed hrest hlisted
      obtain ⟨hpair, hrest⟩ := List.cons_subset.mp hrest
      refine ih _ hrest fun m hm => ?_
      rcases mem_put hm with hm | hm
      · exact ⟨pair, hpair, hm.symm⟩
      · exact hlisted m hm
  exact hfold pairs [] (fun _ h => h) (by simp) m h

end Members

namespace Json

/-- **Induction on values**: on the items of an array and the members of an object. -/
@[elab_as_elim]
theorem ind {p : Json → Prop} (null : p null) (bool : ∀ b, p (bool b)) (num : ∀ n, p (num n))
    (str : ∀ s, p (str s)) (arr : ∀ items, (∀ v ∈ items, p v) → p (arr items))
    (obj : ∀ members, (∀ m ∈ members, p m.2) → p (obj members)) (v : Json) : p v := by
  refine @Json.rec p (fun items => ∀ v ∈ items, p v) (fun members => ∀ m ∈ members, p m.2)
    (fun m => p m.2) null bool num str arr obj ?_ ?_ ?_ ?_ ?_ v
  · simp
  · intro item items hitem hitems v hv
    rcases List.mem_cons.mp hv with rfl | hv
    · exact hitem
    · exact hitems v hv
  · simp
  · intro m members hm hmembers n hn
    rcases List.mem_cons.mp hn with rfl | hn
    · exact hm
    · exact hmembers n hn
  · intro _ value hvalue
    exact hvalue

mutual

/-- Whether no object in a value has a key twice. -/
def isWellFormed : Json → Bool
  | arr items => areWellFormed items
  | obj members => decide (Members.keys members).Nodup && membersWellFormed members
  | _ => true

/-- Whether all items are well formed. -/
def areWellFormed : List Json → Bool
  | [] => true
  | item :: items => isWellFormed item && areWellFormed items

/-- Whether the values of all members are well formed. -/
def membersWellFormed : List (String × Json) → Bool
  | [] => true
  | (_, value) :: members => isWellFormed value && membersWellFormed members

end

theorem areWellFormed_iff {items : List Json} :
    areWellFormed items = true ↔ ∀ v ∈ items, v.isWellFormed = true := by
  induction items with
  | nil => simp [areWellFormed]
  | cons item items ih => simp [areWellFormed, ih]

theorem membersWellFormed_iff {members : Members Json} :
    membersWellFormed members = true ↔ ∀ m ∈ members, m.2.isWellFormed = true := by
  induction members with
  | nil => simp [membersWellFormed]
  | cons m members ih => simp [membersWellFormed, ih]

/-- An array is well formed as its items are. -/
theorem isWellFormed_arr {items : List Json} :
    (arr items).isWellFormed = true ↔ ∀ v ∈ items, v.isWellFormed = true := by
  rw [isWellFormed, areWellFormed_iff]

/-- An object is well formed if its keys are apart and its values well formed. -/
theorem isWellFormed_obj {members : Members Json} :
    (obj members).isWellFormed = true ↔
      members.keys.Nodup ∧ ∀ m ∈ members, m.2.isWellFormed = true := by
  rw [isWellFormed, Bool.and_eq_true, decide_eq_true_iff, membersWellFormed_iff]

/-! ## Sameness -/

/-- Members are the same if each of the first has the same value in the second. -/
theorem sameMembers_iff {as bs : Members Json} :
    sameMembers as bs = true ↔
      ∀ m ∈ as, ∃ b, bs.lookup m.1 = some b ∧ m.2.same b = true := by
  induction as with
  | nil => simp [sameMembers]
  | cons m as ih =>
    obtain ⟨key, a⟩ := m
    simp only [sameMembers, Bool.and_eq_true, ih, List.forall_mem_cons]
    refine and_congr_left fun _ => ?_
    cases bs.lookup key <;> simp

/-- Keys that are as many and all among others that are apart are those others. -/
theorem keys_subset_of_length {as bs : Members Json} (has : as.keys.Nodup)
    (hlength : as.length = bs.length) (hsubset : as.keys ⊆ bs.keys) : bs.keys ⊆ as.keys := by
  have hperm := (List.subperm_of_subset has hsubset).perm_of_length_le
    (by simp [Members.keys, hlength])
  exact hperm.symm.subset

/-- Items are the same both ways round if each of the first is. -/
theorem sameItems_of_sameItems {items others : List Json}
    (h : ∀ v ∈ items, ∀ w ∈ others, v.same w = true → w.same v = true)
    (hsame : sameItems items others = true) : sameItems others items = true := by
  induction items generalizing others with
  | nil =>
    cases others with
    | nil => rfl
    | cons other others => simp [sameItems] at hsame
  | cons item items ih =>
    cases others with
    | nil => simp [sameItems] at hsame
    | cons other others =>
      simp only [sameItems, Bool.and_eq_true] at hsame ⊢
      have hitems := ih (fun v hv w hw => h v (by simp [hv]) w (by simp [hw])) hsame.2
      exact ⟨h item (by simp) other (by simp) hsame.1, hitems⟩

/-- Members are the same both ways round if the values of each key are. -/
theorem sameMembers_of_sameMembers {as bs : Members Json} (has : (Members.keys as).Nodup)
    (hbs : (Members.keys bs).Nodup) (hlength : as.length = bs.length)
    (h : ∀ m ∈ as, ∀ n ∈ bs, m.2.same n.2 = true → n.2.same m.2 = true)
    (hsame : sameMembers as bs = true) : sameMembers bs as = true := by
  rw [sameMembers_iff] at hsame ⊢
  have hsubset : Members.keys as ⊆ Members.keys bs := by
    intro key hkey
    obtain ⟨m, hm, rfl⟩ := List.mem_map.mp hkey
    obtain ⟨b, hread, -⟩ := hsame m hm
    have hmem : (m.1, b).1 ∈ Members.keys bs := List.mem_map_of_mem (Members.mem_of_lookup hread)
    exact hmem
  intro n hn
  -- the keys are the same ones, so some member of the first has this key and reads this value
  have hkey : n.1 ∈ Members.keys as :=
    keys_subset_of_length has hlength hsubset (List.mem_map_of_mem hn)
  obtain ⟨m, hm, hkeys⟩ := List.mem_map.mp hkey
  obtain ⟨b, hread, hmb⟩ := hsame m hm
  have hn' : (m.1, n.2) ∈ bs := by rw [hkeys]; exact hn
  rw [(Members.lookup_eq_some_iff hbs).mpr hn'] at hread
  obtain rfl := Option.some.inj hread
  have hm' : (n.1, m.2) ∈ as := by rw [← hkeys]; exact hm
  exact ⟨m.2, (Members.lookup_eq_some_iff has).mpr hm', h m hm n hn hmb⟩

theorem same_of_same {a b : Json} (ha : a.isWellFormed = true) (hb : b.isWellFormed = true)
    (h : a.same b = true) : b.same a = true := by
  induction a using ind generalizing b with
  | null => cases b <;> simp_all [same]
  | bool x => cases b <;> simp_all [same]
  | num x =>
    cases b with
    | num y => cases x <;> cases y <;> simp_all [same, Number.same, Double.same]
    | _ => simp [same] at h
  | str x => cases b <;> simp_all [same]
  | arr items ih =>
    cases b with
    | arr others =>
      rw [isWellFormed_arr] at ha hb
      rw [same] at h ⊢
      exact sameItems_of_sameItems (fun v hv w hw => ih v hv (ha v hv) (hb w hw)) h
    | _ => simp [same] at h
  | obj as ih =>
    cases b with
    | obj bs =>
      rw [isWellFormed_obj] at ha hb
      rw [same, Bool.and_eq_true, beq_iff_eq] at h ⊢
      refine ⟨h.1.symm, sameMembers_of_sameMembers ha.1 hb.1 h.1 (fun m hm n hn => ?_) h.2⟩
      exact ih m hm (ha.2 m hm) (hb.2 n hn)
    | _ => simp [same] at h

/-- **Sameness is symmetric** among well-formed values. -/
theorem same_comm {a b : Json} (ha : a.isWellFormed = true) (hb : b.isWellFormed = true) :
    a.same b = b.same a := by
  rw [Bool.eq_iff_iff]
  exact ⟨same_of_same ha hb, same_of_same hb ha⟩

theorem sameItems_map {α : Type} {values : List α} {f g : α → Json}
    (h : ∀ x ∈ values, (f x).same (g x) = true) :
    sameItems (values.map f) (values.map g) = true := by
  induction values with
  | nil => rfl
  | cons x rest ih =>
    obtain ⟨hx, hrest⟩ := List.forall_mem_cons.mp h
    rw [List.map_cons, List.map_cons, sameItems, hx, ih hrest, Bool.and_self]

/-- Sameness is reflexive among well-formed values. -/
theorem same_refl {v : Json} (h : v.isWellFormed = true) : v.same v = true := by
  induction v using ind with
  | null => rfl
  | bool b => exact beq_self_eq_true b
  | num n => cases n <;> simp [same, Number.same, Double.same]
  | str s => exact beq_self_eq_true s
  | arr items ih =>
    have hitems := sameItems_map fun v hv => ih v hv (isWellFormed_arr.mp h v hv)
    rwa [List.map_id' items] at hitems
  | obj members ih =>
    obtain ⟨hkeys, hvalues⟩ := isWellFormed_obj.mp h
    rw [same, beq_self_eq_true, Bool.true_and, sameMembers_iff]
    exact fun m hm => ⟨m.2, (Members.lookup_eq_some_iff hkeys).mpr hm, ih m hm (hvalues m hm)⟩

/-- **Objects are the same** if each key has the same value in both, or none. -/
theorem same_obj {as bs : Members Json} (has : (Members.keys as).Nodup)
    (hbs : (Members.keys bs).Nodup)
    (h : ∀ key, Option.Rel (fun a b => a.same b = true) (as.lookup key) (bs.lookup key)) :
    (obj as).same (obj bs) = true := by
  have hkeys (key : String) : key ∈ Members.keys as ↔ key ∈ Members.keys bs := by
    have hread := h key
    rw [← Members.isSome_lookup, ← Members.isSome_lookup]
    generalize as.lookup key = a at hread ⊢
    generalize bs.lookup key = b at hread ⊢
    cases hread <;> rfl
  have hlength := ((List.perm_ext_iff_of_nodup has hbs).mpr hkeys).length_eq
  simp only [Members.keys, List.length_map] at hlength
  rw [same, hlength, beq_self_eq_true, Bool.true_and, sameMembers_iff]
  intro m hm
  have hread := h m.1
  rw [(Members.lookup_eq_some_iff has).mpr hm] at hread
  generalize bs.lookup m.1 = b at hread ⊢
  cases hread with
  | some hsame => exact ⟨_, rfl, hsame⟩

/-! ## What paths reach -/

section

variable {value : Json} {key : String}

/-- The member of a well-formed object is well formed. -/
theorem isWellFormed_of_lookup {members : Members Json} (h : (obj members).isWellFormed = true)
    (hread : members.lookup key = some value) : value.isWellFormed = true :=
  (isWellFormed_obj.mp h).2 _ (Members.mem_of_lookup hread)

theorem isWellFormed_of_get? {document : Json} (h : document.isWellFormed = true)
    (hread : document.get? key = some value) : value.isWellFormed = true := by
  cases document with
  | obj members => exact isWellFormed_of_lookup h hread
  | _ => simp [get?] at hread

/-- **What a path reaches** in a well-formed value is well formed. -/
theorem isWellFormed_of_mem_reach {segments : List String} {document : Json}
    (h : document.isWellFormed = true) (hreach : value ∈ document.reach segments) :
    value.isWellFormed = true := by
  induction segments generalizing document with
  | nil =>
    obtain rfl := List.mem_singleton.mp hreach
    exact h
  | cons segment rest ih =>
    obtain ⟨child, hchild, hreach⟩ := List.mem_flatMap.mp hreach
    refine ih ?_ hreach
    cases document with
    | obj members => exact isWellFormed_of_lookup h (Option.mem_toList.mp hchild)
    | arr items =>
      obtain ⟨item, hitem, hget⟩ := List.mem_filterMap.mp hchild
      exact isWellFormed_of_get? (isWellFormed_arr.mp h item hitem) hget
    | _ => simp [children] at hchild

theorem isWellFormed_of_first? {path : String} {document : Json}
    (h : document.isWellFormed = true) (hfirst : document.first? path = some value) :
    value.isWellFormed = true :=
  isWellFormed_of_mem_reach h (List.mem_of_mem_head? (Option.mem_def.mpr hfirst))

/-! ## Changing along paths -/

/-- Setting a key to a well-formed value leaves a well-formed object. -/
theorem isWellFormed_put {members : Members Json} (h : (obj members).isWellFormed = true)
    (hvalue : value.isWellFormed = true) :
    (obj (Members.put key value members)).isWellFormed = true := by
  obtain ⟨hkeys, hvalues⟩ := isWellFormed_obj.mp h
  refine isWellFormed_obj.mpr ⟨Members.nodup_keys_put key value hkeys, fun m hm => ?_⟩
  rcases Members.mem_put hm with heq | hm
  · rw [heq]
    exact hvalue
  · exact hvalues m hm

/-- **Setting at a path** leaves a well-formed document. -/
theorem isWellFormed_setAt? {segments : List String} {document changed : Json}
    (hvalue : value.isWellFormed = true) (h : document.isWellFormed = true)
    (hset : setAt? value segments document = some changed) : changed.isWellFormed = true := by
  induction segments generalizing document changed with
  | nil =>
    obtain rfl := Option.some.inj hset
    exact hvalue
  | cons segment rest ih =>
    cases document with
    | obj members =>
      obtain ⟨child, hchild, rfl⟩ := Option.map_eq_some_iff.mp hset
      refine isWellFormed_put h (ih ?_ hchild)
      cases hread : members.lookup segment with
      | none => rfl
      | some old => exact isWellFormed_of_lookup h hread
    | _ => simp [setAt?] at hset

/-- Removing from items removes from each. -/
theorem removeAtItems_eq_map (segments : List String) (items : List Json) :
    removeAtItems segments items = items.map (removeAt segments) := by
  induction items with
  | nil => rfl
  | cons item items ih => rw [removeAtItems, ih, List.map_cons]

/-- Removing from a member leaves the keys. -/
theorem keys_removeAtMember (segment : String) (rest : List String) (members : Members Json) :
    Members.keys (removeAtMember segment rest members) = Members.keys members := by
  induction members with
  | nil => rfl
  | cons m members ih =>
    obtain ⟨k, v⟩ := m
    rw [removeAtMember]
    split
    · rfl
    · simpa [Members.keys] using ih

/-- Each member stays, or has something removed from it. -/
theorem mem_removeAtMember {segment : String} {rest : List String} {members : Members Json}
    {m : String × Json} (h : m ∈ removeAtMember segment rest members) :
    m ∈ members ∨ ∃ n ∈ members, m.2 = removeAt rest n.2 := by
  induction members with
  | nil => simp [removeAtMember] at h
  | cons n members ih =>
    obtain ⟨k, v⟩ := n
    rw [removeAtMember] at h
    split at h
    · rcases List.mem_cons.mp h with rfl | h
      · exact .inr ⟨(k, v), List.mem_cons_self, rfl⟩
      · exact .inl (List.mem_cons_of_mem _ h)
    · rcases List.mem_cons.mp h with rfl | h
      · exact .inl List.mem_cons_self
      · rcases ih h with h | ⟨n, hn, heq⟩
        · exact .inl (List.mem_cons_of_mem _ h)
        · exact .inr ⟨n, List.mem_cons_of_mem _ hn, heq⟩

/-- **Removing at a path** leaves a well-formed document. -/
theorem isWellFormed_removeAt (segments : List String) {document : Json}
    (h : document.isWellFormed = true) : (removeAt segments document).isWellFormed = true := by
  induction document using ind generalizing segments with
  | arr items ih =>
    rw [removeAt, removeAtItems_eq_map, isWellFormed_arr]
    intro v hv
    obtain ⟨item, hitem, rfl⟩ := List.mem_map.mp hv
    exact ih item hitem segments (isWellFormed_arr.mp h item hitem)
  | obj members ih =>
    obtain ⟨hkeys, hvalues⟩ := isWellFormed_obj.mp h
    match segments with
    | [] => simpa [removeAt] using h
    | [segment] =>
      rw [removeAt, isWellFormed_obj]
      refine ⟨Members.nodup_keys_erase segment hkeys, fun m hm => ?_⟩
      have hkept := (Members.perm_erase segment hkeys).mem_iff.mp hm
      exact hvalues m (List.mem_filter.mp hkept).1
    | segment :: next :: rest =>
      have hmember : removeAt (segment :: next :: rest) (obj members) =
          obj (removeAtMember segment (next :: rest) members) := rfl
      rw [hmember, isWellFormed_obj, keys_removeAtMember]
      refine ⟨hkeys, fun m hm => ?_⟩
      rcases mem_removeAtMember hm with hm | ⟨n, hn, heq⟩
      · exact hvalues m hm
      · rw [heq]
        exact ih n hn (next :: rest) (hvalues n hn)
  | _ => simpa [removeAt] using h

end

end Json

namespace Update

variable {document changed : Json}

theorem setAll_induction {P : Json → Prop} {fields : Members Json}
    (hset : ∀ m ∈ fields, ∀ d d', P d → Json.setAt? m.2 (Dotted.segments m.1) d = some d' → P d')
    (h : P document) (hall : setAll document fields = .ok changed) : P changed := by
  induction fields generalizing document with
  | nil =>
    obtain rfl := Except.ok.inj hall
    exact h
  | cons field fields ih =>
    obtain ⟨hfirst, hrest⟩ := List.forall_mem_cons.mp hset
    obtain ⟨path, value⟩ := field
    rw [setAll] at hall
    split at hall
    · next d hd => exact ih hrest (hfirst _ d h hd) hall
    · exact absurd hall (by simp)

/-- **What holds of a document holds of an updated one**, if setting what the update sets and
removing at a path keep it. -/
theorem apply_induction {P : Json → Prop} {operators : Members Json}
    (hset : ∀ o ∈ operators, ∀ fields, o.2 = .obj fields → ∀ m ∈ fields, ∀ d d', P d →
      Json.setAt? m.2 (Dotted.segments m.1) d = some d' → P d')
    (hremove : ∀ segments d, P d → P (d.removeAt segments)) (h : P document)
    (happly : apply (.obj operators) document = .ok changed) : P changed := by
  rw [apply] at happly
  induction operators generalizing document with
  | nil =>
    obtain rfl := Except.ok.inj happly
    exact h
  | cons first rest ih =>
    obtain ⟨hfirst, hrest⟩ := List.forall_mem_cons.mp hset
    obtain ⟨operator, fields⟩ := first
    cases fields with
    | obj fields =>
      obtain ⟨d, hstep, happly⟩ := bind_eq_ok.mp happly
      refine ih hrest ?_ happly
      rw [step] at hstep
      split at hstep
      · exact setAll_induction (hfirst fields rfl) h hstep
      · split at hstep
        · rw [← Except.ok.inj hstep, Json.removeAll]
          exact List.foldlRecOn _ _ h fun d hd path _ => hremove _ d hd
        · exact absurd hstep (by simp)
    | _ => simp [steps] at happly

/-- **An update** makes a well-formed document of a well-formed one, if it is well
formed itself. -/
theorem isWellFormed_apply {update : Json} (h : document.isWellFormed = true)
    (hupdate : update.isWellFormed = true) (happly : apply update document = .ok changed) :
    changed.isWellFormed = true := by
  cases update with
  | obj operators =>
    have hoperators := (Json.isWellFormed_obj.mp hupdate).2
    refine apply_induction (P := fun d => d.isWellFormed = true) ?_
      (fun segments _ hd => Json.isWellFormed_removeAt segments hd) h happly
    intro o ho fields hfields m hm d d' hd hset
    have hvalues := (Json.isWellFormed_obj.mp (hfields ▸ hoperators o ho)).2
    exact Json.isWellFormed_setAt? (hvalues m hm) hd hset
  | _ => simp [apply] at happly

end Update

end ScopedDocs
