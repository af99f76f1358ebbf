/-!
# Members — ordered key-value lists

The members of a document, in order. Setting a key keeps its place
(`Members.put`), a new key goes last, and erasing a key moves the last member
into its place (`Members.erase`). The view is `List.lookup`: the lemmas say
what each operation does to it, and `perm_erase` that erasing takes out one
member and nothing else.
-/


namespace ScopedDocs

/-- The members of an object, in order. -/
abbrev Members (α : Type) := List (String × α)

namespace Members

variable {α : Type}

/-- The keys, in order. -/
def keys (m : Members α) : List String := m.map Prod.fst

/-- Sets a key: in its place if it is there, else at the end. -/
def put (key : String) (value : α) : Members α → Members α
  | [] => [(key, value)]
  | (k, v) :: rest => if key == k then (k, value) :: rest else (k, v) :: put key value rest

/-- Erases a key. The last member takes the place that falls free. -/
def erase (key : String) : Members α → Members α
  | [] => []
  | (k, v) :: rest =>
    if key == k then
      match rest.getLast? with
      | none => []
      | some last => last :: rest.dropLast
    else (k, v) :: erase key rest

/-- Sets a key of members that are sorted by their keys. -/
def putSorted (key : String) (value : α) : Members α → Members α
  | [] => [(key, value)]
  | (k, v) :: rest =>
    if key == k then (k, value) :: rest
    else if key < k then (key, value) :: (k, v) :: rest
    else (k, v) :: putSorted key value rest

/-- The members of a list of pairs in which a later pair overwrites an earlier
one of the same key. -/
def ofList (pairs : List (String × α)) : Members α :=
  pairs.foldl (fun m (k, v) => put k v m) []

/-- Setting a key makes it read the new value. -/
@[simp] theorem lookup_put_self (key : String) (value : α) (m : Members α) :
    (put key value m).lookup key = some value := by
  induction m with
  | nil => simp [put]
  | cons entry rest ih =>
    obtain ⟨k, v⟩ := entry
    by_cases h : key == k
    · simp [put, h, List.lookup_cons]
    · simp only [put, h, Bool.false_eq_true, ↓reduceIte, List.lookup_cons]
      simpa [h] using ih

/-- Setting a key leaves every other key as it was. -/
theorem lookup_put_of_ne {key other : String} (value : α) (m : Members α) (h : other ≠ key) :
    (put key value m).lookup other = m.lookup other := by
  induction m with
  | nil => simp [put, h]
  | cons entry rest ih =>
    obtain ⟨k, v⟩ := entry
    by_cases hk : key == k
    · have hne : (other == k) = false := by simpa [← beq_iff_eq.mp hk] using h
      simp [put, hk, hne, List.lookup_cons]
    · simp only [put, hk, Bool.false_eq_true, ↓reduceIte, List.lookup_cons]
      split <;> simp_all

/-- Setting a key to the value it has changes nothing. -/
theorem put_of_lookup {key : String} {value : α} {m : Members α}
    (h : m.lookup key = some value) : put key value m = m := by
  induction m with
  | nil => exact absurd h (by simp)
  | cons entry rest ih =>
    obtain ⟨k, v⟩ := entry
    rw [List.lookup_cons] at h
    rw [put]
    cases hk : key == k with
    | true =>
      rw [hk] at h
      rw [if_pos rfl, Option.some.inj h]
    | false =>
      rw [hk] at h
      rw [if_neg (by simp), ih h]

/-- Setting a key of sorted members makes it read the new value. -/
@[simp] theorem lookup_putSorted_self (key : String) (value : α) (m : Members α) :
    (putSorted key value m).lookup key = some value := by
  induction m with
  | nil => simp [putSorted]
  | cons entry rest ih =>
    obtain ⟨k, v⟩ := entry
    by_cases h : key == k
    · simp [putSorted, h, List.lookup_cons]
    · by_cases hlt : key < k
      · simp [putSorted, h, hlt]
      · simpa [putSorted, h, hlt, List.lookup_cons] using ih

/-- Setting a key of sorted members leaves every other key as it was. -/
theorem lookup_putSorted_of_ne {key other : String} (value : α) (m : Members α)
    (h : other ≠ key) : (putSorted key value m).lookup other = m.lookup other := by
  induction m with
  | nil => simp [putSorted, h]
  | cons entry rest ih =>
    obtain ⟨k, v⟩ := entry
    have hother : (other == key) = false := by simpa using h
    by_cases hk : key == k
    · have hne : (other == k) = false := by simpa [← beq_iff_eq.mp hk] using h
      simp [putSorted, hk, hne, List.lookup_cons]
    · by_cases hlt : key < k
      · simp [putSorted, hk, hlt, hother, List.lookup_cons]
      · simp only [putSorted, hk, hlt, Bool.false_eq_true, ↓reduceIte, List.lookup_cons]
        split <;> simp_all

/-- What stands in sorted members once a key is set stood there before, or is what was
set. -/
theorem mem_putSorted {key : String} {value : α} {entry : String × α} {m : Members α}
    (h : entry ∈ putSorted key value m) : entry = (key, value) ∨ entry ∈ m := by
  induction m with
  | nil => exact .inl (List.mem_singleton.mp h)
  | cons first rest ih =>
    obtain ⟨k, v⟩ := first
    rw [putSorted] at h
    split at h
    · next hkey =>
      rw [beq_iff_eq.mp hkey]
      exact (List.mem_cons.mp h).imp_right (List.mem_cons_of_mem _)
    · split at h
      · exact List.mem_cons.mp h
      · rcases List.mem_cons.mp h with rfl | h
        · exact .inr List.mem_cons_self
        · exact (ih h).imp_right (List.mem_cons_of_mem _)

/-- Erasing the first member leaves those behind it, in another order. -/
theorem perm_erase_head (key : String) (value : α) (rest : Members α) :
    (erase key ((key, value) :: rest)).Perm rest := by
  cases h : rest.getLast? with
  | none =>
    have hnil : rest = [] := List.getLast?_eq_none_iff.mp h
    simp [erase, hnil]
  | some last =>
    obtain ⟨before, hrest⟩ := List.getLast?_eq_some_iff.mp h
    subst hrest
    simpa [erase] using (List.perm_append_singleton last before).symm

/-- **Erasing** takes out the member of the key and nothing else, if no two members share a
key. -/
theorem perm_erase (key : String) {m : Members α} (h : m.keys.Nodup) :
    (erase key m).Perm (m.filter fun entry => entry.1 != key) := by
  induction m with
  | nil => simp [erase]
  | cons entry rest ih =>
    obtain ⟨k, v⟩ := entry
    obtain ⟨hnot, hrest⟩ := List.nodup_cons.mp h
    by_cases hk : key = k
    · subst hk
      have hkeep : rest.filter (fun entry => entry.1 != key) = rest := by
        refine List.filter_eq_self.mpr fun entry hmem => ?_
        have hin : entry.1 ∈ keys rest := List.mem_map_of_mem hmem
        have hne : entry.1 ≠ key := fun heq => hnot (heq ▸ hin)
        simpa using hne
      simpa [hkeep] using perm_erase_head key v rest
    · have hb : (key == k) = false := by simpa using hk
      have hb' : (k != key) = true := by simpa using fun heq : k = key => hk heq.symm
      simpa [erase, hb, hb'] using ih hrest

/-- What a key reads is the value it stands with, if no two members share a key. -/
theorem lookup_eq_some_iff {m : Members α} (h : m.keys.Nodup) {key : String} {value : α} :
    m.lookup key = some value ↔ (key, value) ∈ m := by
  induction m with
  | nil => simp
  | cons entry rest ih =>
    obtain ⟨k, v⟩ := entry
    obtain ⟨hnot, hrest⟩ := List.nodup_cons.mp h
    by_cases hk : key = k
    · subst hk
      have habsent : (key, value) ∉ rest := by
        intro hmem
        have hin : key ∈ keys rest := List.mem_map_of_mem hmem
        exact hnot hin
      simp [habsent, eq_comm]
    · have hb : (key == k) = false := by simpa using hk
      simp [List.lookup_cons, hb, hk, ih hrest]

/-- Erasing leaves no two members with one key where there were none. -/
theorem nodup_keys_erase (key : String) {m : Members α} (h : m.keys.Nodup) :
    (erase key m).keys.Nodup := by
  refine ((perm_erase key h).map Prod.fst).nodup_iff.mpr ?_
  exact h.sublist (List.filter_sublist.map Prod.fst)

/-- An erased key reads nothing. -/
theorem lookup_erase_self (key : String) {m : Members α} (h : m.keys.Nodup) :
    (erase key m).lookup key = none := by
  refine Option.eq_none_iff_forall_ne_some.mpr fun value hvalue => ?_
  have hmem := (lookup_eq_some_iff (nodup_keys_erase key h)).mp hvalue
  simpa using (perm_erase key h).mem_iff.mp hmem

/-- Erasing a key leaves every other key as it was. -/
theorem lookup_erase_of_ne {key other : String} {m : Members α} (h : m.keys.Nodup)
    (hne : other ≠ key) : (erase key m).lookup other = m.lookup other := by
  refine Option.ext fun value => ?_
  rw [lookup_eq_some_iff (nodup_keys_erase key h), lookup_eq_some_iff h,
    (perm_erase key h).mem_iff]
  simp [hne]

end Members

end ScopedDocs
