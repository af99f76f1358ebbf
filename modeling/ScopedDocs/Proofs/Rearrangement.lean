import Mathlib.Data.List.Nodup
import ScopedDocs.Proofs.Filter
import ScopedDocs.Proofs.WellFormed
/-!
# Rearrangement — the order of a filter does not decide its answer

Two filters are rearranged if they differ in nothing but the order of clauses and of keys,
at any depth (`Filter.Rearranged`). A filter is tried in order and only as far as its answer
needs, so that such two can visit different parts of themselves, and one can be refused for
what is malformed where the other one never looks. But they never give different answers
(`Filter.Rearranged.same_answer`).

This goes back to one list of tests. If it answers that all of them hold, each of them held,
and if it answers that not all do, one of them failed; so it is with a list of which one has
to hold. Neither speaks of the order. So two lists agree (`Agree`) as soon as each test of
one agrees with some test of the other (`Agree.allM`, `Agree.anyM`), and from there the
agreement goes up through the filter, place by place (`Filter.Rearranged.agrees`).
-/


namespace ScopedDocs

/-! ## Outcomes that agree -/

section

variable {ε α β : Type}

/-- **Two outcomes agree** unless they are different answers. An error agrees with
everything. -/
def Agree (x y : Except ε α) : Prop :=
  ∀ a b, x = .ok a → y = .ok b → a = b

theorem Agree.refl (x : Except ε α) : Agree x x := by
  intro a b ha hb
  exact Except.ok.inj (ha.symm.trans hb)

theorem Agree.error (e : ε) (y : Except ε α) : Agree (.error e) y :=
  fun _ _ ha => absurd ha (by simp)

theorem Agree.map {x y : Except ε α} (h : Agree x y) (f : α → β) :
    Agree (x.map f) (y.map f) := by
  intro a b ha hb
  obtain ⟨a, hx, rfl⟩ := map_eq_ok.mp ha
  obtain ⟨b, hy, rfl⟩ := map_eq_ok.mp hb
  rw [h a b hx hy]

variable {test : α → Except ε Bool} {test' : β → Except ε Bool} {items : List α}
  {others : List β}

/-- **If all tests of a list are said to hold**, each of them held. -/
theorem ok_of_allM_true (h : items.allM test = .ok true) : ∀ a ∈ items, test a = .ok true := by
  induction items with
  | nil => simp
  | cons a rest ih =>
    obtain ⟨b, ha, hrest⟩ := bind_eq_ok.mp h
    cases b with
    | false => exact absurd (Except.ok.inj hrest) (by simp)
    | true => exact List.forall_mem_cons.mpr ⟨ha, ih hrest⟩

/-- **If not all tests of a list are said to hold**, one of them failed. -/
theorem exists_of_allM_false (h : items.allM test = .ok false) :
    ∃ a ∈ items, test a = .ok false := by
  induction items with
  | nil => exact absurd (Except.ok.inj h) (by simp)
  | cons a rest ih =>
    obtain ⟨b, ha, hrest⟩ := bind_eq_ok.mp h
    cases b with
    | false => exact ⟨a, List.mem_cons_self, ha⟩
    | true =>
      obtain ⟨c, hc, hfailed⟩ := ih hrest
      exact ⟨c, List.mem_cons_of_mem a hc, hfailed⟩

/-- That some test holds is that not all fail. -/
theorem anyM_eq_map_allM (test : α → Except ε Bool) (items : List α) :
    items.anyM test = (items.allM fun a => (test a).map (!·)).map (!·) := by
  induction items with
  | nil => rfl
  | cons a rest ih =>
    rw [List.anyM, List.allM, ih]
    cases test a with
    | error e => rfl
    | ok b => cases b <;> rfl

/-- **Two lists of tests that all have to hold agree** if each test of one agrees with some
test of the other: it takes no more than one that failed to refute all those that held. -/
theorem Agree.allM (hleft : ∀ a ∈ items, ∃ b ∈ others, Agree (test a) (test' b))
    (hright : ∀ b ∈ others, ∃ a ∈ items, Agree (test a) (test' b)) :
    Agree (items.allM test) (others.allM test') := by
  intro p q hp hq
  cases p with
  | true =>
    cases q with
    | true => rfl
    | false =>
      obtain ⟨b, hb, hfailed⟩ := exists_of_allM_false hq
      obtain ⟨a, ha, hagree⟩ := hright b hb
      exact hagree _ _ (ok_of_allM_true hp a ha) hfailed
  | false =>
    cases q with
    | false => rfl
    | true =>
      obtain ⟨a, ha, hfailed⟩ := exists_of_allM_false hp
      obtain ⟨b, hb, hagree⟩ := hleft a ha
      exact hagree _ _ hfailed (ok_of_allM_true hq b hb)

/-- **And so do two lists of tests of which one has to hold.** -/
theorem Agree.anyM (hleft : ∀ a ∈ items, ∃ b ∈ others, Agree (test a) (test' b))
    (hright : ∀ b ∈ others, ∃ a ∈ items, Agree (test a) (test' b)) :
    Agree (items.anyM test) (others.anyM test') := by
  rw [anyM_eq_map_allM, anyM_eq_map_allM]
  refine (Agree.allM (fun a ha => ?_) fun b hb => ?_).map _
  · obtain ⟨b, hb, hagree⟩ := hleft a ha
    exact ⟨b, hb, hagree.map _⟩
  · obtain ⟨a, ha, hagree⟩ := hright b hb
    exact ⟨a, ha, hagree.map _⟩

/-- Where others have the same keys, a member has one beside it. -/
theorem Members.exists_of_perm_keys {members others : Members α}
    (hkeys : members.keys.Perm others.keys) {m : String × α} (hm : m ∈ members) :
    ∃ w, (m.1, w) ∈ others := by
  obtain ⟨n, hn, heq⟩ := List.mem_map.mp (hkeys.mem_iff.mp (List.mem_map_of_mem hm))
  exact ⟨n.2, heq ▸ hn⟩

/-- Members with the same keys, in any order, agree if what stands under each key does. -/
theorem Agree.allM_members {test test' : String → α → Except ε Bool} {members others : Members α}
    (hkeys : members.keys.Perm others.keys)
    (h : ∀ key v w, (key, v) ∈ members → (key, w) ∈ others → Agree (test key v) (test' key w)) :
    Agree (members.allM fun m => test m.1 m.2) (others.allM fun m => test' m.1 m.2) := by
  refine Agree.allM (fun m hm => ?_) fun n hn => ?_
  · obtain ⟨w, hw⟩ := Members.exists_of_perm_keys hkeys hm
    exact ⟨(m.1, w), hw, h m.1 m.2 w hm hw⟩
  · obtain ⟨v, hv⟩ := Members.exists_of_perm_keys hkeys.symm hn
    exact ⟨(n.1, v), hv, h n.1 v n.2 hv hn⟩

end

namespace Filter

/-! ## Filters as lists of tests -/

section

variable (document : Json)

theorem allHold_eq_allM (clauses : List Json) :
    allHold document clauses = clauses.allM (holds document) := by
  induction clauses with
  | nil => rfl
  | cons c rest ih =>
    rw [allHold, List.allM, ih]
    cases holds document c with
    | error e => rfl
    | ok b => cases b <;> rfl

theorem anyHolds_eq_anyM (clauses : List Json) :
    anyHolds document clauses = clauses.anyM (holds document) := by
  induction clauses with
  | nil => rfl
  | cons c rest ih =>
    rw [anyHolds, List.anyM, ih]
    cases holds document c with
    | error e => rfl
    | ok b => cases b <;> rfl

theorem membersHold_eq_allM (members : Members Json) :
    membersHold document members = members.allM fun m => memberHolds document m.1 m.2 := by
  induction members with
  | nil => rfl
  | cons m rest ih =>
    rw [membersHold, List.allM, ih]
    cases memberHolds document m.1 m.2 with
    | error e => rfl
    | ok b => cases b <;> rfl

theorem operatorsHold_eq_allM (segments : List String) (options : String)
    (operators : Members Json) :
    operatorsHold document segments options operators =
      operators.allM fun m => operatorHolds document segments options m.1 m.2 := by
  induction operators with
  | nil => rfl
  | cons m rest ih =>
    rw [operatorsHold, List.allM, ih]
    cases operatorHolds document segments options m.1 m.2 with
    | error e => rfl
    | ok b => cases b <;> rfl

end

/-! ## Rearranged filters -/

/-- **What stands at a place** within a filter. -/
inductive Place where
  /-- A filter. -/
  | filter
  /-- The value of a connective: filters that are combined. So is that of a word that is
  none, which is refused whatever it has. -/
  | clauses
  /-- The value of a path: operators, or what is expected there. -/
  | condition
  /-- What is asked of the items of an array: operators, or a filter. -/
  | elements
  /-- A plain value. -/
  | value

namespace Place

/-- What stands under a key of a filter. -/
def ofKey (key : String) : Place :=
  match Key.of key with
  | .path _ => condition
  | .connective _ => clauses
  | .unsupported => clauses

/-- What stands under the name of an operator. -/
def ofOperator (name : String) : Place :=
  match Operator.ofName? name with
  | some .elemMatch => elements
  | some _ => value
  | none => clauses

/-- **What the members of a document are**, by their keys, where it is a filter or made of
operators. Elsewhere it is a value. -/
def inner? : Place → Members Json → Option (String → Place)
  | filter, _ => some ofKey
  | clauses, _ => some ofKey
  | condition, members => if areOperators members then some ofOperator else none
  | elements, members => some (if areOperators members then ofOperator else ofKey)
  | value, _ => none

end Place

/-- **Rearranged filters**, and what stands at the places within them. -/
inductive Rearranged : Place → Json → Json → Prop where
  /-- What stands there is the same. -/
  | same {place : Place} (v : Json) : Rearranged place v v
  /-- Two filters, or two documents made of operators, have the same keys in any order, and
  under each key what is rearranged. -/
  | members {place : Place} {inner : String → Place} {members others : List (String × Json)}
      (hinner : place.inner? members = some inner)
      (hkeys : (Members.keys members).Perm (Members.keys others))
      (h : ∀ key v w, (key, v) ∈ members → (key, w) ∈ others → Rearranged (inner key) v w) :
      Rearranged place (.obj members) (.obj others)
  /-- Two lists of filters pair up, in any order, to rearranged ones. -/
  | clauses (pairs : List (Json × Json)) {others : List Json}
      (h : ∀ pair ∈ pairs, Rearranged .filter pair.1 pair.2)
      (hothers : (pairs.map Prod.snd).Perm others) :
      Rearranged .clauses (.arr (pairs.map Prod.fst)) (.arr others)

/-- What stands at a place has agreeing outcomes, wherever it is tried. A plain value has
to be the same. -/
def Place.Agrees : Place → Json → Json → Prop
  | filter, v, w => ∀ document, Agree (holds document v) (holds document w)
  | clauses, v, w => ∀ document key how, Key.of key = .connective how →
      Agree (memberHolds document key v) (memberHolds document key w)
  | condition, v, w => ∀ document key segments, Key.of key = .path segments →
      Agree (memberHolds document key v) (memberHolds document key w)
  | elements, v, w => ∀ document segments options name, Operator.ofName? name = some .elemMatch →
      Agree (operatorHolds document segments options name v)
        (operatorHolds document segments options name w)
  | value, v, w => v = w

variable {v w : Json} {members others : Members Json}

/-- What is the same agrees with itself everywhere. -/
theorem Place.Agrees.refl (place : Place) (v : Json) : place.Agrees v v := by
  cases place with
  | filter => exact fun document => .refl _
  | clauses => exact fun document key how _ => .refl _
  | condition => exact fun document key segments _ => .refl _
  | elements => exact fun document segments options name _ => .refl _
  | value => rfl

theorem memberHolds_unsupported {key : String} (h : Key.of key = .unsupported) (document v : Json) :
    memberHolds document key v = .error (.ofFault (.unsupportedOperator key)) := by
  cases v <;> simp only [memberHolds, valueHolds, h]

/-- A document under a connective is refused: it lists no filters. -/
theorem memberHolds_connective_obj {key : String} {how : Connective}
    (h : Key.of key = .connective how) (document : Json) (members : Members Json) :
    memberHolds document key (.obj members) = .error (.ofFault (.noClauses key)) := by
  simp only [memberHolds, valueHolds, h]

/-- **One key of a filter.** -/
theorem agree_memberHolds {key : String} (h : (Place.ofKey key).Agrees v w) (document : Json) :
    Agree (memberHolds document key v) (memberHolds document key w) := by
  unfold Place.ofKey at h
  cases hkey : Key.of key with
  | path segments =>
    rw [hkey] at h
    exact h document key segments hkey
  | connective how =>
    rw [hkey] at h
    exact h document key how hkey
  | unsupported =>
    rw [memberHolds_unsupported hkey]
    exact .error _ _

/-- **One operator.** -/
theorem agree_operatorHolds {name : String} (h : (Place.ofOperator name).Agrees v w)
    (document : Json) (segments : List String) (options : String) :
    Agree (operatorHolds document segments options name v)
      (operatorHolds document segments options name w) := by
  unfold Place.ofOperator at h
  cases hname : Operator.ofName? name with
  | none =>
    have hnot : Operator.ofName? name ≠ some .elemMatch := by simp [hname]
    rw [operatorHolds_test hnot, testHolds, hname]
    exact .error _ _
  | some operator =>
    rw [hname] at h
    cases operator
    case elemMatch => exact h document segments options name hname
    -- every other operator compares with a plain value
    all_goals
      obtain rfl : v = w := h
      exact .refl _

/-- Whether members are operators is told by their keys. -/
theorem areOperators_congr (hkeys : members.keys.Perm others.keys) :
    areOperators members = areOperators others := by
  have htold (m : Members Json) : areOperators m = (!m.keys.isEmpty && m.keys.all isWord) := by
    rw [Members.keys, List.isEmpty_map, List.all_map]
    rfl
  rw [htold, htold, hkeys.isEmpty_eq, hkeys.all_eq]

/-- The options of a pattern are a plain value, so that rearranged operators have the same. -/
theorem patternOptions_congr (hkeys : members.keys.Perm others.keys)
    (h : ∀ key v w, (key, v) ∈ members → (key, w) ∈ others → (Place.ofOperator key).Agrees v w) :
    patternOptions members = patternOptions others := by
  have hread : members.lookup "$options" = others.lookup "$options" := by
    have hsome : (members.lookup "$options").isSome = (others.lookup "$options").isSome := by
      rw [Bool.eq_iff_iff, Members.isSome_lookup, Members.isSome_lookup, hkeys.mem_iff]
    cases hv : members.lookup "$options" with
    | none =>
      rw [hv] at hsome
      exact (Option.not_isSome_iff_eq_none.mp (by simp [← hsome])).symm
    | some v =>
      rw [hv] at hsome
      obtain ⟨w, hw⟩ := Option.isSome_iff_exists.mp hsome.symm
      have heq : v = w := h _ v w (Members.mem_of_lookup hv) (Members.mem_of_lookup hw)
      rw [hw, heq]
  rw [patternOptions, patternOptions, hread]

/-- **The keys of two filters.** -/
theorem agree_membersHold (hkeys : members.keys.Perm others.keys)
    (h : ∀ key v w, (key, v) ∈ members → (key, w) ∈ others → (Place.ofKey key).Agrees v w)
    (document : Json) : Agree (membersHold document members) (membersHold document others) := by
  rw [membersHold_eq_allM, membersHold_eq_allM]
  exact Agree.allM_members hkeys fun key v w hv hw =>
    agree_memberHolds (h key v w hv hw) document

/-- **The operators of two conditions.** -/
theorem agree_operatorsHold (hkeys : members.keys.Perm others.keys)
    (h : ∀ key v w, (key, v) ∈ members → (key, w) ∈ others → (Place.ofOperator key).Agrees v w)
    (document : Json) (segments : List String) :
    Agree (operatorsHold document segments (patternOptions members) members)
      (operatorsHold document segments (patternOptions others) others) := by
  rw [operatorsHold_eq_allM, operatorsHold_eq_allM, patternOptions_congr hkeys h]
  exact Agree.allM_members hkeys fun name v w hv hw =>
    agree_operatorHolds (h name v w hv hw) document segments _

/-- **Two lists of filters** under one connective. -/
theorem agree_clauses {pairs : List (Json × Json)} {others : List Json}
    (h : ∀ pair ∈ pairs, Place.filter.Agrees pair.1 pair.2)
    (hothers : (pairs.map Prod.snd).Perm others) :
    Place.clauses.Agrees (.arr (pairs.map Prod.fst)) (.arr others) := by
  intro document key how hkey
  have hleft : ∀ c ∈ pairs.map Prod.fst, ∃ d ∈ others,
      Agree (holds document c) (holds document d) := by
    intro c hc
    obtain ⟨pair, hpair, rfl⟩ := List.mem_map.mp hc
    exact ⟨pair.2, hothers.mem_iff.mp (List.mem_map_of_mem hpair), h pair hpair document⟩
  have hright : ∀ d ∈ others, ∃ c ∈ pairs.map Prod.fst,
      Agree (holds document c) (holds document d) := by
    intro d hd
    obtain ⟨pair, hpair, rfl⟩ := List.mem_map.mp (hothers.mem_iff.mpr hd)
    exact ⟨pair.1, List.mem_map_of_mem hpair, h pair hpair document⟩
  have hany : Agree (anyHolds document (pairs.map Prod.fst)) (anyHolds document others) := by
    rw [anyHolds_eq_anyM, anyHolds_eq_anyM]
    exact Agree.anyM hleft hright
  have hempty : (pairs.map Prod.fst).isEmpty = others.isEmpty := by
    rw [← hothers.isEmpty_eq, List.isEmpty_map, List.isEmpty_map]
  rw [memberHolds, memberHolds, hkey, hempty]
  cases others.isEmpty with
  | true => exact .error _ _
  | false =>
    cases how with
    | and =>
      simp only [Bool.false_eq_true, ↓reduceIte, allHold_eq_allM]
      exact Agree.allM hleft hright
    | or => exact hany
    | nor => exact hany.map _

/-- **What is asked of the items of an array.** Each item is tried on both. -/
theorem agree_elements (hkeys : members.keys.Perm others.keys)
    (h : ∀ key v w, (key, v) ∈ members → (key, w) ∈ others →
      ((if areOperators members then Place.ofOperator else Place.ofKey) key).Agrees v w) :
    Place.elements.Agrees (.obj members) (.obj others) := by
  intro document segments options name hname
  simp only [operatorHolds, hname]
  have hitem (item : Json) :
      Agree
        (if areOperators members then
          operatorsHold (.obj [(itemKey, item)]) [itemKey] (patternOptions members) members
        else if item.isObject then membersHold item members else .ok false)
        (if areOperators others then
          operatorsHold (.obj [(itemKey, item)]) [itemKey] (patternOptions others) others
        else if item.isObject then membersHold item others else .ok false) := by
    rw [← areOperators_congr hkeys]
    cases hwords : areOperators members with
    | true =>
      rw [hwords] at h
      exact agree_operatorsHold hkeys h _ _
    | false =>
      rw [hwords] at h
      cases item.isObject with
      | true => exact agree_membersHold hkeys h item
      | false => exact .refl _
  exact Agree.anyM (fun item hmem => ⟨item, hmem, hitem item⟩)
    fun item hmem => ⟨item, hmem, hitem item⟩

/-- **Two documents at one place**, which are filters or made of operators. -/
theorem agree_members {place : Place} {inner : String → Place}
    (hinner : place.inner? members = some inner) (hkeys : members.keys.Perm others.keys)
    (h : ∀ key v w, (key, v) ∈ members → (key, w) ∈ others → (inner key).Agrees v w) :
    place.Agrees (.obj members) (.obj others) := by
  cases place with
  | filter =>
    obtain rfl := Option.some.inj hinner
    exact agree_membersHold hkeys h
  | clauses =>
    intro document key how hkey
    rw [memberHolds_connective_obj hkey]
    exact .error _ _
  | condition =>
    obtain ⟨hwords, hinner⟩ := Option.ite_none_right_eq_some.mp hinner
    obtain rfl := Option.some.inj hinner
    intro document key segments hkey
    have hwords' : areOperators others = true := areOperators_congr hkeys ▸ hwords
    simp only [memberHolds, hkey, hwords, hwords', ↓reduceIte]
    exact agree_operatorsHold hkeys h document segments
  | elements =>
    obtain rfl := Option.some.inj hinner
    exact agree_elements hkeys h
  | value => exact absurd hinner (by simp [Place.inner?])

/-- **What is rearranged agrees**, at every place. -/
theorem Rearranged.agrees {place : Place} (h : Rearranged place v w) : place.Agrees v w := by
  induction h with
  | same v => exact .refl _ v
  | members hinner hkeys _ ih => exact agree_members hinner hkeys ih
  | clauses pairs _ hothers ih => exact agree_clauses ih hothers

/-- **Rearranged filters give the same answer.** Whatever document two filters are tried on
that differ in the order of clauses and keys only, at any depth: if neither is refused, both
hold or both fail. -/
theorem Rearranged.same_answer {document first second : Json}
    (h : Rearranged .filter first second) {a b : Bool} (hfirst : holds document first = .ok a)
    (hsecond : holds document second = .ok b) : a = b :=
  h.agrees document a b hfirst hsecond

/-- Documents whose members pair up by their keys, none of which is there twice, are
rearranged if what stands under these keys is. -/
theorem Rearranged.of_pairs {place : Place} {inner : String → Place}
    (pairs : List (String × Json × Json))
    (hinner : place.inner? (pairs.map fun p => (p.1, p.2.1)) = some inner)
    (hkeys : (pairs.map Prod.fst).Nodup) (h : ∀ p ∈ pairs, Rearranged (inner p.1) p.2.1 p.2.2)
    (hothers : (pairs.map fun p => (p.1, p.2.2)).Perm others) :
    Rearranged place (.obj (pairs.map fun p => (p.1, p.2.1))) (.obj others) := by
  refine .members hinner ?_ fun key v w hv hw => ?_
  · have hperm := hothers.map Prod.fst
    rw [List.map_map] at hperm
    rw [Members.keys, List.map_map]
    exact hperm
  · obtain ⟨p, hp, hpv⟩ := List.mem_map.mp hv
    obtain ⟨q, hq, hqw⟩ := List.mem_map.mp (hothers.mem_iff.mpr hw)
    obtain ⟨rfl, rfl⟩ := Prod.mk.inj hpv
    obtain ⟨hkey, rfl⟩ := Prod.mk.inj hqw
    obtain rfl := List.inj_on_of_nodup_map hkeys hq hp hkey
    exact h q hq

/-- A game that was ranked. -/
def rankedGame : Json :=
  .obj [("game", .str "chess"), ("score", .ofInt 42),
    ("tags", .arr [.str "new", .obj [("name", .str "ranked"), ("level", .ofInt 3)]])]

/-- A level in a range. -/
def levels : Json := .obj [("$gte", .ofInt 3), ("$lt", .ofInt 5)]

/-- The same range, from above. -/
def levelsTurned : Json := .obj [("$lt", .ofInt 5), ("$gte", .ofInt 3)]

/-- A tag of such a level. -/
def rankedTag : Json := .obj [("name", .str "ranked"), ("level", levels)]

/-- The level of such a tag first. -/
def rankedTagTurned : Json := .obj [("level", levelsTurned), ("name", .str "ranked")]

/-- Whether some tag is as asked. -/
def tagged (tag : Json) : Json := .obj [("tags", .obj [("$elemMatch", tag)])]

/-- Games of go. -/
def ofGo : Json := .obj [("game", .str "go")]

/-- Games of a score that are ranked or of go. -/
def rankedOrGo : Json :=
  .obj [("$or", .arr [tagged rankedTag, ofGo]), ("score", .ofInt 42)]

/-- The same, turned round at every depth. -/
def goOrRanked : Json :=
  .obj [("score", .ofInt 42), ("$or", .arr [ofGo, tagged rankedTagTurned])]

theorem rearranged_rankedTag : Rearranged .elements rankedTag rankedTagTurned := by
  have hlevels : Rearranged .condition levels levelsTurned :=
    .of_pairs [("$gte", .ofInt 3, .ofInt 3), ("$lt", .ofInt 5, .ofInt 5)] rfl (by decide)
      (by simp [Rearranged.same]) (.swap ..)
  refine .of_pairs [("name", .str "ranked", .str "ranked"), ("level", levels, levelsTurned)] rfl
    (by decide) ?_ (.swap ..)
  exact List.forall_mem_cons.mpr ⟨.same _, List.forall_mem_singleton.mpr hlevels⟩

theorem Rearranged.tagged {tag other : Json} (h : Rearranged .elements tag other) :
    Rearranged .filter (tagged tag) (Filter.tagged other) := by
  have hinner : Place.condition.inner? [("$elemMatch", tag)] = some Place.ofOperator := rfl
  have hcondition : Rearranged .condition (.obj [("$elemMatch", tag)])
      (.obj [("$elemMatch", other)]) := by
    refine .of_pairs [("$elemMatch", tag, other)] hinner (by simp) ?_ (.refl _)
    exact List.forall_mem_singleton.mpr h
  have hkey : Place.ofKey "tags" = .condition := rfl
  refine .of_pairs [("tags", _, _)] rfl (by simp) ?_ (.refl _)
  exact List.forall_mem_singleton.mpr (hkey ▸ hcondition)

theorem rearranged_rankedOrGo : Rearranged .filter rankedOrGo goOrRanked := by
  have hclauses : Rearranged .clauses (.arr [tagged rankedTag, ofGo])
      (.arr [ofGo, tagged rankedTagTurned]) := by
    refine .clauses [(tagged rankedTag, tagged rankedTagTurned), (ofGo, ofGo)] ?_ (.swap ..)
    exact List.forall_mem_cons.mpr
      ⟨rearranged_rankedTag.tagged, List.forall_mem_singleton.mpr (.same _)⟩
  refine .of_pairs [("$or", _, _), ("score", .ofInt 42, .ofInt 42)] rfl (by simp) ?_ (.swap ..)
  exact List.forall_mem_cons.mpr ⟨hclauses, List.forall_mem_singleton.mpr (.same _)⟩

/-- The game satisfies both. -/
theorem Rearranged.same_answer_ranked :
    ∃ a b, holds rankedGame rankedOrGo = .ok a ∧ holds rankedGame goOrRanked = .ok b ∧ a = b := by
  have hfirst : holds rankedGame rankedOrGo = .ok true := by rfl
  have hsecond : holds rankedGame goOrRanked = .ok true := by rfl
  exact ⟨true, true, hfirst, hsecond, rearranged_rankedOrGo.same_answer hfirst hsecond⟩

/-- What is malformed is not noticed behind what answers, and refused in front of it. -/
example :
    holds rankedGame (.obj [("game", .str "go"), ("score", .obj [("$in", .ofInt 42)])]) =
      .ok false ∧
    holds rankedGame (.obj [("score", .obj [("$in", .ofInt 42)]), ("game", .str "go")]) =
      .error (.ofFault (.notAnArray "$in")) := by
  decide +kernel

end Filter

end ScopedDocs
