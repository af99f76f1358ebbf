import ScopedDocs.Proofs.Scope
/-!
# Levels — which searches the guard admits, and why it refuses the others

The guard takes eight identifiers, four of the caller and four of the declared
owner, each of which may be missing or nil. `Guard.Admits` and `Guard.Refuses` say in
terms of these alone what it makes of them: where a search is admitted, and else the
cause for which it is refused. Both are read off the guard's steps at once: each step
decides a condition of its own (`Guard.Decides`), and the steps in sequence decide the
conditions in their order (`Guard.Decides.bind`).
-/


namespace ScopedDocs

namespace Guard

/-! ## Two identifiers of a level -/

/-- A level without an identifier: it is absent, or holds the nil one. -/
def Lacks (id : Option Uuid) : Prop := id = none ∨ id = some Uuid.nil

/-- The caller has the identifier that is declared, and it is not nil. -/
def Confirms (own declared : Option Uuid) : Prop :=
  ∃ id, id ≠ Uuid.nil ∧ own = some id ∧ declared = some id

/-- An identifier that is declared is the caller's; none has to be. -/
def Respects (own declared : Option Uuid) : Prop :=
  ∀ id, id ≠ Uuid.nil → declared = some id → own = some id

/-- **Why a declared identifier is not confirmed.** That the caller has none counts
first, then that none is declared. -/
inductive Mismatch (own declared : Option Uuid) : Refusal → Prop where
  /-- The caller has none. -/
  | notInContext (hown : Lacks own) : Mismatch own declared .notInContext
  /-- None is declared. -/
  | notInSearch (hown : ¬ Lacks own) (hdeclared : Lacks declared) :
      Mismatch own declared .notInSearch
  /-- There are two. -/
  | differs (hown : ¬ Lacks own) (hdeclared : ¬ Lacks declared) (hne : own ≠ declared) :
      Mismatch own declared .differs

section Identifiers

variable {own declared : Option Uuid} {u v : Uuid} {reason : Refusal}

/-- A level has no usable identifier, or one that is not nil. -/
theorem usable_cases (id : Option Uuid) :
    (usable id = none ∧ Lacks id) ∨
      ∃ u, u ≠ Uuid.nil ∧ id = some u ∧ usable id = some u := by
  cases id with
  | none => exact .inl ⟨rfl, .inl rfl⟩
  | some u =>
    by_cases hu : u = Uuid.nil
    · subst hu
      exact .inl ⟨rfl, .inr rfl⟩
    · exact .inr ⟨u, hu, rfl, usable_eq_some.mpr ⟨rfl, by simpa [Uuid.isNil] using hu⟩⟩

theorem not_lacks_some (hu : u ≠ Uuid.nil) : ¬ Lacks (some u) := by
  simpa [Lacks] using hu

/-- A confirmed identifier is respected and declared, and nothing else is needed. -/
theorem confirms_iff : Confirms own declared ↔ Respects own declared ∧ ¬ Lacks declared := by
  constructor
  · rintro ⟨u, hu, rfl, rfl⟩
    exact ⟨fun _ _ h => h, not_lacks_some hu⟩
  · rintro ⟨hrespects, hdeclared⟩
    rcases usable_cases declared with ⟨-, hlacks⟩ | ⟨u, hu, rfl, -⟩
    · exact absurd hlacks hdeclared
    · exact ⟨u, hu, hrespects u hu rfl, rfl⟩

theorem confirms_some (hu : u ≠ Uuid.nil) : Confirms (some u) (some v) ↔ u = v := by
  constructor
  · rintro ⟨w, -, hu', hv'⟩
    exact Option.some.inj (hu'.trans hv'.symm)
  · rintro rfl
    exact ⟨u, hu, rfl, rfl⟩

/-- What is not declared is respected. -/
theorem respects_of_lacks (h : Lacks declared) : Respects own declared := by
  rintro u hu rfl
  exact absurd h (not_lacks_some hu)

theorem respects_some (hv : v ≠ Uuid.nil) : Respects own (some v) ↔ usable own = some v := by
  rw [usable_eq_some]
  constructor
  · exact fun h => ⟨h v hv rfl, by simpa [Uuid.isNil] using hv⟩
  · rintro ⟨rfl, -⟩ w - hw
    exact hw

/-- Without an identifier of the caller there is nothing to compare. -/
theorem mismatch_of_lacks (h : Lacks own) :
    Mismatch own declared reason ↔ reason = .notInContext := by
  constructor
  · rintro (- | ⟨hown, -⟩ | ⟨hown, -, -⟩)
    · rfl
    · exact absurd h hown
    · exact absurd h hown
  · rintro rfl
    exact .notInContext h

theorem mismatch_of_lacks_declared (hown : ¬ Lacks own) (h : Lacks declared) :
    Mismatch own declared reason ↔ reason = .notInSearch := by
  constructor
  · rintro (⟨hlacks⟩ | - | ⟨-, hdeclared, -⟩)
    · exact absurd hlacks hown
    · rfl
    · exact absurd h hdeclared
  · rintro rfl
    exact .notInSearch hown h

/-- Two identifiers can only differ. -/
theorem mismatch_some (hu : u ≠ Uuid.nil) (hv : v ≠ Uuid.nil) :
    Mismatch (some u) (some v) reason ↔ u ≠ v ∧ reason = .differs := by
  constructor
  · rintro (⟨hlacks⟩ | ⟨-, hlacks⟩ | ⟨-, -, hne⟩)
    · exact absurd hlacks (not_lacks_some hu)
    · exact absurd hlacks (not_lacks_some hv)
    · exact ⟨fun h => hne (congrArg some h), rfl⟩
  · rintro ⟨hne, rfl⟩
    exact .differs (not_lacks_some hu) (not_lacks_some hv) fun h => hne (Option.some.inj h)

end Identifiers

/-! ## Steps that decide a condition -/

/-- **A step decides a condition**: it answers just where the condition holds, and it
is refused for exactly these causes. -/
structure Decides {α : Type} (step : Except Error α) (accepts : Prop)
    (refuses : TenancyError → Prop) : Prop where
  ok_iff : (∃ a, step = .ok a) ↔ accepts
  error_iff : ∀ e, step = .error e ↔ ∃ cause, refuses cause ∧ e = .tenancy cause

section Steps

variable {α β : Type} {step : Except Error α} {next : α → Except Error β}
variable {accepts accepts' : Prop} {refuses refuses' : TenancyError → Prop}

/-- A step that answers. -/
theorem decides_ok (a : α) : Decides (.ok a) True fun _ => False :=
  ⟨by simp, by simp⟩

/-- A step that is refused. -/
theorem decides_refused (cause : TenancyError) :
    Decides (.error (.tenancy cause) : Except Error α) False (· = cause) :=
  ⟨by simp, fun e => by simp [eq_comm]⟩

/-- What a step decides, in other words. -/
theorem Decides.congr (h : Decides step accepts refuses) (haccepts : accepts ↔ accepts')
    (hrefuses : ∀ cause, refuses cause ↔ refuses' cause) : Decides step accepts' refuses' :=
  ⟨h.ok_iff.trans haccepts, fun e => by simp only [h.error_iff, hrefuses]⟩

/-- **Steps in sequence** decide both conditions, and the causes of the first one come
first. -/
theorem Decides.bind (h : Decides step accepts refuses)
    (hnext : ∀ a, step = .ok a → Decides (next a) accepts' refuses') :
    Decides (step >>= next) (accepts ∧ accepts')
      fun cause => refuses cause ∨ accepts ∧ refuses' cause := by
  cases step with
  | ok a =>
    have haccepts : accepts := h.ok_iff.mp ⟨a, rfl⟩
    have hrefuses : ∀ cause, ¬ refuses cause := fun cause hcause =>
      absurd ((h.error_iff _).mpr ⟨cause, hcause, rfl⟩) (by simp)
    exact (hnext a rfl).congr (by simp [haccepts]) fun cause => by simp [haccepts, hrefuses cause]
  | error e =>
    have haccepts : ¬ accepts := fun hp => absurd (h.ok_iff.mpr hp) (by simp)
    have hstop : Decides (.error e : Except Error β) accepts refuses :=
      ⟨iff_of_false (by simp) haccepts, fun e' => by simpa using h.error_iff e'⟩
    exact hstop.congr (by simp [haccepts]) fun cause => by simp [haccepts]

/-- What is made of an answer decides nothing. -/
theorem Decides.map (h : Decides step accepts refuses) (f : α → β) :
    Decides (step.map f) accepts refuses := by
  cases step with
  | ok a => exact ⟨by simpa [Except.map] using h.ok_iff, by simpa [Except.map] using h.error_iff⟩
  | error e =>
    exact ⟨by simpa [Except.map] using h.ok_iff, by simpa [Except.map] using h.error_iff⟩

end Steps

/-! ## The guard's steps -/

/-- The comparison of a level that has to be declared, which the tenant and the client
share. -/
def confirmed (level : OwnerLevel) (own declared : Option Uuid) : Except Error Json :=
  match usable own with
  | none => refuse level .notInContext
  | some id =>
    match usable declared with
    | none => refuse level .notInSearch
    | some other => if other ≠ id then refuse level .differs else .ok (ownerTerm level id)

/-- A declared tenant is compared like any declared identifier. -/
theorem tenantTerm_eq (caller : Caller) (declared : Owner) :
    tenantTerm caller declared = confirmed .tenant caller.tenant (some declared.tenant) := by
  unfold tenantTerm confirmed
  cases usable caller.tenant with
  | none => rfl
  | some tenant =>
    cases hnil : declared.tenant.isNil <;>
      simp [usable, Owner.lacksTenant, Option.filter, hnil]

theorem clientTerm_eq (caller : Caller) (declared : Owner) :
    clientTerm caller declared = confirmed .client caller.client declared.client := rfl

/-- **A level that has to be declared.** -/
theorem decides_confirmed (level : OwnerLevel) (own declared : Option Uuid) :
    Decides (confirmed level own declared) (Confirms own declared)
      fun cause => ∃ reason, Mismatch own declared reason ∧ cause = .refused level reason := by
  rcases usable_cases own with ⟨hown, hlacks⟩ | ⟨u, hu, rfl, hown⟩
  · have hnot : ¬ Confirms own declared := fun ⟨u, hu, h, _⟩ => not_lacks_some hu (h ▸ hlacks)
    simp only [confirmed, hown]
    exact (decides_refused _).congr (iff_of_false id hnot) fun cause => by
      simp [mismatch_of_lacks hlacks]
  rcases usable_cases declared with ⟨hdeclared, hlacks⟩ | ⟨v, hv, rfl, hdeclared⟩
  · have hnot : ¬ Confirms (some u) declared := fun h => (confirms_iff.mp h).2 hlacks
    simp only [confirmed, hown, hdeclared]
    exact (decides_refused _).congr (iff_of_false id hnot) fun cause => by
      simp [mismatch_of_lacks_declared (not_lacks_some hu) hlacks]
  simp only [confirmed, hown, hdeclared, confirms_some hu, mismatch_some hu hv]
  by_cases hsame : u = v
  · rw [if_neg (by simp [hsame])]
    exact (decides_ok _).congr (iff_of_true trivial hsame) fun cause => by simp [hsame]
  · rw [if_pos (Ne.symm hsame)]
    exact (decides_refused _).congr (iff_of_false id hsame) fun cause => by simp [hsame]

/-- **A level that may be declared.** -/
theorem decides_checked (level : OwnerLevel) (own declared : Option Uuid) :
    Decides (checked level own declared) (Respects own declared)
      fun cause => ¬ Respects own declared ∧ cause = .refused level .differs := by
  rcases usable_cases declared with ⟨hdeclared, hlacks⟩ | ⟨v, hv, rfl, hdeclared⟩
  · have hrespects : Respects own declared := respects_of_lacks hlacks
    simp only [checked, hdeclared]
    exact (decides_ok _).congr (iff_of_true trivial hrespects) fun cause => by simp [hrespects]
  simp only [checked, hdeclared, respects_some hv]
  split
  · next h => exact (decides_ok _).congr (iff_of_true trivial h) fun cause => by simp [h]
  · next h => exact (decides_refused _).congr (iff_of_false id h) fun cause => by simp [h]

/-- **The level an audience needs**, once what is declared there is checked. -/
theorem decides_memberTerm (needed other : OwnerLevel) {found id : Option Uuid}
    (hfound : found = usable id) (otherId : Option Uuid) :
    Decides (memberTerm needed other found otherId) (¬ Lacks id)
      fun cause => Lacks id ∧ cause = .refused needed .neededByAudience := by
  subst hfound
  rcases usable_cases id with ⟨hid, hlacks⟩ | ⟨u, hu, rfl, hid⟩
  · rw [hid, memberTerm]
    exact (decides_refused _).congr (by simp [hlacks]) fun cause => by simp [hlacks]
  · have hnot := not_lacks_some hu
    rw [hid, memberTerm]
    exact (decides_ok _).congr (by simp [hnot]) fun cause => by simp [hnot]

/-! ## What the guard decides -/

/-- **What an audience asks of the levels below the tenant.** A client audience needs the
client confirmed; a group audience the group, and a user audience the user, while the
other of the two may be declared if it is the caller's. The other audiences are never
served. -/
def AdmitsBelow (caller : Caller) (declared : Owner) : Audience → Prop
  | .client => Confirms caller.client declared.client
  | .group => Confirms caller.group declared.group ∧ Respects caller.user declared.user
  | .user => Confirms caller.user declared.user ∧ Respects caller.group declared.group
  | .tenant => False
  | .unknown => False

/-- **The searches the guard admits.** -/
def Admits (caller : Caller) (declared : Owner) (audience : Audience) : Prop :=
  Confirms caller.tenant (some declared.tenant) ∧ AdmitsBelow caller declared audience

/-- The level a group or a user audience needs. -/
def memberLevel? : Audience → Option OwnerLevel
  | .group => some .group
  | .user => some .user
  | _ => none

/-- **The cause at the levels below the tenant.** For groups and users a declared group
that is not the caller's counts first, then such a user, and then that the level the
audience needs is not declared. -/
inductive RefusesBelow (caller : Caller) (declared : Owner) : Audience → TenancyError → Prop where
  /-- The client is not confirmed. -/
  | client {reason : Refusal} (hmismatch : Mismatch caller.client declared.client reason) :
      RefusesBelow caller declared .client (.refused .client reason)
  /-- The declared group is not the caller's. -/
  | group {audience : Audience} {needed : OwnerLevel}
      (haudience : memberLevel? audience = some needed)
      (hgroup : ¬ Respects caller.group declared.group) :
      RefusesBelow caller declared audience (.refused .group .differs)
  /-- The declared user is not the caller. -/
  | user {audience : Audience} {needed : OwnerLevel}
      (haudience : memberLevel? audience = some needed)
      (hgroup : Respects caller.group declared.group)
      (huser : ¬ Respects caller.user declared.user) :
      RefusesBelow caller declared audience (.refused .user .differs)
  /-- The level the audience needs is not declared. -/
  | missing {audience : Audience} {needed : OwnerLevel}
      (haudience : memberLevel? audience = some needed)
      (hgroup : Respects caller.group declared.group)
      (huser : Respects caller.user declared.user) (hlacks : Lacks (declared.at? needed)) :
      RefusesBelow caller declared audience (.refused needed .neededByAudience)
  /-- The audience is the whole tenant. -/
  | wholeTenant : RefusesBelow caller declared .tenant .tenantAudience
  /-- The audience is unknown. -/
  | unknown : RefusesBelow caller declared .unknown .unknownAudience

/-- **The cause for which the guard refuses a search.** The tenant counts first, whatever
the audience is. -/
def Refuses (caller : Caller) (declared : Owner) (audience : Audience) (cause : TenancyError) :
    Prop :=
  (∃ reason, Mismatch caller.tenant (some declared.tenant) reason ∧
      cause = .refused .tenant reason) ∨
    Confirms caller.tenant (some declared.tenant) ∧ RefusesBelow caller declared audience cause

section Scope

variable {caller : Caller} {declared : Owner} {audience : Audience} {cause : TenancyError}

/-- The causes of a client audience. -/
theorem refusesBelow_client : RefusesBelow caller declared .client cause ↔
    ∃ reason, Mismatch caller.client declared.client reason ∧
      cause = .refused .client reason := by
  constructor
  · rintro (⟨h⟩ | ⟨⟨⟩, -⟩ | ⟨⟨⟩, -, -⟩ | ⟨⟨⟩, -, -, -⟩)
    exact ⟨_, h, rfl⟩
  · rintro ⟨reason, h, rfl⟩
    exact .client h

/-- The causes of a group or a user audience, in the order of the checks. -/
theorem refusesBelow_member {needed : OwnerLevel}
    (haudience : memberLevel? audience = some needed) :
    RefusesBelow caller declared audience cause ↔
      ¬ Respects caller.group declared.group ∧ cause = .refused .group .differs ∨
        Respects caller.group declared.group ∧
          (¬ Respects caller.user declared.user ∧ cause = .refused .user .differs ∨
            Respects caller.user declared.user ∧
              Lacks (declared.at? needed) ∧ cause = .refused needed .neededByAudience) := by
  constructor
  · intro h
    cases h with
    | group _ hg => exact .inl ⟨hg, rfl⟩
    | user _ hg hu => exact .inr ⟨hg, .inl ⟨hu, rfl⟩⟩
    | missing hneeded hg hu hlacks =>
      obtain rfl := Option.some.inj (hneeded.symm.trans haudience)
      exact .inr ⟨hg, .inr ⟨hu, hlacks, rfl⟩⟩
    | client _ => exact absurd haudience (by simp [memberLevel?])
    | wholeTenant => exact absurd haudience (by simp [memberLevel?])
    | unknown => exact absurd haudience (by simp [memberLevel?])
  · rintro (⟨hg, rfl⟩ | ⟨hg, ⟨hu, rfl⟩ | ⟨hu, hlacks, rfl⟩⟩)
    · exact .group haudience hg
    · exact .user haudience hg hu
    · exact .missing haudience hg hu hlacks

/-- The cause of the audience of the whole tenant. -/
theorem refusesBelow_tenant :
    RefusesBelow caller declared .tenant cause ↔ cause = .tenantAudience := by
  constructor
  · rintro (- | ⟨⟨⟩, -⟩ | ⟨⟨⟩, -, -⟩ | ⟨⟨⟩, -, -, -⟩ | -)
    rfl
  · rintro rfl
    exact .wholeTenant

/-- The cause of an unknown audience. -/
theorem refusesBelow_unknown :
    RefusesBelow caller declared .unknown cause ↔ cause = .unknownAudience := by
  constructor
  · rintro (- | ⟨⟨⟩, -⟩ | ⟨⟨⟩, -, -⟩ | ⟨⟨⟩, -, -, -⟩ | - | -)
    rfl
  · rintro rfl
    exact .unknown

end Scope

/-- **The terms of a scope** are built just for what is admitted. -/
theorem decides_scopeTerms (declared : Owner) (audience : Audience) (r : Request) :
    Decides (scopeTerms declared audience r) (Admits r.caller declared audience)
      (Refuses r.caller declared audience) := by
  have htenant := decides_confirmed .tenant r.caller.tenant (some declared.tenant)
  rw [← tenantTerm_eq] at htenant
  cases audience with
  | tenant =>
    exact htenant.bind fun _ _ => (decides_refused _).congr Iff.rfl fun _ =>
      refusesBelow_tenant.symm
  | unknown =>
    exact htenant.bind fun _ _ => (decides_refused _).congr Iff.rfl fun _ =>
      refusesBelow_unknown.symm
  | client =>
    have hclient := decides_confirmed .client r.caller.client declared.client
    rw [← clientTerm_eq] at hclient
    refine htenant.bind fun tenant _ =>
      (hclient.bind fun client _ => decides_ok [tenant, client]).congr ?_ fun _ => ?_
    · simp [AdmitsBelow]
    · simp [refusesBelow_client]
  -- a declared group is checked, then a declared user, then the one the audience needs
  | group =>
    refine htenant.bind fun tenant _ =>
      ((decides_checked _ _ _).bind fun group hgroup => (decides_checked _ _ _).bind fun user _ =>
        (decides_memberTerm _ _ (checked_ok hgroup).1 _).bind fun member _ =>
          decides_ok [tenant, member]).congr ?_ fun _ => ?_
    · simp only [AdmitsBelow, confirms_iff]
      grind
    · rw [refusesBelow_member rfl]
      simp [Owner.at?]
  | user =>
    refine htenant.bind fun tenant _ =>
      ((decides_checked _ _ _).bind fun group _ => (decides_checked _ _ _).bind fun user huser =>
        (decides_memberTerm _ _ (checked_ok huser).1 _).bind fun member _ =>
          decides_ok [tenant, member]).congr ?_ fun _ => ?_
    · simp only [AdmitsBelow, confirms_iff]
      grind
    · rw [refusesBelow_member rfl]
      simp [Owner.at?]

/-- **What enforcement answers.** A filter is enforced just where the guard admits the
search, and refused for exactly the causes that stand against it. The filter itself has
no say. -/
theorem enforce_admits_or_refuses (condition : Json) (v : Visibility) (r : Request) :
    ((∃ enforced, enforce condition v r = .ok enforced) ↔
        Admits r.caller v.source v.audience) ∧
      ∀ e, enforce condition v r = .error e ↔
        ∃ cause, Refuses r.caller v.source v.audience cause ∧ e = .tenancy cause := by
  obtain ⟨hok, herror⟩ :=
    (decides_scopeTerms v.source v.audience r).map fun terms => combine terms condition
  exact ⟨hok, herror⟩

end Guard

end ScopedDocs
