import ScopedDocs.Owner
import ScopedDocs.Proofs.Uuid
/-!
# Owners — their stored form

What a stored owner reads at each level (`Owner.get?_toJson`), and that it reads
back as the owner that was stored (`Owner.ofJson?_toJson`).
-/


namespace ScopedDocs

namespace Json.Decode

/-- The text of an identifier is read as that identifier. -/
@[simp] theorem uuid?_text (u : Uuid) : uuid? (.str u.text) = some u := by
  simp [uuid?, Json.string?]

end Json.Decode

namespace OwnerLevel

/-- Each level has a key of its own. -/
theorem key_beq (a b : OwnerLevel) : (a.key == b.key) = decide (a = b) := by
  cases a <;> cases b <;> decide

end OwnerLevel

namespace Owner

variable (o : Owner)

/-- What the member of one level reads at the key of any level. -/
theorem lookup_levelMember (level other : OwnerLevel) (id : Option Uuid) :
    (levelMember level id).lookup other.key =
      if other = level then id.map fun u => .str u.text else none := by
  cases id with
  | none => simp [levelMember]
  | some u =>
    by_cases h : other = level <;> simp [levelMember, List.lookup_cons, OwnerLevel.key_beq, h]

/-- **A stored owner reads its identifier at each level**, and nothing at a level
it does not have. -/
theorem get?_toJson (level : OwnerLevel) :
    o.toJson.get? level.key = (o.at? level).map fun u => .str u.text := by
  simp only [toJson, Json.get?, List.lookup_cons, OwnerLevel.key_beq, List.lookup_append,
    lookup_levelMember]
  cases level <;> simp [at?]

/-- **Reading undoes writing.** -/
@[simp] theorem ofJson?_toJson : ofJson? o.toJson = some o := by
  have hread : ∀ id : Option Uuid,
      Json.Decode.orElse? (Json.Decode.optional? Json.Decode.uuid?) none
        (id.map fun u => .str u.text) = some id := by
    intro id
    cases id <;> simp [Json.Decode.orElse?, Json.Decode.optional?]
  have hfields : Json.Decode.fields?
      ([OwnerLevel.tenant, .client, .group, .user].map OwnerLevel.key) o.toJson =
      some [some (.str o.tenant.text), o.client.map fun u => .str u.text,
        o.group.map fun u => .str u.text, o.user.map fun u => .str u.text] := by
    have h := get?_toJson o
    have htenant := h .tenant
    have hclient := h .client
    have hgroup := h .group
    have huser := h .user
    simp only [toJson, Json.get?, at?] at htenant hclient hgroup huser
    simp only [toJson, Json.Decode.fields?, List.map_cons, List.map_nil, htenant, hclient, hgroup,
      huser, Option.map_some]
  simp only [ofJson?, hfields, Json.Decode.required?, Option.bind_some, Json.Decode.uuid?_text,
    hread]
  rfl

end Owner

end ScopedDocs
