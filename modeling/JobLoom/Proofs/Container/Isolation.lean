import JobLoom.Proofs.Container.Edits

/-!
# Descriptors are decoded field by field

In a document whose keys differ, each field of a descriptor is what the value of its key says, and
nothing else has a say in it.

* **Fields.** A field is decoded from the value of its own key. With another value there, the other
  fields are what they were.
* **Quantities.** Among the limits and the requests are those names whose values are quantities,
  each with its own, and nothing that stands beside them matters.
* **Edits** that mean nothing change nothing, at any place and however many there are.
-/

namespace JobLoom

open Yaml

namespace ContainerDescriptor

/-- A document gives a quantity to a name in one part of the resources. -/
inductive GivesQuantity (entries : List (Value × Value)) (part name : String) (q : Quantity) :
    Prop where
  /-- an entry of that part has the name as its key and the quantity as its value -/
  | intro {key resources quantities k v : Value} {parts named : List (Value × Value)}
    {text : String} (hresources : (key, resources) ∈ entries)
    (hkey : key.asText? = some "resources") (hparts : resources.asMapping? = some parts)
    (hquantities : (.text part, quantities) ∈ parts) (hnamed : quantities.asMapping? = some named)
    (hmem : (k, v) ∈ named) (hname : k.asText? = some name) (htext : v.scalarText? = some text)
    (hq : Quantity.parse? text = some q)

/-- A descriptor is decoded field by field. -/
structure DecodesFieldwise (entries : List (Value × Value)) : Prop where
  /-- a field is what the value of its key says -/
  own : ∀ (f : Field) (key v : Value), (key, v) ∈ entries → key.asText? = some f.key →
    f.get (ofMapping entries) = (f.read? v).getD (f.get .empty)
  /-- a field without a value is missing -/
  missing : ∀ f : Field, (∀ e ∈ entries, e.1.asText? ≠ some f.key) →
    f.get (ofMapping entries) = f.get .empty
  /-- with another value under a key, the fields with other keys stay as they are -/
  replaced : ∀ (before after : List (Value × Value)) (key v v' : Value) (f g : Field),
    entries = before ++ (key, v) :: after → key.asText? = some f.key → g ≠ f →
      g.get (ofMapping (before ++ (key, v') :: after)) = g.get (ofMapping entries)
  /-- the limits are the names with a quantity, each with its own -/
  limits : ∀ name q, (name, q) ∈ (ofMapping entries).resources.limits.entries ↔
    GivesQuantity entries "limits" name q
  /-- the requests are the names with a quantity, each with its own -/
  requests : ∀ name q, (name, q) ∈ (ofMapping entries).resources.requests.entries ↔
    GivesQuantity entries "requests" name q
  /-- edits that mean nothing change nothing -/
  edited : ∀ entries', Relation.ReflTransGen (Edit .descriptor) (.mapping entries)
    (.mapping entries') → ofMapping entries' = ofMapping entries

variable {entries : List (Value × Value)}

/-! ## Fields -/

theorem valuesUnder_eq_singleton {keyText? : Value → Option String} {name : String}
    {key v : Value} (hone : (valuesUnder keyText? name entries).length ≤ 1)
    (hmem : (key, v) ∈ entries) (hkey : keyText? key = some name) :
    valuesUnder keyText? name entries = [v] := by
  have hv := mem_valuesUnder_iff.2 ⟨key, hmem, hkey⟩
  obtain ⟨w, hw⟩ := List.length_eq_one_iff.1 (Nat.le_antisymm hone (List.length_pos_of_mem hv))
  rw [hw, List.mem_singleton] at hv
  rw [hw, hv]

theorem get_ofMapping_of_mem (h : (Value.mapping entries).KeysDiffer) (f : Field) {key v : Value}
    (hmem : (key, v) ∈ entries) (hkey : key.asText? = some f.key) :
    f.get (ofMapping entries) = (f.read? v).getD (f.get .empty) := by
  have hone := length_valuesUnder_le_one f.key (fun _ => id) h.nodup_keys
  rw [Field.get_ofMapping, valuesUnder_eq_singleton hone hmem hkey]
  cases hv : f.read? v <;> simp [hv]

theorem get_ofMapping_of_not_mem (f : Field) (h : ∀ e ∈ entries, e.1.asText? ≠ some f.key) :
    f.get (ofMapping entries) = f.get .empty := by
  have hnone : valuesUnder Value.asText? f.key entries = [] := by
    refine List.eq_nil_iff_forall_not_mem.2 fun v hv => ?_
    obtain ⟨key, hmem, hkey⟩ := mem_valuesUnder_iff.1 hv
    exact h _ hmem hkey
  rw [Field.get_ofMapping, hnone]
  rfl

/-- The value of a key has no say in the fields with other keys. -/
theorem get_ofMapping_replaced (before after : List (Value × Value)) {key : Value} {f g : Field}
    (hkey : key.asText? = some f.key) (hne : g ≠ f) (v v' : Value) :
    g.get (ofMapping (before ++ (key, v') :: after)) =
      g.get (ofMapping (before ++ (key, v) :: after)) := by
  have hother : key.asText? ≠ some g.key := fun heq =>
    hne (Field.key_injective (Option.some.inj (heq.symm.trans hkey)))
  simp only [Field.get_ofMapping, valuesUnder_append]
  rw [valuesUnder_cons_of_ne hother, valuesUnder_cons_of_ne hother]

/-! ## Quantities -/

/-- Of one value at most, the last one is any. -/
theorem getLast?_eq_some_iff_mem {α : Type} {l : List α} (h : l.length ≤ 1) {a : α} :
    l.getLast? = some a ↔ a ∈ l := by
  match l, h with
  | [], _ => simp
  | [b], _ => simp [eq_comm]

theorem mem_quantities_iff (h : (Value.mapping entries).KeysDiffer) {name : String}
    {q : Quantity} : (name, q) ∈ (Dictionary.ofList (entries.filterMap quantityEntry?)).entries ↔
      ∃ k v text, (k, v) ∈ entries ∧ k.asText? = some name ∧ v.scalarText? = some text ∧
        Quantity.parse? text = some q := by
  have hone := length_valuesUnder_le_one name (fun _ => id) h.nodup_keys
  rw [← Dictionary.get?_eq_some_iff, get?_ofList_quantities, getLast?_eq_some_iff_mem
    (Nat.le_trans (List.length_filterMap_le _ _) hone), List.mem_filterMap]
  constructor
  · rintro ⟨v, hv, hq⟩
    obtain ⟨k, hmem, hk⟩ := mem_valuesUnder_iff.1 hv
    obtain ⟨text, htext, hq⟩ := Option.bind_eq_some_iff.1 hq
    exact ⟨k, v, text, hmem, hk, htext, hq⟩
  · rintro ⟨k, v, text, hmem, hk, htext, hq⟩
    exact ⟨v, mem_valuesUnder_iff.2 ⟨k, hmem, hk⟩, Option.bind_eq_some_iff.2 ⟨text, htext, hq⟩⟩

/-- The value that an inner mapping has under a key is the one in its entries. -/
theorem lookup_eq_some_iff (h : (Value.mapping entries).KeysDiffer) {name : String} {v : Value} :
    Value.lookup name entries = some v ↔ (.text name, v) ∈ entries := by
  rw [lookup_eq_head?]
  constructor
  · intro hv
    obtain ⟨key, hmem, hkey⟩ := mem_valuesUnder_iff.1 (List.mem_of_head? hv)
    exact Value.plainText?_eq_some_iff.1 hkey ▸ hmem
  · intro hmem
    have hone : (valuesUnder Value.plainText? name entries).length ≤ 1 :=
      length_valuesUnder_le_one name
        (fun key hkey => Value.plainText?_eq_some_iff.1 hkey ▸ rfl) h.nodup_keys
    rw [valuesUnder_eq_singleton hone hmem rfl]
    rfl

/-- Quantities are had from a mapping only. -/
theorem mem_quantitiesOf_iff {v : Option Value} {e : String × Quantity} :
    e ∈ (quantitiesOf v).entries ↔ ∃ named, v.bind Value.asMapping? = some named ∧
      e ∈ (Dictionary.ofList (named.filterMap quantityEntry?)).entries := by
  unfold quantitiesOf
  cases v.bind Value.asMapping? with
  | none => simp [Dictionary.empty]
  | some named => simp

/-- What is in a part of the resources is had from the value of their key, which is a mapping. -/
theorem mem_resources_iff (h : (Value.mapping entries).KeysDiffer)
    {get : Resources → Dictionary Quantity} (hempty : get .empty = .empty)
    {e : String × Quantity} : e ∈ (get (ofMapping entries).resources).entries ↔
      ∃ key resources parts, (key, resources) ∈ entries ∧ key.asText? = some "resources" ∧
        resources.asMapping? = some parts ∧ e ∈ (get (.ofMapping parts)).entries := by
  have hread {key resources : Value} (hmem : (key, resources) ∈ entries)
      (hkey : key.asText? = some "resources") : (ofMapping entries).resources =
        (resources.asMapping?.map Resources.ofMapping).getD .empty :=
    get_ofMapping_of_mem h .resources hmem hkey
  constructor
  · intro he
    have hfilled : (ofMapping entries).resources ≠ .empty := fun heq => by
      rw [heq, hempty] at he
      cases he
    -- so there is a value, and it is of the right kind
    obtain ⟨⟨key, resources⟩, hmem, hkey⟩ : ∃ e ∈ entries, e.1.asText? = some "resources" := by
      by_contra hmissing
      exact hfilled (get_ofMapping_of_not_mem .resources fun e hmem hkey =>
        hmissing ⟨e, hmem, hkey⟩)
    rw [hread hmem hkey] at he hfilled
    cases hparts : resources.asMapping? with
    | none => exact absurd (by rw [hparts]; rfl) hfilled
    | some parts =>
      rw [hparts] at he
      exact ⟨key, resources, parts, hmem, hkey, hparts, he⟩
  · rintro ⟨key, resources, parts, hmem, hkey, hparts, he⟩
    rw [hread hmem hkey, hparts]
    exact he

/-- A part of the resources has the quantities that the document gives in it. -/
theorem mem_part_iff (h : (Value.mapping entries).KeysDiffer) {part : String}
    (get : Resources → Dictionary Quantity)
    (hget : ∀ parts, get (.ofMapping parts) = quantitiesOf (Value.lookup part parts))
    (hempty : get .empty = .empty) (name : String) (q : Quantity) :
    (name, q) ∈ (get (ofMapping entries).resources).entries ↔
      GivesQuantity entries part name q := by
  rw [mem_resources_iff h hempty]
  constructor
  · rintro ⟨key, resources, parts, hmem, hkey, hparts, hq⟩
    have hinner := (h.of_mem hmem).of_asMapping? hparts
    rw [hget, mem_quantitiesOf_iff] at hq
    obtain ⟨named, hnamed, hq⟩ := hq
    obtain ⟨quantities, hlookup, hnamed⟩ := Option.bind_eq_some_iff.1 hnamed
    have hquantities := (lookup_eq_some_iff hinner).1 hlookup
    obtain ⟨k, v, text, hkv, hname, htext, hq⟩ :=
      (mem_quantities_iff ((hinner.of_mem hquantities).of_asMapping? hnamed)).1 hq
    exact ⟨hmem, hkey, hparts, hquantities, hnamed, hkv, hname, htext, hq⟩
  · rintro ⟨hmem, hkey, hparts, hquantities, hnamed, hkv, hname, htext, hq⟩
    have hinner := (h.of_mem hmem).of_asMapping? hparts
    have hlookup := (lookup_eq_some_iff hinner).2 hquantities
    have hentry := (mem_quantities_iff
      ((hinner.of_mem hquantities).of_asMapping? hnamed)).2 ⟨_, _, _, hkv, hname, htext, hq⟩
    refine ⟨_, _, _, hmem, hkey, hparts, ?_⟩
    rw [hget, mem_quantitiesOf_iff]
    exact ⟨_, Option.bind_eq_some_iff.2 ⟨_, hlookup, hnamed⟩, hentry⟩

/-! ## Edits -/

/-- However many edits there are, they keep what the value says. -/
theorem keeps_of_edits {p : Place} {v v' : Value} (h : Relation.ReflTransGen (Edit p) v v') :
    Keeps p v v' := by
  induction h with
  | refl => exact .refl p v
  | tail _ hedit ih =>
    intro hv
    obtain ⟨hmid, halike⟩ := ih hv
    obtain ⟨hlast, halike'⟩ := hedit.keeps hmid
    exact ⟨hlast, halike.trans halike'⟩

/-- Documents whose keys differ are decoded field by field. -/
theorem decodesFieldwise_of_keysDiffer (h : (Value.mapping entries).KeysDiffer) :
    DecodesFieldwise entries where
  own f _ _ := get_ofMapping_of_mem h f
  missing := get_ofMapping_of_not_mem
  replaced before after _ v v' f g heq hkey hne := by
    subst heq
    exact get_ofMapping_replaced before after hkey hne v v'
  limits := mem_part_iff h Resources.limits (fun _ => rfl) rfl
  requests := mem_part_iff h Resources.requests (fun _ => rfl) rfl
  edited _ hedits :=
    (Option.some.inj (keeps_of_edits hedits (isClear_of_keysDiffer h .descriptor)).2).symm

/-- A tagged key, a number as a key, quantities that are none and a list of mounts that is none. An
entry with a number as a key is taken out, the limits get one, and everything is turned round. -/
theorem decodesFieldwise_of_malformed_values :
    let limits : List (Value × Value) := [(.text "cpu", .integer 2), (.text "disk", .text "lots"),
      (.text "memory", .text " 1Gi "), (.text "gpu", .sequence [])]
    let resources (limits : List (Value × Value)) : Value × Value :=
      (.text "resources", .tagged "!r" (.mapping [(.text "limits", .mapping limits),
        (.text "requests", .text "none")]))
    let image : Value × Value := (.tagged "!k" (.text "image"), .text "cuda")
    let mounts (v : Value) : Value × Value := (.text "volumeMounts", v)
    let entries := [image, (.integer 7, .text "odd"), resources limits, mounts (.boolean true)]
    let entries' := [mounts (.boolean true), resources ((.null, .integer 1) :: limits), image]
    (Value.mapping entries).KeysDiffer ∧ DecodesFieldwise entries ∧
      GivesQuantity entries "limits" "memory" ⟨"1Gi", by decide⟩ ∧
      (¬∃ q, GivesQuantity entries "limits" "disk" q) ∧
      (ofMapping [image, (.integer 7, .text "odd"), resources limits, mounts (.sequence [])]).image =
        some "cuda" ∧
      ofMapping entries' = ofMapping entries := by
  intro limits resources image mounts entries entries'
  have hlimits : (Value.mapping limits).KeysDiffer := by
    refine .mapping (by decide) ?_
    simp only [limits, List.forall_mem_cons]
    exact ⟨.scalar trivial, .scalar trivial, .scalar trivial, .sequence nofun, nofun⟩
  have hresources : (resources limits).2.KeysDiffer := by
    refine .tagged _ (.mapping (by decide) ?_)
    simp only [List.forall_mem_cons]
    exact ⟨hlimits, .scalar trivial, nofun⟩
  have hdiffer : (Value.mapping entries).KeysDiffer := by
    refine .mapping (by decide) ?_
    simp only [entries, List.forall_mem_cons]
    exact ⟨.scalar trivial, .scalar trivial, hresources, .scalar trivial, nofun⟩
  have hfieldwise := decodesFieldwise_of_keysDiffer hdiffer
  have hout : Edit .descriptor (.mapping entries)
      (.mapping [image, resources limits, mounts (.boolean true)]) :=
    .delete [image] [resources limits, mounts (.boolean true)] (.text "odd") nofun
  have hin : Edit .descriptor (.mapping [image, resources limits, mounts (.boolean true)])
      (.mapping [image, resources ((.null, .integer 1) :: limits), mounts (.boolean true)]) :=
    .entry [image] _ rfl rfl (.tagged "!r" (.entry [] _ rfl rfl (.insert [] limits _ nofun)))
  have hturned : Edit .descriptor
      (.mapping [image, resources ((.null, .integer 1) :: limits), mounts (.boolean true)])
      (.mapping entries') := .reorder (List.reverse_perm _).symm
  refine ⟨hdiffer, hfieldwise, ?_, ?_, ?_, ?_⟩
  · exact (hfieldwise.limits _ _).1 (by decide +kernel)
  · rintro ⟨q, hq⟩
    have hmem := Dictionary.get?_eq_some_iff.2 ((hfieldwise.limits _ _).2 hq)
    have hnone : (ofMapping entries).resources.limits.get? "disk" = none := by decide +kernel
    rw [hnone] at hmem
    cases hmem
  · exact hfieldwise.replaced [image, (.integer 7, .text "odd"), resources limits] []
      (.text "volumeMounts") _ _ .volumeMounts .image rfl rfl (by decide)
  · exact hfieldwise.edited entries' (.tail (.tail (.single hout) hin) hturned)

end ContainerDescriptor

end JobLoom
