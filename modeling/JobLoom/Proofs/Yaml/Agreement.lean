import JobLoom.Proofs.Yaml.Spelling
import JobLoom.Yaml.Reading

/-!
# Reading what is spelled

Reading a document comes to the same as reading the tree that it spells. Only the number of aliases
is limited in a document, and there are none in a tree.

* **Agreement** of two readers: both succeed, with results that belong together, or both fail; or
  the first one gives up because too many aliases have been followed. What has been counted before
  does not matter.
* **Readers** that are put together from such ones agree, so there is one lemma for each way of
  putting readers together, and one for each kind of value. Places play no part in them, since they
  only show in messages.
-/

namespace JobLoom.Yaml

variable {α β γ δ : Type}

/-! ## Agreement -/

/-- How two readers that agree come out. -/
inductive Outcomes (limited : Prop) (R : α → β → Prop) :
    Except Flaw (α × Nat) → Except Flaw (β × Nat) → Prop where
  /-- both succeed, and the results belong together -/
  | done {a : α} {b : β} (h : R a b) (k k' : Nat) : Outcomes limited R (.ok (a, k)) (.ok (b, k'))
  /-- too many aliases have been followed -/
  | exhausted (h : limited) (y : β × Nat) :
    Outcomes limited R (.error (.fault .repetition)) (.ok y)
  /-- both fail -/
  | flawed (f f' : Flaw) : Outcomes limited R (.error f) (.error f')

/-- The two readers agree, whatever has been counted before. -/
def Agrees (limited : Prop) (R : α → β → Prop) (r : Reading α) (r' : Reading β) : Prop :=
  ∀ k k', Outcomes limited R (r k) (r' k')

variable {limited : Prop} {R : α → β → Prop} {S : γ → δ → Prop}

namespace Agrees

theorem pure {a : α} {b : β} (h : R a b) : Agrees limited R (pure a) (pure b) :=
  fun k k' => .done h k k'

theorem flawed (f f' : Flaw) : Agrees limited R (flawed f) (flawed f') := fun _ _ => .flawed f f'

theorem bind {r : Reading α} {r' : Reading β} {f : α → Reading γ} {f' : β → Reading δ}
    (h : Agrees limited R r r') (hf : ∀ a b, R a b → Agrees limited S (f a) (f' b)) :
    Agrees limited S (r >>= f) (r' >>= f') := by
  intro k k'
  have hout := h k k'
  change Outcomes limited S (r k >>= fun x => f x.1 x.2) (r' k' >>= fun x => f' x.1 x.2)
  generalize r k = x at hout ⊢
  generalize r' k' = x' at hout ⊢
  cases hout with
  | done hab l l' => exact hf _ _ hab l l'
  | flawed e e' => exact .flawed e e'
  | exhausted hlimited y =>
    change Outcomes limited S (.error _) (f' y.1 y.2)
    cases f' y.1 y.2 with
    | ok z => exact .exhausted hlimited z
    | error e => exact .flawed _ e

theorem map {r : Reading α} {r' : Reading β} {f : α → γ} {f' : β → δ}
    (h : Agrees limited R r r') (hf : ∀ a b, R a b → S (f a) (f' b)) :
    Agrees limited S (f <$> r) (f' <$> r') := by
  rw [map_eq_pure_bind, map_eq_pure_bind]
  exact h.bind fun a b hab => .pure (hf a b hab)

/-- Places only show in messages. -/
theorem located {r : Reading α} {r' : Reading β} (path path' : Path) (h : Agrees limited R r r') :
    Agrees limited R (located path r) (located path' r') := by
  intro k k'
  have hout := h k k'
  unfold Yaml.located
  generalize r k = x at hout ⊢
  generalize r' k' = x' at hout ⊢
  cases hout with
  | done hab l l' => exact .done hab l l'
  | exhausted hlimited y => exact .exhausted hlimited y
  | flawed e e' => split <;> split <;> exact .flawed _ _

theorem mapM {ε ε' : Type} {xs : List ε} {xs' : List ε'} {T : ε → ε' → Prop}
    {f : ε → Reading α} {f' : ε' → Reading β} (h : List.Forall₂ T xs xs')
    (hf : ∀ x x', T x x' → Agrees limited R (f x) (f' x')) :
    Agrees limited (List.Forall₂ R) (xs.mapM f) (xs'.mapM f') := by
  induction h with
  | nil => exact .pure .nil
  | cons hx _ ih =>
    rw [List.mapM_cons, List.mapM_cons]
    exact (hf _ _ hx).bind fun a b hab => ih.bind fun as bs habs => .pure (.cons hab habs)

theorem foldlM {σ ε ε' : Type} {xs : List ε} {xs' : List ε'} {T : ε → ε' → Prop}
    {f : σ → ε → Reading σ} {f' : σ → ε' → Reading σ} (h : List.Forall₂ T xs xs')
    (hf : ∀ s x x', T x x' → Agrees limited Eq (f s x) (f' s x')) (s : σ) :
    Agrees limited Eq (xs.foldlM f s) (xs'.foldlM f' s) := by
  induction h generalizing s with
  | nil => exact .pure rfl
  | cons hx _ ih =>
    rw [List.foldlM_cons, List.foldlM_cons]
    refine (hf s _ _ hx).bind fun t t' ht => ?_
    subst ht
    exact ih t

/-- Going deeper, both have to stop at the same level. -/
theorem deeper {f : Nat → Reading α} {f' : Nat → Reading β} (depth : Nat)
    (h : ∀ d, Agrees limited R (f d) (f' d)) :
    Agrees limited R (deeper depth f) (deeper depth f') := by
  cases depth with
  | zero => exact .flawed _ _
  | succ d => exact h d

theorem wrongKind (c c' : Context) (expected expected' : String) (n n' : Node) :
    Agrees limited R (wrongKind c expected n) (wrongKind c' expected' n') := by
  have hflawed (ε : Type) (c : Context) (expected : String) (n : Node) :
      ∃ f, (Yaml.wrongKind c expected n : Reading ε) = Yaml.flawed f := by
    unfold Yaml.wrongKind
    split
    · exact ⟨_, rfl⟩
    · exact ⟨_, rfl⟩
    · exact ⟨_, rfl⟩
    · split <;> exact ⟨_, rfl⟩
    · exact ⟨_, rfl⟩
    · exact ⟨_, rfl⟩
  obtain ⟨f, hf⟩ := hflawed α c expected n
  obtain ⟨f', hf'⟩ := hflawed β c' expected' n'
  rw [hf, hf']
  exact .flawed f f'

end Agrees

/-! ## Nodes that correspond -/

variable {T : Node → Node → Prop} {c c' : Context} {n t : Node}

/-- Two values that look alike, up to what corresponds in them. -/
inductive Looks (T : Node → Node → Prop) : Node → Node → Prop where
  /-- nothing that can be read -/
  | lost : Looks T .lost .lost
  /-- no document at all -/
  | absent : Looks T .absent .absent
  /-- a scalar -/
  | scalar (tag : Option String) (plain : Bool) (text : String) :
    Looks T (.scalar tag plain text) (.scalar tag plain text)
  /-- a sequence, item by item -/
  | sequence (tag : Option String) {items ts : List Node} (h : List.Forall₂ T items ts) :
    Looks T (.sequence tag items) (.sequence tag ts)
  /-- a mapping, entry by entry -/
  | mapping (tag : Option String) {entries ts : List (Node × Node)}
    (h : List.Forall₂ (OnEntry T) entries ts) :
    Looks T (.mapping tag entries) (.mapping tag ts)

/-- Nodes correspond, each in its context: once aliases are followed they look alike, and what is
lost in one is lost in the other. -/
structure Corresponds (c c' : Context) (limited : Prop) (T : Node → Node → Prop) : Prop where
  /-- aliases lead to values that look alike -/
  follow : ∀ n t, T n t →
    Agrees limited (fun m u => T m u ∧ Looks T m u) (Yaml.follow c n) (Yaml.follow c' t)
  /-- both are whole, or none of them -/
  isWhole_eq : ∀ n t, T n t → n.isWhole = t.isWhole

/-! ## Readers -/

theorem agrees_readText (hc : Corresponds c c' limited T) (path path' : Path)
    (expected expected' : String) (h : T n t) :
    Agrees limited Eq (readText c path expected n) (readText c' path' expected' t) := by
  refine .located path path' ((hc.follow _ _ h).bind fun m u hm => ?_)
  cases hm.2 with
  | scalar tag plain text => exact .pure rfl
  | lost => exact .wrongKind _ _ _ _ _ _
  | absent => exact .wrongKind _ _ _ _ _ _
  | sequence => exact .wrongKind _ _ _ _ _ _
  | mapping => exact .wrongKind _ _ _ _ _ _

theorem agrees_readOption (hc : Corresponds c c' limited T) {read read' : Node → Reading α}
    (hread : ∀ n t, T n t → Agrees limited Eq (read n) (read' t)) (h : T n t) :
    Agrees limited Eq (readOption c read n) (readOption c' read' t) := by
  refine (hc.follow _ _ h).bind fun m u hm => ?_
  obtain ⟨hT, hlooks⟩ := hm
  cases hlooks with
  | lost => exact .flawed _ _
  | absent => exact .pure rfl
  | scalar tag plain text =>
    dsimp only
    cases isMissing (.scalar tag plain text) with
    | error e => exact .flawed _ _
    | ok missing =>
      cases missing with
      | true => exact .pure rfl
      | false => exact (hread _ _ hT).map fun a b hab => congrArg some hab
  | sequence tag hitems => exact (hread _ _ hT).map fun a b hab => congrArg some hab
  | mapping tag hentries => exact (hread _ _ hT).map fun a b hab => congrArg some hab

/-- The items keep their company when they are numbered. -/
theorem forall₂_zipIdx {T : α → β → Prop} {xs : List α} {ys : List β} (h : List.Forall₂ T xs ys)
    (k : Nat) : List.Forall₂ (fun e e' => T e.1 e'.1) (xs.zipIdx k) (ys.zipIdx k) := by
  induction h generalizing k with
  | nil => exact .nil
  | cons hx _ ih => exact .cons hx (ih (k + 1))

theorem agrees_readItems {read read' : Path → Node → Reading α}
    (hread : ∀ p p' n t, T n t → Agrees limited Eq (read p n) (read' p' t))
    (path path' : Path) {items ts : List Node} (h : List.Forall₂ T items ts) :
    Agrees limited Eq (readItems path read items) (readItems path' read' ts) := by
  have hagrees := Agrees.mapM (forall₂_zipIdx h 0) fun e e' he =>
    hread (.index e.2 :: path) (.index e'.2 :: path') e.1 e'.1 he
  rw [List.forall₂_eq_eq_eq] at hagrees
  exact hagrees

theorem agrees_readSequence (hc : Corresponds c c' limited T)
    {read read' : Nat → Path → Node → Reading α}
    (hread : ∀ d p p' n t, T n t → Agrees limited Eq (read d p n) (read' d p' t))
    (depth : Nat) (path path' : Path) (expected : String) (h : T n t) :
    Agrees limited Eq (readSequence c depth path expected read n)
      (readSequence c' depth path' expected read' t) := by
  refine .located path path' ((hc.follow _ _ h).bind fun m u hm => ?_)
  cases hm.2 with
  | sequence tag hitems =>
    exact .deeper depth fun d => agrees_readItems (hread d) path path' hitems
  | absent => exact .pure rfl
  | lost =>
    simp only [isEmptyScalar, Bool.false_eq_true, if_false]
    exact .wrongKind _ _ _ _ _ _
  | scalar tag plain text =>
    dsimp only
    split
    · exact .pure rfl
    · exact .wrongKind _ _ _ _ _ _
  | mapping tag hentries =>
    simp only [isEmptyScalar, Bool.false_eq_true, if_false]
    exact .wrongKind _ _ _ _ _ _

theorem agrees_readMapping (hc : Corresponds c c' limited T)
    {entry : Nat → α → Node → Node → Reading α} {entry' : Nat → α → Node → Node → Reading α}
    (hentry : ∀ d s e e', OnEntry T e e' →
      Agrees limited Eq (entry d s e.1 e.2) (entry' d s e'.1 e'.2))
    (depth : Nat) (path path' : Path) (expected : String) (init : α) (h : T n t) :
    Agrees limited Eq (readMapping c depth path expected entry init n)
      (readMapping c' depth path' expected entry' init t) := by
  refine .located path path' ((hc.follow _ _ h).bind fun m u hm => ?_)
  cases hm.2 with
  | mapping tag hentries =>
    exact .deeper depth fun d => .foldlM hentries (hentry d) init
  | absent => exact .pure rfl
  | lost =>
    simp only [isEmptyScalar, Bool.false_eq_true, if_false]
    exact .wrongKind _ _ _ _ _ _
  | scalar tag plain text =>
    dsimp only
    split
    · exact .pure rfl
    · exact .wrongKind _ _ _ _ _ _
  | sequence tag hitems =>
    simp only [isEmptyScalar, Bool.false_eq_true, if_false]
    exact .wrongKind _ _ _ _ _ _

/-! ## Records -/

/-- Fields that are read alike. -/
structure FieldReader.Agrees {σ : Type} (T : Node → Node → Prop) (limited : Prop)
    (f f' : FieldReader σ) : Prop where
  /-- both have been read before, or none of them -/
  filled_eq : f.filled = f'.filled
  /-- what one reads, the other reads in what is spelled -/
  fill : ∀ d p p' n t, T n t → Yaml.Agrees limited Eq (f.fill d p n) (f'.fill d p' t)

theorem agrees_readField {σ : Type} (hc : Corresponds c c' limited T)
    {fields fields' : σ → String → Option (FieldReader σ)}
    (hfields : ∀ s name, Option.Rel (FieldReader.Agrees T limited) (fields s name)
      (fields' s name))
    (depth : Nat) (path path' : Path) (s : σ) {e e' : Node × Node} (he : OnEntry T e e') :
    Agrees limited Eq (readField c path fields depth s e.1 e.2)
      (readField c' path' fields' depth s e'.1 e'.2) := by
  refine (agrees_readText hc path path' _ _ he.1).bind fun name name' hname => ?_
  subst hname
  have hfield := hfields s name
  generalize fields s name = x at hfield ⊢
  generalize fields' s name = x' at hfield ⊢
  cases hfield with
  | none =>
    have hskip : Agrees limited Eq (skipNode c e.2) (skipNode c' e'.2) := by
      unfold skipNode
      rw [hc.isWhole_eq _ _ he.2]
      split
      · exact .pure rfl
      · exact .flawed _ _
    exact hskip.bind fun _ _ _ => .pure rfl
  | some hff =>
    dsimp only
    rw [hff.filled_eq]
    split
    · exact .flawed _ _
    · exact hff.fill depth _ _ _ _ he.2

theorem agrees_readRecord {σ : Type} (hc : Corresponds c c' limited T)
    {fields fields' : σ → String → Option (FieldReader σ)}
    (hfields : ∀ s name, Option.Rel (FieldReader.Agrees T limited) (fields s name)
      (fields' s name))
    (depth : Nat) (path path' : Path) (expected : String) (init : σ) (h : T n t) :
    Agrees limited Eq (readRecord c depth path expected fields init n)
      (readRecord c' depth path' expected fields' init t) :=
  agrees_readMapping hc (fun d s _ _ he => agrees_readField hc hfields d path path' s he) depth
    path path' expected init h

/-! ## Values of any kind -/

theorem agrees_valueOf (text expected : String) (x : Meaning) :
    Agrees limited Eq (valueOf text expected x) (valueOf text expected x) := by
  cases x with
  | wide n isSigned => exact .flawed _ _
  | _ => exact .pure rfl

theorem agrees_withTag (m : Manner) (tag : Option String) {inner inner' : Bool → Reading Value}
    (h : ∀ inTag, Agrees limited Eq (inner inTag) (inner' inTag)) :
    Agrees limited Eq (withTag m tag inner) (withTag m tag inner') := by
  unfold withTag
  split
  · exact h false
  · split
    · exact (h true).map fun a b hab => congrArg _ hab
    · exact .flawed _ _

theorem agrees_readEntry (m : Manner) {read read' : Path → Node → Reading Value}
    (hread : ∀ p p' n t, T n t → Agrees limited Eq (read p n) (read' p' t))
    (path path' : Path) (done : List (Value × Value)) {e e' : Node × Node}
    (he : OnEntry T e e') :
    Agrees limited Eq (readEntry m path read done e.1 e.2)
      (readEntry m path' read' done e'.1 e'.2) := by
  refine (hread path path' _ _ he.1).bind fun k k' hk => ?_
  subst hk
  dsimp only
  split
  · exact .flawed _ _
  · refine (hread _ _ _ _ he.2).bind fun v v' hv => ?_
    subst hv
    exact .pure rfl

theorem agrees_readValueWith (m : Manner) (hc : Corresponds c c' limited T)
    {inner inner' : Option (Path → Node → Reading Value)}
    (hinner : Option.Rel (fun read read' => ∀ p p' n t, T n t →
      Agrees limited Eq (read p n) (read' p' t)) inner inner')
    (path path' : Path) (h : T n t) :
    Agrees limited Eq (readValueWith m c inner path n)
      (readValueWith m c' inner' path' t) := by
  refine .located path path' ((hc.follow _ _ h).bind fun n t hn => ?_)
  cases hn.2 with
  | lost => exact .flawed _ _
  | absent => exact .pure rfl
  | scalar tag plain text =>
    refine agrees_withTag m tag fun inTag => ?_
    split
    · exact agrees_valueOf _ _ _
    · exact .flawed _ _
  | sequence tag hitems =>
    refine agrees_withTag m tag fun _ => ?_
    cases hinner with
    | none => exact .flawed _ _
    | some hread =>
      exact (agrees_readItems hread path path' hitems).map fun a b hab => congrArg _ hab
  | mapping tag hentries =>
    refine agrees_withTag m tag fun _ => ?_
    cases hinner with
    | none => exact .flawed _ _
    | some hread =>
      refine (Agrees.foldlM hentries (fun done e e' he =>
        agrees_readEntry m hread path path' done he) []).bind fun done done' hdone => ?_
      subst hdone
      exact .pure rfl

theorem agrees_readValue (m : Manner) (hc : Corresponds c c' limited T) (depth : Nat)
    (path path' : Path) (h : T n t) :
    Agrees limited Eq (readValue m c depth path n) (readValue m c' depth path' t) := by
  induction depth generalizing path path' n t with
  | zero => exact agrees_readValueWith m hc .none path path' h
  | succ d ih =>
    exact agrees_readValueWith m hc (.some fun p p' n t hn => ih p p' hn) path path' h

/-! ## Trees -/

/-- A context without anything, in which no alias can be followed. -/
def Context.bare : Context := ⟨[], 0, .endOfStream⟩

/-- In the bare context every node corresponds to itself: a reader does the same whatever has been
counted before. -/
theorem corresponds_bare : Corresponds .bare .bare False Eq where
  follow n t h := by
    subst h
    have hitems {α : Type} (xs : List α) : List.Forall₂ Eq xs xs :=
      List.forall₂_same.2 fun _ _ => rfl
    have hentries (es : List (Node × Node)) : List.Forall₂ (OnEntry Eq) es es :=
      List.forall₂_same.2 fun _ _ => ⟨rfl, rfl⟩
    cases n with
    | aliasOf id => exact .flawed (.fault .repetition) (.fault .repetition)
    | lost => exact .pure ⟨rfl, .lost⟩
    | absent => exact .pure ⟨rfl, .absent⟩
    | scalar tag plain text => exact .pure ⟨rfl, .scalar tag plain text⟩
    | sequence tag items => exact .pure ⟨rfl, .sequence tag (hitems items)⟩
    | mapping tag entries => exact .pure ⟨rfl, .mapping tag (hentries entries)⟩
  isWhole_eq n t h := by rw [h]

/-- A context has the values that anchors refer to; there may be a limit only if there are any. -/
structure Context.Serves (c : Context) (anchors : List (Nat × Node)) (limited : Prop) : Prop where
  /-- the values are known -/
  lookup_eq : ∀ id n, anchors.lookup id = some n → c.anchors.lookup id = some n
  /-- only aliases are limited -/
  limited : anchors ≠ [] → limited

variable {anchors : List (Nat × Node)}

/-- A value that is no alias looks like what it spells. -/
theorem Spells.looks (h : Spells anchors n t) (hn : n.isAlias = false) :
    Looks (Spells anchors) n t := by
  cases n with
  | lost => exact absurd h not_spells_lost
  | absent =>
    obtain rfl := h.of_absent
    exact .absent
  | aliasOf id => cases hn
  | scalar tag plain text =>
    obtain rfl := h.of_scalar
    exact .scalar tag plain text
  | sequence tag items =>
    obtain ⟨ts, rfl, hts⟩ := h.of_sequence
    exact .sequence tag hts
  | mapping tag entries =>
    obtain ⟨ts, rfl, hts⟩ := h.of_mapping
    exact .mapping tag hts

/-- Nothing but an alias is followed. -/
theorem follow_of_not_isAlias (c : Context) (h : n.isAlias = false) : follow c n = pure n := by
  cases n with
  | aliasOf id => cases h
  | _ => rfl

/-- A node corresponds to the tree that it spells. -/
theorem corresponds_of_serves (hc : c.Serves anchors limited) :
    Corresponds c .bare limited (Spells anchors) where
  follow n t h := by
    rw [follow_of_not_isAlias .bare h.isAlias_eq]
    cases halias : n.isAlias with
    | false =>
      rw [follow_of_not_isAlias c halias]
      exact .pure ⟨h, h.looks halias⟩
    | true =>
      cases n with
      | aliasOf id =>
        obtain ⟨m, hm, hmalias, hspells⟩ := h.of_alias
        have hlimited : limited := hc.limited (by rintro rfl; cases hm)
        intro k k'
        change Outcomes limited _ (if k + 1 > c.limit then .error (.fault .repetition)
          else .ok ((c.anchors.lookup id).getD .lost, k + 1)) _
        split
        · exact .exhausted hlimited _
        · rw [hc.lookup_eq id m hm]
          exact .done ⟨hspells, hspells.looks hmalias⟩ _ _
      | _ => cases halias
  isWhole_eq n t h := h.isWhole.1.trans h.isWhole.2.symm

end JobLoom.Yaml
