import Mathlib.Data.List.Forall2
import JobLoom.Yaml.Node

/-!
# Trees that documents spell

A document with aliases stands for a tree without any: every alias stands for the value that it
refers to. The tree is what an author means; aliases are one way to write it.

* **Spelling.** A node spells a tree if its aliases can be replaced, one by one, until none is left.
  A value with an alias to itself spells none, and neither does a broken document.
* **Trees** have no aliases and no lost parts.
-/

namespace JobLoom.Yaml

variable {α β : Type}

/-- A list of values is had exactly if each of them is. -/
theorem mapM_eq_some_iff {f : α → Option β} {xs : List α} {ys : List β} :
    xs.mapM f = some ys ↔ List.Forall₂ (fun x y => f x = some y) xs ys := by
  induction xs generalizing ys with
  | nil =>
    rw [List.mapM_nil, List.forall₂_nil_left_iff]
    exact ⟨fun h => (Option.some.inj h).symm, fun h => congrArg some h.symm⟩
  | cons x rest ih =>
    rw [List.mapM_cons, List.forall₂_cons_left_iff]
    constructor
    · intro h
      obtain ⟨y, hy, h⟩ := Option.bind_eq_some_iff.1 h
      obtain ⟨ys', hys', h⟩ := Option.bind_eq_some_iff.1 h
      exact ⟨y, ys', hy, ih.1 hys', (Option.some.inj h).symm⟩
    · rintro ⟨y, ys', hy, hys', rfl⟩
      rw [hy, ih.2 hys']
      rfl

/-- What comes first in some pair has what all such pairs have. -/
theorem forall_mem_left {R : α → β → Prop} {P : α → Prop} {xs : List α} {ys : List β}
    (h : List.Forall₂ R xs ys) (hP : ∀ x y, R x y → P x) : ∀ x ∈ xs, P x := by
  induction h with
  | nil => exact fun x hx => absurd hx List.not_mem_nil
  | cons hxy _ ih =>
    intro x hx
    rcases List.mem_cons.1 hx with rfl | hx
    · exact hP _ _ hxy
    · exact ih x hx

namespace Node

/-- The node is an alias. -/
def isAlias : Node → Bool
  | .aliasOf _ => true
  | _ => false

/-- Both parts of an entry, if both can be had. -/
def both? (f : Node → Option Node) (e : Node × Node) : Option (Node × Node) := do
  let k ← f e.1
  let v ← f e.2
  return (k, v)

theorem both?_eq_some_iff {f : Node → Option Node} {e e' : Node × Node} :
    both? f e = some e' ↔ f e.1 = some e'.1 ∧ f e.2 = some e'.2 := by
  constructor
  · intro h
    obtain ⟨k, hk, h⟩ := Option.bind_eq_some_iff.1 h
    obtain ⟨v, hv, h⟩ := Option.bind_eq_some_iff.1 h
    obtain rfl := Option.some.inj h
    exact ⟨hk, hv⟩
  · rintro ⟨hk, hv⟩
    unfold both?
    rw [hk, hv]
    rfl

/-- The tree that a node stands for, given the values that have an anchor. The count bounds the
levels and the aliases that are followed on the way down. -/
def tree? (anchors : List (Nat × Node)) : Nat → Node → Option Node
  | 0, _ => none
  | _ + 1, .lost => none
  | _ + 1, .absent => some .absent
  | k + 1, .aliasOf id =>
    match anchors.lookup id with
    | some n => if n.isAlias then none else tree? anchors k n
    | none => none
  | _ + 1, .scalar tag plain text => some (.scalar tag plain text)
  | k + 1, .sequence tag items => (items.mapM (tree? anchors k)).map (.sequence tag)
  | k + 1, .mapping tag entries => (entries.mapM (both? (tree? anchors k))).map (.mapping tag)

end Node

/-- Both parts of an entry belong to those of another one. -/
def OnEntry (T : Node → Node → Prop) (e e' : Node × Node) : Prop := T e.1 e'.1 ∧ T e.2 e'.2

/-- A node spells a tree. -/
def Spells (anchors : List (Nat × Node)) (n t : Node) : Prop := ∃ k, n.tree? anchors k = some t

variable {anchors : List (Nat × Node)} {n t : Node}

/-! ## What stands where -/

/-- An alias stands for the value that it refers to. -/
theorem Spells.of_alias {id : Nat} (h : Spells anchors (.aliasOf id) t) :
    ∃ n, anchors.lookup id = some n ∧ n.isAlias = false ∧ Spells anchors n t := by
  obtain ⟨k, hk⟩ := h
  cases k with
  | zero => cases hk
  | succ k =>
    unfold Node.tree? at hk
    split at hk
    · next n hn =>
      split at hk
      · cases hk
      · next halias => exact ⟨n, hn, Bool.eq_false_iff.2 halias, k, hk⟩
    · cases hk

theorem Spells.of_scalar {tag : Option String} {plain : Bool} {text : String}
    (h : Spells anchors (.scalar tag plain text) t) : t = .scalar tag plain text := by
  obtain ⟨k, hk⟩ := h
  cases k with
  | zero => cases hk
  | succ k => exact (Option.some.inj hk).symm

theorem Spells.of_absent (h : Spells anchors .absent t) : t = .absent := by
  obtain ⟨k, hk⟩ := h
  cases k with
  | zero => cases hk
  | succ k => exact (Option.some.inj hk).symm

/-- What is lost stands for nothing. -/
theorem not_spells_lost : ¬ Spells anchors .lost t := by
  rintro ⟨k, hk⟩
  cases k <;> cases hk

/-- The items of a sequence stand for the items of its tree. -/
theorem Spells.of_sequence {tag : Option String} {items : List Node}
    (h : Spells anchors (.sequence tag items) t) :
    ∃ ts, t = .sequence tag ts ∧ List.Forall₂ (Spells anchors) items ts := by
  obtain ⟨k, hk⟩ := h
  cases k with
  | zero => cases hk
  | succ k =>
    obtain ⟨ts, hts, rfl⟩ := Option.map_eq_some_iff.1 hk
    exact ⟨ts, rfl, (mapM_eq_some_iff.1 hts).imp fun n t h => ⟨k, h⟩⟩

/-- The entries of a mapping stand for the entries of its tree. -/
theorem Spells.of_mapping {tag : Option String} {entries : List (Node × Node)}
    (h : Spells anchors (.mapping tag entries) t) :
    ∃ ts, t = .mapping tag ts ∧ List.Forall₂ (OnEntry (Spells anchors)) entries ts := by
  obtain ⟨k, hk⟩ := h
  cases k with
  | zero => cases hk
  | succ k =>
    obtain ⟨ts, hts, rfl⟩ := Option.map_eq_some_iff.1 hk
    refine ⟨ts, rfl, (mapM_eq_some_iff.1 hts).imp fun e e' h => ?_⟩
    obtain ⟨hkey, hvalue⟩ := Node.both?_eq_some_iff.1 h
    exact ⟨⟨k, hkey⟩, k, hvalue⟩

/-! ## Completeness -/

theorem areWhole_of_forall {items : List Node} (h : ∀ n ∈ items, n.isWhole = true) :
    areWhole items = true := by
  induction items with
  | nil => rfl
  | cons n rest ih =>
    rw [areWhole, h n List.mem_cons_self, ih fun n hn => h n (List.mem_cons_of_mem _ hn)]
    rfl

theorem arePairsWhole_of_forall {entries : List (Node × Node)}
    (h : ∀ e ∈ entries, e.1.isWhole = true ∧ e.2.isWhole = true) :
    arePairsWhole entries = true := by
  induction entries with
  | nil => rfl
  | cons e rest ih =>
    obtain ⟨hkey, hvalue⟩ := h e List.mem_cons_self
    rw [arePairsWhole, ih fun e he => h e (List.mem_cons_of_mem _ he), isPairWhole, hkey, hvalue]
    rfl

/-- A node that spells a tree has no lost part, and neither has the tree. -/
theorem Spells.isWhole (h : Spells anchors n t) : n.isWhole = true ∧ t.isWhole = true := by
  obtain ⟨k, hk⟩ := h
  induction k generalizing n t with
  | zero => cases hk
  | succ k ih =>
    cases n with
    | lost => cases hk
    | absent => cases hk; exact ⟨rfl, rfl⟩
    | scalar tag plain text => cases hk; exact ⟨rfl, rfl⟩
    | aliasOf id =>
      unfold Node.tree? at hk
      split at hk
      · split at hk
        · cases hk
        · exact ⟨rfl, (ih hk).2⟩
      · cases hk
    | sequence tag items =>
      obtain ⟨ts, hts, rfl⟩ := Option.map_eq_some_iff.1 hk
      have hitems := mapM_eq_some_iff.1 hts
      exact ⟨areWhole_of_forall (forall_mem_left hitems fun n t h => (ih h).1),
        areWhole_of_forall (forall_mem_left hitems.flip fun t n h => (ih h).2)⟩
    | mapping tag entries =>
      obtain ⟨ts, hts, rfl⟩ := Option.map_eq_some_iff.1 hk
      have hentries := (mapM_eq_some_iff.1 hts).imp fun e e' => Node.both?_eq_some_iff.1
      exact ⟨arePairsWhole_of_forall
          (forall_mem_left hentries fun e e' h => ⟨(ih h.1).1, (ih h.2).1⟩),
        arePairsWhole_of_forall
          (forall_mem_left hentries.flip fun e' e h => ⟨(ih h.1).2, (ih h.2).2⟩)⟩

theorem Spells.isAlias_eq (h : Spells anchors n t) : t.isAlias = false := by
  obtain ⟨k, hk⟩ := h
  induction k generalizing n t with
  | zero => cases hk
  | succ k ih =>
    cases n with
    | lost => cases hk
    | absent => cases hk; rfl
    | scalar tag plain text => cases hk; rfl
    | aliasOf id =>
      unfold Node.tree? at hk
      split at hk
      · split at hk
        · cases hk
        · exact ih hk
      · cases hk
    | sequence tag items =>
      obtain ⟨ts, -, rfl⟩ := Option.map_eq_some_iff.1 hk
      rfl
    | mapping tag entries =>
      obtain ⟨ts, -, rfl⟩ := Option.map_eq_some_iff.1 hk
      rfl

/-! ## Trees -/

/-- With a higher bound the tree is the same. -/
theorem Node.tree?_succ {k : Nat} (h : n.tree? anchors k = some t) :
    n.tree? anchors (k + 1) = some t := by
  induction k generalizing n t with
  | zero => cases h
  | succ k ih =>
    cases n with
    | lost => cases h
    | absent => exact h
    | scalar tag plain text => exact h
    | aliasOf id =>
      unfold Node.tree? at h ⊢
      split at h
      · split at h
        · cases h
        · next halias =>
          rw [if_neg halias]
          exact ih h
      · cases h
    | sequence tag items =>
      obtain ⟨ts, hts, rfl⟩ := Option.map_eq_some_iff.1 h
      have hmore := (mapM_eq_some_iff.1 hts).imp fun n t => ih
      exact Option.map_eq_some_iff.2 ⟨ts, mapM_eq_some_iff.2 hmore, rfl⟩
    | mapping tag entries =>
      obtain ⟨ts, hts, rfl⟩ := Option.map_eq_some_iff.1 h
      have hmore := (mapM_eq_some_iff.1 hts).imp fun e e' he =>
        have hboth := Node.both?_eq_some_iff.1 he
        Node.both?_eq_some_iff.2 ⟨ih hboth.1, ih hboth.2⟩
      exact Option.map_eq_some_iff.2 ⟨ts, mapM_eq_some_iff.2 hmore, rfl⟩

/-- What is spelled is a tree: it stands for itself, without anchors. -/
theorem Spells.self (h : Spells anchors n t) : Spells [] t t := by
  obtain ⟨k, hk⟩ := h
  refine ⟨k, ?_⟩
  induction k generalizing n t with
  | zero => cases hk
  | succ k ih =>
    cases n with
    | lost => cases hk
    | absent => cases hk; rfl
    | scalar tag plain text => cases hk; rfl
    | aliasOf id =>
      unfold Node.tree? at hk
      split at hk
      · split at hk
        · cases hk
        · exact Node.tree?_succ (ih hk)
      · cases hk
    | sequence tag items =>
      obtain ⟨ts, hts, rfl⟩ := Option.map_eq_some_iff.1 hk
      have hself : ∀ t ∈ ts, t.tree? [] k = some t :=
        forall_mem_left (mapM_eq_some_iff.1 hts).flip fun t n => ih
      exact Option.map_eq_some_iff.2
        ⟨ts, mapM_eq_some_iff.2 (List.forall₂_same.2 hself), rfl⟩
    | mapping tag entries =>
      obtain ⟨ts, hts, rfl⟩ := Option.map_eq_some_iff.1 hk
      have hself : ∀ e ∈ ts, Node.both? (Node.tree? [] k) e = some e :=
        forall_mem_left (mapM_eq_some_iff.1 hts).flip fun e' e he =>
          have hboth := Node.both?_eq_some_iff.1 he
          Node.both?_eq_some_iff.2 ⟨ih hboth.1, ih hboth.2⟩
      exact Option.map_eq_some_iff.2
        ⟨ts, mapM_eq_some_iff.2 (List.forall₂_same.2 hself), rfl⟩

end JobLoom.Yaml
