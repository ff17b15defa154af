/-!
# Dictionaries

Finite maps from texts, kept in ascending order of their keys. A dictionary therefore has one form
only: two dictionaries with the same entries are equal, and they are shown in one order, whatever
the order in which the entries came.

* **insert** — the last value for a key stands;
* **merge** — of two dictionaries the second one wins.
-/

namespace JobLoom

/-- The keys come in strictly ascending order. -/
def Ascending {α : Type} (entries : List (String × α)) : Prop :=
  entries.Pairwise fun a b => a.1 < b.1

/-- A finite map from texts. -/
structure Dictionary (α : Type) where
  /-- the entries -/
  entries : List (String × α)
  /-- the entries are in order -/
  ascending : Ascending entries

namespace Dictionary

variable {α β : Type}

/-- Put an entry where it belongs among ascending ones. -/
def insertEntry (key : String) (value : α) : List (String × α) → List (String × α)
  | [] => [(key, value)]
  | e :: rest =>
    if key < e.1 then (key, value) :: e :: rest
    else if key = e.1 then (key, value) :: rest
    else e :: insertEntry key value rest

theorem mem_insertEntry {key : String} {value : α} {l : List (String × α)} {e : String × α}
    (h : e ∈ insertEntry key value l) : e = (key, value) ∨ e ∈ l := by
  induction l with
  | nil => simpa [insertEntry] using h
  | cons a rest ih =>
    unfold insertEntry at h
    split at h
    · simpa using h
    · split at h
      · rcases List.mem_cons.1 h with h | h
        · exact .inl h
        · exact .inr (List.mem_cons_of_mem _ h)
      · rcases List.mem_cons.1 h with h | h
        · exact .inr (h ▸ List.mem_cons_self)
        · exact (ih h).imp id (List.mem_cons_of_mem _)

/-- Insertion keeps the order. -/
theorem ascending_insertEntry {key : String} {value : α} {l : List (String × α)}
    (h : Ascending l) : Ascending (insertEntry key value l) := by
  induction l with
  | nil => simp [insertEntry, Ascending]
  | cons a rest ih =>
    obtain ⟨first, later⟩ := List.pairwise_cons.1 h
    unfold insertEntry
    split
    · next lt =>
      refine List.pairwise_cons.2 ⟨fun e he => ?_, h⟩
      rcases List.mem_cons.1 he with rfl | he
      · exact lt
      · exact String.lt_trans lt (first e he)
    · next nlt =>
      split
      · next eq => exact List.pairwise_cons.2 ⟨fun e he => by simpa [eq] using first e he, later⟩
      · next ne =>
        refine List.pairwise_cons.2 ⟨fun e he => ?_, ih later⟩
        rcases mem_insertEntry he with rfl | he
        · rcases Std.lt_trichotomy key a.1 with x | x | x
          · exact absurd x nlt
          · exact absurd x ne
          · exact x
        · exact first e he

/-- The dictionary without entries. -/
def empty : Dictionary α := ⟨[], List.Pairwise.nil⟩

instance : Inhabited (Dictionary α) := ⟨empty⟩

/-- Set the value for a key. -/
def insert (d : Dictionary α) (key : String) (value : α) : Dictionary α :=
  ⟨insertEntry key value d.entries, ascending_insertEntry d.ascending⟩

/-- Set the values for some keys, one after the other. -/
def insertMany (d : Dictionary α) (es : List (String × α)) : Dictionary α :=
  es.foldl (fun d e => d.insert e.1 e.2) d

/-- The dictionary with these entries; the last value for a key stands. -/
def ofList (es : List (String × α)) : Dictionary α := empty.insertMany es

/-- The value for a key. -/
def get? (d : Dictionary α) (key : String) : Option α := d.entries.lookup key

/-- There are no entries. -/
def isEmpty (d : Dictionary α) : Bool := d.entries.isEmpty

/-- Both dictionaries in one; the second one wins. -/
def merge (d e : Dictionary α) : Dictionary α := d.insertMany e.entries

/-- Change the values that can be changed and drop the others. -/
def filterMap (f : α → Option β) (d : Dictionary α) : Dictionary β where
  entries := d.entries.filterMap fun e => (f e.2).map fun v => (e.1, v)
  ascending := by
    refine List.pairwise_filterMap.2 (d.ascending.imp fun {a b} lt x hx y hy => ?_)
    obtain ⟨_, _, rfl⟩ := Option.map_eq_some_iff.1 hx
    obtain ⟨_, _, rfl⟩ := Option.map_eq_some_iff.1 hy
    exact lt

theorem ext {d e : Dictionary α} (h : d.entries = e.entries) : d = e := by
  cases d; cases e; cases h; rfl

instance [DecidableEq α] : DecidableEq (Dictionary α) := fun d e =>
  if h : d.entries = e.entries then isTrue (ext h) else isFalse fun eq => h (eq ▸ rfl)

end Dictionary

end JobLoom
