import JobLoom.Environment.Resolve
import JobLoom.Proofs.Files.Path
import JobLoom.Store.Directory

/-!
# Lookups that stay in their directory

A store in a directory reads the file of an entry and no other. What an author writes as a runner
label ends up in the path of that file, so it must not lead anywhere else.

* **Containment.** The path of an entry goes through all that the root goes through, and then
  through two file names. So nothing is read outside the root or above the directory of a namespace,
  and what is found is a file two names below the root.
* **Labels.** In a plain namespace a label leads to a file exactly if it holds no slash, and no two
  labels lead to the same one.
-/

namespace JobLoom

/-! ## The keys of labels -/

theorem isFileName_storeKey {label : String} (h : '/' ∉ label.toList) :
    Path.IsFileName (storeKey label) := by
  have hlist : (storeKey label).toList = label.toList ++ ".yaml".toList := String.toList_append
  have hlength : 5 ≤ (storeKey label).toList.length := by
    rw [hlist, List.length_append]
    exact Nat.le_add_left 5 _
  refine ⟨?_, ?_, ?_, ?_⟩
  · exact fun heq => absurd hlength (by rw [heq]; decide)
  · exact fun heq => absurd hlength (by rw [heq]; decide)
  · exact fun heq => absurd hlength (by rw [heq]; decide)
  · rw [hlist, List.mem_append, not_or]
    exact ⟨h, by decide⟩

/-- The key of a label with a slash goes through more than one name. -/
theorem isPlain_storeKey_of_slash {label : String} (h : '/' ∈ label.toList) :
    Path.isPlain (storeKey label) = false := by
  obtain ⟨before, after, hsplit⟩ := List.append_of_mem h
  have hpieces : Path.pieces (storeKey label).toList =
      Path.pieces before ++ Path.pieces (after ++ ".yaml".toList) := by
    have hlist : (storeKey label).toList = label.toList ++ ".yaml".toList := String.toList_append
    rw [hlist, hsplit, List.append_assoc]
    exact Path.pieces_append _ _
  rw [Bool.eq_false_iff, ne_eq, Path.isPlain_iff]
  rintro ⟨a, ha⟩
  obtain ⟨hlead, hnames⟩ := Path.components_eq_singleton_iff.1 ha
  rw [hpieces, Path.lead_append (Path.pieces_ne_nil before)] at hlead
  rw [hpieces, List.filterMap_append] at hnames
  -- the end of the key stands for a name, so nothing is left for what is in front of the slash
  have hend : (Path.pieces (after ++ ".yaml".toList)).filterMap Path.component? ≠ [] := by
    intro hnil
    obtain ⟨p, hp⟩ := Path.exists_mem_pieces_append after (t := ".yaml".toList) (by decide)
    rcases Path.component?_eq_none_iff.1 (List.filterMap_eq_nil_iff.1 hnil _ hp) with heq | heq
    · exact absurd heq (by simp)
    · have hlength := congrArg List.length heq
      rw [List.length_append] at hlength
      change _ + 5 = 1 at hlength
      omega
  have hbefore : (Path.pieces before).filterMap Path.component? = [] := by
    rcases List.append_eq_singleton_iff.1 hnames with ⟨hnil, -⟩ | ⟨-, hnil⟩
    · exact hnil
    · exact absurd hnil hend
  exact Path.pieces_ne_nil before (Path.eq_nil_of_lead hlead hbefore)

/-- The key of a label is plain exactly if the label holds no slash. -/
theorem isPlain_storeKey_iff {label : String} :
    Path.isPlain (storeKey label) = true ↔ '/' ∉ label.toList := by
  constructor
  · intro h hslash
    rw [isPlain_storeKey_of_slash hslash] at h
    cases h
  · intro h
    exact Path.isPlain_iff.2 ⟨_, Path.components_of_isFileName (isFileName_storeKey h)⟩

theorem storeKey_inj {label label' : String} : storeKey label = storeKey label' ↔ label = label' := by
  refine ⟨fun h => String.toList_inj.1 ?_, congrArg storeKey⟩
  have hlist := congrArg String.toList h
  unfold storeKey at hlist
  rw [String.toList_append, String.toList_append] at hlist
  exact List.append_cancel_right hlist

namespace DirectoryStore

/-! ## The files of entries -/

/-- A path leads from the root of a store by two file names to an entry. -/
structure IsEntry (s : DirectoryStore) (path a b : String) : Prop where
  /-- the name of the directory -/
  space : Path.IsFileName a
  /-- the name of the file -/
  key : Path.IsFileName b
  /-- the path goes through the root, the directory and the file -/
  components_eq : Path.components path = Path.components s.root ++ [.name a, .name b]
  /-- wherever the root is, the file is two names below it -/
  placeOf_eq : ∀ start, Path.placeOf start path = Path.placeOf start s.root ++ [a, b]

/-- A lookup reads the file under this path, and answers with what is in it. -/
def Reads (s : DirectoryStore) (space key path : String) : Prop :=
  ∀ read, s.toStore read space key = .answer (answerOf space key (read path))

variable {s : DirectoryStore} {space key path : String}

/-- There is a path exactly for plain texts. -/
theorem entryPath?_eq_some_iff : s.entryPath? space key = some path ↔
    Path.isPlain space = true ∧ Path.isPlain key = true ∧
      path = Path.join (Path.join s.root space) key := by
  unfold entryPath?
  split
  · next h =>
    rw [Bool.and_eq_true] at h
    rw [Option.some.injEq]
    exact ⟨fun heq => ⟨h.1, h.2, heq.symm⟩, fun h => h.2.2.symm⟩
  · next h =>
    rw [Bool.and_eq_true] at h
    exact ⟨fun hno => (by cases hno), fun hyes => absurd ⟨hyes.1, hyes.2.1⟩ h⟩

/-- The path for two plain texts leads to an entry: each of the texts adds one name. -/
theorem isEntry_join {a b : String} (hspace : Path.components space = [.name a])
    (hkey : Path.components key = [.name b]) :
    s.IsEntry (Path.join (Path.join s.root space) key) a b where
  space := Path.isFileName_of_mem_components (hspace ▸ List.mem_singleton_self _)
  key := Path.isFileName_of_mem_components (hkey ▸ List.mem_singleton_self _)
  components_eq := by
    rw [Path.components_join _ hkey, Path.components_join _ hspace, List.append_assoc]
    rfl
  placeOf_eq start := by
    rw [Path.placeOf_join start _ hkey, Path.placeOf_join start _ hspace, List.append_assoc]
    rfl

/-- A path for a namespace and a key leads to an entry. -/
theorem isEntry_of_entryPath? (h : s.entryPath? space key = some path) :
    ∃ a b, s.IsEntry path a b := by
  obtain ⟨hspace, hkey, rfl⟩ := entryPath?_eq_some_iff.1 h
  obtain ⟨a, ha⟩ := Path.isPlain_iff.1 hspace
  obtain ⟨b, hb⟩ := Path.isPlain_iff.1 hkey
  exact ⟨a, b, isEntry_join ha hb⟩

theorem toStore_of_none (read : String → Except FileFault (List UInt8))
    (h : s.entryPath? space key = none) : s.toStore read space key = .answer .missing := by
  unfold toStore
  rw [h]

/-- With a path, its file is read. -/
theorem reads_of_some (h : s.entryPath? space key = some path) : s.Reads space key path := by
  intro read
  unfold toStore
  rw [h]

/-- A lookup reads the file under the path of its entry, if it has one, and no other. -/
theorem reads_iff : s.Reads space key path ↔ s.entryPath? space key = some path := by
  refine ⟨fun h => ?_, reads_of_some⟩
  -- a disk on which only this file can be read tells whether it is the one
  let only : String → Except FileFault (List UInt8) := fun p =>
    if p = path then .ok [] else .error .missing
  have honly : s.toStore only space key = .answer (.found []) := by
    rw [h only]
    simp only [only, if_pos rfl, answerOf]
  cases hpath : s.entryPath? space key with
  | none =>
    rw [toStore_of_none only hpath] at honly
    cases honly
  | some path' =>
    rw [reads_of_some hpath only] at honly
    by_cases heq : path' = path
    · rw [heq]
    · simp only [only, if_neg heq, answerOf] at honly
      cases honly

/-- What is found on a disk is a file two names below the root. -/
theorem node?_of_found {d : Disk} {payload : List UInt8}
    (h : s.toStore d.read space key = .answer (.found payload)) :
    ∃ a b, Path.IsFileName a ∧ Path.IsFileName b ∧
      d.node? (Path.placeOf d.start s.root ++ [a, b]) = some (.file payload) := by
  cases hpath : s.entryPath? space key with
  | none =>
    rw [toStore_of_none d.read hpath] at h
    cases h
  | some path =>
    rw [reads_of_some hpath d.read] at h
    obtain ⟨a, b, hentry⟩ := isEntry_of_entryPath? hpath
    refine ⟨a, b, hentry.space, hentry.key, ?_⟩
    rw [← hentry.placeOf_eq]
    cases hread : d.read path with
    | error f => cases f <;> rw [hread] at h <;> cases h
    | ok content =>
      rw [hread] at h
      cases h
      exact Disk.node?_of_read hread

/-- Stores with one root cannot be told apart if all files of entries read the same. -/
theorem toStore_congr {read read' : String → Except FileFault (List UInt8)}
    (h : ∀ path a b, s.IsEntry path a b → read path = read' path) :
    s.toStore read = s.toStore read' := by
  funext space key
  cases hpath : s.entryPath? space key with
  | none => rw [toStore_of_none read hpath, toStore_of_none read' hpath]
  | some path =>
    obtain ⟨a, b, hentry⟩ := isEntry_of_entryPath? hpath
    rw [reads_of_some hpath read, reads_of_some hpath read', h path a b hentry]

/-! ## Labels -/

/-- The file for a label in a plain namespace goes by the key of the label. -/
theorem components_of_label {label : String}
    (h : s.entryPath? space (storeKey label) = some path) :
    ∃ a, Path.components path = Path.components s.root ++ [.name a, .name (storeKey label)] := by
  obtain ⟨hspace, hkey, rfl⟩ := entryPath?_eq_some_iff.1 h
  obtain ⟨a, ha⟩ := Path.isPlain_iff.1 hspace
  have hb := Path.components_of_isFileName (isFileName_storeKey (isPlain_storeKey_iff.1 hkey))
  exact ⟨a, (isEntry_join ha hb).components_eq⟩

/-- In a plain namespace a label leads to a file exactly if it holds no slash. -/
theorem exists_entryPath?_iff {label : String} (hspace : Path.isPlain space = true) :
    (∃ path, s.entryPath? space (storeKey label) = some path) ↔ '/' ∉ label.toList := by
  simp only [entryPath?_eq_some_iff, hspace, isPlain_storeKey_iff, true_and, exists_and_left,
    exists_eq, and_true]

/-- Labels that lead to the same file are the same. -/
theorem label_inj {label label' path' : String}
    (h : s.entryPath? space (storeKey label) = some path)
    (h' : s.entryPath? space (storeKey label') = some path')
    (heq : Path.components path = Path.components path') : label = label' := by
  obtain ⟨a, ha⟩ := components_of_label h
  obtain ⟨a', ha'⟩ := components_of_label h'
  rw [ha, ha', List.append_cancel_left_eq] at heq
  injection heq with _ hkeys
  injection hkeys with hkeys _
  injection hkeys with hkeys
  exact storeKey_inj.1 hkeys

/-- **No lookup leaves its directory.** The path for a namespace and a key goes through all that the
root goes through and then through two file names. Only the files under such paths have a say in
what a store answers, and what it finds on a disk is a file two names below the root. In a plain
namespace, a label makes the store read a file exactly if it holds no slash; otherwise nothing is
read and nothing found. No two labels lead to the same file. -/
theorem lookups_stay_inside (s : DirectoryStore) :
    (∀ space key path, s.entryPath? space key = some path → ∃ a b, s.IsEntry path a b) ∧
      (∀ read read', (∀ path a b, s.IsEntry path a b → read path = read' path) →
        s.toStore read = s.toStore read') ∧
      (∀ (d : Disk) space key payload, s.toStore d.read space key = .answer (.found payload) →
        ∃ a b, Path.IsFileName a ∧ Path.IsFileName b ∧
          d.node? (Path.placeOf d.start s.root ++ [a, b]) = some (.file payload)) ∧
      ∀ space, Path.isPlain space = true →
        (∀ label, (∃ path, s.Reads space (storeKey label) path) ↔ '/' ∉ label.toList) ∧
        (∀ label, '/' ∈ label.toList →
          ∀ read, s.toStore read space (storeKey label) = .answer .missing) ∧
        ∀ label label' path path', s.Reads space (storeKey label) path →
          s.Reads space (storeKey label') path' →
          Path.components path = Path.components path' → label = label' := by
  refine ⟨fun space key path => isEntry_of_entryPath?, fun read read' => toStore_congr,
    fun d space key payload => node?_of_found, fun space hspace => ⟨fun label => ?_,
      fun label hslash read => toStore_of_none read ?_, fun label label' path path' h h' => ?_⟩⟩
  · simp only [reads_iff]
    exact exists_entryPath?_iff hspace
  · refine Option.eq_none_iff_forall_ne_some.2 fun path hpath => ?_
    exact (exists_entryPath?_iff hspace).1 ⟨path, hpath⟩ hslash
  · exact label_inj (reads_iff.1 h) (reads_iff.1 h')

/-- A root that goes up and a namespace with a slash behind it: the path still has two more names. -/
example : (⟨"../store/"⟩ : DirectoryStore).entryPath? "argo/." "gpu.yaml" =
    some "../store/argo/./gpu.yaml" := by decide

/-- A label with a slash leads nowhere. -/
example : (⟨"store"⟩ : DirectoryStore).entryPath? "argo" (storeKey "../secret") = none := by decide

end DirectoryStore

end JobLoom
