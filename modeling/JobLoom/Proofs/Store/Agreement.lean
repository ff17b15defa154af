import JobLoom.Proofs.Conversion.Independence
import JobLoom.Proofs.Conversion.Refusal
import JobLoom.Proofs.Store.Directory
import JobLoom.Store.Memory

/-!
# Stores that agree

The same entries, once in memory and once as files below a root. Whatever the authors of workflow
files write as runner labels, both stores lead to the same manifests.

* **Labels.** A label without a slash has the same key in memory as it has a file on disk. A label
  with a slash has no file, and in memory no entry, since no file name holds a slash.
* **What may differ** is how the stores find nothing: in memory an entry is missing, and reading a
  file can fail in other ways as well. Either way the descriptor is empty, so the difference goes no
  further than the wording of a warning.
-/

namespace JobLoom

/-! ## Answers that lead to the same -/

/-- Answers that are the same, but that one store may fail where the other one finds nothing. -/
inductive Answer.IsLike : Answer → Answer → Prop where
  /-- the same answer -/
  | same (a : Answer) : IsLike a a
  /-- nothing is found, in two ways -/
  | nothing (e : ConvertError) : IsLike .missing (.failed e)

/-- Warnings that are the same, but that one may say how a lookup failed. -/
inductive Warning.IsLike : Warning → Warning → Prop where
  /-- the same warning -/
  | same (w : Warning) : IsLike w w
  /-- nothing was found, in two ways -/
  | nothing (job key reason : String) : IsLike (.missing job key) (.lookupFailed job key reason)

/-- Resolutions with the same descriptor, and the like for a warning. -/
structure Resolution.IsLike (r r' : Resolution) : Prop where
  /-- the container is the same -/
  descriptor_eq : r.descriptor = r'.descriptor
  /-- both warn, or none of them -/
  warning : Option.Rel Warning.IsLike r.warning r'.warning

namespace Resolution

theorem IsLike.refl (r : Resolution) : r.IsLike r where
  descriptor_eq := rfl
  warning := by
    cases r.warning with
    | none => exact .none
    | some w => exact .some (.same w)

theorem isLike_of {id : String} {label : Option String} {a a' : Answer} (h : a.IsLike a') :
    (Resolution.of id label (some a)).IsLike (Resolution.of id label (some a')) := by
  cases h with
  | same => exact .refl _
  | nothing e =>
    cases label with
    | none => exact .refl _
    | some l => exact ⟨rfl, .some (.nothing id (storeKey l) e.message)⟩

end Resolution

namespace Converter

variable {c : Converter} {store store' : Store} {p : Pipeline}

/-- Two stores answer alike whenever a label is looked up. -/
def AnswersAlike (c : Converter) (store store' : Store) : Prop := ∀ label, ∃ a a',
  store c.space (storeKey label) = .answer a ∧ store' c.space (storeKey label) = .answer a' ∧
    a.IsLike a'

/-- With stores that answer alike, a job is resolved alike. -/
theorem isLike_resolution (h : c.AnswersAlike store store') (id : String) (j : Job) :
    (c.resolution store id j).IsLike (c.resolution store' id j) := by
  unfold resolution
  cases hlabel : j.label? with
  | none => exact .refl _
  | some label =>
    obtain ⟨a, a', ha, ha', hlike⟩ := h label
    rw [Option.bind_some, Option.bind_some, ha, ha']
    exact Resolution.isLike_of hlike

/-- With stores that answer alike, a job adds the same template. -/
theorem template_eq (h : c.AnswersAlike store store') (env : Dictionary String)
    (e : String × Job) : (c.part store env e).template = (c.part store' env e).template := by
  unfold part Template.ofJob
  dsimp only
  rw [(isLike_resolution h e.1 e.2).descriptor_eq]

/-- With stores that answer alike, a pipeline gets the same manifest, and the like for warnings. -/
theorem build_of_answersAlike (h : c.AnswersAlike store store') {x y : Conversion}
    (hx : c.build store p = .done x) (hy : c.build store' p = .done y) :
    x.manifest = y.manifest ∧ List.Forall₂ Warning.IsLike x.warnings y.warnings := by
  have hxparts := isMadeOf_of_build hx
  have hyparts := isMadeOf_of_build hy
  constructor
  · have htemplates : x.manifest.templates = y.manifest.templates := by
      rw [hxparts.templates_eq, hyparts.templates_eq]
      exact congrArg _ (List.map_congr_left fun e _ => template_eq h p.env e)
    -- apart from its templates a manifest is decided by the name of the pipeline
    obtain ⟨-, rs, -, rfl⟩ := build_eq_done_iff.1 hx
    obtain ⟨-, rs', -, rfl⟩ := build_eq_done_iff.1 hy
    exact congrArg (Manifest.named p.name) htemplates
  · rw [hxparts.warnings_eq, hyparts.warnings_eq]
    refine List.rel_filterMap (R := Eq) ?_ (List.forall₂_refl _)
    rintro e _ rfl
    exact (isLike_resolution h e.1 e.2).warning

end Converter

/-! ## The same entries in memory and on disk -/

namespace MemoryStore

variable {m : MemoryStore} {space key : String} {payload : List UInt8}

theorem mem_of_get? (h : m.get? space key = some payload) :
    ((space, key), payload) ∈ m.entries := by
  obtain ⟨before, after, hsplit, -⟩ := List.lookup_eq_some_iff.1 h
  rw [hsplit]
  exact List.mem_append_right _ List.mem_cons_self

theorem isSteady_toStore (m : MemoryStore) : m.toStore.IsSteady := fun _ _ => ⟨_, rfl⟩

end MemoryStore

namespace DirectoryStore

theorem isSteady_toStore (s : DirectoryStore) (read : String → Except FileFault (List UInt8)) :
    (s.toStore read).IsSteady := fun _ _ => ⟨_, rfl⟩

/-- The files below a root are the entries of a store in memory. -/
structure Mirrors (s : DirectoryStore) (read : String → Except FileFault (List UInt8))
    (m : MemoryStore) : Prop where
  /-- the namespaces and keys are file names -/
  names : ∀ e ∈ m.entries, Path.IsFileName e.1.1 ∧ Path.IsFileName e.1.2
  /-- every entry is a file -/
  kept : ∀ space key payload, m.get? space key = some payload →
    read (Path.join (Path.join s.root space) key) = .ok payload
  /-- there are no other files -/
  nothing_else : ∀ space key, Path.IsFileName space → Path.IsFileName key →
    m.get? space key = none → ∃ f, read (Path.join (Path.join s.root space) key) = .error f

variable {s : DirectoryStore} {m : MemoryStore}

/-- On a disk it is enough that the entries can be read, and that there is no other file two names
below the root. -/
theorem mirrors_of_disk {d : Disk}
    (hnames : ∀ e ∈ m.entries, Path.IsFileName e.1.1 ∧ Path.IsFileName e.1.2)
    (hkept : ∀ e ∈ m.entries, d.read (Path.join (Path.join s.root e.1.1) e.1.2) = .ok e.2)
    (helse : ∀ a b content,
      d.node? (Path.placeOf d.start s.root ++ [a, b]) = some (.file content) →
        m.get? a b ≠ none) : s.Mirrors d.read m where
  names := hnames
  kept space key payload h := hkept ((space, key), payload) (MemoryStore.mem_of_get? h)
  nothing_else space key hspace hkey hnone := by
    cases hread : d.read (Path.join (Path.join s.root space) key) with
    | error f => exact ⟨f, rfl⟩
    | ok content =>
      have hnode := Disk.node?_of_read hread
      rw [(isEntry_join (Path.components_of_isFileName hspace)
        (Path.components_of_isFileName hkey)).placeOf_eq] at hnode
      exact absurd hnone (helse space key content hnode)

variable {read : String → Except FileFault (List UInt8)} {space : String}

/-- A label with a slash finds nothing, neither in memory nor on disk. -/
theorem toStore_of_slash (h : s.Mirrors read m) (hspace : Path.IsFileName space) {label : String}
    (hslash : '/' ∈ label.toList) :
    m.toStore space (storeKey label) = .answer .missing ∧
      s.toStore read space (storeKey label) = .answer .missing := by
  have hplain := Path.isPlain_iff.2 ⟨_, Path.components_of_isFileName hspace⟩
  constructor
  · cases hget : m.get? space (storeKey label) with
    | none => simp only [MemoryStore.toStore, hget]
    | some payload =>
      -- an entry would have a file name as its key
      have hkey := (h.names _ (MemoryStore.mem_of_get? hget)).2
      have hmem : '/' ∈ (storeKey label).toList := by
        rw [storeKey, String.toList_append]
        exact List.mem_append_left _ hslash
      exact absurd hmem hkey.slash_not_mem
  · refine toStore_of_none read (Option.eq_none_iff_forall_ne_some.2 fun path hpath => ?_)
    exact (exists_entryPath?_iff hplain).1 ⟨path, hpath⟩ hslash

/-- A label without a slash finds on disk what it finds in memory. -/
theorem toStore_of_no_slash (h : s.Mirrors read m) (hspace : Path.IsFileName space)
    {label : String} (hslash : '/' ∉ label.toList) :
    ∃ a a', m.toStore space (storeKey label) = .answer a ∧
      s.toStore read space (storeKey label) = .answer a' ∧ a.IsLike a' := by
  have hkey := isFileName_storeKey hslash
  have hpath : s.entryPath? space (storeKey label) =
      some (Path.join (Path.join s.root space) (storeKey label)) :=
    entryPath?_eq_some_iff.2 ⟨Path.isPlain_iff.2 ⟨_, Path.components_of_isFileName hspace⟩,
      Path.isPlain_iff.2 ⟨_, Path.components_of_isFileName hkey⟩, rfl⟩
  refine ⟨_, _, rfl, reads_of_some hpath read, ?_⟩
  cases hget : m.get? space (storeKey label) with
  | some payload =>
    rw [h.kept _ _ _ hget]
    exact .same _
  | none =>
    obtain ⟨f, hf⟩ := h.nothing_else _ _ hspace hkey hget
    rw [hf]
    cases f with
    | missing => exact .same _
    | notDirectory => exact .nothing _
    | isDirectory => exact .nothing _
    | nameTooLong => exact .nothing _
    | nulInPath => exact .nothing _
    | other text => exact .nothing _

/-- The same entries are answered alike. -/
theorem answersAlike (h : s.Mirrors read m) {c : Converter} (hspace : Path.IsFileName c.space) :
    c.AnswersAlike m.toStore (s.toStore read) := by
  intro label
  by_cases hslash : '/' ∈ label.toList
  · obtain ⟨hm, hs⟩ := toStore_of_slash h hspace hslash
    exact ⟨_, _, hm, hs, .same _⟩
  · exact toStore_of_no_slash h hspace hslash

/-- **The stores agree.** With entries whose namespaces and keys are file names, and with a
namespace that is one, every workflow file is converted alike whether the entries are in memory or
the files below a root: both conversions fail with the same error, or both succeed with the same
manifest in the same format, and with the same warnings but for how a lookup found nothing. -/
theorem converts_as_memory (h : s.Mirrors read m) (c : Converter)
    (hspace : Path.IsFileName c.space) (bytes : List UInt8) :
    (∃ e, c.convert m.toStore bytes = .failed e ∧ c.convert (s.toStore read) bytes = .failed e) ∨
      ∃ o o', c.convert m.toStore bytes = .done o ∧ c.convert (s.toStore read) bytes = .done o' ∧
        o.payload = o'.payload ∧ o.format = o'.format ∧
          List.Forall₂ Warning.IsLike o.warnings o'.warnings := by
  cases hplan : Plan.ofBytes bytes with
  | error e =>
    exact .inl ⟨e, Converter.convert_of_error hplan, Converter.convert_of_error hplan⟩
  | ok plan =>
    obtain ⟨p, -, hp⟩ := Converter.exists_pipeline_of_plan hplan
    obtain ⟨answers, ha⟩ := c.exists_ask_eq_ok m.isSteady_toStore plan.keys
    obtain ⟨answers', ha'⟩ := c.exists_ask_eq_ok (s.isSteady_toStore read) plan.keys
    obtain ⟨hmanifest, hwarnings⟩ := Converter.build_of_answersAlike (answersAlike h hspace)
      (Converter.build_of_answers hp ha) (Converter.build_of_answers hp ha')
    refine .inr ⟨_, _, Converter.convert_of_answers hplan ha,
      Converter.convert_of_answers hplan ha', ?_, rfl, hwarnings⟩
    exact congrArg (Manifest.render · c.format) hmanifest

/-- Labels that lead up, across and to a directory, with a file where the first one points. -/
theorem converts_as_memory_odd_labels :
    let m := (MemoryStore.empty.insert "argo" "gpu.yaml" "image: cuda".toUTF8.toList).insert
      "other" "gpu.yaml" "image: none".toUTF8.toList
    let s : DirectoryStore := ⟨"store"⟩
    let d : Disk := ⟨[(["store"], .directory), (["secret.yaml"], .file []),
      (["store", "argo"], .directory), (["store", "other"], .directory),
      (["store", "argo", "gpu.yaml"], .file "image: cuda".toUTF8.toList),
      (["store", "other", "gpu.yaml"], .file "image: none".toUTF8.toList),
      (["store", "argo", "all.yaml"], .directory)], []⟩
    let source := ("jobs:\n  a: {runs-on: ../../secret}\n  b: {runs-on: ../other/gpu}\n" ++
      "  c: {runs-on: ./gpu}\n  d: {runs-on: all}\n  e: {runs-on: gpu}\n  f:\n" ++
      "    runs-on: \"\"\n").toUTF8.toList
    s.Mirrors d.read m ∧ Path.IsFileName Converter.standard.space ∧
      ∃ o o', Converter.standard.convert m.toStore source = .done o ∧
        Converter.standard.convert (s.toStore d.read) source = .done o' ∧ o.payload = o'.payload ∧
          List.Forall₂ Warning.IsLike o.warnings o'.warnings := by
  intro m s d source
  have hspace : Path.IsFileName "argo" := ⟨by decide, by decide, by decide, by decide⟩
  have hother : Path.IsFileName "other" := ⟨by decide, by decide, by decide, by decide⟩
  have hkey : Path.IsFileName "gpu.yaml" := ⟨by decide, by decide, by decide, by decide⟩
  have hm : s.Mirrors d.read m := by
    refine mirrors_of_disk ?_ (by decide +kernel) ?_
    · intro e he
      rcases List.mem_cons.1 he with rfl | he
      · exact ⟨hother, hkey⟩
      · obtain rfl := List.mem_singleton.1 he
        exact ⟨hspace, hkey⟩
    · intro a b content hnode
      have hfile : (a = "argo" ∨ a = "other") ∧ b = "gpu.yaml" := by
        have hmem := Disk.mem_of_node?_file hnode
        have hplace : Path.placeOf d.start s.root = ["store"] := by decide +kernel
        rw [hplace] at hmem
        simp only [d, List.mem_cons, Prod.mk.injEq] at hmem
        grind
      obtain ⟨rfl | rfl, rfl⟩ := hfile <;> decide
  have hchecks : (Plan.ofBytes source).toOption.isSome := by decide +kernel
  refine ⟨hm, hspace, ?_⟩
  rcases converts_as_memory hm Converter.standard hspace source with
    ⟨e, hfailed, -⟩ | ⟨o, o', ho, ho', hpayload, -, hwarnings⟩
  · rw [(Converter.standard.convert_eq_failed_iff m.isSteady_toStore).1 hfailed] at hchecks
    cases hchecks
  · exact ⟨o, o', ho, ho', hpayload, hwarnings⟩

end DirectoryStore

end JobLoom
