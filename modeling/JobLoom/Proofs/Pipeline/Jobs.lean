import Mathlib.Logic.Relation
import JobLoom.Proofs.Conversion.Refusal
import JobLoom.Proofs.Pipeline.Forms

/-!
# Jobs that are kept

No job is lost on the way from a workflow file to a pipeline, and none takes the place of another.

* **One for one.** The entries of `jobs` and the jobs of the pipeline go together in order, repeated
  ids included. A job is what its own entry says, and a job without content is an empty one.
* **Edits that mean nothing** put in or take out entries with unknown keys, or reorder the entries,
  at the top level, in a job or in a step. They leave the pipeline as it is.
* **Repeated ids** are refused by the checks, since both jobs are there to be seen.
-/

namespace JobLoom

open Yaml

/-! ## Edits that mean nothing -/

/-- Edits of a step that mean nothing. -/
inductive StepEdit : Node → Node → Prop where
  /-- among its fields -/
  | fields (tag : Option String) {es es' : List (Node × Node)}
    (h : RecordEdit Step.fieldNames es es') : StepEdit (.mapping tag es) (.mapping tag es')

/-- Edits of a job that mean nothing. -/
inductive JobEdit : Node → Node → Prop where
  /-- among its fields -/
  | fields (tag : Option String) {es es' : List (Node × Node)}
    (h : RecordEdit Job.fieldNames es es') : JobEdit (.mapping tag es) (.mapping tag es')
  /-- in one of its steps -/
  | step (tag : Option String) (before after : List (Node × Node)) {key : Node}
    (hkey : key.keyText? = some "steps") (stepsTag : Option String) (earlier later : List Node)
    {n n' : Node} (h : StepEdit n n') :
    JobEdit (.mapping tag (before ++ (key, .sequence stepsTag (earlier ++ n :: later)) :: after))
      (.mapping tag (before ++ (key, .sequence stepsTag (earlier ++ n' :: later)) :: after))

/-- Edits of a pipeline that mean nothing. -/
inductive PipelineEdit : Node → Node → Prop where
  /-- at the top level -/
  | fields (tag : Option String) {es es' : List (Node × Node)}
    (h : RecordEdit Pipeline.fieldNames es es') : PipelineEdit (.mapping tag es) (.mapping tag es')
  /-- in one of its jobs -/
  | job (tag : Option String) (before after : List (Node × Node)) {key : Node}
    (hkey : key.keyText? = some "jobs") (jobsTag : Option String)
    (earlier later : List (Node × Node)) (id : Node) {n n' : Node} (h : JobEdit n n') :
    PipelineEdit
      (.mapping tag (before ++ (key, .mapping jobsTag (earlier ++ (id, n) :: later)) :: after))
      (.mapping tag (before ++ (key, .mapping jobsTag (earlier ++ (id, n') :: later)) :: after))

theorem forall₂_middle {α : Type} {R : α → α → Prop} (hR : ∀ a, R a a) {a b : α} (hab : R a b)
    (before after : List α) : List.Forall₂ R (before ++ a :: after) (before ++ b :: after) := by
  induction before with
  | nil => exact .cons hab (List.forall₂_same.2 fun _ _ => hR _)
  | cons x rest ih => exact .cons (hR x) ih

/-- Two nodes are read as the same step. -/
def StepsAlike (n n' : Node) : Prop := ∀ depth path path',
  Agrees False Eq (readStep .bare depth path n) (readStep .bare depth path' n')

/-- Two nodes are read as the same job. -/
def JobsAlike (n n' : Node) : Prop := ∀ depth path path',
  Agrees False Eq (readJob .bare depth path n) (readJob .bare depth path' n')

theorem StepsAlike.refl (n : Node) : StepsAlike n n :=
  fun depth path path' => agrees_readStep corresponds_bare depth path path' rfl

theorem StepEdit.stepsAlike {n n' : Node} (h : StepEdit n n') : StepsAlike n n' := by
  intro depth path path'
  unfold readStep
  rw [StepFields.reader_eq]
  cases h with
  | fields tag h =>
    exact (RecordForm.agrees_of_edit (readsAlike_stepForm corresponds_bare) h depth path path' _
      _).bind fun _ _ hs => .pure (congrArg StepFields.finish hs)

/-- Steps that are read alike one by one are read alike. -/
theorem agrees_readSteps {items items' : List Node} (h : List.Forall₂ StepsAlike items items')
    (tag : Option String) (depth : Nat) (path path' : Yaml.Path) :
    Agrees False Eq
      (readSequence .bare depth path "a sequence" (readStep .bare) (.sequence tag items))
      (readSequence .bare depth path' "a sequence" (readStep .bare) (.sequence tag items')) :=
  .located path path' (.deeper depth fun d =>
    agrees_readItems (fun p p' _ _ hn => hn d p p') path path' h)

theorem JobEdit.jobsAlike {n n' : Node} (h : JobEdit n n') : JobsAlike n n' := by
  have hform : jobForm.ReadsAlike .bare .bare False Eq := readsAlike_jobForm corresponds_bare
  intro depth path path'
  unfold readJob
  rw [JobFields.reader_eq]
  cases h with
  | fields tag h =>
    exact (RecordForm.agrees_of_edit hform h depth path path' _ _).bind fun _ _ hs =>
      .pure (congrArg JobFields.finish hs)
  | step tag before after hkey stepsTag earlier later h =>
    have hsteps := forall₂_middle StepsAlike.refl h.stepsAlike earlier later
    exact (RecordForm.agrees_of_field hform before after hkey (i := JobSlot.steps) rfl
      (fun d => agrees_readSteps hsteps stepsTag d [] []) depth path path' _ _).bind fun _ _ hs =>
        .pure (congrArg JobFields.finish hs)

theorem JobEdit.isMapping {n n' : Node} (h : JobEdit n n') :
    ∃ tag es es', n = .mapping tag es ∧ n' = .mapping tag es' := by
  cases h with
  | fields tag h => exact ⟨tag, _, _, rfl, rfl⟩
  | step tag before after hkey stepsTag earlier later h => exact ⟨tag, _, _, rfl, rfl⟩

/-- Entries with the same id whose values are read as the same job. -/
def EntriesAlike (e e' : Node × Node) : Prop := e.1 = e'.1 ∧
  ∀ depth path path', Agrees False Eq (readOption .bare (readJob .bare depth path) e.2)
    (readOption .bare (readJob .bare depth path') e'.2)

theorem EntriesAlike.refl (e : Node × Node) : EntriesAlike e e :=
  ⟨rfl, fun depth path path' => agrees_readOption corresponds_bare
    (fun _ _ => agrees_readJob corresponds_bare depth path path') rfl⟩

theorem JobEdit.entriesAlike (id : Node) {n n' : Node} (h : JobEdit n n') :
    EntriesAlike (id, n) (id, n') := by
  refine ⟨rfl, fun depth path path' => ?_⟩
  have hjob := h.jobsAlike depth path path'
  obtain ⟨tag, es, es', rfl, rfl⟩ := h.isMapping
  -- a mapping is never missing
  exact hjob.map fun _ _ hj => congrArg some hj

/-- Jobs that are read alike one by one are read alike. -/
theorem agrees_readJobs_of_entries {es es' : List (Node × Node)}
    (h : List.Forall₂ EntriesAlike es es') (tag : Option String) (depth : Nat)
    (path path' : Yaml.Path) :
    Agrees False Eq (readJobs .bare depth path (.mapping tag es))
      (readJobs .bare depth path' (.mapping tag es')) := by
  have hentry (d : Nat) (done : List (String × Job)) (e e' : Node × Node)
      (he : EntriesAlike e e') : Agrees False Eq (readJobEntry .bare path d done e.1 e.2)
        (readJobEntry .bare path' d done e'.1 e'.2) := by
    refine (agrees_readText corresponds_bare path path' _ _ he.1).bind fun id id' hid => ?_
    refine (he.2 d _ _).bind fun job job' hjob => ?_
    exact .pure (by rw [hid, hjob])
  refine .located path path' ?_
  change Agrees False Eq
    (if (ownTag tag).isSome then _ else _ : Reading _) (if (ownTag tag).isSome then _ else _)
  split
  · exact .flawed _ _
  · exact (Agrees.deeper depth fun d => .foldlM h (hentry d) []).bind
      fun _ _ hdone => .pure (congrArg List.reverse hdone)

theorem PipelineEdit.agrees_readPipeline {n n' : Node} (h : PipelineEdit n n') :
    Agrees False Eq (readPipeline .bare n) (readPipeline .bare n') := by
  have hform : pipelineForm.ReadsAlike .bare .bare False Eq :=
    readsAlike_pipelineForm corresponds_bare
  unfold readPipeline
  rw [PipelineFields.reader_eq]
  cases h with
  | fields tag h =>
    exact (RecordForm.agrees_of_edit hform h depthLimit [] [] _ _).bind fun _ _ hs =>
      .pure (congrArg PipelineFields.finish hs)
  | job tag before after hkey jobsTag earlier later id h =>
    have hjobs := forall₂_middle EntriesAlike.refl (h.entriesAlike id) earlier later
    exact (RecordForm.agrees_of_field hform before after hkey (i := PipelineSlot.jobs) rfl
      (fun d => agrees_readJobs_of_entries hjobs jobsTag d [] []) depthLimit [] [] _ _).bind
        fun _ _ hs => .pure (congrArg PipelineFields.finish hs)

/-- The pipeline in a tree. -/
def pipelineIn? (t : Node) : Option Pipeline := result? (readPipeline .bare t)

/-- Edits that mean nothing leave the pipeline as it is. -/
theorem pipelineIn?_of_edits {t t' : Node} (h : Relation.ReflTransGen PipelineEdit t t') :
    pipelineIn? t' = pipelineIn? t := by
  induction h with
  | refl => rfl
  | tail _ hedit ih => exact (result?_congr hedit.agrees_readPipeline).symm.trans ih

/-! ## Jobs one for one -/

/-- The job that a node describes where a job stands; a missing value is an empty job. Two levels
are above it. -/
def jobIn? (n : Node) : Option Job :=
  (result? (readOption .bare (readJob .bare (depthLimit - 2) []) n)).map (·.getD .empty)

/-- A missing value is an empty job. -/
theorem jobIn?_of_isMissing {n : Node} (h : isMissing n = .ok true) : jobIn? n = some .empty := by
  have hread : result? (readOption .bare (readJob .bare (depthLimit - 2) []) n) = some none := by
    cases n with
    | absent => rfl
    | scalar tag plain text =>
      unfold readOption
      rw [follow_of_not_isAlias .bare rfl, pure_bind]
      dsimp only
      rw [h]
      rfl
    | _ => cases h
  unfold jobIn?
  rw [hread]
  rfl

/-- A job of a pipeline comes from an entry: it bears its key and is what its value describes. -/
structure IsJobOf (e : Node × Node) (j : String × Job) : Prop where
  /-- the key -/
  id : e.1.keyText? = some j.1
  /-- the value -/
  job : jobIn? e.2 = some j.2
  /-- without a value it is empty -/
  empty : isMissing e.2 = .ok true → j.2 = .empty

/-- The job that an entry gives, with its id. -/
def jobOf? (e : Node × Node) : Option (String × Job) := do
  let id ← e.1.keyText?
  let job ← jobIn? e.2
  return (id, job)

theorem isJobOf_of_jobOf? {e : Node × Node} {j : String × Job} (h : jobOf? e = some j) :
    IsJobOf e j := by
  obtain ⟨id, hid, h⟩ := Option.bind_eq_some_iff.1 h
  obtain ⟨job, hjob, h⟩ := Option.bind_eq_some_iff.1 h
  obtain rfl := Option.some.inj h
  refine ⟨hid, hjob, fun hmissing => ?_⟩
  rw [jobIn?_of_isMissing hmissing] at hjob
  exact (Option.some.inj hjob).symm

/-- Results that are put in front one by one come in reverse. -/
theorem foldlM_cons_eq {α β : Type} (g : α → Option β) (es : List α) (done : List β) :
    es.foldlM (fun done e => (g e).map (· :: done)) done =
      (es.mapM g).map fun ys => ys.reverse ++ done := by
  induction es generalizing done with
  | nil => rfl
  | cons e rest ih =>
    rw [List.foldlM_cons, List.mapM_cons]
    cases g e with
    | none => rfl
    | some y =>
      refine (ih (y :: done)).trans ?_
      change _ = ((rest.mapM g).bind fun ys => some (y :: ys)).map fun ys => ys.reverse ++ done
      cases rest.mapM g with
      | none => rfl
      | some ys =>
        change some (ys.reverse ++ y :: done) = some ((y :: ys).reverse ++ done)
        rw [List.reverse_cons, List.append_assoc]
        rfl

/-- An entry of the jobs is read as the job that it gives. -/
theorem result?_readJobEntry (path : Yaml.Path) (done : List (String × Job)) (e : Node × Node) :
    result? (readJobEntry .bare path (depthLimit - 2) done e.1 e.2) =
      (jobOf? e).map (· :: done) := by
  have hjob (path : Yaml.Path) :
      result? (readOption .bare (readJob .bare (depthLimit - 2) path) e.2) =
        result? (readOption .bare (readJob .bare (depthLimit - 2) []) e.2) :=
    result?_congr ((EntriesAlike.refl e).2 _ path [])
  have hsteady (id : String) : IsSteady (do
      let job ← readOption .bare (readJob .bare (depthLimit - 2) (.ofKey e.1 :: path)) e.2
      return (id, job.getD .empty) :: done) :=
    ((EntriesAlike.refl e).2 _ _ _).bind fun job job' hj => .pure (by rw [hj])
  unfold readJobEntry jobOf? jobIn?
  rw [result?_bind hsteady, result?_readText]
  cases e.1.keyText? with
  | none => rfl
  | some id =>
    rw [Option.bind_some, result?_bind fun a => .pure rfl, hjob]
    cases result? (readOption .bare (readJob .bare (depthLimit - 2) []) e.2) <;> rfl

/-- The jobs of a tree are had from the entries one for one. -/
theorem forall₂_of_readJobs {path : Yaml.Path} {tag : Option String} {es : List (Node × Node)}
    {jobs : List (String × Job)}
    (h : result? (readJobs .bare (depthLimit - 1) path (.mapping tag es)) = some jobs) :
    List.Forall₂ IsJobOf es jobs := by
  have hsteady (done : List (String × Job)) (e : Node × Node) :
      IsSteady (readJobEntry .bare path (depthLimit - 2) done e.1 e.2) :=
    agrees_readJobEntry corresponds_bare path path _ done ⟨rfl, rfl⟩
  have hentries : (es.mapM jobOf?) = some jobs := by
    unfold readJobs at h
    rw [result?_located] at h
    change result? (if (ownTag tag).isSome then _ else
      es.foldlM (fun done e => readJobEntry .bare path (depthLimit - 2) done e.1 e.2) [] >>=
        fun done => pure done.reverse : Reading (List (String × Job))) = _ at h
    split at h
    · cases h
    · rw [result?_bind fun done => .pure rfl, result?_foldlM hsteady] at h
      simp only [result?_readJobEntry, foldlM_cons_eq] at h
      obtain ⟨done, hdone, h⟩ := Option.bind_eq_some_iff.1 h
      obtain ⟨ys, hys, rfl⟩ := Option.map_eq_some_iff.1 hdone
      rw [List.append_nil, List.reverse_reverse] at h
      rw [hys]
      exact h
  exact (mapM_eq_some_iff.1 hentries).imp fun e j => isJobOf_of_jobOf?

/-- The entries of `jobs` and the jobs of the pipeline in a tree go together one for one. -/
theorem forall₂_of_pipelineIn? {tag jobsTag : Option String} {entries es : List (Node × Node)}
    {key : Node} {p : Pipeline} (hkey : key.keyText? = some "jobs")
    (hmem : (key, .mapping jobsTag es) ∈ entries)
    (h : pipelineIn? (.mapping tag entries) = some p) : List.Forall₂ IsJobOf es p.jobs := by
  have hform : pipelineForm.ReadsAlike .bare .bare False Eq :=
    readsAlike_pipelineForm corresponds_bare
  unfold pipelineIn? readPipeline at h
  rw [PipelineFields.reader_eq, result?_bind fun s => .pure rfl] at h
  obtain ⟨s, hs, h⟩ := Option.bind_eq_some_iff.1 h
  obtain rfl := Option.some.inj h
  have hentered : entries.foldlM (pipelineForm.enter (depthLimit - 1)) .start = some s :=
    (RecordForm.result?_readRecord hform (depthLimit - 1) [] _ _ tag _).symm.trans hs
  obtain ⟨s', jobs, hjobs, rfl⟩ :=
    RecordForm.exists_set_of_mem hentered hmem hkey (i := PipelineSlot.jobs) rfl
  exact forall₂_of_readJobs hjobs

/-- The keys of the entries are the ids of the jobs. -/
theorem map_keyText?_eq {es : List (Node × Node)} {jobs : List (String × Job)}
    (h : List.Forall₂ IsJobOf es jobs) :
    es.map (fun e => e.1.keyText?) = (jobs.map Prod.fst).map some := by
  induction h with
  | nil => rfl
  | cons hj _ ih => rw [List.map_cons, List.map_cons, List.map_cons, hj.id, ih]

/-! ## Texts -/

/-- A text is a sound document that spells this tree. -/
structure Tells (bytes : List UInt8) (t : Node) : Prop where
  /-- there is something in it -/
  not_blank : bytes.all Text.isBlankByte = false
  /-- it spells the tree -/
  spells : Spells (Document.ofBytes bytes).anchors (Document.ofBytes bytes).root t
  /-- nothing is wrong with it -/
  fault_eq : (Document.ofBytes bytes).fault = none
  /-- it is the only document -/
  followed_eq : (Document.ofBytes bytes).followed = false

variable {bytes : List UInt8} {t : Node} {p : Pipeline}

/-- A document that can be read is sound and the only one, and was read from its root. -/
theorem readDocument_eq_ok_iff {α : Type} {read : Context → Node → Reading α} {d : Document}
    {x : α} : readDocument read d = .ok x ↔
      (∃ k, read d.context d.root 0 = .ok (x, k)) ∧ d.fault = none ∧ d.followed = false := by
  unfold readDocument
  rw [bind_eq_ok_iff]
  constructor
  · rintro ⟨⟨y, k⟩, hread, h⟩
    dsimp only at h
    split at h
    · cases h
    · next hfault =>
      split at h
      · cases h
      · next hfollowed =>
        cases h
        exact ⟨⟨k, hread⟩, hfault, Bool.eq_false_iff.2 hfollowed⟩
  · rintro ⟨⟨k, hread⟩, hfault, hfollowed⟩
    refine ⟨(x, k), hread, ?_⟩
    dsimp only
    rw [hfault, hfollowed]
    rfl

/-- A text is read as a pipeline exactly if its document is and there is something in it. -/
theorem Pipeline.ofBytes_eq_ok_iff : Pipeline.ofBytes bytes = .ok p ↔
    bytes.all Text.isBlankByte = false ∧
      Pipeline.ofDocument (Document.ofBytes bytes) = .ok p := by
  unfold Pipeline.ofBytes
  split
  · next hblank =>
    refine ⟨fun h => (by cases h), fun h => ?_⟩
    rw [hblank] at h
    cases h.1
  · next hblank =>
    split
    · next p' hp' =>
      rw [hp']
      exact ⟨fun h => (by cases h; exact ⟨Bool.eq_false_iff.2 hblank, rfl⟩),
        fun h => (by cases h.2; rfl)⟩
    · next f hf =>
      rw [hf]
      exact ⟨fun h => (by cases h), fun h => (by cases h.2)⟩

/-- The pipeline in a text is that in the tree that it spells. -/
theorem Tells.pipelineIn?_eq (h : Tells bytes t) (hp : Pipeline.ofBytes bytes = .ok p) :
    pipelineIn? t = some p := by
  have hserves : (Document.ofBytes bytes).context.Serves (Document.ofBytes bytes).anchors True :=
    ⟨fun _ _ h => h, fun _ => trivial⟩
  obtain ⟨⟨k, hread⟩, -, -⟩ := readDocument_eq_ok_iff.1 (Pipeline.ofBytes_eq_ok_iff.1 hp).2
  exact result?_of_agrees (agrees_readPipeline (corresponds_of_serves hserves) h.spells) hread

/-- The pipeline in a tree is that in a text that is the tree. -/
theorem Tells.ofBytes_eq_ok (h : Tells bytes t) (hroot : (Document.ofBytes bytes).root = t)
    (hp : pipelineIn? t = some p) : Pipeline.ofBytes bytes = .ok p := by
  have hserves : (Document.ofBytes bytes).context.Serves [] False :=
    ⟨fun id n hn => (by cases hn), fun hne => hne rfl⟩
  have hagrees := agrees_readPipeline (corresponds_of_serves hserves) h.spells.self
  refine Pipeline.ofBytes_eq_ok_iff.2 ⟨h.not_blank, readDocument_eq_ok_iff.2
    ⟨?_, h.fault_eq, h.followed_eq⟩⟩
  rw [hroot]
  rcases exists_eq_ok_of_agrees hagrees hp 0 with hread | ⟨hno, -⟩
  · exact hread
  · exact hno.elim

/-- The pipeline in a tree is that in every text that spells it, unless there are too many aliases
in the text. -/
theorem Tells.ofBytes_eq (h : Tells bytes t) (hp : pipelineIn? t = some p) :
    Pipeline.ofBytes bytes = .ok p ∨ (Document.ofBytes bytes).root ≠ t ∧
      Pipeline.ofBytes bytes = .error (.parse Fault.repetition.message) := by
  by_cases hroot : (Document.ofBytes bytes).root = t
  · exact .inl (h.ofBytes_eq_ok hroot hp)
  · have hserves : (Document.ofBytes bytes).context.Serves (Document.ofBytes bytes).anchors True :=
      ⟨fun _ _ h => h, fun _ => trivial⟩
    have hagrees := agrees_readPipeline (corresponds_of_serves hserves) h.spells
    rcases exists_eq_ok_of_agrees hagrees hp 0 with hread | ⟨-, hread⟩
    · exact .inl (Pipeline.ofBytes_eq_ok_iff.2 ⟨h.not_blank, readDocument_eq_ok_iff.2
        ⟨hread, h.fault_eq, h.followed_eq⟩⟩)
    · have hdocument : Pipeline.ofDocument (Document.ofBytes bytes) =
          .error (.fault .repetition) := by
        unfold Pipeline.ofDocument readDocument
        rw [hread]
        rfl
      refine .inr ⟨hroot, ?_⟩
      unfold Pipeline.ofBytes
      rw [if_neg (Bool.eq_false_iff.1 h.not_blank), hdocument]
      rfl

/-- A pipeline in which an id comes twice is refused by the checks. -/
theorem Converter.exists_convert_eq_failed (c : Converter) (store : Store)
    (hp : Pipeline.ofBytes bytes = .ok p) (hids : ¬ p.ids.Nodup) :
    ∃ e, c.convert store bytes = .failed e ∧ e.kind = .validation := by
  cases hchecks : JobGraph.validated p with
  | ok g => exact absurd (JobGraph.validated_eq_ok_iff.1 hchecks).1.properIds.nodup hids
  | error e =>
    refine ⟨e, convert_of_error ?_, JobGraph.kind_of_validated_eq_error hchecks⟩
    exact Plan.ofBytes_eq_error_iff.2 (.inr ⟨p, hp, hchecks⟩)

/-- **No job is lost or merged.** In a text that is read as a pipeline, the entries of `jobs` and the
jobs go together one for one and in order, repeated keys included, and an entry without a value gives
an empty job. Edits that mean nothing, at the top level, in jobs and in steps, leave the pipeline of
the tree as it is, and that of every text that spells the new tree as well, but for texts with too
many aliases. A pipeline in which a key comes twice is never converted: the checks refuse it. -/
theorem jobs_are_kept (h : Tells bytes t) (hp : Pipeline.ofBytes bytes = .ok p) :
    (∀ tag entries key jobsTag es, t = .mapping tag entries → key.keyText? = some "jobs" →
      (key, .mapping jobsTag es) ∈ entries →
        List.Forall₂ IsJobOf es p.jobs ∧
        (¬ (es.map fun e => e.1.keyText?).Nodup → ∀ (c : Converter) (store : Store),
          ∃ e, c.convert store bytes = .failed e ∧ e.kind = .validation)) ∧
      ∀ t', Relation.ReflTransGen PipelineEdit t t' →
        pipelineIn? t' = some p ∧
        ∀ bytes', Tells bytes' t' → Pipeline.ofBytes bytes' = .ok p ∨
          (Document.ofBytes bytes').root ≠ t' ∧
            Pipeline.ofBytes bytes' = .error (.parse Fault.repetition.message) := by
  have htree := h.pipelineIn?_eq hp
  refine ⟨fun tag entries key jobsTag es ht hkey hmem => ?_, fun t' hedits => ?_⟩
  · subst ht
    have hjobs := forall₂_of_pipelineIn? hkey hmem htree
    refine ⟨hjobs, fun hrepeated c store => c.exists_convert_eq_failed store hp fun hnodup => ?_⟩
    rw [map_keyText?_eq hjobs] at hrepeated
    exact hrepeated (List.pairwise_map.2 (hnodup.imp fun hne heq => hne (Option.some.inj heq)))
  · have htree' := (pipelineIn?_of_edits hedits).trans htree
    exact ⟨htree', fun bytes' h' => h'.ofBytes_eq htree'⟩

/-- Two jobs with one id, the first one without a value. -/
def repeatedIds : Node :=
  .mapping none [(.scalar none true "jobs", .mapping none [
    (.scalar none true "a", .scalar none true ""),
    (.scalar none true "b", .mapping none [(.scalar none true "steps", .sequence none [
      .mapping none [(.scalar none true "run", .scalar none true "x"),
        (.scalar none true "name", .scalar none true "y")]])]),
    (.scalar none true "a", .mapping none [(.scalar none true "needs", .scalar none true "b")])])]

/-- The same jobs; a trigger, a matrix and a shell are put in, and the fields of a step are
reordered. -/
def repeatedIdsEdited : Node :=
  .mapping none [(.scalar none true "on", .scalar none true "push"),
    (.scalar none true "jobs", .mapping none [
      (.scalar none true "a", .scalar none true ""),
      (.scalar none true "b", .mapping none [(.scalar none true "steps", .sequence none [
        .mapping none [(.scalar none true "name", .scalar none true "y"),
          (.scalar none true "shell", .scalar none true "sh"),
          (.scalar none true "run", .scalar none true "x")]])]),
      (.scalar none true "a", .mapping none [
        (.scalar none true "matrix", .sequence none [.scalar none true "1"]),
        (.scalar none true "needs", .scalar none true "b")])])]

theorem tells_repeatedIds :
    Tells "jobs:\n  a:\n  b: {steps: [{run: x, name: y}]}\n  a: {needs: b}\n".toUTF8.toList
      repeatedIds where
  not_blank := by decide +kernel
  spells := ⟨10, by with_unfolding_all rfl⟩
  fault_eq := by with_unfolding_all rfl
  followed_eq := by decide +kernel

theorem tells_repeatedIdsEdited :
    Tells ("on: push\njobs:\n  a:\n  b: {steps: [{name: y, shell: sh, run: x}]}\n" ++
      "  a: {matrix: [1], needs: b}\n").toUTF8.toList repeatedIdsEdited where
  not_blank := by decide +kernel
  spells := ⟨10, by with_unfolding_all rfl⟩
  fault_eq := by with_unfolding_all rfl
  followed_eq := by decide +kernel

theorem repeatedIds_edits : Relation.ReflTransGen PipelineEdit repeatedIds repeatedIdsEdited := by
  unfold repeatedIds repeatedIdsEdited
  -- from the last edit to the first one: each is known from what it leads to
  refine .tail (b := ?third) (.tail (b := ?second) (.tail (b := ?first) (.single ?fields) ?shell)
    ?matrix) ?trigger
  case trigger =>
    refine .fields none (.insert [] _ none true ?_ ?_)
    · decide
    · rfl
  case matrix =>
    refine .job none [] [] ?_ none [_, _] [] _ (.fields none (.insert [] _ none true ?_ ?_))
    · rfl
    · decide
    · rfl
  case shell =>
    refine .job none [] [] ?_ none [_] [_] _ (.step none [] [] ?_ none [] []
      (.fields none (.insert [_] _ none true ?_ ?_)))
    · rfl
    · rfl
    · decide
    · rfl
  case fields =>
    refine .job none [] [] ?_ none [_] [_] _ (.step none [] [] ?_ none [] []
      (.fields none (.reorder (.swap _ _ _))))
    · rfl
    · rfl

/-- The second `a` of the first text is kept beside the first one, in both texts. -/
theorem jobs_are_kept_repeated_id :
    let source := "jobs:\n  a:\n  b: {steps: [{run: x, name: y}]}\n  a: {needs: b}\n".toUTF8.toList
    let source' := ("on: push\njobs:\n  a:\n  b: {steps: [{name: y, shell: sh, run: x}]}\n" ++
      "  a: {matrix: [1], needs: b}\n").toUTF8.toList
    Tells source repeatedIds ∧ Tells source' repeatedIdsEdited ∧
      Relation.ReflTransGen PipelineEdit repeatedIds repeatedIdsEdited ∧
      (∃ p, Pipeline.ofBytes source = .ok p ∧ Pipeline.ofBytes source' = .ok p ∧
        p.ids = ["a", "b", "a"]) ∧
      ∃ e, Converter.standard.convert (fun _ _ => .answer .missing) source = .failed e ∧
        e.kind = .validation := by
  intro source source'
  have hsome : (Pipeline.ofBytes source).toOption.isSome := by decide +kernel
  have hsome' : (Pipeline.ofBytes source').toOption.isSome := by decide +kernel
  obtain ⟨p, hp⟩ : ∃ p, Pipeline.ofBytes source = .ok p := by
    generalize Pipeline.ofBytes source = r at hsome
    cases r with
    | ok p => exact ⟨p, rfl⟩
    | error e => cases hsome
  obtain ⟨hkept, hedited⟩ := jobs_are_kept tells_repeatedIds hp
  obtain ⟨hjobs, hrefused⟩ := hkept _ _ _ _ _ rfl rfl (List.mem_singleton_self _)
  have hids : p.ids = ["a", "b", "a"] :=
    List.map_injective_iff.2 (fun _ _ => Option.some.inj) (map_keyText?_eq hjobs).symm
  have hp' : Pipeline.ofBytes source' = .ok p := by
    rcases (hedited _ repeatedIds_edits).2 source' tells_repeatedIdsEdited with hread | ⟨-, hread⟩
    · exact hread
    · rw [hread] at hsome'
      cases hsome'
  exact ⟨tells_repeatedIds, tells_repeatedIdsEdited, repeatedIds_edits, ⟨p, hp, hp', hids⟩,
    hrefused (by decide) _ _⟩

end JobLoom
