import JobLoom.Proofs.Command.Single
import JobLoom.Proofs.Pool.Owing

/-!
# A batch does what its inputs do one by one

The inputs of a batch go through a pool together, and their results are recorded while other inputs
are still to be read. Still the batch comes to the same as converting one input after the other,
without a pool, as long as no manifest is written over an input or into the store.

* **In order.** What converting the inputs one by one means.
* **What is owed.** The pending inputs are those that the pool owes answers for. So a full queue is
  never found when there is nothing to wait for, and every answer is recorded once, in order.
* **Failures** are counted and told. They leave the files and the output alone.
-/

namespace JobLoom

/-- What a workflow file is converted to. -/
def Service.result (s : Service) (source : List UInt8) : Result :=
  match s.converter.convert s.store source with
  | .done o => .ok o
  | .failed e => .error e
  | .crashed text => .error (crashError text)

/-- With a store that does not crash, every answer is what the workflow file is converted to. -/
theorem Service.AnswersTo.eq_result {s : Service} {source : List UInt8} {x : Result}
    (h : s.AnswersTo source x) (hs : s.store.IsSteady) : x = s.result source := by
  unfold AnswersTo at h
  unfold result
  cases hc : s.converter.convert s.store source with
  | done o => rwa [hc] at h
  | failed e => rwa [hc] at h
  | crashed text => exact absurd hc (s.converter.convert_ne_crashed hs source text)

namespace Command

/-! ## One by one -/

namespace Host

variable {m : Type → Type} [Monad m]

/-- Read and convert the next input, and record its result. -/
def convertNext (h : Host m) (b : Batch) (st : Settings) (format : OutputFormat) (t : Tally)
    (names : List String) : Task m Tally := do
  let source ← h.readFile (b.sourcePath names)
  let service ← h.service st format
  h.record b names (service.result source) t

/-- Convert all workflow files below a directory one by one, and record their results. -/
def convertAllInOrder (h : Host m) (i : Invocation) (b : Batch) (format : OutputFormat) :
    Task m Tally := do
  if !(← h.isDirectory b.directory) then throw (.notDirectory b.directory)
  let settings ← h.settings i
  let inputs ← orFail (.unlistable b.directory) (h.filesBelow b.directory)
  (inputs.filter isWorkflow).foldlM (h.convertNext b settings format) ⟨0, 0⟩

/-- Convert all workflow files below a directory, one by one. -/
def convertInOrder (h : Host m) (i : Invocation) (b : Batch) (format : OutputFormat) :
    Task m Unit := do
  let tally ← h.convertAllInOrder i b format
  h.print tally.summary
  if tally.failed > 0 then throw (.someFailed tally.failed)

end Host

/-- More results are counted. -/
def Tally.add (t t' : Tally) : Tally := ⟨t.converted + t'.converted, t.failed + t'.failed⟩

theorem Tally.zero_add (t : Tally) : Tally.add ⟨0, 0⟩ t = t := by
  simp [add]

namespace Batch

variable {b : Batch} {s₀ s s' : Session} {st : Settings} {format : OutputFormat}
  {names : List String} {t t' : Tally}

/-! ## What recording a result does -/

/-- What is told about a result in the messages. -/
def told (b : Batch) (e : List String × Result) : String :=
  match e.2 with
  | .ok o => Session.warningLines (b.sourcePath e.1) o.warnings
  | .error x => "✗ " ++ b.sourcePath e.1 ++ ": " ++ x.message ++ "\n"

/-- A failure is counted and told, and that is all. -/
theorem run_record_error (s : Session) (b : Batch) (names : List String) (e : ConvertError)
    (t : Tally) : (Session.host.record b names (.error e) t).run.run s =
      (.ok { t with failed := t.failed + 1 },
        { s with messages := s.messages ++ b.told (names, .error e) }) := rfl

/-- A manifest is written, counted and told, if it can be written. -/
theorem run_record_ok (s : Session) (b : Batch) (names : List String) (o : Output) (t : Tally) :
    (Session.host.record b names (.ok o) t).run.run s =
      let outer := Path.parent (b.targetPath names o.format)
      let messages := s.messages ++ b.told (names, .ok o)
      match s.disk.makeDirectories outer with
      | .error f => (.error (.unmakable outer f), { s with messages := messages })
      | .ok d =>
        match d.write (b.targetPath names o.format) (Text.Utf8.encode o.payload) with
        | .error f =>
          (.error (.unwritable (b.targetPath names o.format) f),
            { s with disk := d, messages := messages })
        | .ok d' =>
          (.ok { t with converted := t.converted + 1 },
            { s with
              disk := d'
              messages := messages
              output := s.output ++ b.line (names, .ok o) }) := by
  refine (Session.run_bind_of_ok (Session.run_lift (s.run_tellWarnings _ o))).trans ?_
  have hmake := Session.run_makeDirectories
    { s with messages := s.messages ++ b.told (names, .ok o) }
    (Path.parent (b.targetPath names o.format))
  dsimp only at hmake ⊢
  cases hd : s.disk.makeDirectories (Path.parent (b.targetPath names o.format)) with
  | error f =>
    rw [hd] at hmake
    exact Session.run_bind_of_error hmake
  | ok d =>
    rw [hd] at hmake
    refine (Session.run_bind_of_ok hmake).trans ?_
    have hwrite := Session.run_writeFile
      { s with disk := d, messages := s.messages ++ b.told (names, .ok o) }
      (b.targetPath names o.format) o.payload
    dsimp only at hwrite ⊢
    cases hd' : d.write (b.targetPath names o.format) (Text.Utf8.encode o.payload) with
    | error f =>
      rw [hd'] at hwrite
      exact Session.run_bind_of_error hwrite
    | ok d' =>
      rw [hd'] at hwrite
      exact (Session.run_bind_of_ok hwrite).trans rfl

/-- A manifest that is recorded was written. -/
theorem runs_record_ok (s : Session) (b : Batch) (names : List String) (o : Output) (t : Tally) :
    s.Runs (Session.host.record b names (.ok o) t) fun t' s' => ∃ d d',
      s.disk.makeDirectories (Path.parent (b.targetPath names o.format)) = .ok d ∧
      d.write (b.targetPath names o.format) (Text.Utf8.encode o.payload) = .ok d' ∧
      t' = { t with converted := t.converted + 1 } ∧
      s' = { s with
        disk := d'
        messages := s.messages ++ b.told (names, .ok o)
        output := s.output ++ b.line (names, .ok o) } := by
  refine ⟨fun r s' hrun => ?_⟩
  rw [run_record_ok] at hrun
  dsimp only at hrun
  cases hd : s.disk.makeDirectories (Path.parent (b.targetPath names o.format)) with
  | error f =>
    rw [hd] at hrun
    cases hrun
    exact nofun
  | ok d =>
    rw [hd] at hrun
    dsimp only at hrun
    cases hd' : d.write (b.targetPath names o.format) (Text.Utf8.encode o.payload) with
    | error f =>
      rw [hd'] at hrun
      cases hrun
      exact nofun
    | ok d' =>
      rw [hd'] at hrun
      cases hrun
      exact ⟨d, d', rfl, hd', rfl, rfl⟩

/-! ## What recording all results does -/

/-- Record results, one after the other. -/
def recordAll (b : Batch) (rs : List (List String × Result)) (t : Tally) :
    ExceptT Failure (StateM Session) Tally :=
  rs.foldlM (fun t e => Session.host.record b e.1 e.2 t) t

theorem recordAll_cons (e : List String × Result) (rs : List (List String × Result)) (t : Tally) :
    b.recordAll (e :: rs) t = Session.host.record b e.1 e.2 t >>= b.recordAll rs := rfl

/-- What a recorded result adds to the outputs and to the count. -/
theorem runs_record_told (s : Session) (b : Batch) (e : List String × Result) (t : Tally) :
    s.Runs (Session.host.record b e.1 e.2 t) fun t' s' => t' = t.add (count [e]) ∧
      s'.output = s.output ++ b.line e ∧ s'.messages = s.messages ++ b.told e := by
  obtain ⟨names, x⟩ := e
  cases x with
  | error e =>
    refine ⟨fun r s' hrun => ?_⟩
    rw [run_record_error] at hrun
    cases hrun
    exact ⟨rfl, String.append_empty.symm, rfl⟩
  | ok o =>
    refine (runs_record_ok s b names o t).mono fun t' s' ⟨d, d', _, _, ht, hs⟩ => ?_
    subst ht hs
    exact ⟨rfl, rfl, rfl⟩

/-- Results that are all recorded are counted and told, one after the other. -/
theorem runs_recordAll (s : Session) (b : Batch) (rs : List (List String × Result)) (t : Tally) :
    s.Runs (b.recordAll rs t) fun t' s' => t' = t.add (count rs) ∧
      s'.output = s.output ++ String.join (rs.map b.line) ∧
      s'.messages = s.messages ++ String.join (rs.map b.told) := by
  induction rs generalizing s t with
  | nil => exact .pure ⟨rfl, String.append_empty.symm, String.append_empty.symm⟩
  | cons e rest ih =>
    rw [recordAll_cons]
    refine .bind ((runs_record_told s b e t).mono fun t₁ s₁ ⟨ht, houtput, hmessages⟩ => ?_)
    refine (ih s₁ t₁).mono fun t₂ s₂ ⟨ht₂, houtput₂, hmessages₂⟩ => ⟨?_, ?_, ?_⟩
    · rw [ht₂, ht]
      simp [Tally.add, count, List.countP_cons, Nat.add_assoc, Nat.add_comm]
    · rw [houtput₂, houtput, List.map_cons, String.join_cons, String.append_assoc]
    · rw [hmessages₂, hmessages, List.map_cons, String.join_cons, String.append_assoc]

theorem count_add (rs : List (List String × Result)) :
    (count rs).converted + (count rs).failed = rs.length := by
  rw [List.length_eq_countP_add_countP fun e => e.2.isOk]
  congr 1
  exact List.countP_congr fun e _ => by cases e.2.isOk <;> decide

/-- Two sessions have the same files, and the same has been written to their outputs. -/
def SameFiles (s s' : Session) : Prop := s.disk = s'.disk ∧ s.output = s'.output

/-- What is recorded for a manifest depends on the files only, and not on what was told before. -/
theorem sameFiles_record (h : SameFiles s s') (b : Batch) (names : List String) (o : Output)
    (t t' : Tally) :
    SameFiles ((Session.host.record b names (.ok o) t).run.run s).2
        ((Session.host.record b names (.ok o) t').run.run s').2 ∧
      (((Session.host.record b names (.ok o) t).run.run s).1.isOk =
        ((Session.host.record b names (.ok o) t').run.run s').1.isOk) := by
  obtain ⟨hdisk, houtput⟩ := h
  rw [run_record_ok, run_record_ok]
  dsimp only
  rw [hdisk]
  cases s'.disk.makeDirectories (Path.parent (b.targetPath names o.format)) with
  | error f => exact ⟨⟨rfl, houtput⟩, rfl⟩
  | ok d =>
    dsimp only
    cases d.write (b.targetPath names o.format) (Text.Utf8.encode o.payload) with
    | error f => exact ⟨⟨rfl, houtput⟩, rfl⟩
    | ok d' => exact ⟨⟨rfl, by rw [houtput]⟩, rfl⟩

/-- **Failures leave the files alone.** Without them, the files and the output are the same. -/
theorem sameFiles_recordAll (h : SameFiles s s') (b : Batch) (rs : List (List String × Result))
    (t t' : Tally) :
    SameFiles ((b.recordAll rs t).run.run s).2
      ((b.recordAll (rs.filter fun e => e.2.isOk) t').run.run s').2 := by
  induction rs generalizing s s' t t' with
  | nil => exact h
  | cons e rest ih =>
    obtain ⟨names, x⟩ := e
    rw [recordAll_cons]
    cases x with
    | error e =>
      rw [List.filter_cons_of_neg (by simp [Except.isOk, Except.toBool])]
      rw [Session.run_bind_of_ok (run_record_error s b names e t)]
      refine ih ?_ _ _
      exact ⟨h.1, h.2⟩
    | ok o =>
      rw [List.filter_cons_of_pos (by simp [Except.isOk, Except.toBool]), recordAll_cons]
      obtain ⟨hsame, hok⟩ := sameFiles_record h b names o t t'
      cases hx : (Session.host.record b names (.ok o) t).run.run s with
      | mk r s₁ =>
        cases hy : (Session.host.record b names (.ok o) t').run.run s' with
        | mk r' s₁' =>
          rw [hx, hy] at hsame hok
          cases r with
          | ok t₁ =>
            cases r' with
            | ok t₁' =>
              rw [Session.run_bind_of_ok hx, Session.run_bind_of_ok hy]
              exact ih hsame _ _
            | error f => cases hok
          | error f =>
            cases r' with
            | ok t₁' => cases hok
            | error f' =>
              rw [Session.run_bind_of_error hx, Session.run_bind_of_error hy]
              exact hsame

/-! ## Batches whose manifests are in nobody's way -/

/-- The content of an input. -/
def content (b : Batch) (s : Session) (names : List String) : List UInt8 :=
  (s.disk.read (b.sourcePath names)).toOption.getD []

/-- An input with what it is converted to. -/
def resultOf (b : Batch) (s : Session) (st : Settings) (format : OutputFormat)
    (names : List String) : List String × Result :=
  (names, (s.service st format).result (b.content s names))

/-- All inputs with what they are converted to. -/
def results (b : Batch) (s : Session) (st : Settings) (format : OutputFormat) :
    List (List String × Result) :=
  (b.inputs s).map (b.resultOf s st format)

/-- The inputs of a batch can be read, and its manifests are written neither over them nor into the
store. -/
structure IsSeparate (b : Batch) (s : Session) (st : Settings) (format : OutputFormat) : Prop where
  /-- the inputs can be read -/
  readable : ∀ names ∈ b.inputs s, ∃ content, s.disk.read (b.sourcePath names) = .ok content
  /-- no manifest is written over an input -/
  apart : ∀ x ∈ b.inputs s, (b.conversion? s st format x).isSome →
    ∀ y ∈ b.inputs s, b.targetPlace s format x ≠ b.sourcePlace s y
  /-- none is written into the store -/
  store : b.SparesStore s st format

/-- Since a session `s₀` the files have changed as far as manifests were written. -/
def Written (b : Batch) (s₀ : Session) (st : Settings) (format : OutputFormat) (s : Session) : Prop :=
  s₀.disk.Changes s.disk
    (fun p => ∃ names ∈ b.inputs s₀,
      (b.conversion? s₀ st format names).isSome ∧ p = b.targetPlace s₀ format names)
    (b.PassesAny s₀ st format)

theorem IsSeparate.read_eq (h : b.IsSeparate s₀ st format) (hnames : names ∈ b.inputs s₀) :
    s₀.disk.read (b.sourcePath names) = .ok (b.content s₀ names) := by
  obtain ⟨content, hread⟩ := h.readable names hnames
  rw [Batch.content, hread]
  rfl

/-- A manifest that an input is converted to is its conversion. -/
theorem IsSeparate.conversion?_eq (h : b.IsSeparate s₀ st format) (hnames : names ∈ b.inputs s₀)
    {o : Output} (ho : (s₀.service st format).result (b.content s₀ names) = .ok o) :
    b.conversion? s₀ st format names = some o := by
  have hnode := Disk.node?_of_read (h.read_eq hnames)
  change s₀.disk.node? (b.sourcePlace s₀ names) = _ at hnode
  unfold Service.result at ho
  split at ho
  · next o' ho' =>
    cases ho
    simp only [conversion?, hnode, ho']
  · cases ho
  · cases ho

namespace Written

theorem service_eq (h : b.Written s₀ st format s) (hseparate : b.IsSeparate s₀ st format) :
    s.service st format = s₀.service st format := service_eq_of_changes h hseparate.store

theorem read_eq (h : b.Written s₀ st format s) (hseparate : b.IsSeparate s₀ st format)
    (hnames : names ∈ b.inputs s₀) :
    s.disk.read (b.sourcePath names) = .ok (b.content s₀ names) := by
  have hread := hseparate.read_eq hnames
  refine Disk.read_of_changes h hread ((h.file_iff _ _ ?_).2 (Disk.node?_of_read hread))
  rintro ⟨earlier, hearlier, hsome, hplace⟩
  exact hseparate.apart earlier hearlier hsome names hnames hplace.symm

/-- What an input is converted to is recorded: only its manifest is written. -/
theorem record (h : b.Written s₀ st format s) (hseparate : b.IsSeparate s₀ st format)
    (hnames : names ∈ b.inputs s₀)
    (hrun : (Session.host.record b names (b.resultOf s₀ st format names).2 t).run.run s =
      (.ok t', s')) : b.Written s₀ st format s' := by
  cases hx : (b.resultOf s₀ st format names).2 with
  | error e =>
    rw [hx, run_record_error] at hrun
    cases hrun
    exact h
  | ok o =>
    have ho := hseparate.conversion?_eq hnames hx
    rw [hx] at hrun
    obtain ⟨d, d', hmake, hwrite, -, rfl⟩ := (runs_record_ok s b names o t).of_run _ _ hrun
    rw [format_of_conversion ho] at hmake hwrite
    have hsome : (b.conversion? s₀ st format names).isSome := ho ▸ rfl
    refine h.trans ((changes_of_write h.start_eq hmake hwrite).mono (fun p hp => ?_) fun p hp => ?_)
    · exact ⟨names, hnames, hsome, hp⟩
    · exact ⟨names, hnames, hsome, hp⟩

end Written

/-! ## One by one -/

/-- Converting the inputs one by one records what they are converted to. -/
theorem run_convertNexts (hseparate : b.IsSeparate s₀ st format) (h : b.Written s₀ st format s)
    {later : List (List String)} (hlater : later ⊆ b.inputs s₀) :
    (later.foldlM (Session.host.convertNext b st format) t).run.run s =
      (b.recordAll (later.map (b.resultOf s₀ st format)) t).run.run s := by
  induction later generalizing s t with
  | nil => rfl
  | cons names later ih =>
    have hnames := hlater List.mem_cons_self
    rw [List.foldlM_cons, List.map_cons, recordAll_cons]
    refine Session.run_bind_congr ?_ fun t₁ s₁ hrun =>
      ih (h.record hseparate hnames hrun) fun n hn => hlater (List.mem_cons_of_mem _ hn)
    unfold Host.convertNext
    refine (Session.run_bind_of_ok (Session.run_readFile_of_ok (h.read_eq hseparate hnames))).trans ?_
    refine (Session.run_bind_of_ok (Session.run_lift (s.run_service st format))).trans ?_
    rw [h.service_eq hseparate]
    rfl

/-! ## In a pool -/

/-- The pending inputs are those that the pool owes answers for. -/
def IsOwed (b : Batch) (s₀ : Session) : List Pending → List Request → Prop :=
  List.Forall₂ fun e r =>
    e.ticket = r.id ∧ r.source = b.content s₀ e.names ∧ e.names ∈ b.inputs s₀

variable {turns : Service → Turns} {pending : List Pending} {owed : List Request} {p : Pool}

/-- The oldest pending input is waited for: its answer is what it is converted to. -/
theorem await_eq (hfollows : ∀ v, (turns v).Follows v)
    (hpatient : ∀ v, v.IsUngated → (turns v).IsPatient v) {oldest : Pending} {r : Request}
    (howes : p.Owes (s₀.service st format) st.pool (r :: owed))
    (hr : oldest.ticket = r.id ∧ r.source = b.content s₀ oldest.names) :
    ∃ q, (turns (s₀.service st format)).await p oldest.ticket =
        (q, (b.resultOf s₀ st format oldest.names).2) ∧
      q.Owes (s₀.service st format) st.pool owed := by
  have hungated := s₀.isUngated_service st format
  obtain ⟨q, x, hawait, hq, hanswer⟩ := (hfollows _).await_owes (hpatient _ hungated) hungated howes
  refine ⟨q, ?_, hq⟩
  rw [hr.1, hawait, hanswer.eq_result (s₀.isSteady_service st format), hr.2]
  rfl

/-- The oldest pending input is waited for, and what it is converted to is recorded. -/
theorem run_retire {α : Type} (hfollows : ∀ v, (turns v).Follows v)
    (hpatient : ∀ v, v.IsUngated → (turns v).IsPatient v) (hseparate : b.IsSeparate s₀ st format)
    (h : b.Written s₀ st format s) {oldest : Pending} {r : Request}
    (howes : p.Owes (s₀.service st format) st.pool (r :: owed))
    (hr : oldest.ticket = r.id ∧ r.source = b.content s₀ oldest.names)
    (f : Pool × Tally → ExceptT Failure (StateM Session) α) :
    ∃ q, q.Owes (s₀.service st format) st.pool owed ∧
      (Session.host.retire (turnsNow turns st format) b p oldest t >>= f).run.run s =
        (Session.host.record b oldest.names (b.resultOf s₀ st format oldest.names).2 t >>=
          fun t => f (q, t)).run.run s := by
  obtain ⟨q, hawait, hq⟩ := await_eq hfollows hpatient howes hr
  refine ⟨q, hq, ?_⟩
  unfold Host.retire
  rw [bind_assoc]
  refine (Session.run_bind_of_ok
    (Session.run_lift (run_turnsNow_of_service (h.service_eq hseparate)))).trans ?_
  rw [hawait]
  dsimp only
  rw [bind_assoc]
  exact Session.run_bind_congr rfl fun t₁ s₁ _ => by rw [pure_bind]

theorem run_finish (hfollows : ∀ v, (turns v).Follows v)
    (hpatient : ∀ v, v.IsUngated → (turns v).IsPatient v) (hseparate : b.IsSeparate s₀ st format)
    (h : b.Written s₀ st format s) (howes : p.Owes (s₀.service st format) st.pool owed)
    (hpending : b.IsOwed s₀ pending owed) :
    (Session.host.finish (turnsNow turns st format) b p t pending).run.run s =
      (b.recordAll (pending.map fun e => b.resultOf s₀ st format e.names) t).run.run s := by
  induction hpending generalizing p t s with
  | nil => rfl
  | @cons oldest r pending owed hr hrest ih =>
    rw [List.map_cons, recordAll_cons]
    unfold Host.finish
    obtain ⟨q, hq, hretire⟩ := run_retire (t := t) hfollows hpatient hseparate h howes
      ⟨hr.1, hr.2.1⟩ fun e => Session.host.finish (turnsNow turns st format) b e.1 e.2 pending
    refine hretire.trans (Session.run_bind_congr rfl fun t₁ s₁ hrun => ?_)
    exact ih (h.record hseparate hr.2.2 hrun) hq

/-- What is done with a batch under way comes to the same as recording the results of what is pending
and of what comes after that. -/
def GoesOn (b : Batch) (s₀ : Session) (st : Settings) (format : OutputFormat)
    (later : List (List String)) (f : Progress → ExceptT Failure (StateM Session) Tally) : Prop :=
  ∀ p pending owed t s, b.Written s₀ st format s → p.Owes (s₀.service st format) st.pool owed →
    b.IsOwed s₀ pending owed →
    (f ⟨p, pending, t⟩).run.run s =
      (b.recordAll ((pending.map Pending.names ++ later).map (b.resultOf s₀ st format)) t).run.run s

/-- An input that finds room is the last one that is pending. -/
theorem run_attempt_of_room (hseparate : b.IsSeparate s₀ st format)
    (h : b.Written s₀ st format s) {source : List UInt8} {q : Pool} {id : Nat}
    (hsubmit : (turns (s₀.service st format)).submit p source = (q, .ok id)) :
    (Session.host.attempt (turnsNow turns st format) b names source ⟨p, pending, t⟩).run.run s =
      (.ok (.accepted ⟨q, pending ++ [⟨names, id⟩], t⟩), s) := by
  refine (Session.run_bind_of_ok (Session.run_lift
    (run_turnsNow_of_service (h.service_eq hseparate)))).trans ?_
  rw [hsubmit]
  rfl

/-- While the queue is full, the oldest pending input has its result recorded. -/
theorem run_attempt_of_full {α : Type} (hseparate : b.IsSeparate s₀ st format)
    (h : b.Written s₀ st format s) {source : List UInt8} {q : Pool} {capacity : Nat}
    (hsubmit : (turns (s₀.service st format)).submit p source = (q, .error (.queueFull capacity)))
    (oldest : Pending) (f : Attempt → ExceptT Failure (StateM Session) α) :
    (Session.host.attempt (turnsNow turns st format) b names source ⟨p, oldest :: pending, t⟩ >>=
        f).run.run s =
      (Session.host.retire (turnsNow turns st format) b q oldest t >>= fun e =>
        f (.retired ⟨e.1, pending, e.2⟩)).run.run s := by
  unfold Host.attempt
  rw [bind_assoc]
  refine (Session.run_bind_of_ok (Session.run_lift
    (run_turnsNow_of_service (h.service_eq hseparate)))).trans ?_
  rw [hsubmit]
  dsimp only
  rw [bind_assoc]
  exact Session.run_bind_congr rfl fun e s₁ _ => by rw [pure_bind]

/-- An input that finds room is left pending, and the batch goes on with it. -/
theorem GoesOn.run_submitInput_of_room {later : List (List String)}
    {f : Progress → ExceptT Failure (StateM Session) Tally} (hf : b.GoesOn s₀ st format later f)
    (hseparate : b.IsSeparate s₀ st format) (h : b.Written s₀ st format s)
    (hpending : b.IsOwed s₀ pending owed) (hnames : names ∈ b.inputs s₀) {q : Pool} {id : Nat}
    (hsubmit : (turns (s₀.service st format)).submit p (b.content s₀ names) = (q, .ok id))
    (howes : q.Owes (s₀.service st format) st.pool (owed ++ [⟨id, b.content s₀ names⟩])) :
    (Session.host.submitInput (turnsNow turns st format) b names (b.content s₀ names) p t pending >>=
        f).run.run s =
      (b.recordAll ((pending.map Pending.names ++ names :: later).map
        (b.resultOf s₀ st format)) t).run.run s := by
  have hrun : (Session.host.submitInput (turnsNow turns st format) b names (b.content s₀ names) p t
      pending).run.run s = (.ok ⟨q, pending ++ [⟨names, id⟩], t⟩, s) :=
    Session.run_bind_of_ok (run_attempt_of_room hseparate h hsubmit)
  refine (Session.run_bind_of_ok hrun).trans ?_
  rw [hf _ _ _ t s h howes (List.rel_append hpending (.cons ⟨rfl, rfl, hnames⟩ .nil))]
  simp

/-- An input is submitted, and the pending ones that are in its way are recorded. -/
theorem run_submitInput (hfollows : ∀ v, (turns v).Follows v)
    (hpatient : ∀ v, v.IsUngated → (turns v).IsPatient v) (hcapacity : 0 < st.pool.capacity)
    (hseparate : b.IsSeparate s₀ st format) {later : List (List String)}
    {f : Progress → ExceptT Failure (StateM Session) Tally} (hf : b.GoesOn s₀ st format later f)
    (h : b.Written s₀ st format s) (howes : p.Owes (s₀.service st format) st.pool owed)
    (hpending : b.IsOwed s₀ pending owed) (hnames : names ∈ b.inputs s₀) :
    (Session.host.submitInput (turnsNow turns st format) b names (b.content s₀ names) p t pending >>=
        f).run.run s =
      (b.recordAll ((pending.map Pending.names ++ names :: later).map
        (b.resultOf s₀ st format)) t).run.run s := by
  induction hpending generalizing p t s with
  | nil =>
    rcases (hfollows _).submit_owes hcapacity howes (b.content s₀ names) with
      ⟨id, q, hsubmit, hq⟩ | ⟨hne, -⟩
    · exact hf.run_submitInput_of_room hseparate h .nil hnames hsubmit hq
    · exact absurd rfl hne
  | @cons oldest r pending owed hr hrest ih =>
    rcases (hfollows _).submit_owes hcapacity howes (b.content s₀ names) with
      ⟨id, q, hsubmit, hq⟩ | ⟨-, q, hsubmit, hq⟩
    · exact hf.run_submitInput_of_room hseparate h (.cons hr hrest) hnames hsubmit hq
    · -- the oldest one has its result recorded, and the submission is tried again
      obtain ⟨q', hq', hretire⟩ := run_retire (t := t) hfollows hpatient hseparate h hq
        ⟨hr.1, hr.2.1⟩ fun e => Session.host.submitWithin (turnsNow turns st format) b names
          (b.content s₀ names) (pending.length + 1) ⟨e.1, pending, e.2⟩
      have hrecord : (Session.host.submitInput (turnsNow turns st format) b names
          (b.content s₀ names) p t (oldest :: pending)).run.run s =
            (Session.host.record b oldest.names (b.resultOf s₀ st format oldest.names).2 t >>=
              fun t => Session.host.submitInput (turnsNow turns st format) b names
                (b.content s₀ names) q' t pending).run.run s :=
        (run_attempt_of_full hseparate h hsubmit oldest _).trans hretire
      refine (Session.run_bind_congr hrecord fun _ _ _ => rfl).trans ?_
      rw [bind_assoc, List.map_cons, List.cons_append, List.map_cons, recordAll_cons]
      exact Session.run_bind_congr rfl fun t₁ s₁ hrun => ih (h.record hseparate hr.2.2 hrun) hq'

/-- Read and submit the inputs that are left, and record all results. -/
def courseFrom (b : Batch) (turns : Service → Turns) (st : Settings) (format : OutputFormat)
    (later : List (List String)) (p : Progress) : ExceptT Failure (StateM Session) Tally := do
  let p ← later.foldlM (Session.host.takeInput (turnsNow turns st format) b) p
  Session.host.finish (turnsNow turns st format) b p.pool p.tally p.pending

/-- All inputs are read and submitted, and their results recorded. -/
theorem goesOn_courseFrom (hfollows : ∀ v, (turns v).Follows v)
    (hpatient : ∀ v, v.IsUngated → (turns v).IsPatient v) (hcapacity : 0 < st.pool.capacity)
    (hseparate : b.IsSeparate s₀ st format) {later : List (List String)}
    (hlater : later ⊆ b.inputs s₀) :
    b.GoesOn s₀ st format later (b.courseFrom turns st format later) := by
  induction later with
  | nil =>
    intro p pending owed t s h howes hpending
    rw [List.append_nil, List.map_map]
    exact run_finish hfollows hpatient hseparate h howes hpending
  | cons names later ih =>
    intro p pending owed t s h howes hpending
    have hnames := hlater List.mem_cons_self
    have hrest := ih fun n hn => hlater (List.mem_cons_of_mem _ hn)
    unfold courseFrom
    rw [List.foldlM_cons, bind_assoc]
    unfold Host.takeInput
    rw [bind_assoc]
    refine (Session.run_bind_of_ok (Session.run_readFile_of_ok (h.read_eq hseparate hnames))).trans ?_
    exact run_submitInput hfollows hpatient hcapacity hseparate hrest h howes hpending hnames

/-! ## Whole batches -/

variable {i : Invocation}

/-- What comes first in a batch: its directory is looked at, and its files are listed. -/
theorem run_convertAll_eq (hfollows : ∀ v, (turns v).Follows v)
    (hpatient : ∀ v, v.IsUngated → (turns v).IsPatient v)
    (hst : (Session.host.settings i).run.run s₀ = (.ok st, s₀)) (hfits : st.pool.Fits)
    (hseparate : b.IsSeparate s₀ st format) :
    (Session.host.convertAll turns i b format).run.run s₀ =
      (Session.host.convertAllInOrder i b format).run.run s₀ := by
  have hstart := Session.start_of_settings hst hfits
  unfold Host.convertAll Host.convertAllInOrder
  refine Session.run_bind_congr rfl fun isDirectory s hrun => ?_
  cases hrun
  split
  · rfl
  · refine (Session.run_bind_of_ok hst).trans (Eq.trans ?_ (Session.run_bind_of_ok hst).symm)
    have hlist := s₀.run_filesBelow b.directory
    cases hfiles : s₀.disk.filesBelow b.directory with
    | error f =>
      rw [hfiles] at hlist
      exact (Session.run_bind_of_error (Session.run_orFail_of_error hlist)).trans
        (Session.run_bind_of_error (Session.run_orFail_of_error hlist)).symm
    | ok files =>
      rw [hfiles] at hlist
      refine (Session.run_bind_of_ok (Session.run_orFail_of_ok hlist)).trans
        (Eq.trans ?_ (Session.run_bind_of_ok (Session.run_orFail_of_ok hlist)).symm)
      rw [← inputs_eq hfiles]
      refine (Session.run_bind_of_ok (Session.run_startPool_of_ok hstart)).trans ?_
      -- both record what the inputs are converted to
      rw [run_convertNexts hseparate (.refl _) (List.Subset.refl _)]
      exact goesOn_courseFrom hfollows hpatient (Pool.capacity_pos_of_start hstart) hseparate
        (List.Subset.refl _) _ _ _ _ _ (.refl _) (Pool.owes_start hstart) .nil

theorem pairwise_inputs (b : Batch) (s : Session) :
    (b.inputs s).Pairwise fun x y => Disk.isInOrder x y = true := by
  unfold inputs
  split
  · next files hfiles => exact (Disk.pairwise_filesBelow hfiles).filter _
  · exact .nil

/-- No input is taken twice, if no place of the disk is listed twice. -/
theorem nodup_inputs (b : Batch) {s : Session} (hplaces : (s.disk.nodes.map Prod.fst).Nodup) :
    (b.inputs s).Nodup := by
  unfold inputs
  split
  · next files hfiles => exact (Disk.nodup_filesBelow hfiles hplaces).filter _
  · exact .nil

/-- When all inputs have been converted, what they are converted to has been recorded. -/
theorem runs_convertAllInOrder (hst : (Session.host.settings i).run.run s₀ = (.ok st, s₀))
    (hseparate : b.IsSeparate s₀ st format) :
    s₀.Runs (Session.host.convertAllInOrder i b format) fun t s' =>
      (b.recordAll (b.results s₀ st format) ⟨0, 0⟩).run.run s₀ = (.ok t, s') := by
  unfold Host.convertAllInOrder
  refine .bind (.lift rfl ?_)
  split
  · exact .bind (.throw nofun)
  · refine .bind (Session.runs_settings.and_run_eq.mono fun st' s₁ ⟨_, hrun⟩ => ?_)
    rw [hst] at hrun
    cases hrun
    refine .bind (.orFail (fun _ => nofun) fun files s₁ hrun => ?_)
    obtain ⟨hfiles, rfl⟩ := Prod.mk.inj hrun
    rw [← inputs_eq hfiles]
    refine ⟨fun r s' hx => ?_⟩
    rw [run_convertNexts hseparate (.refl _) (List.Subset.refl _)] at hx
    exact ((runs_recordAll s₀ b _ _).and_run_eq.mono fun _ _ h => h.2).of_run r s' hx

/-- These results are all that a batch leaves behind. -/
structure Leaves (b : Batch) (s₀ : Session) (rs : List (List String × Result)) (s₁ : Session) :
    Prop where
  /-- manifests are told, in order, and the results are summed up -/
  output_eq : s₁.output = s₀.output ++ String.join (rs.map b.line) ++ (count rs).summary
  /-- warnings and failures are told, in order -/
  messages_eq : s₁.messages = s₀.messages ++ String.join (rs.map b.told)
  /-- failures leave the files as they are without them -/
  disk_eq : s₁.disk = ((b.recordAll (rs.filter fun e => e.2.isOk) ⟨0, 0⟩).run.run s₀).2.disk

/-- A batch does what its inputs do one by one, in these ways: -/
structure IsInOrder (b : Batch) (turns : Service → Turns) (i : Invocation) (st : Settings)
    (format : OutputFormat) (s₀ : Session) : Prop where
  /-- both come to the same end in the same session -/
  run_eq : (Session.host.convertDirectory turns i b format).run.run s₀ =
    (Session.host.convertInOrder i b format).run.run s₀
  /-- the inputs are in order -/
  pairwise : (b.inputs s₀).Pairwise fun x y => Disk.isInOrder x y = true
  /-- no input is taken twice -/
  nodup : (s₀.disk.nodes.map Prod.fst).Nodup → (b.inputs s₀).Nodup
  /-- every input is converted, or it has failed -/
  count_add : (count (b.results s₀ st format)).converted + (count (b.results s₀ st format)).failed =
    (b.inputs s₀).length
  /-- what the inputs are converted to is all that is left behind -/
  leaves : ∀ r s₁, (Session.host.convertDirectory turns i b format).run.run s₀ = (r, s₁) →
    EndsNormally r → b.Leaves s₀ (b.results s₀ st format) s₁
  /-- the exit code tells whether some input has failed -/
  exit_iff : ∀ r s₁, (Session.host.convertDirectory turns i b format).run.run s₀ = (r, s₁) →
    EndsNormally r →
    (((Session.host.run turns { i with action := .batch b.directory b.outDirectory format }).run
      s₀).1 = 1 ↔ 0 < (count (b.results s₀ st format)).failed)

/-- A batch that comes to its end has recorded what its inputs are converted to. -/
theorem exists_run_convertAll (hfollows : ∀ v, (turns v).Follows v)
    (hpatient : ∀ v, v.IsUngated → (turns v).IsPatient v)
    (hst : (Session.host.settings i).run.run s₀ = (.ok st, s₀)) (hfits : st.pool.Fits)
    (hseparate : b.IsSeparate s₀ st format) {r : Except Failure Unit} {s₁ : Session}
    (hrun : (Session.host.convertDirectory turns i b format).run.run s₀ = (r, s₁))
    (hend : EndsNormally r) :
    ∃ s', (Session.host.convertAll turns i b format).run.run s₀ =
        (.ok (count (b.results s₀ st format)), s') ∧
      (b.recordAll (b.results s₀ st format) ⟨0, 0⟩).run.run s₀ =
        (.ok (count (b.results s₀ st format)), s') := by
  have hinOrder := runs_convertAllInOrder hst hseparate
  have hsame := run_convertAll_eq hfollows hpatient hst hfits hseparate
  have hall : s₀.Runs (Session.host.convertAll turns i b format) fun t s' =>
      (b.recordAll (b.results s₀ st format) ⟨0, 0⟩).run.run s₀ = (.ok t, s') :=
    ⟨fun r s' hx => hinOrder.of_run r s' (hsame ▸ hx)⟩
  obtain ⟨t, s', ⟨hrecord, hconvert⟩, -⟩ := exists_of_run_convertDirectory hall.and_run_eq hrun hend
  obtain ⟨rfl, -⟩ := (runs_recordAll s₀ b _ _).of_run _ _ hrecord
  rw [Tally.zero_add] at hrecord hconvert
  exact ⟨s', hconvert, hrecord⟩

/-- **A batch does what its inputs do one by one.** Whatever the workers are up to, it comes to the
same end as converting the inputs in order and without a pool. All results are told and counted, in
order, and failures leave nothing else behind. This holds as long as there can be a pool of the size
that is set, the inputs can be read, and no manifest is written over an input or into the store. -/
theorem isInOrder_of_isSeparate (hfollows : ∀ v, (turns v).Follows v)
    (hpatient : ∀ v, v.IsUngated → (turns v).IsPatient v)
    (hst : (Session.host.settings i).run.run s₀ = (.ok st, s₀)) (hfits : st.pool.Fits)
    (hseparate : b.IsSeparate s₀ st format) : b.IsInOrder turns i st format s₀ where
  run_eq := Session.run_bind_congr (run_convertAll_eq hfollows hpatient hst hfits hseparate)
    fun _ _ _ => rfl
  pairwise := b.pairwise_inputs s₀
  nodup := b.nodup_inputs
  count_add := by rw [Batch.count_add, results, List.length_map]
  leaves := by
    intro r s₁ hrun hend
    obtain ⟨s', hconvert, hrecord⟩ :=
      exists_run_convertAll hfollows hpatient hst hfits hseparate hrun hend
    obtain ⟨-, houtput, hmessages⟩ := (runs_recordAll s₀ b _ _).of_run _ _ hrecord
    have hfiles := (sameFiles_recordAll (s := s₀) ⟨rfl, rfl⟩ b (b.results s₀ st format) ⟨0, 0⟩ ⟨0, 0⟩).1
    rw [hrecord] at hfiles
    rw [run_convertDirectory_of_ok hconvert] at hrun
    cases hrun
    exact ⟨congrArg (· ++ _) houtput, hmessages, hfiles⟩
  exit_iff := by
    intro r s₁ hrun hend
    obtain ⟨s', hconvert, -⟩ :=
      exists_run_convertAll hfollows hpatient hst hfits hseparate hrun hend
    have hperform : (Session.host.perform turns
        { i with action := .batch b.directory b.outDirectory format }).run.run s₀ = _ :=
      run_convertDirectory_of_ok hconvert
    by_cases hfailed : 0 < (count (b.results s₀ st format)).failed
    · rw [if_pos hfailed] at hperform
      rw [Session.run_of_error hperform]
      exact iff_of_true rfl hfailed
    · rw [if_neg hfailed] at hperform
      rw [Session.run_of_ok hperform]
      exact iff_of_false (show (0 : UInt32) ≠ 1 by decide) hfailed

/-- Of two files one is converted, and the other one, in which two jobs need each other, is not. -/
theorem isInOrder_of_isSeparate_cycle :
    let s : Session := ⟨⟨[(["in"], .directory),
      (["in", "a.yml"], .file "jobs: {a: {}}".toUTF8.toList),
      (["in", "b.yml"], .file "jobs: {a: {needs: b}, b: {needs: a}}".toUTF8.toList)], []⟩,
      fun _ => none, "settings.toml", "", ""⟩
    let i : Invocation := ⟨.batch "in" "out" .yaml, none, .empty⟩
    let b : Batch := ⟨"in", "out"⟩
    let x := (Session.host.convertDirectory Turns.lazy i b .yaml).run.run s
    (Session.host.settings i).run.run s = (.ok .standard, s) ∧ Settings.standard.pool.Fits ∧
      b.IsSeparate s .standard .yaml ∧ b.IsInOrder Turns.lazy i .standard .yaml s ∧ EndsNormally x.1 ∧
      b.Leaves s (b.results s .standard .yaml) x.2 ∧ ((Session.host.run Turns.lazy i).run s).1 = 1 := by
  intro s i b x
  have hst : (Session.host.settings i).run.run s = (.ok .standard, s) :=
    Session.run_settings_of_toOption (by decide +kernel)
  have hwalk : (s.disk.walk b.directory).toOption = some (.found ["in"] .directory) := by
    decide +kernel
  have hfiles : s.disk.filesBelow b.directory = .ok [["a.yml"], ["b.yml"]] :=
    Disk.filesBelow_of_pairwise hwalk (by decide +kernel) (by decide +kernel)
  have hinputs : b.inputs s = [["a.yml"], ["b.yml"]] := by
    unfold inputs
    rw [hfiles]
    decide +kernel
  have hreadable : ∀ names ∈ [["a.yml"], ["b.yml"]],
      (s.disk.read (b.sourcePath names)).toOption.isSome := by
    decide +kernel
  have hapart : ∀ y ∈ [["a.yml"], ["b.yml"]], ∀ z ∈ [["a.yml"], ["b.yml"]],
      b.targetPlace s .yaml y ≠ b.sourcePlace s z := by
    decide +kernel
  have hseparate : b.IsSeparate s .standard .yaml := by
    refine ⟨fun names hnames => ?_, hinputs ▸ fun y hy _ => hapart y hy,
      fun _ _ _ _ hdirectory => nomatch hdirectory⟩
    have hread := hreadable names (hinputs ▸ hnames)
    cases h : s.disk.read (b.sourcePath names) with
    | ok content => exact ⟨content, rfl⟩
    | error f =>
      rw [h] at hread
      cases hread
  have hx : x = _ := run_convertDirectory_of_course (t := ⟨1, 1⟩) (by decide +kernel) hst hfiles rfl
    (by decide +kernel)
  have hend : EndsNormally x.1 := hx ▸ ⟨1, rfl⟩
  have hfits : Settings.standard.pool.Fits := by decide
  have hinOrder := isInOrder_of_isSeparate Turns.follows_lazy (fun v _ => Turns.isPatient_lazy v) hst
    hfits hseparate
  refine ⟨hst, hfits, hseparate, hinOrder, hend, hinOrder.leaves _ _ rfl hend,
    (hinOrder.exit_iff _ _ rfl hend).2 ?_⟩
  have hfailed : 0 < (count ([["a.yml"], ["b.yml"]].map (b.resultOf s .standard .yaml))).failed := by
    decide +kernel
  rwa [results, hinputs]

/-- Summing up adds nothing to the messages. -/
theorem messages_of_summed {x : Except Failure Unit × Session} {r : Except Failure Unit}
    {summary : String} (h : x = (r, { s' with output := s'.output ++ summary })) :
    x.2.messages = s'.messages := by
  rw [h]

/-- Inputs are converted one by one as they are listed. -/
theorem run_convertInOrder_of_files {files : List (List String)} {t : Tally}
    (hdirectory : s₀.disk.isDirectory b.directory = true)
    (hst : (Session.host.settings i).run.run s₀ = (.ok st, s₀))
    (hfiles : s₀.disk.filesBelow b.directory = .ok files)
    (ht : (((files.filter isWorkflow).foldlM (Session.host.convertNext b st format) ⟨0, 0⟩).run.run
      s₀).1.toOption = some t) :
    (Session.host.convertInOrder i b format).run.run s₀ =
      (if t.failed > 0 then .error (.someFailed t.failed) else .ok (),
        let s' := (((files.filter isWorkflow).foldlM (Session.host.convertNext b st format)
          ⟨0, 0⟩).run.run s₀).2
        { s' with output := s'.output ++ t.summary }) := by
  have hcheck := s₀.run_isDirectory b.directory
  rw [hdirectory] at hcheck
  have hlist := s₀.run_filesBelow b.directory
  rw [hfiles] at hlist
  have hall : (Session.host.convertAllInOrder i b format).run.run s₀ =
      ((files.filter isWorkflow).foldlM (Session.host.convertNext b st format) ⟨0, 0⟩).run.run s₀ := by
    refine (Session.run_bind_of_ok (Session.run_lift hcheck)).trans ?_
    refine (Session.run_bind_of_ok hst).trans ?_
    exact Session.run_bind_of_ok (Session.run_orFail_of_ok hlist)
  cases hfold : ((files.filter isWorkflow).foldlM (Session.host.convertNext b st format)
      ⟨0, 0⟩).run.run s₀ with
  | mk r s' =>
    rw [hfold] at ht hall
    cases r with
    | error f => cases ht
    | ok t' =>
      cases ht
      refine (Session.run_bind_of_ok hall).trans ?_
      by_cases hfailed : t.failed > 0
      · rw [if_pos hfailed, if_pos hfailed]
        rfl
      · rw [if_neg hfailed, if_neg hfailed]
        rfl

/-- Where manifests are written into the store, the order matters: in the pool a file may be converted
before the manifest that its label leads to is there, and one by one it is converted after that. -/
theorem lookup_before_manifest :
    let s : Session := ⟨⟨[(["in"], .directory),
      (["in", "gpu.yaml"], .file "jobs: {}".toUTF8.toList),
      (["in", "z.yaml"], .file "jobs: {a: {runs-on: gpu}}".toUTF8.toList)], []⟩,
      fun _ => none, "settings.toml", "", ""⟩
    let i : Invocation := ⟨.batch "in" "store/argo" .yaml, none,
      { Overrides.empty with storeDir := some "store" }⟩
    let st : Settings := { Settings.standard with storeDir := some "store" }
    let b : Batch := ⟨"in", "store/argo"⟩
    let x := (Session.host.convertDirectory Turns.lazy i b .yaml).run.run s
    let y := (Session.host.convertInOrder i b .yaml).run.run s
    (Session.host.settings i).run.run s = (.ok st, s) ∧
      (∀ names ∈ b.inputs s, ∀ names' ∈ b.inputs s,
        b.targetPlace s .yaml names ≠ b.sourcePlace s names') ∧
      EndsNormally x.1 ∧ EndsNormally y.1 ∧ x.2.messages ≠ y.2.messages := by
  intro s i st b x y
  have hst : (Session.host.settings i).run.run s = (.ok st, s) :=
    Session.run_settings_of_toOption (by decide +kernel)
  have hwalk : (s.disk.walk b.directory).toOption = some (.found ["in"] .directory) := by
    decide +kernel
  have hfiles : s.disk.filesBelow b.directory = .ok [["gpu.yaml"], ["z.yaml"]] :=
    Disk.filesBelow_of_pairwise hwalk (by decide +kernel) (by decide +kernel)
  have hinputs : b.inputs s = [["gpu.yaml"], ["z.yaml"]] := by
    unfold inputs
    rw [hfiles]
    decide +kernel
  have hapart : ∀ names ∈ [["gpu.yaml"], ["z.yaml"]], ∀ names' ∈ [["gpu.yaml"], ["z.yaml"]],
      b.targetPlace s .yaml names ≠ b.sourcePlace s names' := by
    decide +kernel
  have hcourse : ((b.course Turns.lazy st .yaml ([["gpu.yaml"], ["z.yaml"]].filter isWorkflow)
        (.fresh st.pool)).run.run s).1.toOption = some ⟨2, 0⟩ ∧
      ((b.course Turns.lazy st .yaml ([["gpu.yaml"], ["z.yaml"]].filter isWorkflow)
        (.fresh st.pool)).run.run s).2.messages ≠ "" := by
    decide +kernel
  have hfold : ((([["gpu.yaml"], ["z.yaml"]].filter isWorkflow).foldlM
        (Session.host.convertNext b st .yaml) ⟨0, 0⟩).run.run s).1.toOption = some ⟨2, 0⟩ ∧
      ((([["gpu.yaml"], ["z.yaml"]].filter isWorkflow).foldlM
        (Session.host.convertNext b st .yaml) ⟨0, 0⟩).run.run s).2.messages = "" := by
    decide +kernel
  have hx : x = _ := run_convertDirectory_of_course (by decide +kernel) hst hfiles rfl hcourse.1
  have hy : y = _ := run_convertInOrder_of_files (by decide +kernel) hst hfiles hfold.1
  refine ⟨hst, hinputs ▸ hapart, hx ▸ trivial, hy ▸ trivial, ?_⟩
  rw [messages_of_summed hx, messages_of_summed hy, hfold.2]
  exact hcourse.2

end Batch

end Command

end JobLoom
