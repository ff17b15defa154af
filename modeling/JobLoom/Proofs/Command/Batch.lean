import JobLoom.Proofs.Command.Session
import JobLoom.Proofs.Pool.Caller

/-!
# What a batch leaves behind

The manifests of a batch are written while other files of it are still to be read, and the workers
look into the store all the time. As long as what is written is in nobody's way, every file that is
told to be converted has its manifest in the end: the one that its content leads to, as it was at
the beginning.

* **Clear batches.** No manifest is written where another one is written, where a file is still to
  be read, or on the way to an entry of the store.
* **Records.** The results are recorded one after the other, in the order of the inputs; each step
  keeps what was recorded before.
-/

namespace JobLoom

/-- A manifest that is answered is the one of the conversion. -/
theorem Service.AnswersTo.convert_eq {s : Service} {source : List UInt8} {o : Output}
    (h : s.AnswersTo source (.ok o)) : s.converter.convert s.store source = .done o := by
  unfold Service.AnswersTo at h
  split at h
  · next o' ho' =>
    cases h
    exact ho'
  · cases h
  · obtain ⟨_, _, _, _, _, _, h⟩ := h
    cases h

theorem Converter.format_of_convert {c : Converter} {store : Store} {bytes : List UInt8}
    {o : Output} (h : c.convert store bytes = .done o) : o.format = c.format := by
  unfold convert at h
  split at h
  · cases h
  · split at h
    · cases h
    · cases h
    · cases h
      rfl

namespace Command

/-! ## What a session converts with -/

namespace Session

/-- What the commands of a session convert with. -/
def service (s : Session) (st : Settings) (format : OutputFormat) : Service :=
  ((host.service st format).run s).1

variable {s s' : Session} {st : Settings} {format : OutputFormat}

/-- Looking at the store changes nothing. -/
theorem run_service (s : Session) (st : Settings) (format : OutputFormat) :
    (host.service st format).run s = (s.service st format, s) := by
  unfold service Host.service
  cases st.storeDir <;> rfl

theorem format_service : (s.service st format).converter.format = format := by
  unfold service Host.service
  cases st.storeDir <;> rfl

/-- As long as the entries of the store read the same, conversions are the same. -/
theorem service_congr (h : ∀ directory, st.storeDir = some directory → ∀ key path,
      DirectoryStore.entryPath? ⟨directory⟩ st.space key = some path →
        s'.disk.read path = s.disk.read path) :
    s'.service st format = s.service st format := by
  unfold service Host.service
  cases hdir : st.storeDir with
  | none => rfl
  | some directory =>
    have hstore : ((DirectoryStore.mk directory).toStore s'.disk.read).within st.space =
        ((DirectoryStore.mk directory).toStore s.disk.read).within st.space := by
      funext space key
      unfold Store.within
      split
      · next hspace =>
        subst hspace
        unfold DirectoryStore.toStore
        cases hpath : DirectoryStore.entryPath? ⟨directory⟩ st.space key with
        | none => rfl
        | some path => simp only [h directory hdir key path hpath]
      · rfl
    exact congrArg (fun store => Service.mk (st.converter format) store fun _ _ => false) hstore

end Session

/-! ## Clear batches -/

namespace Batch

/-- The workflow files below the directory of a batch, in order. -/
def inputs (b : Batch) (s : Session) : List (List String) :=
  match s.disk.filesBelow b.directory with
  | .ok files => files.filter isWorkflow
  | .error _ => []

/-- The place of an input. -/
def sourcePlace (b : Batch) (s : Session) (names : List String) : Place :=
  Path.placeOf s.disk.start (b.sourcePath names)

/-- The place of the manifest for an input. -/
def targetPlace (b : Batch) (s : Session) (format : OutputFormat) (names : List String) : Place :=
  Path.placeOf s.disk.start (b.targetPath names format)

/-- The places that are written, or may become directories, for the manifest of an input. -/
def Passes (b : Batch) (s : Session) (format : OutputFormat) (names : List String) (p : Place) :
    Prop :=
  p ∈ Path.way s.disk.start (Path.parent (b.targetPath names format)) ∨
    p = b.targetPlace s format names

/-- What an input is converted to, with everything as it is in this session. -/
def conversion? (b : Batch) (s : Session) (st : Settings) (format : OutputFormat)
    (names : List String) : Option Output :=
  match s.disk.node? (b.sourcePlace s names) with
  | some (.file content) =>
    match (s.service st format).converter.convert (s.service st format).store content with
    | .done o => some o
    | _ => none
  | _ => none

/-- What a batch writes is in nobody's way. -/
structure IsClear (b : Batch) (s : Session) (st : Settings) (format : OutputFormat) : Prop where
  /-- a manifest is not written to the place of a later input, nor to that of its manifest -/
  apart : (b.inputs s).Pairwise fun x y => (b.conversion? s st format x).isSome →
    b.targetPlace s format x ≠ b.sourcePlace s y ∧
      ((b.conversion? s st format y).isSome → b.targetPlace s format x ≠ b.targetPlace s format y)
  /-- on the way to an entry of the store a manifest finds directories only -/
  store : ∀ x ∈ b.inputs s, (b.conversion? s st format x).isSome →
    ∀ directory, st.storeDir = some directory →
      ∀ key path, DirectoryStore.entryPath? ⟨directory⟩ st.space key = some path →
        ∀ p ∈ Path.way s.disk.start path, b.Passes s format x p →
          s.disk.node? p = some .directory

/-! ## Records -/

/-- The line that is told about a result. -/
def line (b : Batch) (e : List String × Result) : String :=
  match e.2 with
  | .ok o => Host.doneLine (b.sourcePath e.1) (b.targetPath e.1 o.format)
  | .error _ => ""

/-- How many results are manifests and how many are not. -/
def count (rs : List (List String × Result)) : Tally :=
  ⟨rs.countP fun e => e.2.isOk, rs.countP fun e => !e.2.isOk⟩

/-- These results have been recorded, one after the other, since a session `s₀`. -/
structure Recorded (b : Batch) (s₀ : Session) (st : Settings) (format : OutputFormat)
    (rs : List (List String × Result)) (s : Session) : Prop where
  /-- a manifest is what its input was converted to at the beginning -/
  conversion?_eq : ∀ names o, (names, .ok o) ∈ rs → b.conversion? s₀ st format names = some o
  /-- the disk has changed as far as manifests were written -/
  changes : s₀.disk.Changes s.disk
    (fun p => ∃ names o, (names, .ok o) ∈ rs ∧ p = b.targetPlace s₀ format names)
    (fun p => ∃ names ∈ b.inputs s₀,
      (b.conversion? s₀ st format names).isSome ∧ b.Passes s₀ format names p)
  /-- the manifests are there -/
  read_eq : ∀ names o, (names, .ok o) ∈ rs →
    s.disk.read (b.targetPath names format) = .ok (Text.Utf8.encode o.payload)
  /-- they have been told, in order -/
  output_eq : s.output = s₀.output ++ String.join (rs.map b.line)

variable {b : Batch} {s₀ s : Session} {st : Settings} {format : OutputFormat}
  {rs : List (List String × Result)} {names : List String}

theorem inputs_eq {files : List (List String)} (h : s.disk.filesBelow b.directory = .ok files) :
    b.inputs s = files.filter isWorkflow := by
  rw [inputs, h]

theorem recorded_nil : b.Recorded s₀ st format [] s₀ where
  conversion?_eq := nofun
  changes := .refl _
  read_eq := nofun
  output_eq := (String.append_empty).symm

theorem format_of_conversion {o : Output} (h : b.conversion? s₀ st format names = some o) :
    o.format = format := by
  unfold conversion? at h
  split at h
  · split at h
    · next o' ho' =>
      cases h
      rw [Converter.format_of_convert ho', Session.format_service]
    · cases h
  · cases h

/-- On the way to an entry of the store manifests find directories only. -/
def SparesStore (b : Batch) (s : Session) (st : Settings) (format : OutputFormat) : Prop :=
  ∀ x ∈ b.inputs s, (b.conversion? s st format x).isSome →
    ∀ directory, st.storeDir = some directory →
      ∀ key path, DirectoryStore.entryPath? ⟨directory⟩ st.space key = some path →
        ∀ p ∈ Path.way s.disk.start path, b.Passes s format x p → s.disk.node? p = some .directory

/-- The places that are written, or may become directories, for the manifests of all inputs. -/
def PassesAny (b : Batch) (s : Session) (st : Settings) (format : OutputFormat) (p : Place) : Prop :=
  ∃ names ∈ b.inputs s, (b.conversion? s st format names).isSome ∧ b.Passes s format names p

/-- As long as only manifests are written and they spare the store, conversions stay the same. -/
theorem service_eq_of_changes {written : Place → Prop}
    (h : s₀.disk.Changes s.disk written (b.PassesAny s₀ st format))
    (hstore : b.SparesStore s₀ st format) : s.service st format = s₀.service st format := by
  refine Session.service_congr fun directory hdir key path hpath => ?_
  refine Disk.read_congr h.start_eq fun p hp => ?_
  by_cases hpasses : b.PassesAny s₀ st format p
  · -- what manifests pass on the way to an entry is a directory, and stays one
    obtain ⟨names, hmem, hsome, hpass⟩ := hpasses
    have hdirectory := hstore names hmem hsome directory hdir key path hpath p hp hpass
    rw [hdirectory]
    exact h.directory p hdirectory
  · exact h.elsewhere p hpasses

/-- Writing a manifest changes the disk on the way to it and there only. -/
theorem changes_of_write {d d' : Disk} {content : List UInt8}
    (hstart : s.disk.start = s₀.disk.start)
    (hmake : s.disk.makeDirectories (Path.parent (b.targetPath names format)) = .ok d)
    (hwrite : d.write (b.targetPath names format) content = .ok d') :
    s.disk.Changes d' (· = b.targetPlace s₀ format names) (b.Passes s₀ format names) := by
  have hmade := Disk.changes_makeDirectories hmake
  obtain ⟨hwritten, -⟩ := Disk.write_eq_ok hwrite
  rw [hstart] at hmade
  rw [hmade.start_eq, hstart] at hwritten
  exact (hmade.mono (fun _ h => h.elim) fun _ hp => .inl hp).trans
    (hwritten.mono (fun _ h => h) fun _ hp => .inr hp)

namespace Recorded

/-- In a clear batch, conversions stay the same. -/
theorem service_eq (h : b.Recorded s₀ st format rs s) (hclear : b.IsClear s₀ st format) :
    s.service st format = s₀.service st format := service_eq_of_changes h.changes hclear.store

/-- In a clear batch, a manifest that is recorded was written neither to the place of an input that is
still to come, nor to that of its manifest. -/
theorem apart (h : b.Recorded s₀ st format rs s) (hclear : b.IsClear s₀ st format)
    {later : List (List String)} (hinputs : b.inputs s₀ = rs.map Prod.fst ++ later)
    (hnames : names ∈ later) {earlier : List String} {o : Output} (ho : (earlier, .ok o) ∈ rs) :
    b.targetPlace s₀ format earlier ≠ b.sourcePlace s₀ names ∧
      ((b.conversion? s₀ st format names).isSome →
        b.targetPlace s₀ format earlier ≠ b.targetPlace s₀ format names) := by
  have hpairs := hclear.apart
  rw [hinputs] at hpairs
  refine (List.pairwise_append.1 hpairs).2.2 earlier (List.mem_map_of_mem ho) names hnames ?_
  rw [h.conversion?_eq earlier o ho]
  rfl

/-- An input that no manifest was written over reads as at the beginning. -/
theorem node?_of_read (h : b.Recorded s₀ st format rs s) {content : List UInt8}
    (hread : s.disk.read (b.sourcePath names) = .ok content)
    (hapart : ∀ names' o, (names', .ok o) ∈ rs →
      b.targetPlace s₀ format names' ≠ b.sourcePlace s₀ names) :
    s₀.disk.node? (b.sourcePlace s₀ names) = some (.file content) := by
  have hnode := Disk.node?_of_read hread
  rw [h.changes.start_eq] at hnode
  refine (h.changes.file_iff _ content ?_).1 hnode
  rintro ⟨names', o, hmem, heq⟩
  exact hapart names' o hmem heq.symm

theorem concat_error (h : b.Recorded s₀ st format rs s) (e : ConvertError) (messages : String) :
    b.Recorded s₀ st format (rs ++ [(names, .error e)]) { s with messages := messages } := by
  have hmem (names' : List String) (o : Output) :
      (names', Except.ok o) ∈ rs ++ [(names, .error e)] ↔ (names', .ok o) ∈ rs := by
    simp
  refine ⟨fun names' o ho => ?_, ?_, fun names' o ho => ?_, ?_⟩
  · exact h.conversion?_eq names' o ((hmem names' o).1 ho)
  · simpa only [hmem] using h.changes
  · exact h.read_eq names' o ((hmem names' o).1 ho)
  · rw [List.map_append, String.join_append]
    change s.output = _
    rw [h.output_eq]
    simp [line]

theorem concat_ok (h : b.Recorded s₀ st format rs s) {o : Output} (messages : String)
    (hnames : names ∈ b.inputs s₀) (ho : b.conversion? s₀ st format names = some o)
    (hapart : ∀ names' o', (names', .ok o') ∈ rs →
      b.targetPlace s₀ format names' ≠ b.targetPlace s₀ format names) {d d' : Disk}
    (hmake : s.disk.makeDirectories (Path.parent (b.targetPath names format)) = .ok d)
    (hwrite : d.write (b.targetPath names format) (Text.Utf8.encode o.payload) = .ok d') :
    b.Recorded s₀ st format (rs ++ [(names, .ok o)])
      { s with
        disk := d'
        output := s.output ++ b.line (names, .ok o)
        messages := messages } := by
  have hread := (Disk.write_eq_ok hwrite).2
  have hstep := changes_of_write h.changes.start_eq hmake hwrite
  refine ⟨fun names' o' ho' => ?_, ?_, fun names' o' ho' => ?_, ?_⟩
  · rcases List.mem_append.1 ho' with hold | hnew
    · exact h.conversion?_eq names' o' hold
    · cases List.mem_singleton.1 hnew
      exact ho
  · refine (h.changes.mono ?_ fun _ hp => hp).trans (hstep.mono ?_ ?_)
    · rintro p ⟨names', o', hold, hp⟩
      exact ⟨names', o', List.mem_append_left _ hold, hp⟩
    · intro p hp
      exact ⟨names, o, List.mem_append_right _ List.mem_cons_self, hp⟩
    · exact fun p hp => ⟨names, hnames, by rw [ho]; rfl, hp⟩
  · rcases List.mem_append.1 ho' with hold | hnew
    · have hbefore := h.read_eq names' o' hold
      have hnode := Disk.node?_of_read hbefore
      refine Disk.read_of_changes hstep hbefore ((hstep.file_iff _ _ ?_).2 hnode)
      rw [h.changes.start_eq]
      exact hapart names' o' hold
    · cases List.mem_singleton.1 hnew
      exact hread
  · rw [List.map_append, String.join_append, ← String.append_assoc, ← h.output_eq]
    simp [line]

end Recorded

/-! ## Recording -/

theorem count_concat_ok (o : Output) : count (rs ++ [(names, .ok o)]) =
    { count rs with converted := (count rs).converted + 1 } := by
  simp [count, Except.isOk, Except.toBool]

theorem count_concat_error (e : ConvertError) : count (rs ++ [(names, .error e)]) =
    { count rs with failed := (count rs).failed + 1 } := by
  simp [count, Except.isOk, Except.toBool]

/-- In a clear batch, the result for the next input is recorded. -/
theorem runs_record (h : b.Recorded s₀ st format rs s) (hclear : b.IsClear s₀ st format)
    {later : List (List String)} (hinputs : b.inputs s₀ = rs.map Prod.fst ++ names :: later)
    {x : Result} (hx : ∀ o, x = .ok o → b.conversion? s₀ st format names = some o) :
    s.Runs (Session.host.record b names x (count rs)) fun t s' =>
      b.Recorded s₀ st format (rs ++ [(names, x)]) s' ∧ t = count (rs ++ [(names, x)]) := by
  cases x with
  | error e =>
    refine .bind (Session.runs_warn (.pure ⟨h.concat_error e _, ?_⟩))
    exact (count_concat_error e).symm
  | ok o =>
    have ho := hx o rfl
    have hapart : ∀ names' o', (names', .ok o') ∈ rs →
        b.targetPlace s₀ format names' ≠ b.targetPlace s₀ format names := fun names' o' hold =>
      (h.apart hclear hinputs List.mem_cons_self hold).2 (by rw [ho]; rfl)
    have hnames : names ∈ b.inputs s₀ := by
      rw [hinputs]
      exact List.mem_append_right _ List.mem_cons_self
    have hformat := format_of_conversion ho
    refine .bind (Session.runs_tellWarnings fun messages => ?_)
    refine .bind (Session.runs_makeDirectories fun d hmake => ?_)
    refine .bind (Session.runs_writeFile fun d' hwrite => ?_)
    refine .bind (Session.runs_print (.pure ⟨?_, (count_concat_ok o).symm⟩))
    rw [hformat] at hmake hwrite
    exact h.concat_ok messages hnames ho hapart hmake hwrite

/-! ## Waiting -/

/-- A pool has accepted the pending inputs, with the content that they had at the beginning. -/
def Awaits (b : Batch) (s₀ : Session) (st : Settings) (format : OutputFormat) (p : Pool)
    (pending : List Pending) : Prop :=
  ∃ owed, p.Serves (s₀.service st format) st.pool owed ∧ ∀ e ∈ pending, ∃ r ∈ owed,
    r.id = e.ticket ∧ s₀.disk.node? (b.sourcePlace s₀ e.names) = some (.file r.source)

namespace Awaits

variable {p q : Pool} {pending : List Pending} {t : Turns}

theorem submit (h : b.Awaits s₀ st format p pending) (ht : t.Follows (s₀.service st format))
    {source : List UInt8} {x : Except ConvertError Nat} (hx : t.submit p source = (q, x))
    (hsource : s₀.disk.node? (b.sourcePlace s₀ names) = some (.file source)) :
    b.Awaits s₀ st format q pending ∧
      ∀ id, x = .ok id → b.Awaits s₀ st format q (pending ++ [⟨names, id⟩]) := by
  obtain ⟨owed, hserves, howed⟩ := h
  obtain ⟨hafter, hnew⟩ := ht.submit hserves hx
  refine ⟨⟨owed, hafter, howed⟩, fun id hid => ⟨_, hnew id hid, fun e he => ?_⟩⟩
  rcases List.mem_append.1 he with he | he
  · obtain ⟨r, hr, hticket, hnode⟩ := howed e he
    exact ⟨r, List.mem_append_left _ hr, hticket, hnode⟩
  · cases List.mem_singleton.1 he
    exact ⟨⟨id, source⟩, List.mem_append_right _ List.mem_cons_self, rfl, hsource⟩

/-- The oldest input is waited for: if a manifest comes out, it is the right one. -/
theorem await {oldest : Pending} (h : b.Awaits s₀ st format p (oldest :: pending))
    (ht : t.Follows (s₀.service st format)) {x : Result}
    (hx : t.await p oldest.ticket = (q, x)) : b.Awaits s₀ st format q pending ∧
      ∀ o, x = .ok o → b.conversion? s₀ st format oldest.names = some o := by
  obtain ⟨owed, hserves, howed⟩ := h
  obtain ⟨r, hr, hticket, hnode⟩ := howed oldest List.mem_cons_self
  rw [← hticket] at hx
  obtain ⟨hafter, hanswer⟩ := ht.await hserves hr hx
  refine ⟨⟨owed, hafter, fun e he => howed e (List.mem_cons_of_mem _ he)⟩, ?_⟩
  rintro o rfl
  rcases hanswer with hlost | hanswer
  · cases hlost
  · simp only [conversion?, hnode, hanswer.convert_eq]

end Awaits

/-! ## Whole batches -/

/-- A batch is under way: these inputs have been read, some of them have their results, and the
others are pending. -/
structure Underway (b : Batch) (s₀ : Session) (st : Settings) (format : OutputFormat)
    (taken : List (List String)) (p : Progress) (s : Session) : Prop where
  /-- what is recorded, what is counted and what is left -/
  exists_recorded : ∃ rs, b.Recorded s₀ st format rs s ∧ p.tally = count rs ∧
    rs.map Prod.fst ++ p.pending.map Pending.names = taken
  /-- the pool has accepted what is pending -/
  awaits : b.Awaits s₀ st format p.pool p.pending

/-- How far the workers get, now. -/
def turnsNow (turns : Service → Turns) (st : Settings) (format : OutputFormat) :
    StateM Session Turns := return turns (← Session.host.service st format)

variable {turns : Service → Turns}

/-- As long as conversions stay the same, the workers always move in the same way. -/
theorem run_turnsNow_of_service (h : s.service st format = s₀.service st format) :
    (turnsNow turns st format).run s = (turns (s₀.service st format), s) := by
  unfold turnsNow
  rw [StateT.run_bind, Session.run_service, h]
  rfl

theorem run_turnsNow (h : b.Recorded s₀ st format rs s) (hclear : b.IsClear s₀ st format) :
    (turnsNow turns st format).run s = (turns (s₀.service st format), s) :=
  run_turnsNow_of_service (h.service_eq hclear)

/-- In a clear batch, the oldest pending input has its result recorded. -/
theorem runs_retire (hturns : ∀ v, (turns v).Follows v) (hclear : b.IsClear s₀ st format)
    {taken later : List (List String)} {oldest : Pending} {pending : List Pending} {pool : Pool}
    {t : Tally} (h : b.Underway s₀ st format taken ⟨pool, oldest :: pending, t⟩ s)
    (hinputs : b.inputs s₀ = taken ++ later) :
    s.Runs (Session.host.retire (turnsNow turns st format) b pool oldest t) fun e s' =>
      b.Underway s₀ st format taken ⟨e.1, pending, e.2⟩ s' := by
  obtain ⟨⟨rs, hrs, rfl, rfl⟩, hawaits⟩ := h
  rw [List.map_cons, List.append_assoc, List.cons_append] at hinputs
  refine .bind (.lift (run_turnsNow hrs hclear) ?_)
  cases hx : (turns (s₀.service st format)).await pool oldest.ticket with
  | mk q x =>
    obtain ⟨hafter, hconversion⟩ := hawaits.await (hturns _) hx
    refine .bind ((runs_record hrs hclear hinputs hconversion).mono fun t s₁ ⟨h₁, ht⟩ => ?_)
    exact .pure ⟨⟨_, h₁, ht, by simp⟩, hafter⟩

theorem runs_finish (hturns : ∀ v, (turns v).Follows v) (hclear : b.IsClear s₀ st format)
    {pending : List Pending} {pool : Pool} {t : Tally}
    (h : b.Underway s₀ st format (b.inputs s₀) ⟨pool, pending, t⟩ s) :
    s.Runs (Session.host.finish (turnsNow turns st format) b pool t pending) fun t s' =>
      ∃ rs, b.Recorded s₀ st format rs s' ∧ t = count rs ∧ rs.map Prod.fst = b.inputs s₀ := by
  induction pending generalizing pool t s with
  | nil =>
    obtain ⟨⟨rs, hrs, ht, hnames⟩, -⟩ := h
    rw [List.map_nil, List.append_nil] at hnames
    exact .pure ⟨rs, hrs, ht, hnames⟩
  | cons oldest pending ih =>
    have hinputs : b.inputs s₀ = b.inputs s₀ ++ [] := (List.append_nil _).symm
    exact .bind ((runs_retire hturns hclear h hinputs).mono fun e s₁ h₁ => ih h₁)

/-- In a clear batch, an attempt to submit an input leaves all inputs in order. -/
theorem runs_attempt (hturns : ∀ v, (turns v).Follows v) (hclear : b.IsClear s₀ st format)
    {taken later : List (List String)} {source : List UInt8} {p : Progress}
    (h : b.Underway s₀ st format taken p s) (hinputs : b.inputs s₀ = taken ++ names :: later)
    (hsource : s₀.disk.node? (b.sourcePlace s₀ names) = some (.file source)) :
    s.Runs (Session.host.attempt (turnsNow turns st format) b names source p) fun x s' =>
      match x with
      | .accepted q => b.Underway s₀ st format (taken ++ [names]) q s'
      | .retired q | .yielded q => b.Underway s₀ st format taken q s' := by
  obtain ⟨pool, pending, tally⟩ := p
  obtain ⟨⟨rs, hrs, htally, hnames⟩, hawaits⟩ := h
  refine .bind (.lift (run_turnsNow hrs hclear) ?_)
  cases hx : (turns (s₀.service st format)).submit pool source with
  | mk q x =>
    obtain ⟨hbefore, hafter⟩ := hawaits.submit (hturns _) hx hsource
    cases x with
    | ok id =>
      refine .pure ⟨⟨rs, hrs, htally, ?_⟩, hafter id rfl⟩
      rw [← hnames, List.map_append, List.append_assoc]
      rfl
    | error e =>
      cases e with
      | queueFull capacity =>
        cases pending with
        | nil => exact .pure ⟨⟨rs, hrs, htally, hnames⟩, hbefore⟩
        | cons oldest rest =>
          have hq : b.Underway s₀ st format taken ⟨q, oldest :: rest, tally⟩ s :=
            ⟨⟨rs, hrs, htally, hnames⟩, hbefore⟩
          exact .bind ((runs_retire hturns hclear hq hinputs).mono fun e s₁ h₁ => .pure h₁)
      | _ => exact .throw nofun

/-- In a clear batch, an input that has been read is submitted, and the pending ones in the way are
recorded. -/
theorem runs_submitWithin (hturns : ∀ v, (turns v).Follows v) (hclear : b.IsClear s₀ st format)
    {taken later : List (List String)} {source : List UInt8} (n : Nat) {p : Progress}
    (h : b.Underway s₀ st format taken p s) (hinputs : b.inputs s₀ = taken ++ names :: later)
    (hsource : s₀.disk.node? (b.sourcePlace s₀ names) = some (.file source)) :
    s.Runs (Session.host.submitWithin (turnsNow turns st format) b names source n p)
      (b.Underway s₀ st format (taken ++ [names])) := by
  induction n generalizing p s with
  | zero => exact .throw nofun
  | succ n ih =>
    refine .bind ((runs_attempt hturns hclear h hinputs hsource).mono fun x s₁ hx => ?_)
    cases x with
    | accepted q => exact .pure hx
    | retired q | yielded q => exact ih hx

/-- In a clear batch, the next input is read, as it was at the beginning, and submitted. -/
theorem runs_takeInput (hturns : ∀ v, (turns v).Follows v) (hclear : b.IsClear s₀ st format)
    {taken later : List (List String)} {p : Progress} (h : b.Underway s₀ st format taken p s)
    (hinputs : b.inputs s₀ = taken ++ names :: later) :
    s.Runs (Session.host.takeInput (turnsNow turns st format) b p names)
      (b.Underway s₀ st format (taken ++ [names])) := by
  obtain ⟨rs, hrs, -, hnames⟩ := h.exists_recorded
  have hrecorded := hinputs
  rw [← hnames, List.append_assoc] at hrecorded
  refine .bind (Session.runs_readFile fun source hread => ?_)
  have hsource := hrs.node?_of_read hread fun names' o hold =>
    (hrs.apart hclear hrecorded (List.mem_append_right _ List.mem_cons_self) hold).1
  exact runs_submitWithin hturns hclear _ h hinputs hsource

/-- In a clear batch, all inputs are read and submitted. -/
theorem runs_takeInputs (hturns : ∀ v, (turns v).Follows v) (hclear : b.IsClear s₀ st format)
    {taken later : List (List String)} {p : Progress} (h : b.Underway s₀ st format taken p s)
    (hinputs : b.inputs s₀ = taken ++ later) :
    s.Runs (later.foldlM (Session.host.takeInput (turnsNow turns st format) b) p)
      (b.Underway s₀ st format (b.inputs s₀)) := by
  induction later generalizing taken p s with
  | nil =>
    rw [List.append_nil] at hinputs
    exact .pure (hinputs ▸ h)
  | cons names later ih =>
    rw [List.foldlM_cons]
    refine .bind ((runs_takeInput hturns hclear h hinputs).mono fun q s₁ h₁ => ?_)
    refine ih h₁ ?_
    rw [hinputs, List.append_assoc]
    rfl

/-- In a clear batch, all inputs have their results recorded in the end. -/
theorem runs_convertAll {i : Invocation} (hturns : ∀ v, (turns v).Follows v)
    (hst : (Session.host.settings i).run.run s₀ = (.ok st, s₀)) (hclear : b.IsClear s₀ st format) :
    s₀.Runs (Session.host.convertAll turns i b format) fun t s' =>
      ∃ rs, b.Recorded s₀ st format rs s' ∧ t = count rs ∧ rs.map Prod.fst = b.inputs s₀ := by
  unfold Host.convertAll
  refine .bind (.lift rfl ?_)
  have hrest : s₀.Runs (do
      let st ← Session.host.settings i
      let inputs ← Host.orFail (.unlistable b.directory) (Session.host.filesBelow b.directory)
      let pool ← Host.startPool st.pool
      let p ← (inputs.filter isWorkflow).foldlM
        (Session.host.takeInput (turnsNow turns st format) b) ⟨pool, [], ⟨0, 0⟩⟩
      Session.host.finish (turnsNow turns st format) b p.pool p.tally p.pending) fun t s' =>
        ∃ rs, b.Recorded s₀ st format rs s' ∧ t = count rs ∧ rs.map Prod.fst = b.inputs s₀ := by
    refine .bind (Session.runs_settings.and_run_eq.mono fun st' s₁ ⟨⟨hsame, _⟩, hrun⟩ => ?_)
    rw [hst] at hrun
    cases hrun
    refine .bind (.orFail (fun _ => nofun) fun files s₁ hrun => ?_)
    obtain ⟨hfiles, rfl⟩ := Prod.mk.inj hrun
    have hinputs : b.inputs s₀ = files.filter isWorkflow := inputs_eq hfiles
    refine .bind (Session.runs_startPool fun pool hpool => ?_)
    have hstart : b.Underway s₀ st format [] ⟨pool, [], ⟨0, 0⟩⟩ s₀ :=
      ⟨⟨[], recorded_nil, rfl, rfl⟩, [], Pool.serves_start hpool, nofun⟩
    rw [← hinputs]
    exact .bind ((runs_takeInputs hturns hclear hstart rfl).mono fun p s₁ hp =>
      runs_finish hturns hclear hp)
  split
  · exact .bind (.throw nofun)
  · exact hrest

/-! ## What is left behind -/

/-- A batch comes to its end, even if some files of it could not be converted. -/
def EndsNormally : Except Failure Unit → Prop
  | .ok _ => True
  | .error f => ∃ n, f = .someFailed n

/-- When all results are recorded they are summed up, and nothing else happens. -/
theorem run_convertDirectory_of_ok {i : Invocation} {s₁ : Session} {t : Tally}
    (hall : (Session.host.convertAll turns i b format).run.run s₀ = (.ok t, s₁)) :
    (Session.host.convertDirectory turns i b format).run.run s₀ =
      (if t.failed > 0 then .error (.someFailed t.failed) else .ok (),
        { s₁ with output := s₁.output ++ t.summary }) := by
  refine (Session.run_bind_of_ok hall).trans ?_
  by_cases hfailed : t.failed > 0
  · rw [if_pos hfailed, if_pos hfailed]
    rfl
  · rw [if_neg hfailed, if_neg hfailed]
    rfl

/-- A batch that comes to its end has recorded all results. -/
theorem exists_of_run_convertDirectory {i : Invocation} {s₁ : Session} {r : Except Failure Unit}
    {post : Tally → Session → Prop}
    (hall : s₀.Runs (Session.host.convertAll turns i b format) post)
    (hrun : (Session.host.convertDirectory turns i b format).run.run s₀ = (r, s₁))
    (hend : EndsNormally r) :
    ∃ t s', post t s' ∧ s₁ = { s' with output := s'.output ++ t.summary } := by
  cases hx : (Session.host.convertAll turns i b format).run.run s₀ with
  | mk x s' =>
    have hpost := hall.of_run x s' hx
    cases x with
    | ok t =>
      rw [run_convertDirectory_of_ok hx] at hrun
      exact ⟨t, s', hpost, (Prod.mk.inj hrun).2.symm⟩
    | error f =>
      unfold Host.convertDirectory at hrun
      rw [ExceptT.run_bind, StateT.run_bind, hx] at hrun
      cases hrun
      obtain ⟨n, rfl⟩ := hend
      exact absurd rfl (hpost n)

/-- **Nothing that is converted gets lost.** When a batch that is clear comes to its end, whatever
the workers were up to in the meantime, its inputs have their results in order, and the output tells
which of them are converted. Where it tells that a manifest was written, there is the manifest that
the content of the input leads to, as it was at the beginning. -/
theorem manifests_of_convertDirectory {i : Invocation} {s₁ : Session} {r : Except Failure Unit}
    (hturns : ∀ v, (turns v).Follows v)
    (hst : (Session.host.settings i).run.run s₀ = (.ok st, s₀)) (hclear : b.IsClear s₀ st format)
    (hrun : (Session.host.convertDirectory turns i b format).run.run s₀ = (r, s₁))
    (hend : EndsNormally r) :
    ∃ rs : List (List String × Result), rs.map Prod.fst = b.inputs s₀ ∧
      s₁.output = s₀.output ++ String.join (rs.map b.line) ++ (count rs).summary ∧
      ∀ names o, (names, .ok o) ∈ rs → b.conversion? s₀ st format names = some o ∧
        s₁.disk.read (b.targetPath names o.format) = .ok (Text.Utf8.encode o.payload) := by
  obtain ⟨t, s', ⟨rs, hrs, rfl, hnames⟩, rfl⟩ :=
    exists_of_run_convertDirectory (runs_convertAll hturns hst hclear) hrun hend
  refine ⟨rs, hnames, ?_, fun names o ho => ?_⟩
  · rw [← hrs.output_eq]
  · have hconversion := hrs.conversion?_eq names o ho
    rw [format_of_conversion hconversion]
    exact ⟨hconversion, hrs.read_eq names o ho⟩

/-! ## Batches that begin -/

/-- What a batch does from its first input on. -/
def course (b : Batch) (turns : Service → Turns) (st : Settings) (format : OutputFormat)
    (inputs : List (List String)) (pool : Pool) : ExceptT Failure (StateM Session) Tally := do
  let p ← inputs.foldlM (Session.host.takeInput (turnsNow turns st format) b) ⟨pool, [], ⟨0, 0⟩⟩
  Session.host.finish (turnsNow turns st format) b p.pool p.tally p.pending

/-- A batch takes its course if its files can be listed and its pool can be started. -/
theorem run_convertDirectory_of_course {i : Invocation} {files : List (List String)} {pool : Pool}
    {t : Tally} (hdirectory : s₀.disk.isDirectory b.directory = true)
    (hst : (Session.host.settings i).run.run s₀ = (.ok st, s₀))
    (hfiles : s₀.disk.filesBelow b.directory = .ok files) (hpool : Pool.start st.pool = .ok pool)
    (ht : ((b.course turns st format (files.filter isWorkflow) pool).run.run s₀).1.toOption =
      some t) :
    (Session.host.convertDirectory turns i b format).run.run s₀ =
      (if t.failed > 0 then .error (.someFailed t.failed) else .ok (),
        let s' := ((b.course turns st format (files.filter isWorkflow) pool).run.run s₀).2
        { s' with output := s'.output ++ t.summary }) := by
  have hcheck := s₀.run_isDirectory b.directory
  rw [hdirectory] at hcheck
  have hlist := s₀.run_filesBelow b.directory
  rw [hfiles] at hlist
  have hall : (Session.host.convertAll turns i b format).run.run s₀ =
      (b.course turns st format (files.filter isWorkflow) pool).run.run s₀ := by
    refine (Session.run_bind_of_ok (Session.run_lift hcheck)).trans ?_
    refine (Session.run_bind_of_ok hst).trans ?_
    refine (Session.run_bind_of_ok (Session.run_orFail_of_ok hlist)).trans ?_
    exact Session.run_bind_of_ok (Session.run_startPool_of_ok hpool)
  cases hcourse : (b.course turns st format (files.filter isWorkflow) pool).run.run s₀ with
  | mk r s' =>
    rw [hcourse] at ht hall
    cases r with
    | error f => cases ht
    | ok t' =>
      cases ht
      exact run_convertDirectory_of_ok hall

/-- Two files are converted in their own directory, one of them in its own place. -/
theorem manifests_of_convertDirectory_in_place :
    let s : Session := ⟨⟨[(["in"], .directory),
      (["in", "a.yml"], .file "name: x\njobs: {}".toUTF8.toList),
      (["in", "b.yaml"], .file "name: y\njobs: {}".toUTF8.toList)], []⟩,
      fun _ => none, "settings.toml", "", ""⟩
    let i : Invocation := ⟨.batch "in" "in" .yaml, none, .empty⟩
    let b : Batch := ⟨"in", "in"⟩
    let x := (Session.host.convertDirectory Turns.lazy i b .yaml).run.run s
    (Session.host.settings i).run.run s = (.ok .standard, s) ∧ b.IsClear s .standard .yaml ∧
      EndsNormally x.1 ∧
      ∃ rs : List (List String × Result), rs.map Prod.fst = [["a.yml"], ["b.yaml"]] ∧
        x.2.output = s.output ++ String.join (rs.map b.line) ++ (count rs).summary ∧
        ∀ names o, (names, .ok o) ∈ rs → b.conversion? s .standard .yaml names = some o ∧
          x.2.disk.read (b.targetPath names o.format) = .ok (Text.Utf8.encode o.payload) := by
  intro s i b x
  have hst : (Session.host.settings i).run.run s = (.ok .standard, s) :=
    Session.run_settings_of_toOption (by decide +kernel)
  have hwalk : (s.disk.walk b.directory).toOption = some (.found ["in"] .directory) := by
    decide +kernel
  have hfiles : s.disk.filesBelow b.directory = .ok [["a.yml"], ["b.yaml"]] :=
    Disk.filesBelow_of_pairwise hwalk (by decide +kernel) (by decide +kernel)
  have hinputs : b.inputs s = [["a.yml"], ["b.yaml"]] := by
    unfold inputs
    rw [hfiles]
    decide +kernel
  have hapart : [["a.yml"], ["b.yaml"]].Pairwise fun y z =>
      b.targetPlace s .yaml y ≠ b.sourcePlace s z ∧
        b.targetPlace s .yaml y ≠ b.targetPlace s .yaml z := by
    decide +kernel
  have hclear : b.IsClear s .standard .yaml :=
    ⟨hinputs ▸ hapart.imp fun h _ => ⟨h.1, fun _ => h.2⟩, fun _ _ _ _ hdirectory => nomatch hdirectory⟩
  have hx : x = _ := run_convertDirectory_of_course (t := ⟨2, 0⟩) (by decide +kernel) hst hfiles rfl
    (by decide +kernel)
  have hend : EndsNormally x.1 := by
    rw [hx]
    exact trivial
  have h := manifests_of_convertDirectory Turns.follows_lazy hst hclear rfl hend
  rw [hinputs] at h
  exact ⟨hst, hclear, hend, h⟩

/-- Of two files whose manifests have one place only the last one is left, though both are told to be
converted. -/
theorem manifest_lost_at_shared_place :
    let s : Session := ⟨⟨[(["in"], .directory),
      (["in", "a.yaml"], .file "name: x\njobs: {}".toUTF8.toList),
      (["in", "a.yml"], .file "name: y\njobs: {}".toUTF8.toList)], []⟩,
      fun _ => none, "settings.toml", "", ""⟩
    let i : Invocation := ⟨.batch "in" "out" .yaml, none, .empty⟩
    let b : Batch := ⟨"in", "out"⟩
    let x := (Session.host.convertDirectory Turns.lazy i b .yaml).run.run s
    EndsNormally x.1 ∧
      x.2.output = Host.doneLine "in/a.yaml" "out/a.yaml" ++ Host.doneLine "in/a.yml" "out/a.yaml" ++
        "2 converted, 0 failed\n" ∧
      ∃ o, b.conversion? s .standard .yaml ["a.yaml"] = some o ∧
        x.2.disk.read "out/a.yaml" ≠ .ok (Text.Utf8.encode o.payload) := by
  intro s i b x
  have hst : (Session.host.settings i).run.run s = (.ok .standard, s) :=
    Session.run_settings_of_toOption (by decide +kernel)
  have hwalk : (s.disk.walk b.directory).toOption = some (.found ["in"] .directory) := by
    decide +kernel
  have hfiles : s.disk.filesBelow b.directory = .ok [["a.yaml"], ["a.yml"]] :=
    Disk.filesBelow_of_pairwise hwalk (by decide +kernel) (by decide +kernel)
  have hx : x = _ := run_convertDirectory_of_course (t := ⟨2, 0⟩) (by decide +kernel) hst hfiles rfl
    (by decide +kernel)
  have hdisk : x.2.disk = ((b.course Turns.lazy .standard .yaml
      ([["a.yaml"], ["a.yml"]].filter isWorkflow) (.fresh .standard)).run.run s).2.disk :=
    congrArg (fun e => e.2.disk) hx
  have hother : (b.conversion? s .standard .yaml ["a.yaml"]).isSome ∧
      (b.conversion? s .standard .yaml ["a.yaml"]).map (fun o => Text.Utf8.encode o.payload) ≠
        (x.2.disk.read "out/a.yaml").toOption := by
    rw [hdisk]
    decide +kernel
  obtain ⟨o, ho⟩ := Option.isSome_iff_exists.1 hother.1
  refine ⟨hx ▸ trivial, by rw [hx]; decide +kernel, o, ho, fun hread => hother.2 ?_⟩
  rw [ho, hread]
  rfl

end Batch

end Command

end JobLoom
