import JobLoom.Command.Run
import JobLoom.Proofs.Command.Batch
import JobLoom.Proofs.Conversion.Refusal
import JobLoom.Proofs.Pool.Progress

/-!
# Checking a file and converting it

Checking reads and checks a workflow file and does nothing else. Converting goes all the way through
a pool: there is a submission, a worker that looks up labels and puts the manifest together, and
somebody who waits for it. None of this can fail, so both commands come to the same end. Only the pool
itself may be larger than any can be, and then there is a crash.

* **Failures** are the same. A command that fails tells why and does nothing else.
* **The manifest** is all that a conversion emits: on the output, or as the content of a file.
-/

namespace JobLoom

/-! ## Services that cannot fail -/

/-- The answer to a workflow file that fails its checks is the error of the checks. -/
theorem Service.AnswersTo.eq_error {s : Service} {source : List UInt8} {x : Result}
    {e : ConvertError} (h : s.AnswersTo source x) (hplan : Plan.ofBytes source = .error e) :
    x = .error e := by
  unfold AnswersTo at h
  rw [Converter.convert_of_error hplan] at h
  exact h

/-- With a store that does not crash, the answer to a workflow file that passes its checks is its
manifest. -/
theorem Service.AnswersTo.exists_eq_ok {s : Service} {source : List UInt8} {x : Result} {plan : Plan}
    (h : s.AnswersTo source x) (hs : s.store.IsSteady) (hplan : Plan.ofBytes source = .ok plan) :
    ∃ o, s.converter.convert s.store source = .done o ∧ x = .ok o := by
  obtain ⟨o, ho⟩ := (s.converter.exists_convert_eq_done_iff hs source).2 ⟨plan, hplan⟩
  unfold AnswersTo at h
  rw [ho] at h
  exact ⟨o, ho, h⟩

namespace Command

namespace Session

variable {α β : Type} {s s' : Session} {st : Settings} {format : OutputFormat}

theorem isSteady_service (s : Session) (st : Settings) (format : OutputFormat) :
    (s.service st format).store.IsSteady := by
  unfold service Host.service
  cases st.storeDir with
  | none => exact fun _ _ => ⟨_, rfl⟩
  | some directory =>
    intro space key
    change ∃ a, Store.within _ st.space space key = .answer a
    unfold Store.within
    split <;> exact ⟨_, rfl⟩

theorem isUngated_service (s : Session) (st : Settings) (format : OutputFormat) :
    (s.service st format).IsUngated := by
  unfold service Host.service
  cases st.storeDir <;> exact fun _ _ => rfl

/-! ## What the commands do -/

/-- What is done with a manifest. -/
def emission (file : String) (output : Option String) (o : Output) :
    ExceptT Failure (StateM Session) Unit := do
  host.tellWarnings file o
  match output with
  | some path =>
    host.writeFile path o.payload
    host.print (Host.doneLine file path)
  | none => host.print o.payload

/-- A manifest is printed, or it is written to a file if that can be done. -/
theorem exists_run_emission (s : Session) (file : String) (output : Option String) (o : Output) :
    ∃ messages, (emission file output o).run.run s =
      match output with
      | none => (.ok (), { s with messages := messages, output := s.output ++ o.payload })
      | some path =>
        match s.disk.write path (Text.Utf8.encode o.payload) with
        | .ok d =>
          (.ok (), { s with
            disk := d
            messages := messages
            output := s.output ++ Host.doneLine file path })
        | .error f => (.error (.unwritable path f), { s with messages := messages }) := by
  obtain ⟨messages, hmessages⟩ := s.exists_run_tellWarnings file o
  refine ⟨messages, (run_bind_of_ok (run_lift hmessages)).trans ?_⟩
  cases output with
  | none => exact run_lift rfl
  | some path =>
    have hwrite := run_writeFile { s with messages := messages } path o.payload
    dsimp only at hwrite ⊢
    cases hd : s.disk.write path (Text.Utf8.encode o.payload) with
    | ok d =>
      rw [hd] at hwrite
      exact (run_bind_of_ok hwrite).trans (run_lift rfl)
    | error f =>
      rw [hd] at hwrite
      exact run_bind_of_error hwrite

variable {turns : Service → Turns} {i : Invocation} {file : String} {output : Option String}

theorem run_of_ok (h : (host.perform turns i).run.run s = (.ok (), s')) :
    (host.run turns i).run s = (0, s') := by
  unfold Host.run
  rw [StateT.run_bind, h]
  rfl

/-- A command that is cut short tells why. -/
theorem run_of_error {f : Failure} (h : (host.perform turns i).run.run s = (.error f, s')) :
    (host.run turns i).run s = (f.exitCode, { s' with messages := s'.messages ++ f.report }) := by
  unfold Host.run
  rw [StateT.run_bind, h]
  rfl

theorem run_validateFile (s : Session) (file : String) :
    (host.validateFile file).run.run s =
      match s.disk.read file with
      | .error f => (.error (.unreadable file f), s)
      | .ok content =>
        match Plan.ofBytes content with
        | .error e => (.error (.conversion e), s)
        | .ok plan => (.ok (), { s with output := s.output ++ Host.validReport file plan }) := by
  unfold Host.validateFile
  cases hread : s.disk.read file with
  | error f => exact run_bind_of_error (run_readFile_of_error hread)
  | ok content =>
    refine (run_bind_of_ok (run_readFile_of_ok hread)).trans ?_
    dsimp only
    cases Plan.ofBytes content with
    | error e => exact run_bind_of_error rfl
    | ok plan => exact (run_bind_of_ok rfl).trans (run_lift rfl)

/-- Settings that have been read make a pool, if there can be one of their size. -/
theorem start_of_settings (hst : (host.settings i).run.run s = (.ok st, s))
    (hfits : st.pool.Fits) : Pool.start st.pool = .ok (.fresh st.pool) :=
  Pool.start_eq_ok_iff.2 ⟨Settings.check_pool (runs_settings.of_run _ _ hst).2, hfits, rfl⟩

/-- A file that cannot be read is not converted. -/
theorem run_convertFile_of_unreadable {f : FileFault}
    (hst : (host.settings i).run.run s = (.ok st, s)) (hread : s.disk.read file = .error f) :
    (host.convertFile turns i file format output).run.run s = (.error (.unreadable file f), s) :=
  (run_bind_of_ok hst).trans (run_bind_of_error (run_readFile_of_error hread))

/-- No file is converted if there cannot be a pool of the size that is set. -/
theorem exists_run_convertFile_eq_crashed {content : List UInt8}
    (hst : (host.settings i).run.run s = (.ok st, s)) (hread : s.disk.read file = .ok content)
    (hfits : ¬ st.pool.Fits) :
    ∃ text, st.pool.crash? = some text ∧
      (host.convertFile turns i file format output).run.run s = (.error (.crashed text), s) := by
  have hcheck := Settings.check_pool (runs_settings.of_run _ _ hst).2
  obtain ⟨text, htext, hstart⟩ := Pool.exists_start_eq_crashed hcheck hfits
  refine ⟨text, htext, (run_bind_of_ok hst).trans ?_⟩
  refine (run_bind_of_ok (run_readFile_of_ok hread)).trans ?_
  refine (run_bind_of_ok (run_lift (s.run_service st format))).trans ?_
  exact run_bind_of_error (run_startPool_of_crashed hstart)

/-- Converting a file that can be read checks it and emits its manifest. -/
theorem run_convertFile (hfollows : ∀ v, (turns v).Follows v)
    (hpatient : ∀ v, v.IsUngated → (turns v).IsPatient v)
    (hst : (host.settings i).run.run s = (.ok st, s)) (hfits : st.pool.Fits) {content : List UInt8}
    (hread : s.disk.read file = .ok content) (format : OutputFormat) (output : Option String) :
    match Plan.ofBytes content with
    | .error e =>
      (host.convertFile turns i file format output).run.run s = (.error (.conversion e), s)
    | .ok _ =>
      ∃ o, (s.service st format).converter.convert (s.service st format).store content = .done o ∧
        (host.convertFile turns i file format output).run.run s =
          (emission file output o).run.run s := by
  have hstart := start_of_settings hst hfits
  have hungated := s.isUngated_service st format
  have hanswer := ((hfollows _).convert_of_start (hpatient _ hungated) hungated hstart content).1
  -- besides the answer nothing can fail
  have hrun : (host.convertFile turns i file format output).run.run s =
      (Host.accept ((turns (s.service st format)).convert (.fresh st.pool) content).2 >>=
        emission file output : ExceptT Failure (StateM Session) Unit).run.run s := by
    refine (run_bind_of_ok hst).trans ?_
    refine (run_bind_of_ok (run_readFile_of_ok hread)).trans ?_
    refine (run_bind_of_ok (run_lift (s.run_service st format))).trans ?_
    refine (run_bind_of_ok (run_startPool_of_ok hstart)).trans ?_
    unfold Turns.convert
    dsimp only
    cases (turns (s.service st format)).submit (.fresh st.pool) content with
    | mk q x =>
      cases x with
      | ok id => exact run_bind_of_ok rfl
      | error e => exact (run_bind_of_error rfl).trans (run_bind_of_error rfl).symm
  rw [hrun]
  cases hplan : Plan.ofBytes content with
  | error e =>
    rw [hanswer.eq_error hplan]
    exact run_bind_of_error rfl
  | ok plan =>
    obtain ⟨o, ho, hx⟩ := hanswer.exists_eq_ok (s.isSteady_service st format) hplan
    refine ⟨o, ho, ?_⟩
    rw [hx]
    exact run_bind_of_ok rfl

/-! ## Both commands -/

/-- What a file is converted to can be written where it should go. -/
def CanWrite (s : Session) (st : Settings) (file : String) (format : OutputFormat)
    (output : Option String) : Prop :=
  ∀ path content o, output = some path → s.disk.read file = .ok content →
    (s.service st format).converter.convert (s.service st format).store content = .done o →
    ∃ d, s.disk.write path (Text.Utf8.encode o.payload) = .ok d

/-- The manifest was emitted and nothing else: it was printed, or it is the content of a file. -/
def Emits (s : Session) (file : String) (o : Output) (s' : Session) : Option String → Prop
  | none => s'.output = s.output ++ o.payload ∧ s'.disk = s.disk
  | some path => s'.output = s.output ++ Host.doneLine file path ∧
      s.disk.write path (Text.Utf8.encode o.payload) = .ok s'.disk ∧
      s'.disk.read path = .ok (Text.Utf8.encode o.payload)

/-- What comes of emitting a manifest: it was emitted, or it could not be written, and then nothing is
printed and all files are left alone. -/
theorem emits_or_unwritable {r : Except Failure Unit} {file : String} {output : Option String}
    {o : Output} (hrun : (emission file output o).run.run s = (r, s')) :
    (r = .ok () ∧ s.Emits file o s' output) ∨
      ∃ f path, r = .error (.unwritable path f) ∧ output = some path ∧
        s.disk.write path (Text.Utf8.encode o.payload) = .error f ∧
        s'.output = s.output ∧ s'.disk = s.disk := by
  obtain ⟨messages, hemission⟩ := s.exists_run_emission file output o
  rw [hrun] at hemission
  cases output with
  | none =>
    cases hemission
    exact .inl ⟨rfl, rfl, rfl⟩
  | some path =>
    dsimp only at hemission
    cases hd : s.disk.write path (Text.Utf8.encode o.payload) with
    | ok d =>
      rw [hd] at hemission
      cases hemission
      exact .inl ⟨rfl, rfl, hd, (Disk.write_eq_ok hd).2⟩
    | error f =>
      rw [hd] at hemission
      cases hemission
      exact .inr ⟨f, path, rfl, rfl, hd, rfl, rfl⟩

/-- Checking a file and converting it come to the same end, in these two ways: -/
structure Agrees (s : Session) (st : Settings) (file : String) (format : OutputFormat)
    (output : Option String) (checked converted : UInt32 × Session) : Prop where
  /-- both commands succeed or both fail, if the manifest can be written -/
  exit_iff : s.CanWrite st file format output → (checked.1 = 0 ↔ converted.1 = 0)
  /-- when the file fails its checks, both commands tell the same failure and do nothing else -/
  failure : checked.1 ≠ 0 → converted = checked ∧
    ∃ f : Failure, checked = (1, { s with messages := s.messages ++ f.report })
  /-- a conversion that fails prints nothing and leaves all files alone -/
  untouched : converted.1 ≠ 0 → converted.2.output = s.output ∧ converted.2.disk = s.disk
  /-- a conversion that succeeds emits the manifest -/
  emitted : converted.1 = 0 → ∃ content o, s.disk.read file = .ok content ∧
    (s.service st format).converter.convert (s.service st format).store content = .done o ∧
    s.Emits file o converted.2 output

/-- Both commands are cut short by the same failure, and do not crash. -/
theorem agrees_of_error {f : Failure} {j k : Invocation} (hcode : f.exitCode = 1)
    (hcheck : (host.perform turns j).run.run s = (.error f, s))
    (hconvert : (host.perform turns k).run.run s = (.error f, s)) :
    s.Agrees st file format output ((host.run turns j).run s) ((host.run turns k).run s) := by
  rw [run_of_error hcheck, run_of_error hconvert, hcode]
  exact ⟨fun _ => Iff.rfl, fun _ => ⟨rfl, f, rfl⟩, fun _ => ⟨rfl, rfl⟩, fun h => nomatch h⟩

/-- The file passes its checks, and its manifest is emitted. -/
theorem agrees_of_emission {content : List UInt8} {o : Output} {j k : Invocation}
    (hread : s.disk.read file = .ok content)
    (ho : (s.service st format).converter.convert (s.service st format).store content = .done o)
    (hcheck : (host.perform turns j).run.run s = (.ok (), s'))
    (hconvert : (host.perform turns k).run.run s = (emission file output o).run.run s) :
    s.Agrees st file format output ((host.run turns j).run s) ((host.run turns k).run s) := by
  rw [run_of_ok hcheck]
  cases hrun : (emission file output o).run.run s with
  | mk r s'' =>
    rw [hrun] at hconvert
    rcases emits_or_unwritable hrun with ⟨rfl, hemits⟩ | ⟨f, path, rfl, hpath, hfails, hsame⟩
    · rw [run_of_ok hconvert]
      exact ⟨fun _ => Iff.rfl, fun h => absurd rfl h, fun h => absurd rfl h,
        fun _ => ⟨content, o, hread, ho, hemits⟩⟩
    · rw [run_of_error hconvert]
      refine ⟨fun hcan => ?_, fun h => absurd rfl h, fun _ => hsame, fun h => nomatch h⟩
      obtain ⟨d, hd⟩ := hcan path content o hpath hread ho
      cases hfails.symm.trans hd

/-- If there can be a pool of the size that is set, both commands agree. -/
theorem agrees_of_fits (hfollows : ∀ v, (turns v).Follows v)
    (hpatient : ∀ v, v.IsUngated → (turns v).IsPatient v)
    (hst : (host.settings i).run.run s = (.ok st, s)) (hfits : st.pool.Fits) :
    s.Agrees st file format output
      ((host.run turns { i with action := .validate file }).run s)
      ((host.run turns { i with action := .convert file format output }).run s) := by
  have hvalidate := run_validateFile s file
  cases hread : s.disk.read file with
  | error f =>
    rw [hread] at hvalidate
    exact agrees_of_error rfl hvalidate (run_convertFile_of_unreadable hst hread)
  | ok content =>
    have hconvert := run_convertFile hfollows hpatient hst hfits hread format output
    rw [hread] at hvalidate
    dsimp only at hvalidate
    cases hplan : Plan.ofBytes content with
    | error e =>
      rw [hplan] at hvalidate hconvert
      exact agrees_of_error rfl hvalidate hconvert
    | ok plan =>
      rw [hplan] at hvalidate hconvert
      obtain ⟨o, ho, hconvert⟩ := hconvert
      exact agrees_of_emission hread ho hvalidate hconvert

/-- If there cannot be such a pool, a conversion crashes, whatever is in the file. -/
theorem exists_run_convert_eq_crashed {content : List UInt8}
    (hst : (host.settings i).run.run s = (.ok st, s)) (hread : s.disk.read file = .ok content)
    (hfits : ¬ st.pool.Fits) :
    ∃ text, st.pool.crash? = some text ∧
      (host.run turns { i with action := .convert file format output }).run s =
        (101, { s with messages := s.messages ++ (Failure.crashed text).report }) := by
  obtain ⟨text, htext, hconvert⟩ := exists_run_convertFile_eq_crashed hst hread hfits
  exact ⟨text, htext, run_of_error (f := .crashed text) hconvert⟩

/-- A conversion that has crashed does not agree with the checks of the file. -/
theorem not_agrees_of_crashed {checked converted : UInt32 × Session}
    (hcan : s.CanWrite st file format output) (hcode : converted.1 = 101) :
    ¬ s.Agrees st file format output checked converted := by
  intro h
  have hfails : checked.1 ≠ 0 := by
    intro hzero
    have hconverted := (h.exit_iff hcan).1 hzero
    rw [hcode] at hconverted
    exact absurd hconverted (by decide)
  obtain ⟨heq, f, hf⟩ := h.failure hfails
  rw [heq, hf] at hcode
  exact absurd (show (1 : UInt32) = 101 from hcode) (by decide)

/-- **A file can be converted exactly if it passes its checks**, as long as there can be a pool of the
size that is set. Then, whatever the workers are up to, both commands succeed or both fail, and with
the same failure; a conversion that fails does nothing else, and one that succeeds emits its manifest.
The pool of a conversion can be shut down when it has given its answer. Without such a pool the
conversion of a file that can be read crashes, so the two commands agree on no other file. -/
theorem agrees_iff_fits (hfollows : ∀ v, (turns v).Follows v)
    (hpatient : ∀ v, v.IsUngated → (turns v).IsPatient v)
    (hst : (host.settings i).run.run s = (.ok st, s)) :
    let checked := (host.run turns { i with action := .validate file }).run s
    let converted := (host.run turns { i with action := .convert file format output }).run s
    (st.pool.Fits → s.Agrees st file format output checked converted ∧
      ∀ content, ((turns (s.service st format)).convert (.fresh st.pool) content).1.CanShutDown
        (s.service st format)) ∧
      (∀ content, s.disk.read file = .ok content → ¬ st.pool.Fits →
        ∃ text, st.pool.crash? = some text ∧ converted =
          (101, { s with messages := s.messages ++ (Failure.crashed text).report })) ∧
      (s.CanWrite st file format output → (s.Agrees st file format output checked converted ↔
        st.pool.Fits ∨ ∃ f, s.disk.read file = .error f)) := by
  intro checked converted
  have hagrees (hfits : st.pool.Fits) : s.Agrees st file format output checked converted :=
    agrees_of_fits hfollows hpatient hst hfits
  refine ⟨fun hfits => ⟨hagrees hfits, fun content => ?_⟩, fun content hread hfits =>
    exists_run_convert_eq_crashed hst hread hfits, fun hcan => ⟨fun h => ?_, ?_⟩⟩
  · have hstart := start_of_settings hst hfits
    have hungated := s.isUngated_service st format
    exact ((hfollows _).convert_of_start (hpatient _ hungated) hungated hstart content).2
  · by_contra hneither
    obtain ⟨hfits, hreadable⟩ := not_or.1 hneither
    cases hread : s.disk.read file with
    | error f => exact hreadable ⟨f, hread⟩
    | ok content =>
      obtain ⟨text, -, hcrash⟩ := exists_run_convert_eq_crashed hst hread hfits
      exact not_agrees_of_crashed hcan (congrArg Prod.fst hcrash) h
  · rintro (hfits | ⟨f, hread⟩)
    · exact hagrees hfits
    · have hvalidate := run_validateFile s file
      rw [hread] at hvalidate
      exact agrees_of_error rfl hvalidate (run_convertFile_of_unreadable hst hread)

/-- A file is converted and its manifest printed, and another one, in which two jobs need each other,
is not converted: nothing is printed then. -/
theorem agrees_iff_fits_cycle :
    let s : Session := ⟨⟨[(["ci.yml"], .file "jobs: {a: {}, b: {needs: a}}".toUTF8.toList),
      (["cycle.yml"], .file "jobs: {a: {needs: b}, b: {needs: a}}".toUTF8.toList)], []⟩,
      fun _ => none, "settings.toml", "", ""⟩
    let i : Invocation := ⟨.validate "ci.yml", none, .empty⟩
    let checked (file : String) := (host.run Turns.lazy { i with action := .validate file }).run s
    let converted (file : String) :=
      (host.run Turns.lazy { i with action := .convert file .yaml none }).run s
    (host.settings i).run.run s = (.ok .standard, s) ∧ Settings.standard.pool.Fits ∧
      (converted "ci.yml").1 = 0 ∧
      (∃ o, s.Emits "ci.yml" o (converted "ci.yml").2 none) ∧
      converted "cycle.yml" = checked "cycle.yml" ∧ (converted "cycle.yml").1 = 1 ∧
      (converted "cycle.yml").2.output = "" := by
  intro s i checked converted
  have hst : (host.settings i).run.run s = (.ok .standard, s) :=
    run_settings_of_toOption (by decide +kernel)
  have hfits : Settings.standard.pool.Fits := by decide
  have hagrees (file : String) :
      s.Agrees .standard file .yaml none (checked file) (converted file) :=
    ((agrees_iff_fits Turns.follows_lazy (fun v _ => Turns.isPatient_lazy v) hst).1 hfits).1
  have hgood : (checked "ci.yml").1 = 0 := by decide +kernel
  have hbad : (checked "cycle.yml").1 = 1 := by decide +kernel
  have hconverted := ((hagrees "ci.yml").exit_iff nofun).1 hgood
  obtain ⟨content, o, -, -, hemits⟩ := (hagrees "ci.yml").emitted hconverted
  have hsame : converted "cycle.yml" = checked "cycle.yml" :=
    ((hagrees "cycle.yml").failure (by rw [hbad]; decide)).1
  have hfails : (converted "cycle.yml").1 = 1 := by rw [hsame, hbad]
  refine ⟨hst, hfits, hconverted, ⟨o, hemits⟩, hsame, hfails, ?_⟩
  exact ((hagrees "cycle.yml").untouched (by rw [hfails]; decide)).1

/-- Settings that pass their checks ask for a queue that cannot be. The file passes its checks, and
the conversion crashes. -/
theorem crash_behind_checks :
    let s : Session := ⟨⟨[(["ci.yml"], .file "jobs: {a: {}}".toUTF8.toList)], []⟩,
      fun _ => none, "settings.toml", "", ""⟩
    let i : Invocation := ⟨.validate "ci.yml", none,
      { Overrides.empty with capacity := some (2 ^ 64 - 1) }⟩
    let st : Settings := { Settings.standard with pool := ⟨5, 2 ^ 64 - 1⟩ }
    let checked := (host.run Turns.lazy { i with action := .validate "ci.yml" }).run s
    let converted := (host.run Turns.lazy { i with action := .convert "ci.yml" .yaml none }).run s
    (host.settings i).run.run s = (.ok st, s) ∧ checked.1 = 0 ∧ converted.1 = 101 ∧
      s.CanWrite st "ci.yml" .yaml none ∧
      ¬ s.Agrees st "ci.yml" .yaml none checked converted := by
  intro s i st checked converted
  have hst : (host.settings i).run.run s = (.ok st, s) :=
    run_settings_of_toOption (by decide +kernel)
  have hchecked : checked.1 = 0 := by decide +kernel
  have hconverted : converted.1 = 101 := by decide +kernel
  have hcan : s.CanWrite st "ci.yml" .yaml none := nofun
  refine ⟨hst, hchecked, hconverted, hcan, fun h => ?_⟩
  exact absurd (hconverted.symm.trans ((h.exit_iff hcan).1 hchecked)) (by decide)

end Session

end Command

end JobLoom
