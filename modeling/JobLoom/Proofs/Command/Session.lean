import JobLoom.Command.Batch
import JobLoom.Proofs.Files.Disk
import JobLoom.Proofs.Settings.Layers

/-!
# What tasks do to a session

A task is followed through a session from one operation to the next. Either it comes to its result,
or a failure cuts it short; nothing is said about a session in which that has happened.

* **Settings** are read and change nothing.
* **Writing** changes the disk at one place, **telling** something changes the outputs only.
-/

namespace JobLoom.Command

/-- A failure that cuts a command short. That some files are not converted is told at the end. -/
def Failure.CutsShort (f : Failure) : Prop := ∀ n, f ≠ .someFailed n

namespace Session

variable {α β : Type} {s : Session} {post : α → Session → Prop} {post' : β → Session → Prop}

/-- From this session, a task comes to a result and leaves a session like these, or it is cut short
by a failure like these. -/
structure Meets (s : Session) (x : ExceptT Failure (StateM Session) α)
    (post : α → Session → Prop) (fault : Failure → Prop) : Prop where
  /-- what comes of it -/
  of_run : ∀ r s', x.run.run s = (r, s') →
    match r with
    | .ok a => post a s'
    | .error f => fault f

/-- From this session, a task comes to a result and leaves a session like these, unless it is cut
short. Mostly it does not matter by which failure. -/
abbrev Runs (s : Session) (x : ExceptT Failure (StateM Session) α) (post : α → Session → Prop) :
    Prop := s.Meets x post Failure.CutsShort

theorem run_bind_of_ok {x : ExceptT Failure (StateM Session) α}
    {f : α → ExceptT Failure (StateM Session) β} {a : α} {s' : Session}
    (hx : x.run.run s = (.ok a, s')) : (x >>= f).run.run s = (f a).run.run s' := by
  rw [ExceptT.run_bind, StateT.run_bind, hx]
  rfl

theorem run_bind_of_error {x : ExceptT Failure (StateM Session) α}
    {f : α → ExceptT Failure (StateM Session) β} {e : Failure} {s' : Session}
    (hx : x.run.run s = (.error e, s')) : (x >>= f).run.run s = (.error e, s') := by
  rw [ExceptT.run_bind, StateT.run_bind, hx]
  rfl

/-- Two tasks that begin alike go on alike if they go on alike from every result. -/
theorem run_bind_congr {x y : ExceptT Failure (StateM Session) α}
    {f g : α → ExceptT Failure (StateM Session) β} (hx : x.run.run s = y.run.run s)
    (h : ∀ a s', y.run.run s = (.ok a, s') → (f a).run.run s' = (g a).run.run s') :
    (x >>= f).run.run s = (y >>= g).run.run s := by
  cases hy : y.run.run s with
  | mk r s' =>
    rw [hy] at hx
    cases r with
    | ok a =>
      rw [run_bind_of_ok hx, run_bind_of_ok hy]
      exact h a s' hy
    | error e => rw [run_bind_of_error hx, run_bind_of_error hy]

theorem run_lift {x : StateM Session α} {a : α} {s' : Session} (hx : x.run s = (a, s')) :
    (liftM x : ExceptT Failure (StateM Session) α).run.run s = (.ok a, s') := by
  change (x.run s >>= fun e => Pure.pure (Except.ok e.1, e.2) : Id _) = _
  rw [hx]
  rfl

theorem run_orFail_of_ok {x : StateM Session (Except FileFault α)} {blame : FileFault → Failure}
    {a : α} {s' : Session} (hx : x.run s = (.ok a, s')) :
    (Host.orFail blame x : ExceptT Failure (StateM Session) α).run.run s = (.ok a, s') :=
  run_bind_of_ok (run_lift hx)

theorem run_orFail_of_error {x : StateM Session (Except FileFault α)} {blame : FileFault → Failure}
    {f : FileFault} {s' : Session} (hx : x.run s = (.error f, s')) :
    (Host.orFail blame x : ExceptT Failure (StateM Session) α).run.run s = (.error (blame f), s') :=
  run_bind_of_ok (run_lift hx)

variable {fault : Failure → Prop}

namespace Meets

/-- Less may be said about what comes out. -/
theorem mono {x : ExceptT Failure (StateM Session) α} {weaker : α → Session → Prop}
    (h : s.Meets x post fault) (hpost : ∀ a s', post a s' → weaker a s') :
    s.Meets x weaker fault := by
  refine ⟨fun r s' hx => ?_⟩
  have hr := h.of_run r s' hx
  cases r with
  | ok a => exact hpost a s' hr
  | error f => exact hr

theorem bind {x : ExceptT Failure (StateM Session) α} {f : α → ExceptT Failure (StateM Session) β}
    (h : s.Meets x (fun a s' => s'.Meets (f a) post' fault) fault) :
    s.Meets (x >>= f) post' fault := by
  refine ⟨fun r s' hr => ?_⟩
  cases hx : x.run.run s with
  | mk r₁ s₁ =>
    have hr₁ := h.of_run r₁ s₁ hx
    cases r₁ with
    | ok a =>
      rw [run_bind_of_ok hx] at hr
      exact hr₁.of_run r s' hr
    | error e =>
      rw [run_bind_of_error hx] at hr
      cases hr
      exact hr₁

theorem pure {a : α} (h : post a s) : s.Meets (pure a) post fault :=
  ⟨fun r s' hr => by cases hr; exact h⟩

theorem throw {f : Failure} (h : fault f) : s.Meets (MonadExcept.throw f) post fault :=
  ⟨fun r s' hr => by cases hr; exact h⟩

theorem lift {x : StateM Session α} {a : α} {s' : Session} (hx : x.run s = (a, s'))
    (h : post a s') : s.Meets (liftM x) post fault := by
  refine ⟨fun r s'' hr => ?_⟩
  rw [run_lift hx] at hr
  cases hr
  exact h

/-- What a task comes to is what it came to. -/
theorem and_run_eq {x : ExceptT Failure (StateM Session) α} (h : s.Meets x post fault) :
    s.Meets x (fun a s' => post a s' ∧ x.run.run s = (.ok a, s')) fault := by
  refine ⟨fun r s' hx => ?_⟩
  have hr := h.of_run r s' hx
  cases r with
  | ok a => exact ⟨hr, hx⟩
  | error f => exact hr

theorem orFail {x : StateM Session (Except FileFault α)} {blame : FileFault → Failure}
    (hblame : ∀ f, fault (blame f)) (h : ∀ a s', x.run s = (.ok a, s') → post a s') :
    s.Meets (Host.orFail blame x) post fault := by
  cases hx : x.run s with
  | mk r s' =>
    refine .bind (.lift hx ?_)
    cases r with
    | ok a => exact .pure (h a s' hx)
    | error f => exact .throw (hblame f)

/-- What fails for an error of the conversion. -/
theorem accept {x : Except ConvertError α} (hfault : ∀ e, fault (.conversion e))
    (h : ∀ a, x = .ok a → post a s) : s.Meets (Host.accept x) post fault := by
  cases x with
  | ok a => exact .pure (h a rfl)
  | error e => exact .throw (hfault e)

end Meets

/-! ## Files and outputs -/

variable {path text : String} {unitPost : Unit → Session → Prop}

theorem run_holds (s : Session) (path : String) :
    (host.holds path).run s = (s.disk.holds path, s) := rfl

theorem run_isDirectory (s : Session) (path : String) :
    (host.isDirectory path).run s = (s.disk.isDirectory path, s) := rfl

theorem run_filesBelow (s : Session) (path : String) :
    (host.filesBelow path).run s = (s.disk.filesBelow path, s) := rfl

theorem run_read (s : Session) (path : String) :
    (host.read path).run s = (s.disk.read path, s) := rfl

theorem run_readFile_of_ok {content : List UInt8} (h : s.disk.read path = .ok content) :
    (host.readFile path).run.run s = (.ok content, s) := by
  have hread := s.run_read path
  rw [h] at hread
  exact run_orFail_of_ok hread

theorem run_readFile_of_error {f : FileFault} (h : s.disk.read path = .error f) :
    (host.readFile path).run.run s = (.error (.unreadable path f), s) := by
  have hread := s.run_read path
  rw [h] at hread
  exact run_orFail_of_error hread

theorem runs_readFile {filePost : List UInt8 → Session → Prop}
    (h : ∀ content, s.disk.read path = .ok content → filePost content s) :
    s.Runs (host.readFile path) filePost := by
  refine .orFail (fun f => nofun) fun content s' hrun => ?_
  obtain ⟨hread, rfl⟩ := Prod.mk.inj hrun
  exact h content hread

/-- A change of the files comes about, or it fails and leaves everything as it is. -/
theorem run_change (s : Session) (f : Disk → Except FileFault Disk) :
    (change f).run s = match f s.disk with
      | .ok d => (.ok (), { s with disk := d })
      | .error e => (.error e, s) := by
  simp only [change, StateT.run_bind, StateT.run_get, pure_bind]
  cases f s.disk <;> rfl

/-- A change of the files that fails cuts a task short. -/
theorem run_orFail_change (s : Session) (f : Disk → Except FileFault Disk)
    (blame : FileFault → Failure) :
    (Host.orFail blame (change f) : ExceptT Failure (StateM Session) Unit).run.run s =
      match f s.disk with
      | .ok d => (.ok (), { s with disk := d })
      | .error e => (.error (blame e), s) := by
  have hchange := s.run_change f
  cases hf : f s.disk with
  | ok d =>
    rw [hf] at hchange
    exact run_orFail_of_ok hchange
  | error e =>
    rw [hf] at hchange
    exact run_orFail_of_error hchange

theorem runs_orFail_change (f : Disk → Except FileFault Disk) {blame : FileFault → Failure}
    (hblame : ∀ e, (blame e).CutsShort)
    (h : ∀ d, f s.disk = .ok d → unitPost () { s with disk := d }) :
    s.Runs (Host.orFail blame (change f)) unitPost := by
  refine ⟨fun r s' hrun => ?_⟩
  rw [run_orFail_change] at hrun
  cases hf : f s.disk with
  | ok d =>
    rw [hf] at hrun
    cases hrun
    exact h d hf
  | error e =>
    rw [hf] at hrun
    cases hrun
    exact hblame e

theorem run_writeFile (s : Session) (path text : String) :
    (host.writeFile path text).run.run s =
      match s.disk.write path (Text.Utf8.encode text) with
      | .ok d => (.ok (), { s with disk := d })
      | .error f => (.error (.unwritable path f), s) :=
  s.run_orFail_change (fun d => d.write path (Text.Utf8.encode text)) (.unwritable path)

/-- Writing a file changes the disk as it should. -/
theorem runs_writeFile (h : ∀ d, s.disk.write path (Text.Utf8.encode text) = .ok d →
    unitPost () { s with disk := d }) : s.Runs (host.writeFile path text) unitPost :=
  have hblame (e : FileFault) : (Failure.unwritable path e).CutsShort := fun _ => nofun
  runs_orFail_change (fun d => d.write path (Text.Utf8.encode text)) hblame h

theorem run_makeDirectories (s : Session) (path : String) :
    (Host.orFail (.unmakable path) (host.makeDirectories path) :
      ExceptT Failure (StateM Session) Unit).run.run s =
        match s.disk.makeDirectories path with
        | .ok d => (.ok (), { s with disk := d })
        | .error f => (.error (.unmakable path f), s) :=
  s.run_orFail_change (fun d => d.makeDirectories path) (.unmakable path)

theorem runs_makeDirectories (h : ∀ d, s.disk.makeDirectories path = .ok d →
    unitPost () { s with disk := d }) :
    s.Runs (Host.orFail (.unmakable path) (host.makeDirectories path)) unitPost :=
  have hblame (e : FileFault) : (Failure.unmakable path e).CutsShort := fun _ => nofun
  runs_orFail_change (fun d => d.makeDirectories path) hblame h

theorem runs_print (h : unitPost () { s with output := s.output ++ text }) :
    s.Runs (liftM (host.print text)) unitPost := .lift rfl h

theorem runs_warn (h : unitPost () { s with messages := s.messages ++ text }) :
    s.Runs (liftM (host.warn text)) unitPost := .lift rfl h

/-- Warnings about a file, as they are told. -/
def warningLines (source : String) (ws : List Warning) : String :=
  String.join (ws.map fun w => "warning: " ++ source ++ ": " ++ w.message ++ "\n")

/-- The warnings of a conversion are added to the messages. -/
theorem run_tellWarnings (s : Session) (source : String) (o : Output) :
    (host.tellWarnings source o).run s =
      ((), { s with messages := s.messages ++ warningLines source o.warnings }) := by
  have htell (ws : List Warning) (s : Session) :
      (ws.forM fun w => host.warn ("warning: " ++ source ++ ": " ++ w.message ++ "\n")).run s =
        ((), { s with messages := s.messages ++ warningLines source ws }) := by
    induction ws generalizing s with
    | nil => exact congrArg (fun text => ((), { s with messages := text })) String.append_empty.symm
    | cons w rest ih =>
      refine (ih _).trans ?_
      rw [warningLines, warningLines, List.map_cons, String.join_cons, ← String.append_assoc]
  exact htell o.warnings s

/-- The warnings of a conversion change the messages only. -/
theorem exists_run_tellWarnings (s : Session) (source : String) (o : Output) : ∃ messages,
    (host.tellWarnings source o).run s = ((), { s with messages := messages }) :=
  ⟨_, s.run_tellWarnings source o⟩

/-- Nothing else is known about a session in which warnings were told. -/
theorem runs_tellWarnings {source : String} {o : Output}
    (h : ∀ messages, unitPost () { s with messages := messages }) :
    s.Runs (liftM (host.tellWarnings source o)) unitPost := by
  obtain ⟨messages, hmessages⟩ := s.exists_run_tellWarnings source o
  exact .lift hmessages (h messages)

/-! ## Pools -/

theorem run_startPool_of_ok {size : PoolSize} {p : Pool} (h : Pool.start size = .ok p) :
    (Host.startPool size : ExceptT Failure (StateM Session) Pool).run.run s = (.ok p, s) := by
  rw [Host.startPool, h]
  rfl

theorem run_startPool_of_crashed {size : PoolSize} {text : String}
    (h : Pool.start size = .error (.crashed text)) :
    (Host.startPool size : ExceptT Failure (StateM Session) Pool).run.run s =
      (.error (.crashed text), s) := by
  rw [Host.startPool, h]
  rfl

/-- What comes after starting a pool has one that was started. -/
theorem runs_startPool {size : PoolSize} {poolPost : Pool → Session → Prop}
    (h : ∀ p, Pool.start size = .ok p → poolPost p s) : s.Runs (Host.startPool size) poolPost := by
  unfold Host.startPool
  split
  · next p hp => exact .pure (h p hp)
  · exact .throw nofun
  · exact .throw nofun

/-! ## Settings -/

theorem runs_settingsAt : s.Runs (host.settingsAt path) fun _ s' => s' = s := by
  unfold Host.settingsAt
  refine .bind (.lift rfl ?_)
  split
  · exact .pure rfl
  · refine .bind (.lift rfl ?_)
    split
    · exact .throw nofun
    · split
      · exact .throw nofun
      · exact .accept (fun _ => nofun) fun _ _ => rfl

/-- Looking at the environment changes nothing, and shows the variables that count. -/
theorem run_environment (s : Session) : host.environment.run s =
    (fun name => if name ∈ Overrides.names then s.environment name else none, s) := by
  have hvalues (names : List String) :
      (names.mapM fun name => return (name, ← host.valueOf name) :
        StateM Session (List (String × Option String))).run s =
          (names.map fun name => (name, s.environment name), s) := by
    induction names with
    | nil => rfl
    | cons name rest ih =>
      rw [List.mapM_cons, StateT.run_bind]
      change (StateT.run (_ >>= _) s : Id _) = _
      rw [StateT.run_bind, ih]
      rfl
  have hseen (name : String) :
      ((Overrides.names.map fun name => (name, s.environment name)).lookup name).join =
        if name ∈ Overrides.names then s.environment name else none := by
    rw [lookup_map_pair]
    split <;> rfl
  unfold Host.environment
  rw [StateT.run_bind, hvalues]
  exact congrArg (·, s) (funext hseen)

/-- Reading the settings of a command changes nothing, and they are checked. -/
theorem runs_settings {i : Invocation} :
    s.Runs (host.settings i) fun st s' => s' = s ∧ st.check = .ok () := by
  unfold Host.settings
  have hlast (file : Settings) : s.Runs (do
      Host.accept (Settings.ofLayers file (← host.environment) i.overrides))
        fun st s' => s' = s ∧ st.check = .ok () :=
    .bind (.lift s.run_environment
      (.accept (fun _ => nofun) fun _ hst => ⟨rfl, Settings.check_of_ofLayers hst⟩))
  have hat (path : String) : s.Runs (do
      let file ← host.settingsAt path
      Host.accept (Settings.ofLayers file (← host.environment) i.overrides))
        fun st s' => s' = s ∧ st.check = .ok () :=
    .bind (runs_settingsAt.mono fun file s' hs' => hs' ▸ hlast file)
  split
  · next path hpath =>
    refine .bind (.lift rfl ?_)
    split
    · exact .bind (.throw nofun)
    · exact hat path
  · exact .bind (.lift rfl (hat _))

/-- The settings of a command, in the session that they were read in. -/
theorem run_settings_of_toOption {i : Invocation} {st : Settings}
    (h : ((host.settings i).run.run s).1.toOption = some st) :
    (host.settings i).run.run s = (.ok st, s) := by
  cases hx : (host.settings i).run.run s with
  | mk r s' =>
    rw [hx] at h
    cases r with
    | error f => cases h
    | ok st' =>
      cases h
      exact congrArg _ (runs_settings.of_run _ _ hx).1

end Session

end JobLoom.Command
