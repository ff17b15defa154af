import Mathlib.Tactic.Common
import JobLoom.Files.Disk

/-!
# Disks that change

Where a path leads is known before anything is looked up: to the place that its names spell. So two
paths are at odds only if they lead to one place, however they are written.

* **Reading** a file gives the same as long as no file is put in its place, since directories are
  only ever added.
* **What is missing** stays missing as long as nothing is put on the way to it.
-/

namespace JobLoom

namespace Path

/-- The place that a piece leads to from another one. -/
def follow (p : Place) (piece : List Char) : Place :=
  if piece = [] || piece = ['.'] then p
  else if piece = ['.', '.'] then p.dropLast
  else p ++ [String.ofList piece]

/-- The places that the names among the pieces lead to, one after the other. -/
def placesFrom : Place → List (List Char) → List Place
  | _, [] => []
  | p, piece :: rest =>
    if piece = [] || piece = ['.'] || piece = ['.', '.'] then placesFrom (follow p piece) rest
    else follow p piece :: placesFrom (follow p piece) rest

/-- Where a path begins, for those who are at a place. -/
def origin (start : Place) (path : String) : Place := if isAbsolute path then [] else start

/-- The place that a path leads to. -/
def placeOf (start : Place) (path : String) : Place :=
  (pieces path.toList).foldl follow (origin start path)

/-- The places that are looked at on the way along a path, up to its end. -/
def way (start : Place) (path : String) : List Place :=
  placesFrom (origin start path) (pieces path.toList)

variable {p : Place} {piece : List Char} {rest : List (List Char)}

theorem placesFrom_idle (h : piece = [] || piece = ['.']) :
    placesFrom p (piece :: rest) = placesFrom p rest := by
  rw [placesFrom, if_pos (by simp only [h, Bool.true_or]), follow, if_pos h]

theorem placesFrom_up : placesFrom p (['.', '.'] :: rest) = placesFrom p.dropLast rest := by
  rw [placesFrom, if_pos (by simp), follow, if_neg (by simp), if_pos rfl]

theorem placesFrom_name (hidle : ¬ (piece = [] || piece = ['.']) = true)
    (hup : piece ≠ ['.', '.']) : placesFrom p (piece :: rest) =
      (p ++ [String.ofList piece]) :: placesFrom (p ++ [String.ofList piece]) rest := by
  rw [placesFrom, if_neg (by simpa [hup] using hidle), follow, if_neg hidle, if_neg hup]

end Path

namespace Disk

/-! ## What is at a place -/

/-- After something has been put at a place it is there, and everything else is where it was. -/
theorem node?_put (d : Disk) {q : Place} (hq : q ≠ []) (n : Node) (p : Place) :
    (d.put q n).node? p = if p = q then some n else d.node? p := by
  have hfilter (h : p ≠ q) (l : List (Place × Node)) :
      (l.filter fun e => e.1 ≠ q).lookup p = l.lookup p := by
    induction l with
    | nil => rfl
    | cons e rest ih =>
      by_cases he : e.1 = q
      · rw [List.filter_cons_of_neg (by simpa using he), ih, List.lookup_cons,
          beq_eq_false_iff_ne.2 (he ▸ h)]
      · rw [List.filter_cons_of_pos (by simpa using he), List.lookup_cons, List.lookup_cons, ih]
  unfold node? put
  by_cases h : p = q
  · rw [if_pos h, h, if_neg hq, List.lookup_cons_self]
  · rw [if_neg h, List.lookup_cons, beq_eq_false_iff_ne.2 h, hfilter h]

theorem mem_of_node?_file {d : Disk} {p : Place} {content : List UInt8}
    (h : d.node? p = some (.file content)) : (p, .file content) ∈ d.nodes := by
  unfold node? at h
  split at h
  · cases h
  · obtain ⟨before, after, hsplit, -⟩ := List.lookup_eq_some_iff.1 h
    rw [hsplit]
    exact List.mem_append_right _ List.mem_cons_self

/-- A target, as it is at its place. -/
def targetAt (d : Disk) (p : Place) : Target :=
  match d.node? p with
  | some n => .found p n
  | none => .vacant p

/-- The place of a target. -/
def Target.place : Target → Place
  | .found p _ => p
  | .vacant p => p

/-- A target is a directory. -/
def Target.IsDirectory (t : Target) : Prop := ∃ p, t = .found p .directory

/-! ## Walking -/

variable {d d' : Disk} {p : Place} {n : Node} {ps : List (List Char)} {t : Target}

/-- Nothing is behind a file. -/
theorem walkFrom_file {content : List UInt8} (h : d.walkFrom p (.file content) ps = .ok t) :
    ps = [] ∧ t = .found p (.file content) := by
  cases ps with
  | nil =>
    cases h
    exact ⟨rfl, rfl⟩
  | cons piece rest =>
    rw [walkFrom, if_pos nofun] at h
    cases h

/-- A walk ends at the place that the pieces spell. -/
theorem place_of_walkFrom (h : d.walkFrom p n ps = .ok t) : t.place = ps.foldl Path.follow p := by
  fun_induction walkFrom d p n ps with
  | case1 p n =>
    cases h
    rfl
  | case2 p n piece rest hn => cases h
  | case3 p n piece rest hn hidle ih =>
    rw [ih h, List.foldl_cons, Path.follow, if_pos hidle]
  | case4 p n rest hn hidle ih =>
    rw [ih h, List.foldl_cons, Path.follow, if_neg hidle, if_pos rfl]
  | case5 p n piece rest hn hidle hup name hlong => cases h
  | case6 p n piece rest hn hidle hup name hlong n' hn' ih =>
    rw [ih h, List.foldl_cons, Path.follow, if_neg hidle, if_neg hup]
  | case7 p n piece hn hidle hup name hlong hnone =>
    cases h
    rw [List.foldl_cons, Path.follow, if_neg hidle, if_neg hup]
    rfl
  | case8 p n piece rest hn hidle hup name hlong hnone hrest => cases h

/-- The last name leads to what is in its place. -/
theorem walkFrom_name {piece : List Char} (hidle : ¬ (piece = [] || piece = ['.']) = true)
    (hup : piece ≠ ['.', '.']) (hlong : ¬ (String.ofList piece).utf8ByteSize > nameLimit) :
    d.walkFrom p .directory [piece] = .ok (d.targetAt (p ++ [String.ofList piece])) := by
  rw [walkFrom, if_neg (not_not_intro rfl), if_neg hidle, if_neg hup]
  dsimp only
  rw [if_neg hlong, targetAt]
  cases d.node? (p ++ [String.ofList piece]) <;> rfl

/-- Where the directories are still there, a path that does not lead to one leads to the same
place. -/
theorem walkFrom_of_directories (hkept : ∀ q, d.node? q = some .directory →
      d'.node? q = some .directory)
    (h : d.walkFrom p .directory ps = .ok t) (ht : ¬ t.IsDirectory) :
    d'.walkFrom p .directory ps = .ok (d'.targetAt t.place) := by
  generalize hn : Node.directory = n at h
  fun_induction walkFrom d p n ps with
  | case1 p n =>
    cases hn
    cases h
    exact absurd ⟨p, rfl⟩ ht
  | case2 p n piece rest hn => cases h
  | case3 p n piece rest hdir hidle ih =>
    rw [walkFrom, if_neg hdir, if_pos hidle]
    exact ih hn h
  | case4 p n rest hdir hidle ih =>
    rw [walkFrom, if_neg hdir, if_neg hidle, if_pos rfl]
    exact ih rfl h
  | case5 p n piece rest hdir hidle hup name hlong => cases h
  | case6 p n piece rest hdir hidle hup name hlong n' hn' ih =>
    cases n' with
    | directory =>
      rw [walkFrom, if_neg hdir, if_neg hidle, if_neg hup, if_neg hlong, hkept _ hn']
      exact ih rfl h
    | file content =>
      obtain ⟨rfl, rfl⟩ := walkFrom_file h
      exact hn ▸ walkFrom_name hidle hup hlong
  | case7 p n piece hdir hidle hup name hlong hnone =>
    cases h
    exact hn ▸ walkFrom_name hidle hup hlong
  | case8 p n piece rest hdir hidle hup name hlong hnone hrest => cases h

/-- Where nothing has changed on the way, the pieces lead to the same. -/
theorem walkFrom_congr (h : ∀ q ∈ Path.placesFrom p ps, d'.node? q = d.node? q) :
    d'.walkFrom p n ps = d.walkFrom p n ps := by
  fun_induction walkFrom d p n ps with
  | case1 p n => rfl
  | case2 p n piece rest hdir => rw [walkFrom, if_pos hdir]
  | case3 p n piece rest hdir hidle ih =>
    rw [walkFrom, if_neg hdir, if_pos hidle]
    rw [Path.placesFrom_idle hidle] at h
    exact ih h
  | case4 p n rest hdir hidle ih =>
    rw [walkFrom, if_neg hdir, if_neg hidle, if_pos rfl]
    rw [Path.placesFrom_up] at h
    exact ih h
  | case5 p n piece rest hdir hidle hup name hlong =>
    rw [walkFrom, if_neg hdir, if_neg hidle, if_neg hup, if_pos hlong]
  | case6 p n piece rest hdir hidle hup name hlong n' hn' ih =>
    rw [Path.placesFrom_name hidle hup] at h
    rw [walkFrom, if_neg hdir, if_neg hidle, if_neg hup, if_neg hlong,
      (h _ List.mem_cons_self).trans hn']
    exact ih fun q hq => h q (List.mem_cons_of_mem _ hq)
  | case7 p n piece hdir hidle hup name hlong hnone =>
    rw [Path.placesFrom_name hidle hup] at h
    rw [walkFrom, if_neg hdir, if_neg hidle, if_neg hup, if_neg hlong,
      (h _ List.mem_cons_self).trans hnone]
    rfl
  | case8 p n piece rest hdir hidle hup name hlong hnone hrest =>
    rw [Path.placesFrom_name hidle hup] at h
    rw [walkFrom, if_neg hdir, if_neg hidle, if_neg hup, if_neg hlong,
      (h _ List.mem_cons_self).trans hnone]
    exact if_neg hrest

/-! ## Changes -/

/-- A disk has been changed: files have been put at the places that are written, and apart from that
there are only new directories. Nothing has happened but at the places that are passed. -/
structure Changes (d d' : Disk) (written passed : Place → Prop) : Prop where
  /-- paths begin where they did -/
  start_eq : d'.start = d.start
  /-- directories are still there -/
  directory : ∀ p, d.node? p = some .directory → d'.node? p = some .directory
  /-- files are there as before, except at the places that are written -/
  file_iff : ∀ p content, ¬ written p →
    (d'.node? p = some (.file content) ↔ d.node? p = some (.file content))
  /-- the other places are as they were -/
  elsewhere : ∀ p, ¬ passed p → d'.node? p = d.node? p

variable {written passed written' passed' : Place → Prop}

namespace Changes

theorem refl (d : Disk) : d.Changes d written passed :=
  ⟨rfl, fun _ h => h, fun _ _ _ => Iff.rfl, fun _ _ => rfl⟩

/-- More places may be written and passed. -/
theorem mono (h : d.Changes d' written passed) (hwritten : ∀ p, written p → written' p)
    (hpassed : ∀ p, passed p → passed' p) : d.Changes d' written' passed' where
  start_eq := h.start_eq
  directory := h.directory
  file_iff p content hnot := h.file_iff p content fun hw => hnot (hwritten p hw)
  elsewhere p hnot := h.elsewhere p fun hp => hnot (hpassed p hp)

theorem trans {d'' : Disk} (h : d.Changes d' written passed)
    (h' : d'.Changes d'' written passed) : d.Changes d'' written passed where
  start_eq := h'.start_eq.trans h.start_eq
  directory p hp := h'.directory p (h.directory p hp)
  file_iff p content hnot := (h'.file_iff p content hnot).trans (h.file_iff p content hnot)
  elsewhere p hnot := (h'.elsewhere p hnot).trans (h.elsewhere p hnot)

end Changes

/-- Something is put where no directory is. -/
theorem changes_put {q : Place} (hdirectory : d.node? q ≠ some .directory)
    (hfile : (∃ content, n = .file content ∨ d.node? q = some (.file content)) → written q) :
    d.Changes (d.put q n) written (· = q) := by
  have hq : q ≠ [] := by
    rintro rfl
    exact hdirectory rfl
  refine ⟨rfl, fun p hp => ?_, fun p content hnot => ?_, fun p hp => ?_⟩
  · rw [node?_put d hq, if_neg]
    · exact hp
    · rintro rfl
      exact hdirectory hp
  · rw [node?_put d hq]
    split
    · next heq =>
      -- there is no file in this place, neither before nor after
      subst heq
      constructor
      · intro h
        exact absurd (hfile ⟨content, .inl (Option.some.inj h)⟩) hnot
      · intro h
        exact absurd (hfile ⟨content, .inr h⟩) hnot
    · exact Iff.rfl
  · rw [node?_put d hq, if_neg hp]

/-- Making directories adds directories only. -/
theorem changes_makeFrom (h : d.makeFrom p ps = .ok d') :
    d.Changes d' (fun _ => False) (· ∈ Path.placesFrom p ps) := by
  fun_induction makeFrom d p ps with
  | case1 d p =>
    cases h
    exact .refl _
  | case2 d p piece rest hidle ih =>
    rw [Path.placesFrom_idle hidle]
    exact ih h
  | case3 d p rest hidle ih =>
    rw [Path.placesFrom_up]
    exact ih h
  | case4 d p piece rest hidle hup name hlong => cases h
  | case5 d p piece rest hidle hup name next hlong hnext ih =>
    rw [Path.placesFrom_name hidle hup]
    exact (ih h).mono (fun _ h => h) fun q hq => List.mem_cons_of_mem _ hq
  | case6 d p piece rest hidle hup name next hlong content hnext => cases h
  | case7 d p piece rest hidle hup name next hlong hnext ih =>
    rw [Path.placesFrom_name hidle hup]
    have hput : d.Changes (d.put next .directory) (fun _ => False) (· = next) :=
      changes_put (by rw [hnext]; nofun)
        (by rw [hnext]; rintro ⟨content, hc | hc⟩ <;> cases hc)
    refine (hput.mono (fun _ h => h) fun q hq => ?_).trans
      ((ih h).mono (fun _ h => h) fun q hq => List.mem_cons_of_mem _ hq)
    exact hq ▸ List.mem_cons_self

/-- Making the directories on a path adds directories on the way only. -/
theorem changes_makeDirectories {path : String} (h : d.makeDirectories path = .ok d') :
    d.Changes d' (fun _ => False) (· ∈ Path.way d.start path) := by
  unfold makeDirectories at h
  split at h
  · cases h
  · exact changes_makeFrom h

/-! ## Reading and writing -/

variable {path : String}

theorem place_of_walk (h : d.walk path = .ok t) : t.place = Path.placeOf d.start path := by
  unfold walk at h
  split at h
  · cases h
  · split at h
    · cases h
    · split at h
      · cases h
      · exact place_of_walkFrom h

/-- On a changed disk, a path that does not lead to a directory leads to the same place. -/
theorem walk_of_changes (hd : d.Changes d' written passed) (h : d.walk path = .ok t)
    (ht : ¬ t.IsDirectory) : d'.walk path = .ok (d'.targetAt t.place) := by
  unfold walk at h ⊢
  split at h
  · cases h
  · next hempty =>
    split at h
    · cases h
    · next hnul =>
      split at h
      · cases h
      · next hlong =>
        rw [if_neg hempty, if_neg hnul, if_neg hlong, hd.start_eq]
        exact walkFrom_of_directories hd.directory h ht

/-- A path that does not lead to a directory leads to what is at its place. -/
theorem eq_targetAt_of_walk (h : d.walk path = .ok t) (ht : ¬ t.IsDirectory) :
    t = d.targetAt t.place := by
  have hsame : d.Changes d (fun _ => False) (fun _ => False) := .refl d
  exact Except.ok.inj (h.symm.trans (walk_of_changes hsame h ht))

theorem walk_of_read {content : List UInt8} (h : d.read path = .ok content) :
    d.walk path = .ok (.found (Path.placeOf d.start path) (.file content)) := by
  unfold read at h
  split at h
  · cases h
  · cases h
  · cases h
  · next p' content' hw =>
    cases h
    have hplace : p' = _ := place_of_walk hw
    rw [hw, hplace]

theorem holds_of_read {content : List UInt8} (h : d.read path = .ok content) :
    d.holds path = true := by
  rw [holds, walk_of_read h]

theorem node?_of_read {content : List UInt8} (h : d.read path = .ok content) :
    d.node? (Path.placeOf d.start path) = some (.file content) := by
  have hat := eq_targetAt_of_walk (walk_of_read h) (by rintro ⟨q, hq⟩; cases hq)
  unfold Target.place targetAt at hat
  dsimp only at hat
  split at hat
  · next n hn =>
    cases hat
    exact hn
  · cases hat

/-- A file that could be read can be read on a changed disk, with what is in its place now. -/
theorem read_of_changes {content content' : List UInt8} (hd : d.Changes d' written passed)
    (h : d.read path = .ok content)
    (hnow : d'.node? (Path.placeOf d.start path) = some (.file content')) :
    d'.read path = .ok content' := by
  have hwalk := walk_of_changes hd (walk_of_read h) (by rintro ⟨q, hq⟩; cases hq)
  unfold Target.place targetAt at hwalk
  dsimp only at hwalk
  rw [hnow] at hwalk
  rw [read, hwalk]

/-- Where nothing has changed on the way, reading a file gives the same. -/
theorem read_congr (hstart : d'.start = d.start)
    (h : ∀ q ∈ Path.way d.start path, d'.node? q = d.node? q) : d'.read path = d.read path := by
  have hwalk : d'.walk path = d.walk path := by
    unfold walk
    rw [hstart]
    exact if_congr Iff.rfl rfl (if_congr Iff.rfl rfl (if_congr Iff.rfl rfl (walkFrom_congr h)))
  rw [read, read, hwalk]

/-- A file that has been written can be read, and nothing else has happened. -/
theorem write_eq_ok {content : List UInt8} (h : d.write path content = .ok d') :
    d.Changes d' (· = Path.placeOf d.start path) (· = Path.placeOf d.start path) ∧
      d'.read path = .ok content := by
  -- what is written is a place without a directory
  have hput : ∃ t, d.walk path = .ok t ∧ ¬ t.IsDirectory ∧ d' = d.put t.place (.file content) := by
    unfold write at h
    split at h
    · cases h
    · cases h
    · next p' content' hw =>
      cases h
      exact ⟨_, hw, (by rintro ⟨q, hq⟩; cases hq), rfl⟩
    · next p' hw =>
      cases h
      exact ⟨_, hw, (by rintro ⟨q, hq⟩; cases hq), rfl⟩
  obtain ⟨t, hwalk, ht, rfl⟩ := hput
  have hat := eq_targetAt_of_walk hwalk ht
  have hdirectory : d.node? t.place ≠ some .directory := by
    intro hnode
    refine ht ⟨t.place, ?_⟩
    rw [hat, targetAt, hnode]
    rfl
  have hchanges : d.Changes (d.put t.place (.file content)) (· = t.place) (· = t.place) :=
    changes_put hdirectory fun _ => rfl
  have hplace : t.place ≠ [] := by
    intro hnil
    exact hdirectory (hnil ▸ rfl)
  have hnow := walk_of_changes hchanges hwalk ht
  rw [targetAt, node?_put d hplace, if_pos rfl] at hnow
  rw [← place_of_walk hwalk]
  exact ⟨hchanges, by rw [read, hnow]⟩

/-! ## Listing -/

/-- Of two lists of names, one is not behind the other. -/
theorem isInOrder_total (x y : List String) : (isInOrder x y || isInOrder y x) = true := by
  induction x generalizing y with
  | nil => rfl
  | cons a as ih =>
    cases y with
    | nil => rfl
    | cons b bs =>
      rw [isInOrder, isInOrder]
      by_cases hab : a < b
      · rw [if_pos hab, Bool.true_or]
      · by_cases hba : b < a
        · rw [if_pos hba, Bool.or_true]
        · have heq : a = b := String.le_antisymm (String.not_lt.1 hba) (String.not_lt.1 hab)
          rw [if_neg hab, if_neg hba, if_pos heq, if_pos heq.symm]
          exact ih bs

theorem isInOrder_trans (x y z : List String) (hxy : isInOrder x y = true)
    (hyz : isInOrder y z = true) : isInOrder x z = true := by
  induction x generalizing y z with
  | nil => rfl
  | cons a as ih =>
    cases y with
    | nil => cases hxy
    | cons b bs =>
      cases z with
      | nil => cases hyz
      | cons c cs =>
        rw [isInOrder] at hxy hyz ⊢
        by_cases hab : a < b
        · by_cases hbc : b < c
          · rw [if_pos (String.lt_trans hab hbc)]
          · rw [if_neg hbc] at hyz
            split at hyz
            · next heq => rw [if_pos (heq ▸ hab)]
            · cases hyz
        · rw [if_neg hab] at hxy
          split at hxy
          · next heq =>
            subst heq
            by_cases hac : a < c
            · rw [if_pos hac]
            · rw [if_neg hac] at hyz ⊢
              split at hyz
              · next heq =>
                rw [if_pos heq]
                exact ih bs cs hxy hyz
              · cases hyz
          · cases hxy

theorem pairwise_filesBelow {files : List (List String)} (h : d.filesBelow path = .ok files) :
    files.Pairwise fun x y => isInOrder x y = true := by
  unfold filesBelow at h
  split at h
  · cases h
  · cases h
  · cases h
    exact List.pairwise_mergeSort isInOrder_trans isInOrder_total _

/-- What lies below a place is there. -/
theorem eq_append_of_below? {p q : Place} {names : List String} (h : below? p q = some names) :
    q = p ++ names := by
  unfold below? at h
  split at h
  · next hprefix =>
    cases h
    exact (List.prefix_iff_eq_append.1 (List.isPrefixOf_iff_prefix.1 hprefix)).symm
  · cases h

/-- No file is listed twice, if no place of the disk is. -/
theorem nodup_filesBelow {files : List (List String)} (h : d.filesBelow path = .ok files)
    (hplaces : (d.nodes.map Prod.fst).Nodup) : files.Nodup := by
  unfold filesBelow at h
  split at h
  · cases h
  · cases h
  · next p n hwalk =>
    cases h
    refine (List.mergeSort_perm _ _).nodup_iff.2 ?_
    refine (List.pairwise_map.1 hplaces).filterMap _ fun e e' hne names hnames names' hnames' heq =>
      hne ?_
    split at hnames <;> split at hnames'
    · rw [eq_append_of_below? hnames, eq_append_of_below? hnames', heq]
    · cases hnames'
    · cases hnames
    · cases hnames

/-- Files that stand in order are listed as they stand. -/
theorem filesBelow_of_pairwise {files : List (List String)}
    (hwalk : (d.walk path).toOption = some (.found p n))
    (hfiles : (d.nodes.filterMap fun e =>
      match e.2 with
      | .file _ => below? p e.1
      | .directory => none) = files)
    (horder : files.Pairwise fun x y => isInOrder x y = true) :
    d.filesBelow path = .ok files := by
  unfold filesBelow
  cases hw : d.walk path with
  | error f =>
    rw [hw] at hwalk
    cases hwalk
  | ok t =>
    rw [hw] at hwalk
    cases hwalk
    exact congrArg Except.ok ((congrArg inOrder hfiles).trans (List.mergeSort_of_pairwise horder))

end Disk

end JobLoom
