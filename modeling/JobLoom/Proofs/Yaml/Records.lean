import JobLoom.Proofs.Yaml.Agreement

/-!
# Records of independent slots

A record is read entry by entry into a state. Every known key names a slot of the state, which may be
filled once, and unknown keys are skipped. So it does not matter in which order the entries come, nor
what is among them that no slot asks for.

* **Results.** In the bare context a reader has one result, if any, whatever has been counted before.
* **Forms** tell the slots of a record, how each is read and how it is filled. Filling one slot does
  nothing to the others.
* **Edits** put in or take out an entry with an unknown key, or reorder the entries.
-/

namespace JobLoom.Yaml

variable {α β σ ε : Type}

/-! ## Results -/

/-- What a reader comes to, at the start of a document. -/
def result? (r : Reading α) : Option α :=
  match r 0 with
  | .ok (a, _) => some a
  | .error _ => none

/-- The reader comes to the same whatever has been counted before. -/
def IsSteady (r : Reading α) : Prop := Agrees False Eq r r

variable {limited : Prop}

/-- What one of two readers that agree comes to is a result of the other one. -/
theorem result?_of_agrees {r r' : Reading α} (h : Agrees limited Eq r r') {a : α} {k k' : Nat}
    (hr : r k = .ok (a, k')) : result? r' = some a := by
  have hout := h k 0
  unfold result?
  rw [hr] at hout
  generalize r' 0 = x at hout ⊢
  cases hout with
  | done hab l l' => exact congrArg some hab.symm

/-- A result of one of two readers that agree is had from the other one, unless too many aliases
have been followed. -/
theorem exists_eq_ok_of_agrees {r r' : Reading α} (h : Agrees limited Eq r r') {a : α}
    (hr : result? r' = some a) (k : Nat) :
    (∃ k', r k = .ok (a, k')) ∨ limited ∧ r k = .error (.fault .repetition) := by
  have hout := h k 0
  unfold result? at hr
  generalize r k = x at hout ⊢
  generalize r' 0 = x' at hout hr
  cases hout with
  | done hab l l' =>
    cases hr
    exact .inl ⟨l, by rw [hab]⟩
  | exhausted hlimited y => exact .inr ⟨hlimited, rfl⟩
  | flawed f f' => cases hr

/-- Without a limit, readers that agree have the same result. -/
theorem result?_congr {r r' : Reading α} (h : Agrees False Eq r r') : result? r = result? r' := by
  have hout := h 0 0
  unfold result?
  generalize r 0 = x at hout ⊢
  generalize r' 0 = x' at hout ⊢
  cases hout with
  | done hab l l' => exact congrArg some hab
  | exhausted hno y => exact hno.elim
  | flawed f f' => rfl

theorem result?_bind {r : Reading α} {f : α → Reading β} (hf : ∀ a, IsSteady (f a)) :
    result? (r >>= f) = (result? r).bind fun a => result? (f a) := by
  have hbind : (r >>= f) 0 = r 0 >>= fun x => f x.1 x.2 := rfl
  unfold result?
  rw [hbind]
  cases hr : r 0 with
  | error e => rfl
  | ok x =>
    -- what has been counted by now is of no account for the second reader
    change (match f x.1 x.2 with | .ok (b, _) => some b | .error _ => none) =
      (match f x.1 0 with | .ok (b, _) => some b | .error _ => none)
    have hout := hf x.1 x.2 0
    generalize f x.1 x.2 = y at hout ⊢
    generalize f x.1 0 = y' at hout ⊢
    cases hout with
    | done hab l l' => exact congrArg some hab
    | exhausted hno y => exact hno.elim
    | flawed f f' => rfl

theorem result?_bind_of_none {r : Reading α} {f : α → Reading β} (h : result? r = none) :
    result? (r >>= f) = none := by
  have hbind : (r >>= f) 0 = r 0 >>= fun x => f x.1 x.2 := rfl
  unfold result? at h ⊢
  rw [hbind]
  cases hr : r 0 with
  | error e => rfl
  | ok x => rw [hr] at h; cases h

theorem result?_foldlM {f : σ → ε → Reading σ} (hf : ∀ s e, IsSteady (f s e)) (es : List ε)
    (s : σ) : result? (es.foldlM f s) = es.foldlM (fun s e => result? (f s e)) s := by
  induction es generalizing s with
  | nil => rfl
  | cons e rest ih =>
    have hrest (s : σ) : IsSteady (rest.foldlM f s) :=
      .foldlM (List.forall₂_same.2 fun _ _ => rfl) (fun s e e' he => by subst he; exact hf s e) s
    rw [List.foldlM_cons, List.foldlM_cons, result?_bind hrest]
    exact congrArg _ (funext ih)

theorem result?_located (path : Path) (r : Reading α) : result? (located path r) = result? r := by
  unfold result? located
  cases r 0 with
  | ok x => rfl
  | error f =>
    cases f with
    | fault f => rfl
    | mismatch m p => cases p <;> rfl

/-- The text of a key. -/
def Node.keyText? : Node → Option String
  | .scalar _ _ text => some text
  | _ => none

theorem result?_readText (path : Path) (expected : String) (n : Node) :
    result? (readText .bare path expected n) = n.keyText? := by
  have hflawed (n : Node) : result? (wrongKind .bare expected n : Reading String) = none := by
    unfold wrongKind
    split
    · rfl
    · rfl
    · rfl
    · split <;> rfl
    · rfl
    · rfl
  rw [readText, result?_located]
  cases n with
  | scalar tag plain text => rfl
  | aliasOf id => rfl
  | lost => exact hflawed .lost
  | absent => exact hflawed .absent
  | sequence tag items => exact hflawed (.sequence tag items)
  | mapping tag entries => exact hflawed (.mapping tag entries)

/-! ## Folds -/

/-- Steps that commute can be taken in any order. -/
theorem foldlM_eq_of_perm {f : σ → ε → Option σ}
    (hf : ∀ s a b, (f s a).bind (f · b) = (f s b).bind (f · a)) {es es' : List ε}
    (h : es.Perm es') (s : σ) : es.foldlM f s = es'.foldlM f s := by
  induction h generalizing s with
  | nil => rfl
  | cons e _ ih =>
    rw [List.foldlM_cons, List.foldlM_cons]
    exact congrArg _ (funext ih)
  | swap a b rest =>
    have hswap (a b : ε) : (b :: a :: rest).foldlM f s =
        ((f s b).bind (f · a)).bind (rest.foldlM f ·) := by
      rw [List.foldlM_cons, Option.bind_assoc]
      exact congrArg _ (funext fun s => List.foldlM_cons)
    rw [hswap, hswap, hf]
  | trans _ _ ih ih' => exact (ih s).trans (ih' s)

/-- A step that does what another one does can take its place. -/
theorem foldlM_middle_congr {f : σ → ε → Option σ} {a b : ε} (h : ∀ s, f s a = f s b)
    (before after : List ε) (s : σ) :
    (before ++ a :: after).foldlM f s = (before ++ b :: after).foldlM f s := by
  simp only [List.foldlM_append, List.foldlM_cons, h]

/-- A step that does nothing can be left out. -/
theorem foldlM_middle_idle {f : σ → ε → Option σ} {a : ε} (h : ∀ s, f s a = some s)
    (before after : List ε) (s : σ) :
    (before ++ a :: after).foldlM f s = (before ++ after).foldlM f s := by
  simp only [List.foldlM_append, List.foldlM_cons, h]
  rfl

/-! ## Forms -/

/-- How a record is read: slot by slot. -/
structure RecordForm (σ : Type) where
  /-- the slots -/
  Slot : Type
  /-- what a slot may hold -/
  Content : Slot → Type
  /-- the keys that name a slot -/
  names : List String
  /-- the slot that a key names -/
  slot? : String → Option Slot
  /-- the slot has been filled -/
  filled : σ → Slot → Bool
  /-- fill a slot -/
  set : σ → (i : Slot) → Content i → σ
  /-- read what a slot is filled with -/
  read : Context → (i : Slot) → Nat → Path → Node → Reading (Content i)
  /-- other keys name no slot -/
  slot?_eq_none : ∀ name, name ∉ names → slot? name = none
  /-- a slot that is filled counts as filled -/
  filled_set_self : ∀ s i x, filled (set s i x) i = true
  /-- filling a slot fills no other -/
  filled_set_of_ne : ∀ s i j x, i ≠ j → filled (set s i x) j = filled s j
  /-- different slots can be filled in any order -/
  set_comm : ∀ s i j x y, i ≠ j → set (set s i x) j y = set (set s j y) i x

namespace RecordForm

variable (F : RecordForm σ)

/-- How the field that a key names is read into a state. -/
def reader (c : Context) (s : σ) (name : String) : Option (FieldReader σ) :=
  (F.slot? name).map fun i =>
    ⟨F.filled s i, fun d path n => do return F.set s i (← F.read c i d path n)⟩

/-- What an entry asks for: nothing, or that a slot is filled. -/
def action? (depth : Nat) (e : Node × Node) : Option (Option ((i : F.Slot) × F.Content i)) :=
  e.1.keyText?.bind fun name =>
    match F.slot? name with
    | none => if e.2.isWhole then some none else none
    | some i => (result? (F.read .bare i depth [] e.2)).map fun x => some ⟨i, x⟩

/-- Do what an entry asks for; no slot is filled twice. -/
def apply (s : σ) : Option ((i : F.Slot) × F.Content i) → Option σ
  | none => some s
  | some ⟨i, x⟩ => if F.filled s i then none else some (F.set s i x)

/-- Read an entry into a state. -/
def enter (depth : Nat) (s : σ) (e : Node × Node) : Option σ := (F.action? depth e).bind (F.apply s)

variable {F}

/-- All slots are read alike where nodes correspond. -/
def ReadsAlike (F : RecordForm σ) (c c' : Context) (limited : Prop) (T : Node → Node → Prop) :
    Prop :=
  ∀ i d p p' n t, T n t → Agrees limited Eq (F.read c i d p n) (F.read c' i d p' t)

variable {T : Node → Node → Prop} {c c' : Context} {n t : Node}

theorem ReadsAlike.reader (hF : F.ReadsAlike c c' limited T) (s : σ) (name : String) :
    Option.Rel (FieldReader.Agrees T limited) (F.reader c s name) (F.reader c' s name) := by
  unfold RecordForm.reader
  cases F.slot? name with
  | none => exact .none
  | some i =>
    refine .some ⟨rfl, fun d p p' n t hn => ?_⟩
    refine (hF i d p p' n t hn).bind fun x x' hx => ?_
    subst hx
    exact .pure rfl

/-- Records whose slots are read alike are read alike. -/
theorem ReadsAlike.readRecord (hF : F.ReadsAlike c c' limited T)
    (hc : Corresponds c c' limited T) (depth : Nat) (path path' : Path) (expected : String)
    (init : σ) (h : T n t) :
    Agrees limited Eq (Yaml.readRecord c depth path expected (F.reader c) init n)
      (Yaml.readRecord c' depth path' expected (F.reader c') init t) :=
  agrees_readRecord hc hF.reader depth path path' expected init h

/-- An entry that is read in the bare context is entered. -/
theorem result?_readField (hF : F.ReadsAlike .bare .bare False Eq) (depth : Nat) (path : Path)
    (s : σ) (e : Node × Node) :
    result? (readField .bare path (F.reader .bare) depth s e.1 e.2) = F.enter depth s e := by
  obtain ⟨key, v⟩ := e
  have htext := result?_readText path "field identifier" key
  unfold enter action?
  cases hkey : key.keyText? with
  | none => exact result?_bind_of_none (htext.trans hkey)
  | some name =>
    cases key with
    | scalar tag plain text =>
      obtain rfl := Option.some.inj hkey
      have hname : readText .bare path "field identifier" (.scalar tag plain text) = pure text := rfl
      unfold readField
      rw [hname, pure_bind]
      unfold RecordForm.reader
      rw [Option.bind_some]
      cases F.slot? text with
      | none =>
        dsimp only [Option.map_none]
        unfold skipNode
        split <;> rfl
      | some i =>
        dsimp only [Option.map_some]
        rw [← result?_congr (hF i depth (.ofKey (.scalar tag plain text) :: path) [] v v rfl)]
        generalize F.read .bare i depth (.ofKey (.scalar tag plain text) :: path) v = r
        split
        · next hfilled =>
          cases result? r with
          | none => rfl
          | some x => exact (if_pos hfilled).symm
        · next hfilled =>
          rw [result?_bind fun x => .pure rfl]
          cases result? r with
          | none => rfl
          | some x => exact (if_neg hfilled).symm
    | _ => cases hkey

/-- A record that is read in the bare context is entered entry by entry. -/
theorem result?_readRecord (hF : F.ReadsAlike .bare .bare False Eq) (depth : Nat) (path : Path)
    (expected : String) (init : σ) (tag : Option String) (entries : List (Node × Node)) :
    result? (readRecord .bare (depth + 1) path expected (F.reader .bare) init
      (.mapping tag entries)) = entries.foldlM (F.enter depth) init := by
  have hsteady (s : σ) (e : Node × Node) :
      IsSteady (readField .bare path (F.reader .bare) depth s e.1 e.2) :=
    agrees_readField corresponds_bare hF.reader depth path path s ⟨rfl, rfl⟩
  rw [readRecord, readMapping, result?_located]
  refine (result?_foldlM hsteady entries init).trans ?_
  congr 1
  funext s e
  exact result?_readField hF depth path s e

/-! ## Orders -/

/-- What two entries ask for can be done in any order. -/
theorem apply_comm (s : σ) (x y : Option ((i : F.Slot) × F.Content i)) :
    (F.apply s x).bind (F.apply · y) = (F.apply s y).bind (F.apply · x) := by
  cases x with
  | none => exact (Option.bind_fun_some (F.apply s y)).symm
  | some x =>
    cases y with
    | none => exact Option.bind_fun_some (F.apply s (some x))
    | some y =>
      obtain ⟨i, x⟩ := x
      obtain ⟨j, y⟩ := y
      by_cases hij : i = j
      · -- no slot is filled twice
        subst hij
        have htwice (x y : F.Content i) :
            (F.apply s (some ⟨i, x⟩)).bind (F.apply · (some ⟨i, y⟩)) = none := by
          unfold apply
          dsimp only
          split
          · rfl
          · exact if_pos (F.filled_set_self s i x)
        rw [htwice, htwice]
      · unfold apply
        dsimp only
        by_cases hi : F.filled s i <;> by_cases hj : F.filled s j
        · rw [if_pos hi, if_pos hj]
          rfl
        · rw [if_pos hi, if_neg hj, Option.bind_some, F.filled_set_of_ne s j i y (Ne.symm hij),
            if_pos hi]
          rfl
        · rw [if_neg hi, if_pos hj, Option.bind_some, F.filled_set_of_ne s i j x hij, if_pos hj]
          rfl
        · rw [if_neg hi, if_neg hj, Option.bind_some, Option.bind_some,
            F.filled_set_of_ne s i j x hij, F.filled_set_of_ne s j i y (Ne.symm hij), if_neg hi,
            if_neg hj, F.set_comm s i j x y hij]

/-- Two entries can be entered in any order. -/
theorem enter_comm (depth : Nat) (s : σ) (a b : Node × Node) :
    (F.enter depth s a).bind (F.enter depth · b) =
      (F.enter depth s b).bind (F.enter depth · a) := by
  unfold enter
  cases F.action? depth a with
  | none => exact (Option.bind_fun_none _).symm
  | some x =>
    cases F.action? depth b with
    | none => exact Option.bind_fun_none _
    | some y => exact apply_comm s x y

/-- An entry whose key names no slot is skipped. -/
theorem enter_unknown (depth : Nat) (s : σ) {tag : Option String} {plain : Bool} {text : String}
    {v : Node} (htext : text ∉ F.names) (hv : v.isWhole = true) :
    F.enter depth s (.scalar tag plain text, v) = some s := by
  have haction : F.action? depth (.scalar tag plain text, v) = some none := by
    unfold action? Node.keyText?
    rw [Option.bind_some, F.slot?_eq_none text htext]
    exact if_pos hv
  unfold enter
  rw [haction]
  rfl

/-- Entries with the same key whose values are read as the same are entered alike. -/
theorem enter_congr {depth : Nat} {key v v' : Node} {name : String}
    (hkey : key.keyText? = some name) {i : F.Slot} (hi : F.slot? name = some i)
    (h : result? (F.read .bare i depth [] v) = result? (F.read .bare i depth [] v')) (s : σ) :
    F.enter depth s (key, v) = F.enter depth s (key, v') := by
  unfold enter action?
  rw [hkey, Option.bind_some, Option.bind_some, hi]
  dsimp only
  rw [h]

/-- An entry whose key names a slot may as well come last: at the end it is what fills the slot. -/
theorem exists_set_of_mem {depth : Nat} {init s : σ} {entries : List (Node × Node)} {key v : Node}
    {name : String} (h : entries.foldlM (F.enter depth) init = some s)
    (hmem : (key, v) ∈ entries) (hkey : key.keyText? = some name) {i : F.Slot}
    (hi : F.slot? name = some i) :
    ∃ s' x, result? (F.read .bare i depth [] v) = some x ∧ s = F.set s' i x := by
  obtain ⟨before, after, rfl⟩ := List.append_of_mem hmem
  have hperm : (before ++ (key, v) :: after).Perm ((before ++ after) ++ [(key, v)]) :=
    List.perm_middle.trans (List.perm_append_singleton _ _).symm
  rw [foldlM_eq_of_perm (F.enter_comm depth) hperm, List.foldlM_append] at h
  obtain ⟨s', -, hlast⟩ := Option.bind_eq_some_iff.1 h
  rw [List.foldlM_cons] at hlast
  have henter : F.enter depth s' (key, v) = some s := (Option.bind_fun_some _).symm.trans hlast
  obtain ⟨action, haction, hdone⟩ := Option.bind_eq_some_iff.1 henter
  unfold action? at haction
  rw [hkey, Option.bind_some, hi] at haction
  obtain ⟨x, hx, rfl⟩ := Option.map_eq_some_iff.1 haction
  unfold apply at hdone
  dsimp only at hdone
  split at hdone
  · cases hdone
  · exact ⟨s', x, hx, (Option.some.inj hdone).symm⟩

end RecordForm

/-! ## Edits -/

/-- Edits of a record that mean nothing, for those who know these keys only. -/
inductive RecordEdit (names : List String) : List (Node × Node) → List (Node × Node) → Prop where
  /-- put in an entry with an unknown key -/
  | insert (before after : List (Node × Node)) (tag : Option String) (plain : Bool)
    {text : String} (htext : text ∉ names) {v : Node} (hv : v.isWhole = true) :
    RecordEdit names (before ++ after) (before ++ (.scalar tag plain text, v) :: after)
  /-- take out an entry with an unknown key -/
  | delete (before after : List (Node × Node)) (tag : Option String) (plain : Bool)
    {text : String} (htext : text ∉ names) {v : Node} (hv : v.isWhole = true) :
    RecordEdit names (before ++ (.scalar tag plain text, v) :: after) (before ++ after)
  /-- reorder the entries -/
  | reorder {es es' : List (Node × Node)} (h : es.Perm es') : RecordEdit names es es'

/-- The entries of a record come to the same before and after such an edit. -/
theorem RecordEdit.foldlM_eq {F : RecordForm σ} {es es' : List (Node × Node)}
    (h : RecordEdit F.names es es') (depth : Nat) (s : σ) :
    es.foldlM (F.enter depth) s = es'.foldlM (F.enter depth) s := by
  cases h with
  | insert before after tag plain htext hv =>
    exact (foldlM_middle_idle (fun s => F.enter_unknown depth s htext hv) before after s).symm
  | delete before after tag plain htext hv =>
    exact foldlM_middle_idle (fun s => F.enter_unknown depth s htext hv) before after s
  | reorder h => exact foldlM_eq_of_perm (F.enter_comm depth) h s

/-- Readers that are steady and come to the same agree. -/
theorem agrees_of_result?_eq {r r' : Reading α} (hr : IsSteady r) (hr' : IsSteady r')
    (h : result? r = result? r') : Agrees False Eq r r' := by
  intro k k'
  have hout := hr k 0
  have hout' := hr' 0 k'
  unfold result? at h
  generalize r k = x at hout ⊢
  generalize r 0 = y at hout h
  generalize r' 0 = y' at hout' h
  generalize r' k' = x' at hout' ⊢
  cases hout with
  | done hab l l' =>
    cases hout' with
    | done hab' l l' => exact .done (hab.trans ((Option.some.inj h).trans hab')) _ _
    | exhausted hno y => exact hno.elim
    | flawed f f' => cases h
  | exhausted hno y => exact hno.elim
  | flawed f f' =>
    cases hout' with
    | done hab' l l' => cases h
    | exhausted hno y => exact hno.elim
    | flawed g g' => exact .flawed f g'

namespace RecordForm

variable {F : RecordForm σ} (hF : F.ReadsAlike .bare .bare False Eq)

include hF

/-- Records whose entries come to the same are read alike. -/
theorem agrees_of_foldlM_eq {tag : Option String} {es es' : List (Node × Node)} {init : σ}
    (h : ∀ d, es.foldlM (F.enter d) init = es'.foldlM (F.enter d) init) (depth : Nat)
    (path path' : Path) (expected : String) :
    Agrees False Eq (readRecord .bare depth path expected (F.reader .bare) init (.mapping tag es))
      (readRecord .bare depth path' expected (F.reader .bare) init (.mapping tag es')) := by
  refine agrees_of_result?_eq (hF.readRecord corresponds_bare _ _ _ _ _ rfl)
    (hF.readRecord corresponds_bare _ _ _ _ _ rfl) ?_
  cases depth with
  | zero => rfl
  | succ d => rw [result?_readRecord hF, result?_readRecord hF, h d]

/-- A record is read as the same before and after an edit that means nothing. -/
theorem agrees_of_edit {tag : Option String} {es es' : List (Node × Node)}
    (h : RecordEdit F.names es es') (depth : Nat) (path path' : Path) (expected : String)
    (init : σ) :
    Agrees False Eq (readRecord .bare depth path expected (F.reader .bare) init (.mapping tag es))
      (readRecord .bare depth path' expected (F.reader .bare) init (.mapping tag es')) :=
  agrees_of_foldlM_eq hF (fun d => h.foldlM_eq d init) depth path path' expected

/-- A record is read as the same if the value of one field is. -/
theorem agrees_of_field {tag : Option String} (before after : List (Node × Node))
    {key v v' : Node} {name : String} (hkey : key.keyText? = some name) {i : F.Slot}
    (hi : F.slot? name = some i)
    (h : ∀ d, Agrees False Eq (F.read .bare i d [] v) (F.read .bare i d [] v'))
    (depth : Nat) (path path' : Path) (expected : String) (init : σ) :
    Agrees False Eq
      (readRecord .bare depth path expected (F.reader .bare) init
        (.mapping tag (before ++ (key, v) :: after)))
      (readRecord .bare depth path' expected (F.reader .bare) init
        (.mapping tag (before ++ (key, v') :: after))) :=
  agrees_of_foldlM_eq hF (fun d => foldlM_middle_congr
    (F.enter_congr hkey hi (result?_congr (h d))) before after init) depth path path' expected

end RecordForm

end JobLoom.Yaml
