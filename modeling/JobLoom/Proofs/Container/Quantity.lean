import Mathlib.Data.List.TakeWhile
import JobLoom.Container.Quantity
import JobLoom.Proofs.Text.Lines

/-!
# How quantities are written

The grammar of quantities, and that exactly its texts are read.

* **A number** is taken as long as possible. No scale begins with a digit or a point, so whatever
  scale follows, the number in front of it is taken as a whole: nothing is taken too early.
* **A split** of a text into a number and a scale is therefore the one that is found, and there is
  no other one. That `E` is a unit and also begins an exponent does not matter.
* **Blanks** stand in neither of the two, so the margins of a text are all that is lost.
-/

namespace JobLoom.Quantity

/-! ## How quantities are written -/

/-- A sign, or none. -/
inductive IsSign : List Char → Prop where
  /-- no sign -/
  | unsigned : IsSign []
  /-- a plus sign -/
  | plus : IsSign ['+']
  /-- a minus sign -/
  | minus : IsSign ['-']

/-- Digits, and nothing else. -/
def AreDigits (ds : List Char) : Prop := ∀ c ∈ ds, '0' ≤ c ∧ c ≤ '9'

/-- A decimal number without a sign. Digits may be missing on one side of the point, not on both. -/
inductive IsUnsigned : List Char → Prop where
  /-- digits without a point -/
  | whole {ds : List Char} (hne : ds ≠ []) (hds : AreDigits ds) : IsUnsigned ds
  /-- digits in front of the point, and perhaps behind it -/
  | pointed {ds fs : List Char} (hne : ds ≠ []) (hds : AreDigits ds) (hfs : AreDigits fs) :
    IsUnsigned (ds ++ '.' :: fs)
  /-- digits behind the point only -/
  | fraction {fs : List Char} (hne : fs ≠ []) (hfs : AreDigits fs) : IsUnsigned ('.' :: fs)

/-- A decimal number. -/
inductive IsNumber : List Char → Prop where
  /-- a sign, if any, and the number without it -/
  | signed {sign ds : List Char} (hsign : IsSign sign) (hds : IsUnsigned ds) :
    IsNumber (sign ++ ds)

/-- What may follow the number. -/
inductive IsScale : List Char → Prop where
  /-- nothing -/
  | plain : IsScale []
  /-- the name of a unit -/
  | name {n : String} (hn : n ∈ ["Ki", "Mi", "Gi", "Ti", "Pi", "Ei", "n", "u", "m", "k", "M", "G",
      "T", "P", "E"]) : IsScale n.toList
  /-- a power of ten -/
  | power {mark : Char} {sign ds : List Char} (hmark : mark = 'e' ∨ mark = 'E')
    (hsign : IsSign sign) (hne : ds ≠ []) (hds : AreDigits ds) : IsScale (mark :: (sign ++ ds))

/-- The text is a number and a scale, perhaps with blanks around them. -/
structure Writes (s : String) (number scale : List Char) : Prop where
  /-- what is around them is blank -/
  margins : ∃ before after, (∀ c ∈ before, Text.isBlank c = true) ∧
    (∀ c ∈ after, Text.isBlank c = true) ∧ s.toList = before ++ (number ++ scale) ++ after
  /-- the number -/
  number : IsNumber number
  /-- the scale -/
  scale : IsScale scale

variable {s number scale rest sign ds : List Char} {c : Char}

/-! ## Characters -/

theorem isDigit_iff : isDigit c = true ↔ '0' ≤ c ∧ c ≤ '9' := by simp [isDigit]

theorem areDigits_iff : AreDigits ds ↔ ∀ c ∈ ds, isDigit c = true :=
  forall₂_congr fun _ _ => isDigit_iff.symm

/-- A number cannot go on with a text that begins like this. -/
def EndsNumber (rest : List Char) : Prop := ∀ c ∈ rest.head?, isDigit c = false ∧ c ≠ '.'

theorem takeWhile_digits (hds : AreDigits ds) (hrest : ∀ c ∈ rest.head?, isDigit c = false) :
    (ds ++ rest).takeWhile isDigit = ds ∧ (ds ++ rest).dropWhile isDigit = rest := by
  have hds := areDigits_iff.1 hds
  rw [List.takeWhile_append_of_pos hds, List.dropWhile_append_of_pos hds]
  cases rest with
  | nil => exact ⟨List.append_nil ds, rfl⟩
  | cons c tail =>
    have hc : ¬isDigit c = true := by rw [hrest c rfl]; exact Bool.false_ne_true
    rw [List.takeWhile_cons_of_neg hc, List.dropWhile_cons_of_neg hc]
    exact ⟨List.append_nil ds, rfl⟩

theorem areDigits_takeWhile (s : List Char) : AreDigits (s.takeWhile isDigit) :=
  areDigits_iff.2 fun _ hc => List.mem_takeWhile_imp hc

/-! ## Signs -/

/-- What is left out in front is a sign. -/
theorem exists_sign (s : List Char) : ∃ sign, IsSign sign ∧ s = sign ++ dropSign s := by
  unfold dropSign
  split
  · exact ⟨_, .plus, rfl⟩
  · exact ⟨_, .minus, rfl⟩
  · exact ⟨_, .unsigned, rfl⟩

/-- A sign is left out, if what follows begins with none. -/
theorem dropSign_append (hsign : IsSign sign) (hrest : ∀ c ∈ rest.head?, c ≠ '+' ∧ c ≠ '-') :
    dropSign (sign ++ rest) = rest := by
  cases hsign with
  | plus => rfl
  | minus => rfl
  | unsigned =>
    rw [List.nil_append]
    unfold dropSign
    split
    · exact absurd rfl (hrest '+' rfl).1
    · exact absurd rfl (hrest '-' rfl).2
    · rfl

/-! ## Numbers -/

theorem ne_sign_of_isDigit (h : isDigit c = true) : c ≠ '+' ∧ c ≠ '-' := by
  constructor
  · rintro rfl
    exact absurd h (by decide)
  · rintro rfl
    exact absurd h (by decide)

theorem IsUnsigned.head?_ne_sign (h : IsUnsigned s) (rest : List Char) :
    ∀ c ∈ (s ++ rest).head?, c ≠ '+' ∧ c ≠ '-' := by
  have hdigits {ds : List Char} (hne : ds ≠ []) (hds : AreDigits ds) (rest : List Char) :
      ∀ c ∈ (ds ++ rest).head?, c ≠ '+' ∧ c ≠ '-' := by
    obtain ⟨d, more, rfl⟩ := List.exists_cons_of_ne_nil hne
    rintro c hc
    obtain rfl : d = c := Option.some.inj hc
    exact ne_sign_of_isDigit (areDigits_iff.1 hds d List.mem_cons_self)
  cases h with
  | whole hne hds => exact hdigits hne hds rest
  | pointed hne hds _ =>
    rw [List.append_assoc]
    exact hdigits hne hds _
  | fraction _ _ =>
    rintro c hc
    obtain rfl : '.' = c := Option.some.inj hc
    decide

/-- The number in front of what cannot go on with it is taken as a whole. -/
theorem afterNumeral_append (h : IsNumber number) (hrest : EndsNumber rest) :
    afterNumeral (number ++ rest) = some rest := by
  obtain @⟨sign, ds, hsign, hds⟩ := h
  have hdigit : ∀ c ∈ rest.head?, isDigit c = false := fun c hc => (hrest c hc).1
  have hpoint (tail : List Char) : ∀ c ∈ ('.' :: tail).head?, isDigit c = false := by
    rintro c hc
    obtain rfl : '.' = c := Option.some.inj hc
    decide
  rw [List.append_assoc]
  unfold afterNumeral
  rw [dropSign_append hsign (hds.head?_ne_sign rest)]
  cases hds with
  | whole hne hds =>
    obtain ⟨htake, hdrop⟩ := takeWhile_digits hds hdigit
    simp only [htake, hdrop]
    split
    · exact absurd rfl (hrest '.' rfl).2
    · rw [if_neg (by simpa using hne)]
  | @pointed ds fs hne hds hfs =>
    obtain ⟨-, hend⟩ := takeWhile_digits hfs hdigit
    obtain ⟨htake, hdrop⟩ := takeWhile_digits hds (hpoint (fs ++ rest))
    rw [List.append_assoc, List.cons_append]
    simp only [htake, hdrop, hend]
    rw [if_neg (by simp [hne])]
  | fraction hne hfs =>
    obtain ⟨htake, hend⟩ := takeWhile_digits hfs hdigit
    have hdot : isDigit '.' = false := by decide
    simp only [List.cons_append, List.takeWhile_cons, List.dropWhile_cons, hdot,
      Bool.false_eq_true, if_false, htake, hend]
    rw [if_neg (by simp [hne])]

/-- What is taken in front is a number. -/
theorem exists_number_of_afterNumeral (h : afterNumeral s = some rest) :
    ∃ number, IsNumber number ∧ s = number ++ rest := by
  obtain ⟨sign, hsign, hs⟩ := exists_sign s
  suffices hds : ∃ ds, IsUnsigned ds ∧ dropSign s = ds ++ rest by
    obtain ⟨ds, hds, heq⟩ := hds
    exact ⟨sign ++ ds, .signed hsign hds, by rw [List.append_assoc, ← heq, ← hs]⟩
  have hwhole := areDigits_takeWhile (dropSign s)
  have hsplit := (List.takeWhile_append_dropWhile (p := isDigit) (l := dropSign s)).symm
  unfold afterNumeral at h
  simp only at h
  split at h
  · next tail htail =>
    have hfs := areDigits_takeWhile tail
    have htailsplit := (List.takeWhile_append_dropWhile (p := isDigit) (l := tail)).symm
    split at h
    · cases h
    · next hdigits =>
      cases h
      rw [htail, htailsplit] at hsplit
      by_cases hne : (dropSign s).takeWhile isDigit = []
      · rw [hne] at hsplit hdigits
        refine ⟨'.' :: tail.takeWhile isDigit, .fraction (by simpa using hdigits) hfs, ?_⟩
        rw [hsplit]
        rfl
      · refine ⟨_, .pointed hne hwhole hfs, hsplit.trans ?_⟩
        rw [List.append_assoc]
        rfl
  · split at h
    · cases h
    · next hne =>
      cases h
      exact ⟨_, .whole (by simpa using hne) hwhole, hsplit⟩

/-! ## Scales -/

theorem isExponent_iff : isExponent s = true ↔ ∃ mark sign ds, (mark = 'e' ∨ mark = 'E') ∧
    IsSign sign ∧ ds ≠ [] ∧ AreDigits ds ∧ s = mark :: (sign ++ ds) := by
  cases s with
  | nil => simp [isExponent]
  | cons mark rest =>
    have hshape : isExponent (mark :: rest) = true ↔
        (mark = 'e' ∨ mark = 'E') ∧ dropSign rest ≠ [] ∧ AreDigits (dropSign rest) := by
      simp [isExponent, areDigits_iff, and_assoc]
    rw [hshape]
    constructor
    · rintro ⟨hmark, hne, hds⟩
      obtain ⟨sign, hsign, hrest⟩ := exists_sign rest
      exact ⟨mark, sign, dropSign rest, hmark, hsign, hne, hds, by rw [← hrest]⟩
    · rintro ⟨mark, sign, ds, hmark, hsign, hne, hds, hs⟩
      obtain ⟨rfl, rfl⟩ := List.cons.inj hs
      have hdrop : dropSign (sign ++ ds) = ds :=
        dropSign_append hsign fun c hc =>
          ne_sign_of_isDigit (areDigits_iff.1 hds c (List.mem_of_mem_head? hc))
      rw [hdrop]
      exact ⟨hmark, hne, hds⟩

theorem isSuffix_iff : isSuffix s = true ↔ IsScale s := by
  unfold isSuffix
  rw [Bool.or_eq_true, Bool.or_eq_true, List.isEmpty_iff, List.any_eq_true, isExponent_iff]
  constructor
  · rintro ((rfl | ⟨n, hn, heq⟩) | ⟨mark, sign, ds, hmark, hsign, hne, hds, rfl⟩)
    · exact .plain
    · rw [← of_decide_eq_true heq]
      exact .name hn
    · exact .power hmark hsign hne hds
  · rintro (_ | ⟨hn⟩ | ⟨hmark, hsign, hne, hds⟩)
    · exact .inl (.inl rfl)
    · exact .inl (.inr ⟨_, hn, decide_eq_true rfl⟩)
    · exact .inr ⟨_, _, _, hmark, hsign, hne, hds, rfl⟩

/-- No scale goes on with the number in front of it. -/
theorem IsScale.endsNumber (h : IsScale scale) : EndsNumber scale := by
  cases h with
  | plain => exact fun _ hc => nomatch hc
  | name hn =>
    have hnames : ∀ n ∈ names, ∀ c ∈ n.toList.head?, isDigit c = false ∧ c ≠ '.' := by
      simp [names, isDigit]
    exact hnames _ hn
  | power hmark _ _ _ =>
    rintro c hc
    obtain rfl := Option.some.inj hc
    rcases hmark with rfl | rfl <;> decide

/-! ## Splits -/

/-- A text without margins is a quantity exactly if it is a number and a scale. -/
theorem isValid_iff : isValid s = true ↔
    ∃ number scale, IsNumber number ∧ IsScale scale ∧ s = number ++ scale := by
  constructor
  · intro h
    unfold isValid at h
    split at h
    · next scale hscale =>
      obtain ⟨number, hnumber, hs⟩ := exists_number_of_afterNumeral hscale
      exact ⟨number, scale, hnumber, isSuffix_iff.1 h, hs⟩
    · cases h
  · rintro ⟨number, scale, hnumber, hscale, rfl⟩
    rw [isValid, afterNumeral_append hnumber hscale.endsNumber]
    exact isSuffix_iff.2 hscale

/-- There is one way to split a text into a number and a scale. -/
theorem eq_of_append_eq {number' scale' : List Char} (hn : IsNumber number) (hs : IsScale scale)
    (hn' : IsNumber number') (hs' : IsScale scale') (h : number ++ scale = number' ++ scale') :
    number = number' ∧ scale = scale' := by
  have hfound := afterNumeral_append hn hs.endsNumber
  rw [h, afterNumeral_append hn' hs'.endsNumber] at hfound
  obtain rfl := Option.some.inj hfound
  exact ⟨List.append_cancel_right h, rfl⟩

/-! ## Margins -/

theorem isBlank_of_digit (h : '0' ≤ c ∧ c ≤ '9') : Text.isBlank c = false := by
  have hlow : 48 ≤ c.toNat := h.1
  have hhigh : c.toNat ≤ 57 := h.2
  simp only [Text.isBlank, Bool.or_eq_false_iff, Bool.and_eq_false_iff, decide_eq_false_iff_not,
    beq_eq_false_iff_ne]
  omega

theorem IsSign.isBlank_eq_false (h : IsSign sign) : ∀ c ∈ sign, Text.isBlank c = false := by
  cases h <;> simp [Text.isBlank]

theorem AreDigits.isBlank_eq_false (h : AreDigits ds) : ∀ c ∈ ds, Text.isBlank c = false :=
  fun c hc => isBlank_of_digit (h c hc)

theorem IsNumber.isBlank_eq_false (h : IsNumber number) : ∀ c ∈ number, Text.isBlank c = false := by
  obtain @⟨sign, ds, hsign, hds⟩ := h
  have hpoint : Text.isBlank '.' = false := by decide
  refine List.forall_mem_append.2 ⟨hsign.isBlank_eq_false, ?_⟩
  cases hds with
  | whole _ hds => exact hds.isBlank_eq_false
  | pointed _ hds hfs =>
    exact List.forall_mem_append.2
      ⟨hds.isBlank_eq_false, List.forall_mem_cons.2 ⟨hpoint, hfs.isBlank_eq_false⟩⟩
  | fraction _ hfs => exact List.forall_mem_cons.2 ⟨hpoint, hfs.isBlank_eq_false⟩

theorem IsScale.isBlank_eq_false (h : IsScale scale) : ∀ c ∈ scale, Text.isBlank c = false := by
  cases h with
  | plain => exact fun _ hc => nomatch hc
  | name hn =>
    have hnames : ∀ n ∈ names, ∀ c ∈ n.toList, Text.isBlank c = false := by
      simp [names, Text.isBlank]
    exact hnames _ hn
  | power hmark hsign _ hds =>
    refine List.forall_mem_cons.2
      ⟨?_, List.forall_mem_append.2 ⟨hsign.isBlank_eq_false, hds.isBlank_eq_false⟩⟩
    rcases hmark with rfl | rfl <;> decide

/-- What is left of a text without its margins is the number and the scale. -/
theorem writes_iff {s : String} : Writes s number scale ↔
    IsNumber number ∧ IsScale scale ∧ Text.trim s.toList = number ++ scale := by
  constructor
  · rintro ⟨⟨before, after, hbefore, hafter, hs⟩, hnumber, hscale⟩
    refine ⟨hnumber, hscale, ?_⟩
    rw [hs, Text.trim_append_blank hafter, Text.trim_blank_append hbefore]
    exact Text.trim_eq_self
      (List.forall_mem_append.2 ⟨hnumber.isBlank_eq_false, hscale.isBlank_eq_false⟩)
  · rintro ⟨hnumber, hscale, htrim⟩
    obtain ⟨before, after, hbefore, hafter, hs⟩ := Text.exists_margins s.toList
    exact ⟨⟨before, after, hbefore, hafter, htrim ▸ hs⟩, hnumber, hscale⟩

/-! ## Reading -/

/-- A text is read if it is a quantity without its margins, and these are all that is lost. -/
theorem parse?_eq_some_iff {s : String} {q : Quantity} : parse? s = some q ↔
    isValid (Text.trim s.toList) = true ∧ q.text = Text.trimmed s := by
  have hiff : Text.trimmed (Text.trimmed s) = Text.trimmed s ∧
      isValid (Text.trimmed s).toList = true ↔ isValid (Text.trim s.toList) = true := by
    rw [Text.toList_trimmed]
    exact and_iff_right (Text.trimmed_trimmed s)
  unfold parse?
  dsimp only
  split
  · next h =>
    rw [Option.some.injEq]
    constructor
    · rintro rfl
      exact ⟨hiff.1 h, rfl⟩
    · rintro ⟨-, htext⟩
      cases q
      cases htext
      rfl
  · next h =>
    simp only [reduceCtorEq, false_iff]
    exact fun hvalid => h (hiff.2 hvalid.1)

theorem parse?_text (q : Quantity) : parse? q.text = some q := by
  obtain ⟨htrimmed, hvalid⟩ := q.valid
  refine parse?_eq_some_iff.2 ⟨?_, htrimmed.symm⟩
  rw [← Text.toList_trimmed, htrimmed]
  exact hvalid

/-- A number and a scale are read, and stay as they are. -/
theorem Writes.exists_parse? {s : String} (h : Writes s number scale) :
    ∃ q, parse? s = some q ∧ q.text = String.ofList (number ++ scale) := by
  obtain ⟨hnumber, hscale, htrim⟩ := writes_iff.1 h
  have hvalid : isValid (Text.trim s.toList) = true :=
    isValid_iff.2 ⟨number, scale, hnumber, hscale, htrim⟩
  have htrimmed : isValid (Text.trimmed s).toList = true := by
    rw [Text.toList_trimmed]
    exact hvalid
  exact ⟨⟨Text.trimmed s, Text.trimmed_trimmed s, htrimmed⟩, parse?_eq_some_iff.2 ⟨hvalid, rfl⟩,
    congrArg String.ofList htrim⟩

theorem isNumber_toString (n : Int) : IsNumber (toString n).toList := by
  have hdigits (m : Nat) : IsUnsigned m.repr.toList := by
    rw [Nat.toList_repr]
    refine .whole Nat.toDigits_ne_nil fun c hc => ?_
    have hdigit := Nat.isDigit_of_mem_toDigits (by decide) (Nat.le_refl 10) hc
    obtain ⟨hlow, hhigh⟩ : 48 ≤ c.toNat ∧ c.toNat ≤ 57 := by
      simpa [Char.isDigit, UInt32.le_iff_toNat_le] using hdigit
    exact ⟨hlow, hhigh⟩
  rw [Int.toString_eq_repr, Int.repr_eq_if]
  split
  · exact .signed .unsigned (hdigits _)
  · rw [String.toList_append]
    exact .signed .minus (hdigits _)

/-- **Exactly what is written as a quantity is read as one.** A text is read if and only if it is a
number and a scale, with blanks around them at most. There is one way to see it so. What is kept is
the text without its margins, which is read as the same quantity again, and integers are kept as
they are written. -/
theorem reads_what_is_written :
    (∀ s : String, ((∃ q, parse? s = some q) ↔ ∃ number scale, Writes s number scale) ∧
      (∀ number scale number' scale', Writes s number scale → Writes s number' scale' →
        number = number' ∧ scale = scale') ∧
      ∀ q, parse? s = some q → q.text = Text.trimmed s ∧ parse? q.text = some q ∧
        ∀ number scale, Writes s number scale → q.text = String.ofList (number ++ scale)) ∧
    ∀ n : Int, ∃ q, parse? (toString n) = some q ∧ q.text = toString n := by
  refine ⟨fun s => ⟨⟨?_, ?_⟩, ?_, ?_⟩, fun n => ?_⟩
  · rintro ⟨q, hq⟩
    obtain ⟨hvalid, -⟩ := parse?_eq_some_iff.1 hq
    obtain ⟨number, scale, hnumber, hscale, htrim⟩ := isValid_iff.1 hvalid
    exact ⟨number, scale, writes_iff.2 ⟨hnumber, hscale, htrim⟩⟩
  · rintro ⟨number, scale, h⟩
    obtain ⟨q, hq, -⟩ := h.exists_parse?
    exact ⟨q, hq⟩
  · intro number scale number' scale' h h'
    obtain ⟨hnumber, hscale, htrim⟩ := writes_iff.1 h
    obtain ⟨hnumber', hscale', htrim'⟩ := writes_iff.1 h'
    exact eq_of_append_eq hnumber hscale hnumber' hscale' (htrim.symm.trans htrim')
  · intro q hq
    refine ⟨(parse?_eq_some_iff.1 hq).2, parse?_text q, fun number scale h => ?_⟩
    obtain ⟨q', hq', htext⟩ := h.exists_parse?
    obtain rfl := Option.some.inj (hq.symm.trans hq')
    exact htext
  · have hwrites : Writes (toString n) (toString n).toList [] :=
      ⟨⟨[], [], nofun, nofun, by simp⟩, isNumber_toString n, .plain⟩
    obtain ⟨q, hq, htext⟩ := hwrites.exists_parse?
    refine ⟨q, hq, ?_⟩
    rw [htext, List.append_nil, String.ofList_toList]

/-- `E` is a unit here, although it may begin an exponent, and an exponent without digits is
none. -/
theorem reads_what_is_written_exa :
    (∃ q, parse? "\t1E " = some q ∧ q.text = "1E" ∧ parse? q.text = some q) ∧
      (∀ number scale, Writes "\t1E " number scale → number = ['1'] ∧ scale = ['E']) ∧
      (∃ q, parse? "1E+1" = some q) ∧ parse? "1E+" = none := by
  have hdigits : AreDigits ['1'] := List.forall_mem_singleton.2 (by decide)
  have hone : IsNumber ['1'] := .signed .unsigned (.whole (by decide) hdigits)
  have hwrites : Writes "\t1E " ['1'] ['E'] :=
    ⟨⟨['\t'], [' '], List.forall_mem_singleton.2 rfl, List.forall_mem_singleton.2 rfl, by decide⟩,
      hone, .name (n := "E") (by decide)⟩
  have hpower : Writes "1E+1" ['1'] ['E', '+', '1'] :=
    ⟨⟨[], [], nofun, nofun, by decide⟩, hone, .power (.inr rfl) .plus (by decide) hdigits⟩
  obtain ⟨hread, hsplit, hkept⟩ := reads_what_is_written.1 "\t1E "
  obtain ⟨q, hq⟩ := hread.2 ⟨_, _, hwrites⟩
  obtain ⟨-, hagain, htext⟩ := hkept q hq
  refine ⟨⟨q, hq, htext _ _ hwrites, hagain⟩, fun number scale h => hsplit _ _ _ _ h hwrites, ?_,
    by decide⟩
  exact (reads_what_is_written.1 "1E+1").1.2 ⟨_, _, hpower⟩

end JobLoom.Quantity
