import JobLoom.Proofs.Conversion.Build
import JobLoom.Proofs.Pool.Workshop

/-!
# Every answer belongs to its request

Whatever a worker has found out about its request holds of that request alone, in every phase.

* **Answers.** A request is answered with what the conversion of its workflow file gives. If the
  store crashes in the conversion, the answer is the crash of one of its lookups; which one, the
  order of the lookups decides.
* **Lookups** stay in the places of the keys that they are for, so that the answers reach the
  manifest in the order of the jobs, in whatever order they come in.
-/

namespace JobLoom

/-! ## What a request is answered with -/

/-- A request for this workflow file may be answered with this. -/
def Service.AnswersTo (s : Service) (source : List UInt8) (x : Result) : Prop :=
  match s.converter.convert s.store source with
  | .done output => x = .ok output
  | .failed e => x = .error e
  | .crashed _ => ∃ plan key text, Plan.ofBytes source = .ok plan ∧ some key ∈ plan.keys ∧
      s.store s.converter.space key = .crash text ∧ x = .error (crashError text)

namespace Service

variable {s : Service} {source : List UInt8}

/-- A workflow file that fails its checks is answered with what is wrong with it. -/
theorem answersTo_of_fails {e : ConvertError} (h : Plan.ofBytes source = .error e) :
    s.AnswersTo source (.error e) := by
  simp only [AnswersTo, Converter.convert_of_error h]

theorem answersTo_of_crash {plan : Plan} {key text : String} (h : Plan.ofBytes source = .ok plan)
    (hkey : some key ∈ plan.keys) (hcrash : s.store s.converter.space key = .crash text) :
    s.AnswersTo source (.error (crashError text)) := by
  obtain ⟨first, hfirst⟩ := Converter.exists_ask_eq_error hkey hcrash
  simp only [AnswersTo, Converter.convert_of_crash h hfirst]
  exact ⟨plan, key, text, h, hkey, hcrash, rfl⟩

theorem answersTo_of_answers {plan : Plan} {answers : List (Option Answer)}
    (h : Plan.ofBytes source = .ok plan)
    (hanswers : List.Forall₂ (s.converter.Answers s.store) plan.keys answers) :
    s.AnswersTo source
      (.ok ((plan.compose s.converter.defaults answers).render s.converter.format)) := by
  have hask := Converter.ask_eq_ok_iff.2 hanswers
  simp only [AnswersTo, Converter.convert_of_answers h hask]

end Service

/-! ## Lookups -/

/-- A lookup is for a key, and if it has an answer, that is what the store answers. -/
def Service.LooksUp (s : Service) : Option String → Lookup → Prop
  | key, .unasked key' => key' = key
  | key, .waiting key' => key = some key'
  | key, .answered a => s.converter.Answers s.store key a

variable {s : Service}

theorem Service.LooksUp.key_eq {key : Option String} {key' : String} {l : Lookup}
    (h : s.LooksUp key l) (hl : l.IsOpenFor key') : key = some key' := by
  rcases hl with rfl | rfl
  · exact (Eq.symm h)
  · exact h

/-- The lookups of a plan, in the order of its keys. -/
def Service.LooksUpAll (s : Service) (plan : Plan) (lookups : List Lookup) : Prop :=
  List.Forall₂ s.LooksUp plan.keys lookups

namespace Service.LooksUpAll

variable {plan : Plan} {lookups : List Lookup}

/-- The lookup in a place is for the key in that place. -/
theorem getElem? (h : s.LooksUpAll plan lookups) {i : Nat} {l : Lookup}
    (hl : lookups[i]? = some l) : ∃ key, plan.keys[i]? = some key ∧ s.LooksUp key l := by
  obtain ⟨hlength, hall⟩ := List.forall₂_iff_get.1 h
  obtain ⟨hi, rfl⟩ := List.getElem?_eq_some_iff.1 hl
  exact ⟨_, List.getElem?_eq_getElem (hlength ▸ hi), hall i (hlength ▸ hi) hi⟩

/-- A lookup is replaced by one for the same key. -/
theorem set (h : s.LooksUpAll plan lookups) {i : Nat} {l l' : Lookup} (hl : lookups[i]? = some l)
    (hl' : ∀ key, s.LooksUp key l → s.LooksUp key l') : s.LooksUpAll plan (lookups.set i l') := by
  unfold LooksUpAll at h ⊢
  generalize plan.keys = keys at h
  induction h generalizing i with
  | nil => exact .nil
  | cons hfirst hrest ih =>
    cases i with
    | zero =>
      cases hl
      exact .cons (hl' _ hfirst) hrest
    | succ i => exact .cons hfirst (ih hl)

/-- Lookups that all have an answer have the answers of the store. -/
theorem of_mapM_answer? (h : s.LooksUpAll plan lookups) {answers : List (Option Answer)}
    (ha : lookups.mapM Lookup.answer? = some answers) :
    List.Forall₂ (s.converter.Answers s.store) plan.keys answers := by
  unfold LooksUpAll at h
  generalize plan.keys = keys at h
  induction h generalizing answers with
  | nil =>
    cases ha
    exact .nil
  | @cons key l keys rest hfirst hrest ih =>
    rw [List.mapM_cons] at ha
    obtain ⟨a, hl, ha⟩ := Option.bind_eq_some_iff.1 ha
    obtain ⟨others, hothers, ha⟩ := Option.bind_eq_some_iff.1 ha
    cases ha
    cases l with
    | answered a' =>
      cases hl
      exact .cons hfirst (ih hothers)
    | unasked key' => cases hl
    | waiting key' => cases hl

/-- Lookups that get on stay in the places of their keys, whichever of them it is. -/
theorem goes {r : Request} {lookups' : List Lookup} (h : s.LooksUpAll plan lookups)
    (hgoes : Phase.Goes s (.asking r plan lookups) (.asking r plan lookups')) :
    s.LooksUpAll plan lookups' := by
  cases hgoes with
  | skip place =>
    refine h.set place fun key hkey => ?_
    cases hkey
    rfl
  | wait place gated => exact h.set place fun key hkey => hkey.symm
  | @hear r plan lookups i l key a place isOpen reply =>
    refine h.set place fun key' hkey => ?_
    cases hkey.key_eq isOpen
    exact ⟨a, reply, rfl⟩

theorem unasked (plan : Plan) : s.LooksUpAll plan (plan.keys.map .unasked) := by
  rw [LooksUpAll, List.forall₂_map_right_iff]
  exact List.forall₂_same.2 fun key _ => rfl

end Service.LooksUpAll

/-! ## Phases -/

namespace Phase

/-- What a worker has found out about its request is right. -/
def IsSound (s : Service) : Phase → Prop
  | .asking r plan lookups => Plan.ofBytes r.source = .ok plan ∧ s.LooksUpAll plan lookups
  | .converted r x | .left r x | .counted r x => s.AnswersTo r.source x
  | .idle | .listening | .received _ | .dequeued _ | .started _ | .stopped => True

theorem Goes.isSound {a b : Phase} (h : a.Goes s b) (ha : a.IsSound s) : b.IsSound s := by
  cases h with
  | listen => exact trivial
  | receive r => exact trivial
  | stop => exact trivial
  | dequeue r => exact trivial
  | start r => exact trivial
  | plan passes => exact ⟨passes, .unasked _⟩
  | refuse fails => exact Service.answersTo_of_fails fails
  | @skip r plan lookups i place => exact ⟨ha.1, ha.2.goes (.skip (r := r) place)⟩
  | @wait r plan lookups i key place gated => exact ⟨ha.1, ha.2.goes (.wait (r := r) place gated)⟩
  | @hear r plan lookups i l key a place isOpen reply =>
    exact ⟨ha.1, ha.2.goes (.hear (r := r) place isOpen reply)⟩
  | @crash r plan lookups i l key text place isOpen reply =>
    obtain ⟨hplan, hall⟩ := ha
    obtain ⟨key', hkey', hl⟩ := hall.getElem? place
    cases hl.key_eq isOpen
    exact Service.answersTo_of_crash hplan (List.mem_of_getElem? hkey') reply
  | compose complete => exact Service.answersTo_of_answers ha.1 (ha.2.of_mapM_answer? complete)
  | leave r x => exact ha
  | count r x => exact ha
  | reply r x => exact trivial

/-- The answer that a worker gives next is right. -/
theorem IsSound.answersTo {a : Phase} (ha : a.IsSound s) {r : Request} {x : Result}
    (h : a.answer? = some (r, x)) : s.AnswersTo r.source x := by
  cases a <;> cases h
  exact ha

end Phase

/-! ## The record -/

namespace Workshop

/-- What the workers have found out and what they have answered is right. -/
structure IsSound (s : Service) (v : Workshop) : Prop where
  /-- what the workers have found out -/
  workers : ∀ a ∈ v.pool.workers, a.IsSound s
  /-- what they have answered -/
  answered : ∀ e ∈ v.answered, s.AnswersTo e.1.source e.2

theorem isSound_opened (size : PoolSize) : (opened (.fresh size)).IsSound s where
  workers a ha := by
    rw [List.eq_of_mem_replicate ha]
    exact trivial
  answered e he := by cases he

theorem IsSound.follow {v : Workshop} (h : v.IsSound s) {w : Nat} {a b : Phase} {q : Pool}
    (hq : v.pool.Moved s w a b q) : (v.follow w q).IsSound s where
  workers c hc := by
    change c ∈ q.workers at hc
    rw [hq.workers_eq] at hc
    rcases List.mem_or_eq_of_mem_set hc with hc | rfl
    · exact h.workers c hc
    · exact hq.goes.isSound (h.workers a (List.mem_of_getElem? hq.phase_eq))
  answered e he := by
    rw [answered_follow hq] at he
    rcases List.mem_append.1 he with he | he
    · exact h.answered e he
    · exact (h.workers a (List.mem_of_getElem? hq.phase_eq)).answersTo (Option.mem_toList.1 he)

/-- Every step keeps everything right. -/
theorem IsSound.step {v v' : Workshop} (h : v.IsSound s) (hs : v.Step s v') : v'.IsSound s := by
  cases hs with
  | begin source isOpen => exact ⟨h.workers, h.answered⟩
  | advance place isUnderWay step =>
    refine ⟨fun a ha => h.workers a ?_, h.answered⟩
    rw [← (Pool.advanced_of_advance isUnderWay step).workers_eq]
    exact ha
  | move move =>
    obtain ⟨a, b, hq⟩ := move.exists_moved
    exact h.follow hq
  | permit n => exact ⟨h.workers, h.answered⟩
  | collect answer =>
    obtain ⟨rfl, -⟩ := Pool.take?_eq_some answer
    exact ⟨h.workers, h.answered⟩
  | drop isHeld => exact ⟨h.workers, h.answered⟩
  | close noneUnderWay => exact ⟨h.workers, h.answered⟩

end Workshop

end JobLoom
