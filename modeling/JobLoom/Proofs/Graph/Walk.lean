import Mathlib.Data.List.Chain
import JobLoom.Proofs.Graph.Search

/-!
# The cycle that is reported

A search that finds a cycle reports a walk: the jobs of the cycle in the order in which the search
went through them, and the first of them once more. The walk is cut out of the path of the search,
from the job that is met again up to the last frame.

* **Simple.** No job is listed twice, apart from the first one at the end.
* **Real.** Each job needs the one listed before it, and the first one needs the last.
* **Nothing else.** What leads into the cycle is not listed: each listed job needs each of them,
  itself included, directly or through others.
-/

namespace JobLoom

open Relation

namespace Pipeline

/-- Some jobs need each other in a circle: each needs the one before it, and the first needs the
last. -/
structure IsCircle (p : Pipeline) (first : String) (rest : List String) : Prop where
  /-- they are jobs -/
  mem_ids : ∀ id ∈ first :: rest, id ∈ p.ids
  /-- none is listed twice -/
  nodup : (first :: rest).Nodup
  /-- each but the first needs the one before it -/
  needs : (first :: rest).IsChain fun a b => p.Needs b a
  /-- the first needs the last -/
  closes : p.Needs first ((first :: rest).getLast (List.cons_ne_nil first rest))

namespace IsCircle

variable {p : Pipeline} {first : String} {rest : List String}

theorem reflTransGen_first (h : p.IsCircle first rest) {id : String} (hid : id ∈ first :: rest) :
    ReflTransGen p.Needs id first :=
  h.needs.induction (fun x => ReflTransGen p.Needs x first) _
    (fun _ _ hneeds hx => .head hneeds hx) (fun _ => .refl) id hid

theorem reflTransGen_last (h : p.IsCircle first rest) {id : String} (hid : id ∈ first :: rest) :
    ReflTransGen p.Needs ((first :: rest).getLast (List.cons_ne_nil first rest)) id :=
  h.needs.backwards_induction (fun x => ReflTransGen p.Needs _ x) _
    (fun _ _ hneeds hy => .tail hy hneeds) (fun _ => .refl) id hid

/-- In a circle, each job needs each of them. -/
theorem transGen (h : p.IsCircle first rest) {a b : String} (ha : a ∈ first :: rest)
    (hb : b ∈ first :: rest) : TransGen p.Needs a b :=
  ((TransGen.single h.closes).trans_right (h.reflTransGen_first ha)).trans_left
    (h.reflTransGen_last hb)

end IsCircle

end Pipeline

/-- A job that is on a path once stands behind those that were put there before it. -/
theorem place?_of_split {path : List Frame} {job : String} {upper lower : List String}
    (hsplit : path.map Frame.job = upper ++ job :: lower) (hnew : job ∉ lower) :
    place? path job = some lower.length := by
  have hjobs : (path.reverse.map Frame.job) = lower.reverse ++ job :: upper.reverse := by
    rw [List.map_reverse, hsplit]
    simp
  have hlower : lower.reverse.findIdx? (fun x => decide (x = job)) = none := by
    refine List.findIdx?_eq_none_iff.2 fun x hx => ?_
    have hmem : x ∈ lower := List.mem_reverse.1 hx
    exact decide_eq_false fun heq => hnew (heq ▸ hmem)
  have hplace : place? path job =
      (path.reverse.map Frame.job).findIdx? (fun x => decide (x = job)) :=
    (List.findIdx?_map (f := Frame.job) (p := fun x => decide (x = job))).symm
  rw [hplace, hjobs, List.findIdx?_append, hlower, List.findIdx?_cons]
  simp

/-- A walk is cut out of a path at the frame of the job that is met again. -/
theorem closedWalk_of_split {path : List Frame} {job : String} {upper lower : List String}
    (hsplit : path.map Frame.job = upper ++ job :: lower) (hnew : job ∉ lower) :
    closedWalk path job = job :: upper.reverse ++ [job] := by
  have hjobs : path.reverse.map Frame.job = lower.reverse ++ job :: upper.reverse := by
    rw [List.map_reverse, hsplit]
    simp
  rw [closedWalk, place?_of_split hsplit hnew, Option.getD_some, List.map_drop, hjobs,
    ← List.length_reverse, List.drop_left]

namespace Search

variable {g : JobGraph} {s : Search}

/-- The path of a search goes along the edges. -/
theorem Invariant.isChain_path (h : Invariant g s) :
    (s.path.map Frame.job).IsChain fun a b => g.Edge b a := by
  rw [List.isChain_map]
  exact h.chain.imp fun _ _ habove => List.mem_of_getElem? habove.last

/-- The walk that a search closes goes along the edges, and meets no job twice before it comes
back. -/
theorem Invariant.exists_of_closed (h : Invariant g s) {walk : List String}
    (hw : s.step g = .closed walk) : ∃ first rest, walk = first :: rest ++ [first] ∧
      (first :: rest).Nodup ∧ (first :: rest).IsChain g.Edge ∧
      g.Edge ((first :: rest).getLast (List.cons_ne_nil first rest)) first := by
  obtain ⟨f, below, job, hp, hsucc, hm, rfl⟩ := of_step_closed hw
  have hedge : g.Edge f.job job := List.mem_of_getElem? hsucc
  have hchain := h.isChain_path
  have hnodup := h.nodup
  rw [hp] at hchain hnodup
  -- the job that is met again splits the path; what stands above it is listed, the last job first
  have hmem : job ∈ (f :: below).map Frame.job := hp ▸ h.onPath_iff.1 hm
  obtain ⟨upper, lower, hsplit, hnew⟩ := List.eq_append_cons_of_mem hmem
  -- the cursor of the last frame has gone on, which does not change its job
  have hsplit' : ({ f with cursor := f.cursor + 1 } :: below).map Frame.job =
      upper ++ job :: lower := hsplit
  rw [hsplit] at hchain hnodup
  have honce : job ∉ lower := (List.nodup_cons.1 (List.nodup_append.1 hnodup).2.1).1
  have hcut := closedWalk_of_split hsplit' honce
  refine ⟨job, upper.reverse, hcut, ?nodup, ?chain, ?closes⟩
  case nodup =>
    have hupper : upper.Nodup := (List.nodup_append.1 hnodup).1
    exact List.nodup_cons.2 ⟨by simpa using hnew, (List.reverse_perm upper).nodup_iff.2 hupper⟩
  case chain =>
    rw [List.append_cons] at hchain
    have hreverse : job :: upper.reverse = (upper ++ [job]).reverse := by simp
    rw [hreverse, List.isChain_reverse]
    exact hchain.left_of_append
  case closes =>
    cases upper with
    | nil =>
      obtain ⟨hjob, -⟩ := List.cons.inj hsplit
      rw [hjob] at hedge
      exact hedge
    | cons u us =>
      obtain ⟨hjob, -⟩ := List.cons.inj hsplit
      rw [hjob] at hedge
      simpa using hedge

end Search

namespace JobGraph

variable {p : Pipeline}

/-- A cycle that is found was closed by the last move of the search. -/
theorem exists_of_findCycle {g : JobGraph} (hg : g.IsClosed) {walk : List String}
    (h : g.findCycle = some walk) : ∃ s, Search.Invariant g s ∧ s.step g = .closed walk := by
  obtain ⟨s, hs, ⟨-, hnone⟩ | ⟨walk', hclosed, hsome⟩⟩ := search_ends hg
  · rw [hnone] at h
    cases h
  · rw [hsome] at h
    cases h
    exact ⟨s, hs, hclosed⟩

/-- Jobs along the edges of the tables of a pipeline, back to the first one, are a circle. -/
theorem isCircle_of_edges {first : String} {rest : List String} (hnodup : (first :: rest).Nodup)
    (hchain : (first :: rest).IsChain (tables p).Edge)
    (hcloses : (tables p).Edge ((first :: rest).getLast (List.cons_ne_nil first rest)) first) :
    p.IsCircle first rest where
  mem_ids :=
    hchain.backwards_induction (· ∈ p.ids) _ (fun _ _ he _ => (edge_tables_iff.1 he).1)
      fun _ => (edge_tables_iff.1 hcloses).1
  nodup := hnodup
  needs := hchain.imp fun _ _ he => (edge_tables_iff.1 he).2
  closes := (edge_tables_iff.1 hcloses).2

/-- **What is reported as a cycle is one.** A graph that is refused for its cycles is refused with a
walk through jobs that need each other in a circle, back to the first one, and through no other; its
message tells them in this order. -/
theorem circle_of_checkAcyclic {g : JobGraph} {e : ConvertError} (h : ofPipeline p = .ok g)
    (he : g.checkAcyclic = .error e) :
    ∃ first rest, e = .cycleDetected (first :: rest ++ [first]) ∧
      e.message = "[ARGUS-012] Dependency cycle detected: " ++
        " → ".intercalate (first :: rest ++ [first]) ∧
      p.IsCircle first rest ∧ ∀ a ∈ first :: rest, ∀ b ∈ first :: rest, TransGen p.Needs a b := by
  obtain ⟨hids, -, rfl⟩ := ofPipeline_eq_ok_iff.1 h
  cases hf : (tables p).findCycle with
  | none =>
    simp only [checkAcyclic, hf] at he
    cases he
  | some walk =>
    simp only [checkAcyclic, hf] at he
    cases he
    obtain ⟨s, hs, hclosed⟩ := exists_of_findCycle (isClosed_tables hids) hf
    obtain ⟨first, rest, rfl, hnodup, hchain, hcloses⟩ := hs.exists_of_closed hclosed
    have hcircle := isCircle_of_edges hnodup hchain hcloses
    exact ⟨first, rest, rfl, rfl, hcircle, fun a ha b hb => hcircle.transGen ha hb⟩

/-- Three jobs in a circle behind two that lead into it, and one that needs itself, which is not
looked at any more. -/
theorem circle_of_checkAcyclic_behind_two :
    let needing : List String → Job := fun ids => { Job.empty with needs := some (.several ids) }
    let p : Pipeline := ⟨"", .empty, [("a", .empty), ("b", needing ["a"]),
      ("c", needing ["b", "e"]), ("d", needing ["c"]), ("e", needing ["a", "d"]),
      ("f", needing ["f"])]⟩
    (tables p).checkAcyclic = .error (.cycleDetected ["c", "d", "e", "c"]) ∧
      p.IsCircle "c" ["d", "e"] := by
  intro needing p
  have hg : ofPipeline p = .ok (tables p) := rfl
  have he : (tables p).checkAcyclic = .error (.cycleDetected ["c", "d", "e", "c"]) := by rfl
  obtain ⟨first, rest, hwalk, -, hcircle, -⟩ := circle_of_checkAcyclic hg he
  obtain ⟨rfl, htail⟩ := List.cons.inj (ConvertError.cycleDetected.inj hwalk)
  have hrest : ["d", "e"] ++ ["c"] = rest ++ ["c"] := htail
  obtain rfl : ["d", "e"] = rest := List.append_cancel_right hrest
  exact ⟨he, hcircle⟩

end JobGraph

end JobLoom
