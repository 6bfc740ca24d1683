import CommentedCode.Proofs.Outcome
import CommentedCode.Report.Pool
import Mathlib.Data.List.Perm.Basic
/-!
# What a pool of workers brings out

No step loses a job or a notice, does a job twice or changes how one ends.  So whatever the
schedule, the outcomes are those that the jobs have on their own, in the order of the jobs; only the
notices are mixed up.
-/
namespace CommentedCode

open scoped List

variable {ε α : Type}

/-- The number of a job and how it ends. -/
def Job.result (j : Job ε α) : Nat × Except ε α :=
  (j.number, j.work.outcome)

namespace Pool

/-- The results that have come and those that are still to come. -/
def results (p : Pool ε α) : List (Nat × Except ε α) :=
  (p.waiting ++ p.busy ++ p.ended).map Job.result

private theorem unfinished_manned (p : Pool ε α) :
    p.manned.waiting ++ p.manned.busy ~ p.waiting ++ p.busy :=
  calc p.waiting.drop (p.workers - p.busy.length) ++
        (p.busy ++ p.waiting.take (p.workers - p.busy.length))
      ~ p.busy ++ p.waiting.take _ ++ p.waiting.drop _ := List.perm_append_comm
    _ = p.busy ++ p.waiting := by rw [List.append_assoc, List.take_append_drop]
    _ ~ p.waiting ++ p.busy := List.perm_append_comm

private theorem results_manned (p : Pool ε α) : p.manned.results ~ p.results := by
  apply List.Perm.map
  apply List.Perm.append_right
  exact unfinished_manned p

private theorem results_step {p : Pool ε α} (pick : Nat) (h : p.stepsLeft ≠ 0) :
    (p.step pick).results ~ p.results := by
  refine List.Perm.trans ?_ (results_manned p)
  rcases advance_cases pick (busy_manned_ne_nil h) with
    ⟨before, number, notice, later, outcome, after, hbusy, hstep⟩ |
      ⟨before, job, after, hbusy, -, hstep⟩
  · rw [step, hstep, results, results, hbusy]
    simp [Job.result]
  · rw [step, hstep, results, results, hbusy]
    apply List.Perm.map
    simp only [List.append_assoc, List.cons_append]
    apply List.Perm.append_left
    apply List.Perm.append_left
    calc after ++ (p.manned.ended ++ [job])
        = after ++ p.manned.ended ++ [job] := (List.append_assoc ..).symm
      _ ~ job :: (after ++ p.manned.ended) := List.perm_append_singleton ..

private theorem results_drain (schedule : List Nat) (p : Pool ε α) :
    (p.drain schedule).results ~ p.results := by
  fun_induction drain schedule p with
  | case1 => exact .refl _
  | case2 schedule p h ih => exact ih.trans (results_step _ h)

private theorem stepsLeft_drain (schedule : List Nat) (p : Pool ε α) :
    (p.drain schedule).stepsLeft = 0 := by
  fun_induction drain schedule p with
  | case1 schedule p h => exact h
  | case2 schedule p h ih => exact ih

private theorem unfinished_drain (schedule : List Nat) (p : Pool ε α) :
    (p.drain schedule).waiting ++ (p.drain schedule).busy = [] := by
  have h := stepsLeft_drain schedule p
  rw [stepsLeft] at h
  cases hjobs : (p.drain schedule).waiting ++ (p.drain schedule).busy with
  | nil => rfl
  | cons j js => simp [hjobs, Job.stepsLeft] at h

private theorem ended_drain (schedule : List Nat) (p : Pool ε α) :
    (p.drain schedule).ended.map Job.result ~ p.results := by
  have h := results_drain schedule p
  rw [results, unfinished_drain] at h
  exact h

/-- The notices that have been given and those that are still to come. -/
def notices (p : Pool ε α) : List Notice :=
  p.told ++ (p.waiting ++ p.busy).flatMap (·.work.notices)

private theorem notices_step {p : Pool ε α} (pick : Nat) (h : p.stepsLeft ≠ 0) :
    (p.step pick).notices ~ p.notices := by
  have hmanned : p.manned.notices ~ p.notices :=
    ((unfinished_manned p).flatMap_right _).append_left p.told
  refine List.Perm.trans ?_ hmanned
  rcases advance_cases pick (busy_manned_ne_nil h) with
    ⟨before, number, notice, later, outcome, after, hbusy, hstep⟩ |
      ⟨before, job, after, hbusy, hnotices, hstep⟩
  · rw [step, hstep, notices, notices, hbusy]
    simp only [List.flatMap_append, List.flatMap_cons, List.append_assoc, List.cons_append,
      List.nil_append]
    apply List.Perm.append_left
    have hmiddle (front behind : List Notice) :
        notice :: (front ++ behind) ~ front ++ notice :: behind := List.perm_middle.symm
    simpa using hmiddle (p.manned.waiting.flatMap (·.work.notices) ++
      before.flatMap (·.work.notices)) (later ++ after.flatMap (·.work.notices))
  · rw [step, hstep, notices, notices, hbusy]
    simp [hnotices]

private theorem notices_drain (schedule : List Nat) (p : Pool ε α) :
    (p.drain schedule).notices ~ p.notices := by
  fun_induction drain schedule p with
  | case1 => exact .refl _
  | case2 schedule p h ih => exact ih.trans (notices_step _ h)

variable (workers : Nat) (staffed : 0 < workers) (works : List (Logged ε α))

private theorem results_ofWorks : (ofWorks workers staffed works).results =
    works.mapIdx fun number work => (number, work.outcome) := by
  apply List.ext_getElem
  · simp [results, ofWorks]
  · simp [results, ofWorks, Job.result]

private theorem pairwise_ofWorks :
    (ofWorks workers staffed works).results.Pairwise fun a b => a.1 < b.1 := by
  rw [results_ofWorks, List.pairwise_iff_getElem]
  intro i j hi hj hlt
  simpa using hlt

private theorem outcomes_drain (schedule : List Nat) :
    ((ofWorks workers staffed works).drain schedule).outcomes = works.map (·.outcome) := by
  have hended := ended_drain schedule (ofWorks workers staffed works)
  generalize (ofWorks workers staffed works).drain schedule = p at hended ⊢
  calc p.outcomes
      = ((p.ended.mergeSort fun a b => a.number ≤ b.number).map Job.result).map Prod.snd := by
        rw [List.map_map]
        rfl
    _ = ((p.ended.map Job.result).mergeSort fun a b => a.1 ≤ b.1).map Prod.snd :=
        congrArg _ (List.map_mergeSort fun _ _ _ _ => rfl)
    _ = (ofWorks workers staffed works).results.map Prod.snd := by
        rw [mergeSort_eq_of_perm hended (pairwise_ofWorks workers staffed works)]
    _ = works.map (·.outcome) := by
        rw [results_ofWorks]
        apply List.ext_getElem <;> simp

end Pool

/-- Side by side or not, the outcome is that of one work after the other. -/
theorem Logged.outcome_sideBySide (workers : Nat) (staffed : 0 < workers) (schedule : List Nat)
    (works : List (Logged ε α)) :
    (sideBySide workers staffed schedule works).outcome = works.mapM (·.outcome) := by
  change ((Pool.ofWorks workers staffed works).drain schedule).outcomes.mapM id = _
  rw [Pool.outcomes_drain, List.mapM_map]
  rfl

/-- Side by side the works give the notices that they give one after the other, in some order. -/
theorem Logged.notices_sideBySide (workers : Nat) (staffed : 0 < workers) (schedule : List Nat)
    (works : List (Logged ε α)) :
    (sideBySide workers staffed schedule works).notices ~ works.flatMap (·.notices) := by
  have h := Pool.notices_drain schedule (Pool.ofWorks workers staffed works)
  rw [Pool.notices, Pool.unfinished_drain, List.flatMap_nil, List.append_nil] at h
  have hworks : (Pool.ofWorks workers staffed works).notices = works.flatMap (·.notices) := by
    have hjobs : (works.mapIdx Job.mk).map Job.work = works := by
      apply List.ext_getElem <;> simp
    simp only [Pool.notices, Pool.ofWorks, List.append_nil, List.nil_append]
    rw [← List.flatMap_map Job.work (·.notices), hjobs]
  exact hworks ▸ h

end CommentedCode
