import CommentedCode.Decimal.Basic
import CommentedCode.Report.Notice
/-!
# Worker pools

Jobs are done by several workers side by side.  Whoever is free takes the job that has waited
longest.  Which of the busy workers gets on next is not for the program to say, so a schedule says
it; notices come in the order in which the workers get to them.  The outcomes are those of the jobs
in the order in which they were handed in.
-/
namespace CommentedCode

open scoped Naturals

/-- A numbered job; the notices are those that it has still to give. -/
structure Job (ε α : Type) where
  number : Nat
  work : Logged ε α

structure Pool (ε α : Type) where
  workers : Nat
  staffed : 0 < workers
  waiting : List (Job ε α)
  busy : List (Job ε α)
  ended : List (Job ε α)
  told : List Notice

/-- One step for each notice and one to end. -/
def Job.stepsLeft {ε α : Type} (j : Job ε α) : Nat :=
  j.work.notices.length + 1

namespace Pool

variable {ε α : Type}

/-- All jobs are waiting. -/
def ofWorks (workers : Nat) (staffed : 0 < workers) (works : List (Logged ε α)) : Pool ε α :=
  ⟨workers, staffed, works.mapIdx Job.mk, [], [], []⟩

/-- Free workers take the jobs that have waited longest. -/
def manned (p : Pool ε α) : Pool ε α :=
  let free := p.workers - p.busy.length
  { p with waiting := p.waiting.drop free, busy := p.busy ++ p.waiting.take free }

/-- One of the busy workers gets on: its job gives a notice, or it has none left and ends. -/
def advance (pick : Nat) (p : Pool ε α) : Pool ε α :=
  let place := pick % p.busy.length
  let before := p.busy.take place
  match p.busy.drop place with
  | [] => p
  | ⟨number, ⟨notice :: later, outcome⟩⟩ :: after =>
    { p with busy := before ++ ⟨number, ⟨later, outcome⟩⟩ :: after, told := p.told ++ [notice] }
  | job :: after => { p with busy := before ++ after, ended := p.ended ++ [job] }

def step (pick : Nat) (p : Pool ε α) : Pool ε α :=
  p.manned.advance pick

def stepsLeft (p : Pool ε α) : Nat :=
  ((p.waiting ++ p.busy).map Job.stepsLeft).sum

theorem advance_cases {p : Pool ε α} (pick : Nat) (hbusy : p.busy ≠ []) :
    (∃ before number notice later outcome after,
      p.busy = before ++ ⟨number, ⟨notice :: later, outcome⟩⟩ :: after ∧
      p.advance pick = { p with
        busy := before ++ ⟨number, ⟨later, outcome⟩⟩ :: after, told := p.told ++ [notice] }) ∨
    (∃ before job after, p.busy = before ++ job :: after ∧ job.work.notices = [] ∧
      p.advance pick = { p with busy := before ++ after, ended := p.ended ++ [job] }) := by
  have hplace : pick % p.busy.length < p.busy.length :=
    Nat.mod_lt _ (List.length_pos_iff.mpr hbusy)
  have hsplit := List.take_append_drop (pick % p.busy.length) p.busy
  rw [advance]
  split
  · rename_i hdrop
    exact absurd (List.drop_eq_nil_iff.mp hdrop) (Nat.not_le.mpr hplace)
  · rename_i number notice later outcome after hdrop
    exact .inl ⟨_, number, notice, later, outcome, after, hdrop ▸ hsplit.symm, rfl⟩
  · rename_i job after hnotice hdrop
    refine .inr ⟨_, job, after, hdrop ▸ hsplit.symm, ?_, rfl⟩
    match job, hnotice with
    | ⟨number, ⟨[], outcome⟩⟩, _ => rfl
    | ⟨number, ⟨notice :: later, outcome⟩⟩, hnotice => exact absurd rfl (hnotice _ _ _ _)

theorem stepsLeft_manned (p : Pool ε α) : p.manned.stepsLeft = p.stepsLeft := by
  have hwaiting := congrArg (fun l => (l.map Job.stepsLeft).sum)
    (List.take_append_drop (p.workers - p.busy.length) p.waiting)
  simp only [List.map_append, List.sum_append_nat] at hwaiting
  simp only [stepsLeft, manned, List.map_append, List.sum_append_nat]
  omega

theorem busy_manned_ne_nil {p : Pool ε α} (h : p.stepsLeft ≠ 0) : p.manned.busy ≠ [] := by
  intro hnil
  have hnil : p.busy ++ p.waiting.take (p.workers - p.busy.length) = [] := hnil
  obtain ⟨hbusy, hwaiting⟩ := List.append_eq_nil_iff.mp hnil
  have hfree := p.staffed
  rw [hbusy, List.length_nil, Nat.sub_zero, List.take_eq_nil_iff] at hwaiting
  refine h ?_
  rw [stepsLeft, hbusy, hwaiting.resolve_left (Nat.ne_of_gt hfree)]
  rfl

theorem stepsLeft_step_lt {p : Pool ε α} (pick : Nat) (h : p.stepsLeft ≠ 0) :
    (p.step pick).stepsLeft < p.stepsLeft := by
  rw [step, ← stepsLeft_manned p]
  rcases advance_cases pick (busy_manned_ne_nil h) with
    ⟨before, number, notice, later, outcome, after, hbusy, hstep⟩ |
      ⟨before, job, after, hbusy, hnotices, hstep⟩
  all_goals
    rw [hstep, stepsLeft, stepsLeft, hbusy]
    simp [Job.stepsLeft]

/-- Goes on until every job has ended.  Behind the end of the schedule the worker that has been
busy for longest is the next. -/
def drain (schedule : List Nat) (p : Pool ε α) : Pool ε α :=
  if _ : p.stepsLeft = 0 then p else drain schedule.tail (p.step (schedule.headD 0))
termination_by p.stepsLeft
decreasing_by exact stepsLeft_step_lt _ ‹_›

/-- The outcomes in the order of the numbers. -/
def outcomes (p : Pool ε α) : List (Except ε α) :=
  (p.ended.mergeSort fun a b => a.number ≤ b.number).map (·.work.outcome)

end Pool

/-- Works that are done side by side; if one fails, the first failure counts. -/
def Logged.sideBySide {ε α : Type} (workers : Nat) (staffed : 0 < workers) (schedule : List Nat)
    (works : List (Logged ε α)) : Logged ε (List α) :=
  let pool := (Pool.ofWorks workers staffed works).drain schedule
  ⟨pool.told, pool.outcomes.mapM id⟩

end CommentedCode
