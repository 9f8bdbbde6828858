import Disasm.Proofs.Pool.Run

/-!
# One worker's schedule

`Pool.flush` lets the first worker deal with the jobs of the queue one after the other. This is one
of the runs of the pool (`exists_run_flush`), so that what holds of all runs holds of it: the queue
is empty at its end and nothing is outstanding, as a flush requires.
-/

namespace Disasm

variable {ε σ : Type}

/-! ## Operations as steps -/

namespace Service

variable {p p' : Pool ε σ} {w : Nat}

theorem Step.of_take? (rest : List (Request ε σ)) (h : p.take? w = some p') :
    ∃ e, Step ⟨p, rest⟩ e ⟨p', rest⟩ := by
  cases hq : p.queue with
  | nil => simp [Pool.take?, hq] at h
  | cons job queue => exact ⟨_, .take rest (by rw [hq, List.head?_cons]) h⟩

theorem Step.of_perform? (rest : List (Request ε σ)) (h : p.perform? w = some p') :
    ∃ e, Step ⟨p, rest⟩ e ⟨p', rest⟩ := by
  have hbusy : ∃ job, p.workers[w]? = some (.busy job) := by
    unfold Pool.perform? at h
    split at h
    · next hw => exact ⟨_, hw⟩
    · cases h
  obtain ⟨job, hw⟩ := hbusy
  exact ⟨_, .perform rest hw h⟩

theorem Step.of_finish? (rest : List (Request ε σ)) (h : p.finish? w = some p') :
    ∃ e, Step ⟨p, rest⟩ e ⟨p', rest⟩ := by
  have hperformed : ∃ failure, p.workers[w]? = some (.performed failure) := by
    unfold Pool.finish? at h
    split at h
    · next hw => exact ⟨_, hw⟩
    · cases h
  obtain ⟨failure, hw⟩ := hperformed
  exact ⟨_, .finish rest hw h⟩

end Service

/-! ## Turns -/

namespace Pool

open Service

variable {p p' : Pool ε σ}

theorem exists_run_turn? (rest : List (Request ε σ)) (h : p.turn? = some p') :
    ∃ events, Run ⟨p, rest⟩ events ⟨p', rest⟩ := by
  obtain ⟨p₁, h₁, h⟩ := Option.bind_eq_some_iff.1 h
  obtain ⟨p₂, h₂, h₃⟩ := Option.bind_eq_some_iff.1 h
  obtain ⟨e₁, h₁⟩ := Step.of_take? rest h₁
  obtain ⟨e₂, h₂⟩ := Step.of_perform? rest h₂
  obtain ⟨e₃, h₃⟩ := Step.of_finish? rest h₃
  exact ⟨_, (Run.single h₁).step h₂ |>.step h₃⟩

theorem exists_run_turns (n : Nat) (p : Pool ε σ) (rest : List (Request ε σ)) :
    ∃ events, Run ⟨p, rest⟩ events ⟨turns n p, rest⟩ := by
  induction n generalizing p with
  | zero => exact ⟨[], .refl⟩
  | succ n ih =>
    cases hturn : p.turn? with
    | none =>
      rw [turns, hturn]
      exact ⟨[], .refl⟩
    | some p' =>
      rw [turns, hturn]
      obtain ⟨events, hrun⟩ := exists_run_turn? rest hturn
      obtain ⟨events', hrun'⟩ := ih p'
      exact ⟨_, hrun.trans hrun'⟩

/-- A turn of an idle worker takes a job from the queue and leaves what it adds. -/
theorem turn?_cons {others : List (Worker ε σ)} {job : Job ε σ} {queue : List (Job ε σ)}
    (hw : p.workers = .idle :: others) (hq : p.queue = job :: queue) :
    ∃ p', p.turn? = some p' ∧ p'.workers = p.workers ∧ p'.queue = queue ++ job.further := by
  obtain ⟨effect, further⟩ := job
  simp [turn?, take?, perform?, finish?, hw, hq, foldl_enqueue, Job.further]

theorem queue_turns {others : List (Worker ε σ)} (n : Nat) (hw : p.workers = .idle :: others)
    (hn : Job.weightOfAll p.queue ≤ n) :
    (turns n p).queue = [] ∧ (turns n p).workers = p.workers := by
  induction n generalizing p with
  | zero =>
    cases hq : p.queue with
    | nil => exact ⟨hq, rfl⟩
    | cons job queue =>
      rw [hq, Job.weightOfAll, Job.weight_eq] at hn
      omega
  | succ n ih =>
    cases hq : p.queue with
    | nil =>
      have hturn : p.turn? = none := by simp [turn?, take?, hw, hq]
      rw [turns, hturn]
      exact ⟨hq, rfl⟩
    | cons job queue =>
      obtain ⟨p', hturn, hworkers, hqueue⟩ := turn?_cons hw hq
      rw [hq, Job.weightOfAll, Job.weight_eq] at hn
      have hle : Job.weightOfAll p'.queue ≤ n := by
        rw [hqueue, Job.weightOfAll_append]
        omega
      obtain ⟨hnil, hsame⟩ := ih (hworkers.trans hw) hle
      rw [turns, hturn]
      exact ⟨hnil, hsame.trans hworkers⟩

theorem outstanding_drain {others : List (Worker ε σ)} (hp : p.Counted)
    (hw : p.workers = .idle :: others) (hload : p.load = 0) : p.drain.outstanding = 0 := by
  obtain ⟨hqueue, hworkers⟩ := queue_turns _ hw (Nat.le_refl _)
  obtain ⟨events, hrun⟩ := exists_run_turns (Job.weightOfAll p.queue) p []
  have hcounted : (turns (Job.weightOfAll p.queue) p).Counted := hrun.counted hp
  have hsame : (turns (Job.weightOfAll p.queue) p).load = p.load := by
    rw [load, hworkers, load]
  rw [drain, hcounted, hqueue, hsame, hload]
  rfl

/-- A flush of idle workers is a run, and leaves nothing outstanding. -/
theorem exists_run_flush {others : List (Worker ε σ)} (hp : p.Counted)
    (hw : p.workers = .idle :: others) (hload : p.load = 0) (rest : List (Request ε σ)) :
    (∃ events, Run ⟨p, .flush :: rest⟩ events ⟨p.flush.2, rest⟩ ∧
      .flush p.flush.1 ∈ events) ∧ p.flush.2.outstanding = 0 := by
  have hzero := outstanding_drain hp hw hload
  obtain ⟨events, hrun⟩ := exists_run_turns (Job.weightOfAll p.queue) p (.flush :: rest)
  have hflush : p.drain.flush? = some p.flush := if_pos hzero
  exact ⟨⟨_, hrun.step (.flush rest hflush), List.mem_append_right _ List.mem_cons_self⟩, hzero⟩

end Pool

/-! ## Requests -/

namespace Service

/-- Jobs may all be added before any worker does anything. -/
theorem run_enqueue (jobs : List (Job ε σ)) (p : Pool ε σ) (rest : List (Request ε σ)) :
    ∃ events, Run ⟨p, jobs.map .enqueue ++ rest⟩ events ⟨jobs.foldl Pool.enqueue p, rest⟩ := by
  induction jobs generalizing p with
  | nil => exact ⟨[], .refl⟩
  | cons job jobs ih =>
    obtain ⟨events, hrun⟩ := ih (p.enqueue job)
    exact ⟨_, (Run.single (.enqueue p job _)).trans hrun⟩

end Service

end Disasm
