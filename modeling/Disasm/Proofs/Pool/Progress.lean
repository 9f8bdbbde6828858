import Disasm.Proofs.Pool.Run

/-!
# Progress of a pool

**Theorem (`Live.exists_done`).** Every run of a pool can be completed: whatever was done so far,
there are steps that make all requests, perform all jobs and let all workers leave.

* `Service.Live` — what keeps a service from getting stuck. It holds from the start, and where no
  step is possible everything was done (`Live.exists_step_or_done`).
* `Service.potential` — falls with each step, so that no run goes on forever (`Run.length_le`).
-/

namespace Disasm

variable {ε σ : Type}

/-! ## Potential -/

namespace Worker

/-- How many steps a worker can make at most, with its job and those that come of it. -/
def potential : Worker ε σ → Nat
  | idle => 1
  | busy job => 3 * job.weight
  | performed _ => 2
  | exited => 0

end Worker

/-- How many steps can come of a request at most. -/
def Request.potential : Request ε σ → Nat
  | enqueue job => 3 * job.weight + 1
  | flush => 1

namespace Service

variable {s s' s₀ t : Service ε σ} {e : Event ε σ} {events events' : List (Event ε σ)}

/-- How many steps a service can make at most. -/
def potential (s : Service ε σ) : Nat :=
  (s.requests.map Request.potential).sum + (!s.pool.stopping).toNat +
    3 * Job.weightOfAll s.pool.queue + (s.pool.workers.map Worker.potential).sum

theorem Step.potential_lt (h : Step s e s') : s'.potential < s.potential := by
  unfold potential
  cases h with
  | enqueue p job rest =>
    simp [Pool.enqueue, Job.weightOfAll_append, Job.weightOfAll, Request.potential]
    omega
  | flush rest h =>
    obtain ⟨-, -, rfl⟩ := Pool.flush?_eq_some h
    simp [Request.potential]
  | close h => simp [Pool.close, h]
  | take rest hjob h =>
    obtain ⟨before, after, queue, hw, hq, rfl⟩ := Pool.take?_eq_some hjob h
    simp [hw, hq, Job.weightOfAll, Worker.potential]
    omega
  | perform rest hjob h =>
    obtain ⟨before, after, hw, rfl⟩ := Pool.perform?_eq_some hjob h
    simp [hw, Job.weightOfAll_append, Worker.potential, Job.weight_eq]
    omega
  | finish rest hjob h =>
    obtain ⟨before, after, hw, rfl⟩ := Pool.finish?_eq_some hjob h
    simp [hw, Worker.potential]
  | exit rest h =>
    obtain ⟨before, after, hw, hq, hstop, rfl⟩ := Pool.exit?_eq_some h
    simp [hw, Worker.potential]

/-- No run is longer than what the service can do at most. -/
theorem Run.length_le (h : Run s₀ events s) : events.length + s.potential ≤ s₀.potential := by
  induction h with
  | refl => exact Nat.le_of_eq (Nat.zero_add _)
  | step _ hstep ih =>
    have hlt := hstep.potential_lt
    rw [List.length_append, List.length_singleton]
    omega

/-! ## Liveness -/

/-- What keeps a service from getting stuck: there are workers, and none leaves before the client
has made all its requests, or the last one while there are jobs. -/
structure Live (s : Service ε σ) : Prop where
  counted : s.pool.Counted
  workers : s.pool.workers ≠ []
  exited : .exited ∈ s.pool.workers → s.pool.stopping = true
  stopping : s.pool.stopping = true → s.requests = []
  stopped : s.pool.Stopped → s.pool.queue = []

theorem live_start (threads : Nat) (store : σ) (requests : List (Request ε σ)) :
    (start threads store requests).Live where
  counted := Pool.counted_ofThreads threads store
  workers := by simp [start, Pool.ofThreads]
  exited h := nomatch List.eq_of_mem_replicate h
  stopping h := nomatch h
  stopped _ := rfl

theorem Step.live (h : Step s e s') (hs : s.Live) : s'.Live := by
  have hcounted := h.counted hs.counted
  obtain ⟨-, hworkers, hexited, hstopping, hstopped⟩ := hs
  cases h with
  | enqueue p job rest =>
    -- A request is made before the end, when no worker has left yet.
    have hno : p.stopping ≠ true := fun hstop => nomatch hstopping hstop
    refine ⟨hcounted, hworkers, hexited, fun hstop => absurd hstop hno, fun hall => ?_⟩
    obtain ⟨x, hx⟩ := List.exists_mem_of_ne_nil _ hworkers
    exact absurd (hexited (hall x hx ▸ hx)) hno
  | flush rest h =>
    obtain ⟨-, -, rfl⟩ := Pool.flush?_eq_some h
    exact ⟨hcounted, hworkers, hexited, fun hstop => (nomatch hstopping hstop), hstopped⟩
  | close h => exact ⟨hcounted, hworkers, fun _ => rfl, fun _ => rfl, hstopped⟩
  | take rest hjob h =>
    obtain ⟨before, after, queue, hw, hq, rfl⟩ := Pool.take?_eq_some hjob h
    refine ⟨hcounted, by simp, fun hx => hexited ?_, hstopping, fun hall => ?_⟩
    · simpa [hw] using hx
    · exact nomatch hall _ (List.mem_append_right before List.mem_cons_self)
  | perform rest hjob h =>
    obtain ⟨before, after, hw, rfl⟩ := Pool.perform?_eq_some hjob h
    refine ⟨hcounted, by simp, fun hx => hexited ?_, hstopping, fun hall => ?_⟩
    · simpa [hw] using hx
    · exact nomatch hall _ (List.mem_append_right before List.mem_cons_self)
  | finish rest hjob h =>
    obtain ⟨before, after, hw, rfl⟩ := Pool.finish?_eq_some hjob h
    refine ⟨hcounted, by simp, fun hx => hexited ?_, hstopping, fun hall => ?_⟩
    · simpa [hw] using hx
    · exact nomatch hall _ (List.mem_append_right before List.mem_cons_self)
  | exit rest h =>
    obtain ⟨before, after, hw, hq, hstop, rfl⟩ := Pool.exit?_eq_some h
    exact ⟨hcounted, by simp, fun _ => hstop, hstopping, fun _ => hq⟩

theorem Run.live (h : Run s₀ events s) (hs : s₀.Live) : s.Live := by
  induction h with
  | refl => exact hs
  | step _ hstep ih => exact hstep.live ih

/-- A worker that has not left can make a step, or waits for a job. -/
theorem exists_step_of_worker {w : Nat} {x : Worker ε σ} (hx : s.pool.workers[w]? = some x)
    (hne : x ≠ .exited) :
    (∃ e s', Step s e s') ∨ x = .idle ∧ s.pool.queue = [] ∧ s.pool.stopping = false := by
  obtain ⟨p, requests⟩ := s
  have hx : p.workers[w]? = some x := hx
  cases x with
  | idle =>
    cases hq : p.queue with
    | nil =>
      cases hstop : p.stopping with
      | false => exact Or.inr ⟨rfl, rfl, rfl⟩
      | true =>
        obtain ⟨p', hexit⟩ := Option.isSome_iff_exists.1 (Pool.isSome_exit? hx hq hstop)
        exact Or.inl ⟨_, _, .exit requests hexit⟩
    | cons job queue =>
      obtain ⟨p', htake⟩ := Option.isSome_iff_exists.1 (Pool.isSome_take? hx hq)
      exact Or.inl ⟨_, _, .take requests (by rw [hq, List.head?_cons]) htake⟩
  | busy job =>
    obtain ⟨p', hperform⟩ := Option.isSome_iff_exists.1 (Pool.isSome_perform? hx)
    exact Or.inl ⟨_, _, .perform requests hx hperform⟩
  | performed failure =>
    obtain ⟨p', hfinish⟩ := Option.isSome_iff_exists.1 (Pool.isSome_finish? hx)
    exact Or.inl ⟨_, _, .finish requests hx hfinish⟩
  | exited => exact absurd rfl hne

/-- A service is never stuck: where no step is possible, everything was done. -/
theorem Live.exists_step_or_done (hs : s.Live) : (∃ e s', Step s e s') ∨ s.Done := by
  by_contra hstuck
  obtain ⟨hstep, hdone⟩ := not_or.1 hstuck
  have hworker : ∀ x ∈ s.pool.workers, x = .exited ∨
      x = .idle ∧ s.pool.queue = [] ∧ s.pool.stopping = false := fun x hx => by
    obtain ⟨w, hw⟩ := List.getElem?_of_mem hx
    by_cases hne : x = .exited
    · exact Or.inl hne
    · exact Or.inr ((exists_step_of_worker hw hne).resolve_left hstep)
  obtain ⟨p, requests⟩ := s
  cases requests with
  | nil =>
    cases hstop : p.stopping with
    | false => exact hstep ⟨_, _, .close hstop⟩
    | true =>
      refine hdone ⟨rfl, fun x hx => (hworker x hx).resolve_right fun hwait => ?_⟩
      exact Bool.false_ne_true (hwait.2.2.symm.trans hstop)
  | cons request rest =>
    cases request with
    | enqueue job => exact hstep ⟨_, _, .enqueue p job rest⟩
    | flush =>
      -- The workers that have no job leave the flush nothing to wait for.
      have hidle : ∀ x ∈ p.workers, x = .idle ∧ p.queue = [] := fun x hx => by
        rcases hworker x hx with rfl | ⟨rfl, hq, -⟩
        · exact nomatch hs.stopping (hs.exited hx)
        · exact ⟨rfl, hq⟩
      obtain ⟨x, hx⟩ := List.exists_mem_of_ne_nil _ hs.workers
      have hload : p.load = 0 := Pool.load_eq_zero_iff.2 fun y hy => by
        rw [(hidle y hy).1]
        rfl
      have hzero : p.outstanding = 0 := by
        have hcounted : p.outstanding = p.queue.length + p.load := hs.counted
        rw [hcounted, (hidle x hx).2, hload]
        rfl
      exact hstep ⟨_, _, .flush rest (if_pos hzero)⟩

/-- When everything was done, nothing is outstanding. -/
theorem Live.outstanding_of_done (hs : s.Live) (hdone : s.Done) : s.pool.outstanding = 0 := by
  have hload : s.pool.load = 0 := Pool.load_eq_zero_iff.2 fun x hx => by
    rw [hdone.2 x hx]
    rfl
  rw [hs.counted, hload, hs.stopped hdone.2]
  rfl

/-- A run that is not complete can be completed. -/
theorem Live.exists_done (hs : s.Live) : ∃ events t, Run s events t ∧ t.Done := by
  induction hn : s.potential using Nat.strongRecOn generalizing s with
  | ind n ih =>
    rcases hs.exists_step_or_done with ⟨e, s', hstep⟩ | hdone
    · obtain ⟨events, t, hrun, hdone⟩ := ih s'.potential (hn ▸ hstep.potential_lt)
        (hstep.live hs) rfl
      exact ⟨_, t, (Run.single hstep).trans hrun, hdone⟩
    · exact ⟨[], s, .refl, hdone⟩

end Service

end Disasm
