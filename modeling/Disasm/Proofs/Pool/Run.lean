import Disasm.Pool
import Mathlib

/-!
# Runs of a pool

A pool runs in steps of its client and of its workers, in any order that the steps allow. The client
asks for jobs to be added and for flushes, one after the other, and ends the pool when it has no
request left.

* `Service.Step`, `Service.Run` — one step, and any number of them. An event tells what was done,
  and what a worker or the client learned from it.
* `Run.counted` — what is outstanding.
* `Run.added_eq`, `Run.taken_perm`, `Run.store_eq` — where every job is. Together they say that a
  job that was added is taken in its turn and performed once, and that the store is what the jobs
  performed have made of it.
-/

namespace Disasm

variable {ε σ : Type}

/-! ## Jobs -/

namespace Job

def effect : Job ε σ → σ → Option ε × σ
  | mk effect _ => effect

/-- The jobs that a job adds to the queue. -/
def further : Job ε σ → List (Job ε σ)
  | mk _ further => further

theorem weight_eq (j : Job ε σ) : j.weight = 1 + weightOfAll j.further := by
  cases j
  rfl

theorem weightOfAll_append (js ks : List (Job ε σ)) :
    weightOfAll (js ++ ks) = weightOfAll js + weightOfAll ks := by
  induction js with
  | nil => rw [List.nil_append, weightOfAll, Nat.zero_add]
  | cons j js ih => rw [List.cons_append, weightOfAll, weightOfAll, ih, Nat.add_assoc]

end Job

/-! ## Operations -/

namespace Pool

variable {p p' : Pool ε σ} {w : Nat}

theorem foldl_enqueue (js : List (Job ε σ)) (p : Pool ε σ) :
    js.foldl enqueue p =
      { p with queue := p.queue ++ js, outstanding := p.outstanding + js.length } := by
  induction js generalizing p with
  | nil => simp
  | cons j js ih =>
    rw [List.foldl_cons, ih]
    simp [enqueue, Nat.add_comm, Nat.add_left_comm]

/-- The workers before and after the one with this number. -/
theorem exists_split {α : Type} {l : List α} {x : α} (h : l[w]? = some x) (y : α) :
    ∃ before after, l = before ++ x :: after ∧ l.set w y = before ++ y :: after := by
  obtain ⟨hw, rfl⟩ := List.getElem?_eq_some_iff.1 h
  obtain ⟨before, after, hl, -, hset⟩ := @List.exists_of_set _ w y l hw
  exact ⟨before, after, hl, hset⟩

/-- What holds of each worker of a kind holds after one was replaced, if it holds of the new one. -/
theorem forall_mem_replaced {α β : Type} {before after : List α} {x y : α} {kind : β → α}
    {Q : β → Prop} (h : ∀ b, kind b ∈ before ++ x :: after → Q b) (hy : ∀ b, kind b = y → Q b) :
    ∀ b, kind b ∈ before ++ y :: after → Q b := by
  intro b hb
  rcases List.mem_append.1 hb with hb | hb
  · exact h b (List.mem_append_left _ hb)
  · rcases List.mem_cons.1 hb with heq | hb
    · exact hy b heq
    · exact h b (List.mem_append_right _ (List.mem_cons_of_mem _ hb))

theorem flush?_eq_some {answer : Option ε} (h : p.flush? = some (answer, p')) :
    p.outstanding = 0 ∧ answer = p.failure ∧ p' = { p with failure := none } := by
  unfold flush? at h
  split_ifs at h with h0
  cases h
  exact ⟨h0, rfl, rfl⟩

theorem eq_of_take? {job : Job ε σ} (hjob : p.queue.head? = some job) (h : p.take? w = some p') :
    p.workers[w]? = some .idle ∧ ∃ queue, p.queue = job :: queue ∧
      p' = { p with workers := p.workers.set w (.busy job), queue } := by
  unfold take? at h
  split at h
  · next next queue hw hq =>
    rw [hq, List.head?_cons, Option.some.injEq] at hjob
    subst hjob
    exact ⟨hw, queue, hq, (Option.some.inj h).symm⟩
  · cases h

theorem eq_of_perform? {job : Job ε σ} (hw : p.workers[w]? = some (.busy job))
    (h : p.perform? w = some p') :
    p' = { p with
      workers := p.workers.set w (.performed (job.effect p.store).1)
      store := (job.effect p.store).2
      queue := p.queue ++ job.further
      outstanding := p.outstanding + job.further.length } := by
  obtain ⟨effect, further⟩ := job
  unfold perform? at h
  simp only [hw, foldl_enqueue] at h
  exact (Option.some.inj h).symm

theorem eq_of_finish? {failure : Option ε} (hw : p.workers[w]? = some (.performed failure))
    (h : p.finish? w = some p') :
    p' = { p with
      workers := p.workers.set w .idle
      outstanding := p.outstanding - 1
      failure := p.failure.or failure
      notes := p.notes ++ (failure.map fun _ => failureNote).toList } := by
  unfold finish? at h
  simp only [hw] at h
  exact (Option.some.inj h).symm

theorem eq_of_exit? (h : p.exit? w = some p') :
    p.workers[w]? = some .idle ∧ p.queue = [] ∧ p.stopping = true ∧
      p' = { p with workers := p.workers.set w .exited } := by
  unfold exit? at h
  split at h
  · next hw hq =>
    split_ifs at h with hstop
    exact ⟨hw, hq, hstop, (Option.some.inj h).symm⟩
  · cases h

/-! The same, with the workers on either side of the one that makes the step. -/

theorem take?_eq_some {job : Job ε σ} (hjob : p.queue.head? = some job)
    (h : p.take? w = some p') :
    ∃ before after queue, p.workers = before ++ .idle :: after ∧ p.queue = job :: queue ∧
      p' = { p with workers := before ++ .busy job :: after, queue } := by
  obtain ⟨hw, queue, hq, rfl⟩ := eq_of_take? hjob h
  obtain ⟨before, after, hsplit, hset⟩ := exists_split hw (.busy job)
  exact ⟨before, after, queue, hsplit, hq, by rw [hset]⟩

theorem perform?_eq_some {job : Job ε σ} (hw : p.workers[w]? = some (.busy job))
    (h : p.perform? w = some p') :
    ∃ before after, p.workers = before ++ .busy job :: after ∧
      p' = { p with
        workers := before ++ .performed (job.effect p.store).1 :: after
        store := (job.effect p.store).2
        queue := p.queue ++ job.further
        outstanding := p.outstanding + job.further.length } := by
  obtain ⟨before, after, hsplit, hset⟩ := exists_split hw (.performed (job.effect p.store).1)
  exact ⟨before, after, hsplit, hset ▸ eq_of_perform? hw h⟩

theorem finish?_eq_some {failure : Option ε} (hw : p.workers[w]? = some (.performed failure))
    (h : p.finish? w = some p') :
    ∃ before after, p.workers = before ++ .performed failure :: after ∧
      p' = { p with
        workers := before ++ .idle :: after
        outstanding := p.outstanding - 1
        failure := p.failure.or failure
        notes := p.notes ++ (failure.map fun _ => failureNote).toList } := by
  obtain ⟨before, after, hsplit, hset⟩ := exists_split hw .idle
  exact ⟨before, after, hsplit, hset ▸ eq_of_finish? hw h⟩

theorem exit?_eq_some (h : p.exit? w = some p') :
    ∃ before after, p.workers = before ++ .idle :: after ∧ p.queue = [] ∧ p.stopping = true ∧
      p' = { p with workers := before ++ .exited :: after } := by
  obtain ⟨hw, hq, hstop, rfl⟩ := eq_of_exit? h
  obtain ⟨before, after, hsplit, hset⟩ := exists_split hw .exited
  exact ⟨before, after, hsplit, hq, hstop, by rw [hset]⟩

theorem isSome_take? (hw : p.workers[w]? = some .idle) {job : Job ε σ} {queue : List (Job ε σ)}
    (hq : p.queue = job :: queue) : (p.take? w).isSome := by
  simp only [take?, hw, hq, Option.isSome_some]

theorem isSome_perform? {job : Job ε σ} (hw : p.workers[w]? = some (.busy job)) :
    (p.perform? w).isSome := by
  obtain ⟨effect, further⟩ := job
  simp only [perform?, hw, Option.isSome_some]

theorem isSome_finish? {failure : Option ε} (hw : p.workers[w]? = some (.performed failure)) :
    (p.finish? w).isSome := by
  simp only [finish?, hw, Option.isSome_some]

theorem isSome_exit? (hw : p.workers[w]? = some .idle) (hq : p.queue = [])
    (hstop : p.stopping = true) : (p.exit? w).isSome := by
  simp only [exit?, hw, hq, hstop, if_true, Option.isSome_some]

end Pool

/-! ## Services -/

/-- What a client asks of a pool, before it ends it. -/
inductive Request (ε σ : Type)
  | enqueue (job : Job ε σ)
  | flush

/-- What happens in a step: to which job, and with which answer or failure. -/
inductive Event (ε σ : Type)
  | enqueue (job : Job ε σ)
  | flush (answer : Option ε)
  | close
  | take (w : Nat) (job : Job ε σ)
  | perform (w : Nat) (job : Job ε σ)
  | finish (w : Nat) (failure : Option ε)
  | exit (w : Nat)

/-- A pool and the requests that its client has not made yet. -/
structure Service (ε σ : Type) where
  pool : Pool ε σ
  requests : List (Request ε σ)

namespace Service

/-- A new pool, before anything is asked of it. -/
def start (threads : Nat) (store : σ) (requests : List (Request ε σ)) : Service ε σ :=
  ⟨.ofThreads threads store, requests⟩

/-- The client has nothing left to ask and every worker has left. -/
def Done (s : Service ε σ) : Prop := s.requests = [] ∧ s.pool.Stopped

/-- One step of the client or of a worker. -/
inductive Step : Service ε σ → Event ε σ → Service ε σ → Prop
  | enqueue (p : Pool ε σ) (job : Job ε σ) (rest : List (Request ε σ)) :
      Step ⟨p, .enqueue job :: rest⟩ (.enqueue job) ⟨p.enqueue job, rest⟩
  | flush {p p' : Pool ε σ} {answer : Option ε} (rest : List (Request ε σ)) :
      p.flush? = some (answer, p') → Step ⟨p, .flush :: rest⟩ (.flush answer) ⟨p', rest⟩
  | close {p : Pool ε σ} : p.stopping = false → Step ⟨p, []⟩ .close ⟨p.close, []⟩
  | take {p p' : Pool ε σ} {w : Nat} {job : Job ε σ} (rest : List (Request ε σ)) :
      p.queue.head? = some job → p.take? w = some p' → Step ⟨p, rest⟩ (.take w job) ⟨p', rest⟩
  | perform {p p' : Pool ε σ} {w : Nat} {job : Job ε σ} (rest : List (Request ε σ)) :
      p.workers[w]? = some (.busy job) → p.perform? w = some p' →
        Step ⟨p, rest⟩ (.perform w job) ⟨p', rest⟩
  | finish {p p' : Pool ε σ} {w : Nat} {failure : Option ε} (rest : List (Request ε σ)) :
      p.workers[w]? = some (.performed failure) → p.finish? w = some p' →
        Step ⟨p, rest⟩ (.finish w failure) ⟨p', rest⟩
  | exit {p p' : Pool ε σ} {w : Nat} (rest : List (Request ε σ)) :
      p.exit? w = some p' → Step ⟨p, rest⟩ (.exit w) ⟨p', rest⟩

/-- Any number of steps, and the events in the order in which they happened. -/
inductive Run (s₀ : Service ε σ) : List (Event ε σ) → Service ε σ → Prop
  | refl : Run s₀ [] s₀
  | step {events : List (Event ε σ)} {s s' : Service ε σ} {e : Event ε σ} :
      Run s₀ events s → Step s e s' → Run s₀ (events ++ [e]) s'

variable {s s' s₀ t : Service ε σ} {e : Event ε σ} {events events' : List (Event ε σ)}

theorem Run.trans (h : Run s₀ events s) (h' : Run s events' t) :
    Run s₀ (events ++ events') t := by
  induction h' with
  | refl => rwa [List.append_nil]
  | step _ hstep ih =>
    rw [← List.append_assoc]
    exact ih.step hstep

theorem Run.single (h : Step s e s') : Run s [e] s' := Run.refl.step h

end Service

/-! ## What is outstanding -/

namespace Worker

/-- The job that a worker has taken and not performed. -/
def job? : Worker ε σ → Option (Job ε σ)
  | busy job => some job
  | _ => none

/-- How many jobs a worker has taken and not finished. -/
def load : Worker ε σ → Nat
  | busy _ | performed _ => 1
  | idle | exited => 0

end Worker

namespace Pool

/-- The jobs that were taken and not performed. -/
def busy (p : Pool ε σ) : List (Job ε σ) := p.workers.filterMap Worker.job?

/-- How many jobs were taken and are not finished. -/
def load (p : Pool ε σ) : Nat := (p.workers.map Worker.load).sum

/-- The jobs outstanding are those in the queue and those taken and not finished. -/
def Counted (p : Pool ε σ) : Prop := p.outstanding = p.queue.length + p.load

theorem counted_ofThreads (threads : Nat) (store : σ) :
    (ofThreads threads store : Pool ε σ).Counted := by
  simp [Counted, ofThreads, load, Worker.load]

theorem load_eq_zero_iff {p : Pool ε σ} : p.load = 0 ↔ ∀ x ∈ p.workers, x.load = 0 := by
  rw [load, List.sum_eq_zero_iff_forall_eq_nat, List.forall_mem_map]

/-- A pool with nothing outstanding has no job left anywhere. -/
theorem Counted.queue_eq_nil {p : Pool ε σ} (h : p.Counted) (h0 : p.outstanding = 0) :
    p.queue = [] := by
  unfold Counted at h
  exact List.length_eq_zero_iff.1 (by omega)

theorem Counted.busy_eq_nil {p : Pool ε σ} (h : p.Counted) (h0 : p.outstanding = 0) :
    p.busy = [] := by
  have hload : p.load = 0 := by
    unfold Counted at h
    omega
  refine List.filterMap_eq_nil_iff.2 fun x hx => ?_
  have hx0 : x.load = 0 := load_eq_zero_iff.1 hload x hx
  cases x with
  | busy job => cases hx0
  | _ => rfl

end Pool

namespace Service

variable {s s' s₀ t : Service ε σ} {e : Event ε σ} {events events' : List (Event ε σ)}

theorem Step.counted (h : Step s e s') (hs : s.pool.Counted) : s'.pool.Counted := by
  unfold Pool.Counted Pool.load at hs ⊢
  cases h with
  | enqueue p job rest =>
    simp [Pool.enqueue] at hs ⊢
    omega
  | flush rest h =>
    obtain ⟨-, -, rfl⟩ := Pool.flush?_eq_some h
    exact hs
  | close h => exact hs
  | take rest hjob h =>
    obtain ⟨before, after, queue, hw, hq, rfl⟩ := Pool.take?_eq_some hjob h
    simp [hw, hq, Worker.load] at hs ⊢
    omega
  | perform rest hjob h =>
    obtain ⟨before, after, hw, rfl⟩ := Pool.perform?_eq_some hjob h
    simp [hw, Worker.load] at hs ⊢
    omega
  | finish rest hjob h =>
    obtain ⟨before, after, hw, rfl⟩ := Pool.finish?_eq_some hjob h
    simp [hw, Worker.load] at hs ⊢
    omega
  | exit rest h =>
    obtain ⟨before, after, hw, hq, hstop, rfl⟩ := Pool.exit?_eq_some h
    simpa [hw, Worker.load] using hs

theorem Run.counted (h : Run s₀ events s) (hs : s₀.pool.Counted) : s.pool.Counted := by
  induction h with
  | refl => exact hs
  | step _ hstep ih => exact hstep.counted ih

end Service

/-! ## Where the jobs are -/

namespace Event

/-- The jobs that an event adds to the queue. -/
def added : Event ε σ → List (Job ε σ)
  | enqueue job => [job]
  | perform _ job => job.further
  | _ => []

/-- The job that an event takes from the queue. -/
def taken : Event ε σ → List (Job ε σ)
  | take _ job => [job]
  | _ => []

/-- The job that an event performs. -/
def performed : Event ε σ → List (Job ε σ)
  | perform _ job => [job]
  | _ => []

end Event

namespace Service

variable {s s' s₀ t : Service ε σ} {e : Event ε σ} {events events' : List (Event ε σ)}

theorem Step.added_eq (h : Step s e s') : s.pool.queue ++ e.added = e.taken ++ s'.pool.queue := by
  cases h with
  | enqueue p job rest => rfl
  | flush rest h =>
    obtain ⟨-, -, rfl⟩ := Pool.flush?_eq_some h
    exact List.append_nil _
  | close h => exact List.append_nil _
  | take rest hjob h =>
    obtain ⟨before, after, queue, hw, hq, rfl⟩ := Pool.take?_eq_some hjob h
    simp [hq, Event.added, Event.taken]
  | perform rest hjob h =>
    obtain ⟨before, after, hw, rfl⟩ := Pool.perform?_eq_some hjob h
    rfl
  | finish rest hjob h =>
    obtain ⟨before, after, hw, rfl⟩ := Pool.finish?_eq_some hjob h
    exact List.append_nil _
  | exit rest h =>
    obtain ⟨before, after, hw, hq, hstop, rfl⟩ := Pool.exit?_eq_some h
    exact List.append_nil _

/-- Jobs are taken in the order in which they were added. -/
theorem Run.added_eq (h : Run s₀ events s) (hq : s₀.pool.queue = []) :
    events.flatMap Event.added = events.flatMap Event.taken ++ s.pool.queue := by
  induction h with
  | refl =>
    rw [hq]
    rfl
  | step _ hstep ih =>
    rw [List.flatMap_append, List.flatMap_append, ih, List.append_assoc, List.append_assoc,
      List.flatMap_singleton, List.flatMap_singleton, hstep.added_eq]

theorem Step.taken_perm (h : Step s e s') :
    (s.pool.busy ++ e.taken).Perm (e.performed ++ s'.pool.busy) := by
  unfold Pool.busy
  cases h with
  | enqueue p job rest => exact List.Perm.of_eq (List.append_nil _)
  | flush rest h =>
    obtain ⟨-, -, rfl⟩ := Pool.flush?_eq_some h
    exact List.Perm.of_eq (List.append_nil _)
  | close h => exact List.Perm.of_eq (List.append_nil _)
  | take rest hjob h =>
    obtain ⟨before, after, queue, hw, hq, rfl⟩ := Pool.take?_eq_some hjob h
    simp only [hw, List.filterMap_append, List.filterMap_cons, Worker.job?, Event.taken,
      Event.performed, List.nil_append, List.append_assoc]
    exact (List.perm_append_singleton _ _).append_left _
  | perform rest hjob h =>
    obtain ⟨before, after, hw, rfl⟩ := Pool.perform?_eq_some hjob h
    simp only [hw, List.filterMap_append, List.filterMap_cons, Worker.job?, Event.taken,
      Event.performed, List.append_nil, List.singleton_append]
    exact List.perm_middle
  | finish rest hjob h =>
    obtain ⟨before, after, hw, rfl⟩ := Pool.finish?_eq_some hjob h
    simp [hw, List.filterMap_cons, Worker.job?, Event.taken, Event.performed]
  | exit rest h =>
    obtain ⟨before, after, hw, hq, hstop, rfl⟩ := Pool.exit?_eq_some h
    simp [hw, List.filterMap_cons, Worker.job?, Event.taken, Event.performed]

/-- A job that was taken is being performed, or was performed once. -/
theorem Run.taken_perm (h : Run s₀ events s) (hb : s₀.pool.busy = []) :
    (events.flatMap Event.taken).Perm (events.flatMap Event.performed ++ s.pool.busy) := by
  induction h with
  | refl =>
    rw [hb]
    exact List.Perm.refl _
  | step _ hstep ih =>
    rw [List.flatMap_append, List.flatMap_append, List.flatMap_singleton, List.flatMap_singleton,
      List.append_assoc]
    refine (ih.append_right _).trans ?_
    rw [List.append_assoc]
    exact hstep.taken_perm.append_left _

theorem Step.store_eq (h : Step s e s') :
    s'.pool.store = e.performed.foldl (fun store job => (job.effect store).2) s.pool.store := by
  cases h with
  | enqueue p job rest => rfl
  | flush rest h =>
    obtain ⟨-, -, rfl⟩ := Pool.flush?_eq_some h
    rfl
  | close h => rfl
  | take rest hjob h =>
    obtain ⟨before, after, queue, hw, hq, rfl⟩ := Pool.take?_eq_some hjob h
    rfl
  | perform rest hjob h =>
    obtain ⟨before, after, hw, rfl⟩ := Pool.perform?_eq_some hjob h
    rfl
  | finish rest hjob h =>
    obtain ⟨before, after, hw, rfl⟩ := Pool.finish?_eq_some hjob h
    rfl
  | exit rest h =>
    obtain ⟨before, after, hw, hq, hstop, rfl⟩ := Pool.exit?_eq_some h
    rfl

/-- The store is what the jobs performed have made of it. -/
theorem Run.store_eq (h : Run s₀ events s) :
    s.pool.store = (events.flatMap Event.performed).foldl
      (fun store job => (job.effect store).2) s₀.pool.store := by
  induction h with
  | refl => rfl
  | step _ hstep ih =>
    rw [List.flatMap_append, List.flatMap_singleton, List.foldl_append, ← ih, hstep.store_eq]

end Service

/-! ## Properties of all jobs -/

namespace Service

variable {s s' s₀ t : Service ε σ} {e : Event ε σ} {events events' : List (Event ε σ)}

/-- Every job that is not performed yet has the property. -/
structure All (P : Job ε σ → Prop) (s : Service ε σ) : Prop where
  requests : ∀ job, .enqueue job ∈ s.requests → P job
  queue : ∀ job ∈ s.pool.queue, P job
  workers : ∀ job, .busy job ∈ s.pool.workers → P job

/-- A property that jobs hand on to those they add stays with all jobs. -/
theorem Step.all {P : Job ε σ → Prop} (hP : ∀ job, P job → ∀ next ∈ job.further, P next)
    (h : Step s e s') (hs : s.All P) : s'.All P ∧ ∀ job ∈ e.performed, P job := by
  obtain ⟨hrequests, hqueue, hworkers⟩ := hs
  have hno : ∀ job ∈ ([] : List (Job ε σ)), P job := fun _ hx => nomatch hx
  cases h with
  | enqueue p job rest =>
    refine ⟨⟨fun next hnext => hrequests next (List.mem_cons_of_mem _ hnext), ?_, hworkers⟩, hno⟩
    intro next hnext
    rcases List.mem_append.1 hnext with hnext | hnext
    · exact hqueue next hnext
    · exact List.eq_of_mem_singleton hnext ▸ hrequests job List.mem_cons_self
  | flush rest h =>
    obtain ⟨-, -, rfl⟩ := Pool.flush?_eq_some h
    exact ⟨⟨fun next hnext => hrequests next (List.mem_cons_of_mem _ hnext), hqueue, hworkers⟩, hno⟩
  | close h => exact ⟨⟨hrequests, hqueue, hworkers⟩, hno⟩
  | take rest hjob h =>
    obtain ⟨before, after, queue, hw, hq, rfl⟩ := Pool.take?_eq_some hjob h
    rw [hq] at hqueue
    rw [hw] at hworkers
    refine ⟨⟨hrequests, fun next hnext => hqueue next (List.mem_cons_of_mem _ hnext), ?_⟩, hno⟩
    refine Pool.forall_mem_replaced hworkers fun next heq => ?_
    cases heq
    exact hqueue _ List.mem_cons_self
  | perform rest hjob h =>
    obtain ⟨before, after, hw, rfl⟩ := Pool.perform?_eq_some hjob h
    rw [hw] at hworkers
    have hperformed := hworkers _ (List.mem_append_right _ List.mem_cons_self)
    refine ⟨⟨hrequests, fun next hnext => ?_,
      Pool.forall_mem_replaced hworkers fun _ heq => nomatch heq⟩,
      fun next hnext => List.eq_of_mem_singleton hnext ▸ hperformed⟩
    rcases List.mem_append.1 hnext with hnext | hnext
    · exact hqueue next hnext
    · exact hP _ hperformed next hnext
  | finish rest hjob h =>
    obtain ⟨before, after, hw, rfl⟩ := Pool.finish?_eq_some hjob h
    rw [hw] at hworkers
    exact ⟨⟨hrequests, hqueue, Pool.forall_mem_replaced hworkers fun _ heq => nomatch heq⟩, hno⟩
  | exit rest h =>
    obtain ⟨before, after, hw, hq, hstop, rfl⟩ := Pool.exit?_eq_some h
    rw [hw] at hworkers
    exact ⟨⟨hrequests, hqueue, Pool.forall_mem_replaced hworkers fun _ heq => nomatch heq⟩, hno⟩

theorem Run.all {P : Job ε σ → Prop} (hP : ∀ job, P job → ∀ next ∈ job.further, P next)
    (h : Run s₀ events s) (hs : s₀.All P) :
    s.All P ∧ ∀ job ∈ events.flatMap Event.performed, P job := by
  induction h with
  | refl => exact ⟨hs, fun _ hx => nomatch hx⟩
  | step _ hstep ih =>
    obtain ⟨hall, hperformed⟩ := hstep.all hP ih.1
    refine ⟨hall, fun job hjob => ?_⟩
    rw [List.flatMap_append, List.flatMap_singleton] at hjob
    exact (List.mem_append.1 hjob).elim (ih.2 job) (hperformed job)

/-- No failure is held or about to be reported. -/
def Unfailed (s : Service ε σ) : Prop :=
  s.pool.failure = none ∧ ∀ failure, .performed failure ∈ s.pool.workers → failure = none

theorem Step.unfailed (h : Step s e s')
    (hjobs : ∀ job ∈ e.performed, ∀ store, (job.effect store).1 = none) (hs : s.Unfailed) :
    s'.Unfailed ∧ ∀ answer, e = .flush answer → answer = none := by
  obtain ⟨hfailure, hworkers⟩ := hs
  cases h with
  | enqueue p job rest => exact ⟨⟨hfailure, hworkers⟩, fun _ heq => nomatch heq⟩
  | flush rest h =>
    obtain ⟨-, rfl, rfl⟩ := Pool.flush?_eq_some h
    refine ⟨⟨rfl, hworkers⟩, fun answer heq => ?_⟩
    cases heq
    exact hfailure
  | close h => exact ⟨⟨hfailure, hworkers⟩, fun _ heq => nomatch heq⟩
  | take rest hjob h =>
    obtain ⟨before, after, queue, hw, hq, rfl⟩ := Pool.take?_eq_some hjob h
    rw [hw] at hworkers
    exact ⟨⟨hfailure, Pool.forall_mem_replaced hworkers fun _ heq => nomatch heq⟩,
      fun _ heq => nomatch heq⟩
  | perform rest hjob h =>
    obtain ⟨before, after, hw, rfl⟩ := Pool.perform?_eq_some hjob h
    rw [hw] at hworkers
    refine ⟨⟨hfailure, Pool.forall_mem_replaced hworkers fun _ heq => ?_⟩, fun _ heq => nomatch heq⟩
    cases heq
    exact hjobs _ List.mem_cons_self _
  | finish rest hjob h =>
    obtain ⟨before, after, hw, rfl⟩ := Pool.finish?_eq_some hjob h
    rw [hw] at hworkers
    have hnone := hworkers _ (List.mem_append_right _ List.mem_cons_self)
    refine ⟨⟨?_, Pool.forall_mem_replaced hworkers fun _ heq => nomatch heq⟩,
      fun _ heq => nomatch heq⟩
    show Option.or _ _ = none
    rw [hnone, Option.or_none]
    exact hfailure
  | exit rest h =>
    obtain ⟨before, after, hw, hq, hstop, rfl⟩ := Pool.exit?_eq_some h
    rw [hw] at hworkers
    exact ⟨⟨hfailure, Pool.forall_mem_replaced hworkers fun _ heq => nomatch heq⟩,
      fun _ heq => nomatch heq⟩

/-- Where no job fails, every flush answers that none did. -/
theorem Run.unfailed (h : Run s₀ events s)
    (hjobs : ∀ job ∈ events.flatMap Event.performed, ∀ store, (job.effect store).1 = none)
    (hs : s₀.Unfailed) : s.Unfailed ∧ ∀ answer, .flush answer ∈ events → answer = none := by
  induction h with
  | refl => exact ⟨hs, fun _ hx => nomatch hx⟩
  | step _ hstep ih =>
    rw [List.flatMap_append, List.flatMap_singleton] at hjobs
    obtain ⟨hunfailed, hanswers⟩ := ih fun job hjob => hjobs job (List.mem_append_left _ hjob)
    obtain ⟨hunfailed', hanswer⟩ := hstep.unfailed
      (fun job hjob => hjobs job (List.mem_append_right _ hjob)) hunfailed
    refine ⟨hunfailed', fun answer hmem => ?_⟩
    rcases List.mem_append.1 hmem with hmem | hmem
    · exact hanswers answer hmem
    · exact hanswer answer (List.eq_of_mem_singleton hmem).symm

end Service

/-! ## What was asked for -/

/-- The job that a request adds to the queue. -/
def Request.job? : Request ε σ → Option (Job ε σ)
  | enqueue job => some job
  | flush => none

/-- The request that an event makes. -/
def Event.asked : Event ε σ → List (Request ε σ)
  | enqueue job => [.enqueue job]
  | flush _ => [.flush]
  | _ => []

namespace Service

variable {s s' s₀ t : Service ε σ} {e : Event ε σ} {events events' : List (Event ε σ)}

theorem Step.requests_eq (h : Step s e s') : s.requests = e.asked ++ s'.requests := by
  cases h <;> rfl

/-- Requests are made in their order. -/
theorem Run.requests_eq (h : Run s₀ events s) :
    s₀.requests = events.flatMap Event.asked ++ s.requests := by
  induction h with
  | refl => rfl
  | step _ hstep ih =>
    rw [List.flatMap_append, List.flatMap_singleton, List.append_assoc, ih, hstep.requests_eq]

/-- Where no job leads to others, the jobs added are those asked for. -/
theorem added_eq_asked
    (h : ∀ job ∈ events.flatMap Event.performed, job.further = []) :
    events.flatMap Event.added = (events.flatMap Event.asked).filterMap Request.job? := by
  induction events with
  | nil => rfl
  | cons e events ih =>
    rw [List.flatMap_cons] at h
    have he : e.added = e.asked.filterMap Request.job? := by
      cases e with
      | perform w job => exact h job (List.mem_append_left _ List.mem_cons_self)
      | _ => rfl
    rw [List.flatMap_cons, List.flatMap_cons, List.filterMap_append, he,
      ih fun job hjob => h job (List.mem_append_right _ hjob)]

/-- When all requests are made and nothing is outstanding, every job asked for was performed
once. -/
theorem Run.performed_perm {threads : Nat} {store : σ} {requests : List (Request ε σ)}
    (h : Run (start threads store requests) events s) (hrequests : s.requests = [])
    (h0 : s.pool.outstanding = 0)
    (hplain : ∀ job ∈ events.flatMap Event.performed, job.further = []) :
    (events.flatMap Event.performed).Perm (requests.filterMap Request.job?) := by
  have hcounted := h.counted (Pool.counted_ofThreads threads store)
  have hbusy : (start threads store requests).pool.busy = [] :=
    Pool.Counted.busy_eq_nil (Pool.counted_ofThreads threads store) rfl
  have hasked : requests = events.flatMap Event.asked := by
    have heq : requests = _ := h.requests_eq
    rwa [hrequests, List.append_nil] at heq
  have hadded := h.added_eq rfl
  rw [hcounted.queue_eq_nil h0, List.append_nil, added_eq_asked hplain, ← hasked] at hadded
  have htaken := h.taken_perm hbusy
  rw [hcounted.busy_eq_nil h0, List.append_nil, ← hadded] at htaken
  exact htaken.symm

end Service

end Disasm
