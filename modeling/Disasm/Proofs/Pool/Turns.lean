import Disasm.Proofs.Pool.Progress

/-!
# What becomes of every job

A worker deals with one job at a time: it takes it, performs it and reports whether it failed. This
module follows the workers through a run of a pool, and with them each job and each failure.

* `turns` — the jobs performed, each with its worker and with the failure that it ended in.
* `Run.turns_eq` — a worker's steps are its turns, one after the other, up to the one it is in.
* `Run.failure_eq` — the failure held is the first one reported since the last flush.
* `Settled` — every job added was taken in its turn, performed once and reported as finished.

**Theorem (`run_performs_once`).** In every run all jobs are settled at each flush, which answers
the first failure since the last one, and at the end. Before the end there is always a step to make,
whatever has failed.
-/

namespace Disasm

variable {ε σ : Type}

/-! ## Turns -/

/-- What a worker does with a job. -/
structure Turn (ε σ : Type) where
  worker : Nat
  job : Job ε σ
  failure : Option ε

/-- The steps of a turn. -/
def Turn.events (t : Turn ε σ) : List (Event ε σ) :=
  [.take t.worker t.job, .perform t.worker t.job, .finish t.worker t.failure]

namespace Event

/-- Whether an event is part of a turn of this worker. -/
def inTurnOf (w : Nat) : Event ε σ → Bool
  | take v _ | perform v _ | finish v _ => v = w
  | _ => false

/-- The turn that an event performs, with this store. -/
def turn (store : σ) : Event ε σ → List (Turn ε σ)
  | perform w job => [⟨w, job, (job.effect store).1⟩]
  | _ => []

end Event

/-- The jobs performed one after the other, from this store on. -/
def turns : σ → List (Event ε σ) → List (Turn ε σ)
  | _, [] => []
  | store, e :: events =>
    e.turn store ++ turns (e.performed.foldl (fun store job => (job.effect store).2) store) events

namespace Worker

/-- The steps that a worker has made in a turn before it performed the job. -/
def begun (w : Nat) : Worker ε σ → List (Event ε σ)
  | busy job => [.take w job]
  | _ => []

/-- The step that is left of a turn after the job was performed. -/
def rest (w : Nat) : Worker ε σ → List (Event ε σ)
  | performed failure => [.finish w failure]
  | _ => []

end Worker

/-- The worker with this number; those that do not exist have left. -/
def Pool.worker (p : Pool ε σ) (w : Nat) : Worker ε σ := p.workers[w]?.getD .exited

theorem turns_append (store : σ) (events events' : List (Event ε σ)) :
    turns store (events ++ events') = turns store events ++
      turns ((events.flatMap Event.performed).foldl (fun store job => (job.effect store).2) store)
        events' := by
  induction events generalizing store with
  | nil => rfl
  | cons e events ih =>
    rw [List.cons_append, turns, ih, turns, List.flatMap_cons, List.foldl_append, List.append_assoc]

theorem map_job_turns (store : σ) (events : List (Event ε σ)) :
    (turns store events).map Turn.job = events.flatMap Event.performed := by
  induction events generalizing store with
  | nil => rfl
  | cons e events ih =>
    rw [turns, List.map_append, ih, List.flatMap_cons]
    cases e <;> rfl

namespace Service

variable {s s' s₀ t : Service ε σ} {e : Event ε σ} {events events' : List (Event ε σ)}

/-- What a worker does in a step of its own. -/
inductive Acts (w : Nat) (store : σ) : Worker ε σ → Event ε σ → Worker ε σ → Prop
  | take (job : Job ε σ) : Acts w store .idle (.take w job) (.busy job)
  | perform (job : Job ε σ) :
      Acts w store (.busy job) (.perform w job) (.performed (job.effect store).1)
  | finish (failure : Option ε) : Acts w store (.performed failure) (.finish w failure) .idle
  | exit : Acts w store .idle (.exit w) .exited

/-- A worker that acts takes the place that it had. -/
theorem acts_of_set {p p' : Pool ε σ} {v : Nat} {x y : Worker ε σ}
    (hx : p.workers[v]? = some x) (hset : p'.workers = p.workers.set v y)
    (hacts : Acts v p.store x e y) (w : Nat) (hother : v ≠ w → e.inTurnOf w = false) :
    Acts w p.store (p.worker w) e (p'.worker w) ∨
      e.inTurnOf w = false ∧ p'.worker w = p.worker w := by
  obtain ⟨hv, -⟩ := List.getElem?_eq_some_iff.1 hx
  by_cases hvw : v = w
  · subst hvw
    refine Or.inl ?_
    rw [Pool.worker, Pool.worker, hset, hx, List.getElem?_set_self hv]
    exact hacts
  · refine Or.inr ⟨hother hvw, ?_⟩
    rw [Pool.worker, Pool.worker, hset, List.getElem?_set_ne hvw]

/-- In a step a worker acts, or another does and it stays as it is. -/
theorem Step.acts (h : Step s e s') (w : Nat) :
    Acts w s.pool.store (s.pool.worker w) e (s'.pool.worker w) ∨
      e.inTurnOf w = false ∧ s'.pool.worker w = s.pool.worker w := by
  cases h with
  | enqueue p job rest => exact Or.inr ⟨rfl, rfl⟩
  | flush rest h =>
    obtain ⟨-, -, rfl⟩ := Pool.flush?_eq_some h
    exact Or.inr ⟨rfl, rfl⟩
  | close h => exact Or.inr ⟨rfl, rfl⟩
  | take rest hjob h =>
    obtain ⟨hx, queue, -, rfl⟩ := Pool.eq_of_take? hjob h
    exact acts_of_set hx rfl (.take _) w decide_eq_false
  | perform rest hx h =>
    obtain rfl := Pool.eq_of_perform? hx h
    exact acts_of_set hx rfl (.perform _) w decide_eq_false
  | finish rest hx h =>
    obtain rfl := Pool.eq_of_finish? hx h
    exact acts_of_set hx rfl (.finish _) w decide_eq_false
  | exit rest h =>
    obtain ⟨hx, -, -, rfl⟩ := Pool.eq_of_exit? h
    exact acts_of_set hx rfl .exit w fun _ => rfl

/-- An event that is not part of a worker's turns performs none. -/
theorem filter_turn_eq_nil {w : Nat} (store : σ) (h : e.inTurnOf w = false) :
    (e.turn store).filter (·.worker = w) = [] := by
  cases e with
  | perform v job => simpa [Event.turn, Event.inTurnOf] using h
  | _ => rfl

/-- A worker's steps are its turns, up to the one that it is in. -/
theorem Run.turns_eq (h : Run s₀ events s) (hidle : ∀ x ∈ s₀.pool.workers, x = .idle) (w : Nat) :
    events.filter (·.inTurnOf w) ++ (s.pool.worker w).rest w =
      ((turns s₀.pool.store events).filter (·.worker = w)).flatMap Turn.events ++
        (s.pool.worker w).begun w := by
  induction h with
  | refl =>
    unfold Pool.worker
    cases hx : s₀.pool.workers[w]? with
    | none => rfl
    | some x =>
      rw [hidle x (List.mem_of_getElem? hx)]
      rfl
  | @step events s s' e hrun hstep ih =>
    rw [turns_append, ← hrun.store_eq, List.filter_append, List.filter_append, List.flatMap_append,
      turns, turns, List.append_nil, List.filter_singleton]
    generalize events.filter (·.inTurnOf w) = made at ih ⊢
    generalize ((turns s₀.pool.store events).filter (·.worker = w)).flatMap Turn.events = done
      at ih ⊢
    rcases hstep.acts w with hacts | ⟨hno, hsame⟩
    · generalize s.pool.worker w = x at ih hacts
      generalize s'.pool.worker w = x' at hacts ⊢
      cases hacts with
      | take job =>
        obtain rfl : made = done := by simpa [Worker.rest, Worker.begun] using ih
        simp [Event.inTurnOf, Event.turn, Worker.rest, Worker.begun]
      | perform job =>
        obtain rfl : made = done ++ [.take w job] := by
          simpa [Worker.rest, Worker.begun] using ih
        simp [Event.inTurnOf, Event.turn, Turn.events, Worker.rest, Worker.begun]
      | finish failure =>
        obtain rfl : made ++ [.finish w failure] = done := by
          simpa [Worker.rest, Worker.begun] using ih
        simp [Event.inTurnOf, Event.turn, Worker.rest, Worker.begun]
      | exit =>
        obtain rfl : made = done := by simpa [Worker.rest, Worker.begun] using ih
        simp [Event.inTurnOf, Event.turn, Worker.rest, Worker.begun]
    · rw [hsame, hno, filter_turn_eq_nil _ hno, List.flatMap_nil, List.append_nil]
      simpa using ih

end Service

/-! ## Failures -/

namespace Event

/-- The failure that an event reports. -/
def failure? : Event ε σ → Option ε
  | finish _ failure => failure
  | _ => none

def isFlush : Event ε σ → Bool
  | flush _ => true
  | _ => false

end Event

/-- The events since the last flush. -/
def sinceFlush (events : List (Event ε σ)) : List (Event ε σ) :=
  events.rtakeWhile fun e => !e.isFlush

/-- The first failure that was reported since the last flush. -/
def firstFailure (events : List (Event ε σ)) : Option ε :=
  (sinceFlush events).findSome? Event.failure?

theorem firstFailure_append_flush {e : Event ε σ} (h : e.isFlush) (events : List (Event ε σ)) :
    firstFailure (events ++ [e]) = none := by
  rw [firstFailure, sinceFlush, List.rtakeWhile_concat_neg _ _ _ (by simpa using h)]
  rfl

theorem firstFailure_append {e : Event ε σ} (h : e.isFlush = false) (events : List (Event ε σ)) :
    firstFailure (events ++ [e]) = (firstFailure events).or e.failure? := by
  rw [firstFailure, sinceFlush, List.rtakeWhile_concat_pos _ _ _ (by simpa using h),
    List.findSome?_append, firstFailure, sinceFlush]
  simp

theorem isSome_firstFailure_iff {events : List (Event ε σ)} :
    (firstFailure events).isSome ↔ ∃ w failure, .finish w (some failure) ∈ sinceFlush events := by
  rw [firstFailure, List.findSome?_isSome_iff]
  refine ⟨?_, fun ⟨w, failure, hmem⟩ => ⟨_, hmem, rfl⟩⟩
  rintro ⟨e, hmem, he⟩
  cases e with
  | finish w failure =>
    obtain ⟨failure, rfl⟩ := Option.isSome_iff_exists.1 he
    exact ⟨w, failure, hmem⟩
  | _ => cases he

namespace Service

variable {s s' s₀ t : Service ε σ} {e : Event ε σ} {events events' : List (Event ε σ)}

theorem Step.failure_eq (h : Step s e s') :
    s'.pool.failure = if e.isFlush then none else s.pool.failure.or e.failure? := by
  cases h with
  | flush rest h =>
    obtain ⟨-, -, rfl⟩ := Pool.flush?_eq_some h
    rfl
  | finish rest hjob h =>
    obtain ⟨before, after, hw, rfl⟩ := Pool.finish?_eq_some hjob h
    rfl
  | take rest hjob h =>
    obtain ⟨before, after, queue, hw, hq, rfl⟩ := Pool.take?_eq_some hjob h
    exact Option.or_none.symm
  | perform rest hjob h =>
    obtain ⟨before, after, hw, rfl⟩ := Pool.perform?_eq_some hjob h
    exact Option.or_none.symm
  | exit rest h =>
    obtain ⟨before, after, hw, hq, hstop, rfl⟩ := Pool.exit?_eq_some h
    exact Option.or_none.symm
  | _ => exact Option.or_none.symm

/-- The failure held is the first one reported since the last flush. -/
theorem Run.failure_eq (h : Run s₀ events s) (hnone : s₀.pool.failure = none) :
    s.pool.failure = firstFailure events := by
  induction h with
  | refl => exact hnone
  | @step events s s' e _ hstep ih =>
    rw [hstep.failure_eq, ih]
    split_ifs with hflush
    · rw [firstFailure_append_flush hflush]
    · rw [firstFailure_append (by simpa using hflush)]

end Service

/-! ## Settled jobs -/

/-- Every job added was taken in its turn, was performed once, and was reported as finished by the
worker that took it, with the failure that it ended in. -/
structure Settled (store : σ) (events : List (Event ε σ)) : Prop where
  taken_eq : events.flatMap Event.taken = events.flatMap Event.added
  performed_perm : ((turns store events).map Turn.job).Perm (events.flatMap Event.added)
  turns_eq : ∀ w, events.filter (·.inTurnOf w) =
    ((turns store events).filter (·.worker = w)).flatMap Turn.events

theorem Worker.eq_nil_of_load {x : Worker ε σ} (h : x.load = 0) (w : Nat) :
    x.rest w = [] ∧ x.begun w = [] := by
  cases x <;> first | exact ⟨rfl, rfl⟩ | cases h

theorem Pool.Counted.load_worker_eq_zero {p : Pool ε σ} (h : p.Counted) (h0 : p.outstanding = 0)
    (w : Nat) : (p.worker w).load = 0 := by
  have hload : p.load = 0 := by
    unfold Counted at h
    omega
  unfold worker
  cases hx : p.workers[w]? with
  | none => rfl
  | some x => exact load_eq_zero_iff.1 hload x (List.mem_of_getElem? hx)

namespace Service

variable {s s' s₀ t : Service ε σ} {e : Event ε σ} {events events' : List (Event ε σ)}
  {threads : Nat} {store : σ} {requests : List (Request ε σ)}

/-- When nothing is outstanding, all jobs are settled. -/
theorem Run.settled (h : Run (start threads store requests) events s)
    (h0 : s.pool.outstanding = 0) : Settled store events := by
  have hstart := Pool.counted_ofThreads (ε := ε) threads store
  have hcounted := h.counted hstart
  have hadded := h.added_eq rfl
  have htaken := h.taken_perm (hstart.busy_eq_nil rfl)
  rw [hcounted.queue_eq_nil h0, List.append_nil] at hadded
  rw [hcounted.busy_eq_nil h0, List.append_nil] at htaken
  refine ⟨hadded.symm, ?_, fun w => ?_⟩
  · rw [map_job_turns, hadded]
    exact htaken.symm
  · obtain ⟨hrest, hbegun⟩ := Worker.eq_nil_of_load (hcounted.load_worker_eq_zero h0 w) w
    have hturns := h.turns_eq (fun x hx => List.eq_of_mem_replicate hx) w
    rwa [hrest, hbegun, List.append_nil, List.append_nil] at hturns

theorem Run.exists_last (h : Run s₀ (events ++ [e]) t) : ∃ s, Run s₀ events s ∧ Step s e t := by
  generalize hall : events ++ [e] = all at h
  cases h with
  | refl => simp at hall
  | step hrun hstep =>
    obtain ⟨rfl, heq⟩ := List.append_inj' hall rfl
    cases heq
    exact ⟨_, hrun, hstep⟩

/-- Every event of a run is a step, between the run before it and the run after it. -/
theorem Run.exists_step {before after : List (Event ε σ)} (h : Run s₀ (before ++ e :: after) t) :
    ∃ s s', Run s₀ before s ∧ Step s e s' ∧ Run s' after t := by
  induction after using List.reverseRecOn generalizing t with
  | nil =>
    obtain ⟨s, hs, he⟩ := h.exists_last
    exact ⟨s, t, hs, he, .refl⟩
  | append_singleton after x ih =>
    rw [← List.cons_append, ← List.append_assoc] at h
    obtain ⟨u, hu, hx⟩ := h.exists_last
    obtain ⟨s, s', hs, he, hafter⟩ := ih hu
    exact ⟨s, s', hs, he, hafter.step hx⟩

theorem Step.flush_eq {answer : Option ε} (h : Step s (.flush answer) s') :
    s.pool.outstanding = 0 ∧ answer = s.pool.failure := by
  cases h with
  | flush rest h =>
    obtain ⟨h0, hanswer, -⟩ := Pool.flush?_eq_some h
    exact ⟨h0, hanswer⟩

/-- **Every job is performed exactly once.** At any time in a run, what is outstanding are the jobs
in the queue and those taken and not finished. Jobs are taken in the order in which they were added,
and performed once. When a flush answers, every job added before it is settled, and the answer is
the first failure reported since the last flush, if there was one; it is not answered again. A
service whose jobs fail is not stuck for that and not done before the others: it can make a step as
long as it is not done, it does not go on forever, and when it is done every job is settled. -/
theorem run_performs_once {threads : Nat} {store : σ} {requests : List (Request ε σ)}
    (h : Run (start threads store requests) events s) :
    s.pool.outstanding = s.pool.queue.length + s.pool.load ∧
      events.flatMap Event.added = events.flatMap Event.taken ++ s.pool.queue ∧
      (events.flatMap Event.taken).Perm ((turns store events).map Turn.job ++ s.pool.busy) ∧
      (∀ before answer after, events = before ++ .flush answer :: after →
        Settled store before ∧ answer = firstFailure before ∧
          (answer.isSome ↔ ∃ w failure, .finish w (some failure) ∈ sinceFlush before)) ∧
      s.pool.failure = firstFailure events ∧
      ((∃ e s', Step s e s') ∨ s.Done) ∧
      events.length ≤ (start threads store requests).potential ∧
      (s.Done → Settled store events ∧ requests = events.flatMap Event.asked) := by
  have hstart := Pool.counted_ofThreads (ε := ε) threads store
  have hlive := h.live (live_start threads store requests)
  refine ⟨hlive.counted, h.added_eq rfl, ?_, ?_, h.failure_eq rfl, hlive.exists_step_or_done, ?_,
    fun hdone => ⟨h.settled (hlive.outstanding_of_done hdone), ?_⟩⟩
  · rw [map_job_turns]
    exact h.taken_perm (hstart.busy_eq_nil rfl)
  · rintro before answer after rfl
    obtain ⟨s₁, s₂, hbefore, hflush, -⟩ := h.exists_step
    obtain ⟨h0, hanswer⟩ := hflush.flush_eq
    rw [hbefore.failure_eq rfl] at hanswer
    exact ⟨hbefore.settled h0, hanswer, by rw [hanswer, isSome_firstFailure_iff]⟩
  · have hlength := h.length_le
    omega
  · have hasked : requests = events.flatMap Event.asked ++ s.requests := h.requests_eq
    rwa [hdone.1, List.append_nil] at hasked

/-- Two workers and two jobs that fail, with a flush behind them. The second job is finished first,
so its failure is answered, and that of the first is not. -/
theorem run_performs_once_failing :
    let first : Job Nat Nat := .ofEffect fun n => (some 1, n + 1)
    let second : Job Nat Nat := .ofEffect fun n => (some 2, n + 1)
    let before : List (Event Nat Nat) := [.enqueue first, .enqueue second, .take 0 first,
      .take 1 second, .perform 0 first, .perform 1 second, .finish 1 (some 2), .finish 0 (some 1)]
    let after : List (Event Nat Nat) := [.close, .exit 0, .exit 1]
    ∃ s, Run (start 2 0 [.enqueue first, .enqueue second, .flush])
        (before ++ .flush (some 2) :: after) s ∧
      Settled 0 before ∧ some 2 = firstFailure before ∧ s.pool.failure = none ∧ s.Done := by
  intro first second before after
  have hrun : Run (start 2 0 [.enqueue first, .enqueue second, .flush])
      (before ++ .flush (some 2) :: after)
      ⟨{ workers := [.exited, .exited], store := 2, stopping := true,
         notes := [Pool.failureNote, Pool.failureNote] }, []⟩ := by
    have hadded := (Run.refl.step (.enqueue (.ofThreads 2 0) first [.enqueue second, .flush])).step
      (.enqueue _ second [.flush])
    have htaken := (hadded.step (.take (w := 0) _ rfl rfl)).step (.take (w := 1) _ rfl rfl)
    have hperformed := (htaken.step (.perform (w := 0) _ rfl rfl)).step
      (.perform (w := 1) _ rfl rfl)
    have hfinished := (hperformed.step (.finish (w := 1) _ rfl rfl)).step
      (.finish (w := 0) _ rfl rfl)
    have hflushed := (hfinished.step (.flush [] rfl)).step (.close rfl)
    exact (hflushed.step (.exit (w := 0) _ rfl)).step (.exit (w := 1) _ rfl)
  obtain ⟨-, -, -, hflush, hfailure, -⟩ := run_performs_once hrun
  obtain ⟨hsettled, hanswer, -⟩ := hflush before (some 2) after rfl
  exact ⟨_, hrun, hsettled, hanswer, rfl, rfl, by simp [Pool.Stopped]⟩

end Service

end Disasm
