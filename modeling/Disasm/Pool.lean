import Disasm.Log

/-!
# A pool of workers

A pool performs jobs that are added to its queue. Its workers share a store, which the jobs change.

**Steps.** A worker takes the oldest job of the queue (`take?`), performs it (`perform?`) and then
reports that it is finished (`finish?`). Once the pool is to stop and no job is left, a worker
leaves (`exit?`). Each is defined only where the worker can make that step, so that every run of
a pool is a sequence of them, mixed with those of its client: `enqueue`, `flush?` and `close`.

**Failures.** A job that fails keeps no other from running. The first failure to be reported since
the last flush is what the next flush answers.

**A run.** Which worker makes which step when is not determined. `drain`, and with it `flush` and
`stop`, lets the first worker perform the jobs one after the other.
-/

namespace Disasm

/-- A job: what it does to the store, with the failure it ends in, if any, and the jobs that it
adds to the queue on the way. -/
inductive Job (ε σ : Type)
  | mk (effect : σ → Option ε × σ) (further : List (Job ε σ))

namespace Job

variable {ε σ : Type}

/-- A job that adds nothing to the queue. -/
def ofEffect (effect : σ → Option ε × σ) : Job ε σ := mk effect []

mutual

/-- How many jobs there are in a job: itself and those it leads to. -/
def weight : Job ε σ → Nat
  | mk _ further => 1 + weightOfAll further

def weightOfAll : List (Job ε σ) → Nat
  | [] => 0
  | j :: js => weight j + weightOfAll js

end

end Job

/-- What a worker is doing. -/
inductive Worker (ε σ : Type)
  | idle
  | busy (job : Job ε σ)
  | performed (failure : Option ε)
  | exited

/-- A pool of workers. `outstanding` counts the jobs that were added and are not finished, and
`failure` is the first failure since the last flush. `notes` are the messages of its workers. -/
structure Pool (ε σ : Type) where
  workers : List (Worker ε σ)
  store : σ
  queue : List (Job ε σ) := []
  outstanding : Nat := 0
  failure : Option ε := none
  stopping : Bool := false
  notes : List Log.Message := []

namespace Pool

variable {ε σ : Type}

/-- A pool with this many workers. There is always one at least. -/
def ofThreads (threads : Nat) (store : σ) : Pool ε σ :=
  { workers := List.replicate (max threads 1) .idle, store }

def size (p : Pool ε σ) : Nat := p.workers.length

/-- What a worker reports when a job fails. -/
def failureNote : Log.Message := ⟨.workers, .error, "Action failed; deferring to flush"⟩

/-! ## The steps of the client -/

/-- Adds a job to the queue. -/
def enqueue (p : Pool ε σ) (job : Job ε σ) : Pool ε σ :=
  { p with queue := p.queue ++ [job], outstanding := p.outstanding + 1 }

/-- Answers the failure held, and forgets it. A flush has to wait while a job is outstanding. -/
def flush? (p : Pool ε σ) : Option (Option ε × Pool ε σ) :=
  if p.outstanding = 0 then some (p.failure, { p with failure := none }) else none

/-- Tells the workers to leave when there is nothing left to do. -/
def close (p : Pool ε σ) : Pool ε σ := { p with stopping := true }

/-- The pool has stopped when every worker has left. -/
def Stopped (p : Pool ε σ) : Prop := ∀ w ∈ p.workers, w = .exited

/-! ## The steps of a worker -/

/-- An idle worker takes the oldest job of the queue. -/
def take? (p : Pool ε σ) (w : Nat) : Option (Pool ε σ) :=
  match p.workers[w]?, p.queue with
  | some .idle, job :: queue => some { p with workers := p.workers.set w (.busy job), queue }
  | _, _ => none

/-- A busy worker performs its job, which may add others to the queue. -/
def perform? (p : Pool ε σ) (w : Nat) : Option (Pool ε σ) :=
  match p.workers[w]? with
  | some (.busy (.mk effect further)) =>
    let (failure, store) := effect p.store
    let p := further.foldl enqueue p
    some { p with workers := p.workers.set w (.performed failure), store }
  | _ => none

/-- A worker reports that its job is finished, and whether it failed. -/
def finish? (p : Pool ε σ) (w : Nat) : Option (Pool ε σ) :=
  match p.workers[w]? with
  | some (.performed failure) =>
    some { p with
      workers := p.workers.set w .idle
      outstanding := p.outstanding - 1
      failure := p.failure.or failure
      notes := p.notes ++ (failure.map fun _ => failureNote).toList }
  | _ => none

/-- A worker leaves a pool that is to stop and has no job for it. -/
def exit? (p : Pool ε σ) (w : Nat) : Option (Pool ε σ) :=
  match p.workers[w]?, p.queue with
  | some .idle, [] =>
    if p.stopping then some { p with workers := p.workers.set w .exited } else none
  | _, _ => none

/-! ## A run of one worker -/

/-- The first worker takes a job and deals with it. -/
def turn? (p : Pool ε σ) : Option (Pool ε σ) := do
  (← (← p.take? 0).perform? 0).finish? 0

/-- At most so many jobs, one after the other. -/
def turns : Nat → Pool ε σ → Pool ε σ
  | 0, p => p
  | n + 1, p =>
    match p.turn? with
    | some p => turns n p
    | none => p

/-- Performs all jobs of the queue, and those they add to it, in the order of the queue. -/
def drain (p : Pool ε σ) : Pool ε σ := turns (Job.weightOfAll p.queue) p

/-- Performs all jobs and answers the first failure since the last flush. -/
def flush (p : Pool ε σ) : Option ε × Pool ε σ :=
  let p := p.drain
  (p.failure, { p with failure := none })

/-- Performs all jobs and lets the workers go. A failure is kept for a later flush. -/
def stop (p : Pool ε σ) : Pool ε σ :=
  let p := p.drain
  { p.close with workers := p.workers.map fun _ => .exited }

end Pool

end Disasm
