import Disasm.Proofs.Pool.Drain
import Disasm.Proofs.Pool.Progress
import Disasm.Region

/-!
# The schedule does not matter

**Theorem (`disassemble_schedule_independent`).** The listing of several regions is the records of
each, in the order of a stable sort by address, for any number of workers and whichever of them
takes which job when. A region without bytes is refused before anything is decoded.

A job writes to its own place only, and what it writes there depends on its region alone
(`effect_job`), so that the jobs of all regions leave the same in every order (`slots_foldl`). That
each is performed once in any run, and that a flush waits for all of them, is true of every pool
(`Run.performed_perm`).
-/

namespace Disasm

namespace Region

/-! ## The order of the regions -/

theorem perm_ordered (regions : List Region) : (ordered regions).Perm regions :=
  List.mergeSort_perm _ _

theorem le_trans_base (a b c : Region) (hab : decide (a.context.base ≤ b.context.base))
    (hbc : decide (b.context.base ≤ c.context.base)) :
    decide (a.context.base ≤ c.context.base) :=
  decide_eq_true (UInt64.le_trans (of_decide_eq_true hab) (of_decide_eq_true hbc))

theorem le_total_base (a b : Region) :
    decide (a.context.base ≤ b.context.base) || decide (b.context.base ≤ a.context.base) := by
  rw [Bool.or_eq_true, decide_eq_true_eq, decide_eq_true_eq]
  exact UInt64.le_total _ _

theorem pairwise_ordered (regions : List Region) :
    (ordered regions).Pairwise fun a b => a.context.base ≤ b.context.base :=
  (List.pairwise_mergeSort le_trans_base le_total_base regions).imp of_decide_eq_true

/-- Regions at the same address keep their order. -/
theorem filter_ordered (regions : List Region) (base : UInt64) :
    (ordered regions).filter (·.context.base = base) =
      regions.filter (·.context.base = base) := by
  -- Regions at one address are in order already, so that sorting leaves them in this order.
  have hsame : (regions.filter (·.context.base = base)).Pairwise
      fun a b => decide (a.context.base ≤ b.context.base) := by
    refine List.pairwise_of_forall_mem_list fun a ha b hb => ?_
    have ha := of_decide_eq_true (List.mem_filter.1 ha).2
    have hb := of_decide_eq_true (List.mem_filter.1 hb).2
    rw [ha, hb]
    exact decide_eq_true (UInt64.le_refl base)
  have hsub := (List.sublist_mergeSort le_trans_base le_total_base hsame
    List.filter_sublist).filter (·.context.base = base)
  rw [List.filter_filter] at hsub
  simp only [Bool.and_self] at hsub
  exact (hsub.eq_of_length ((perm_ordered regions).filter _).length_eq.symm).symm

/-! ## The jobs -/

variable {r : Region} {regions : List Region}

/-- The records of a region by itself, or why there are none. -/
def decoded (r : Region) : Except ConfigurationError (List Instruction) :=
  (Disassembly.ofBytes r.bytes r.context).map Disassembly.toList

theorem ofBytes_of_ne_nil (h : r.bytes ≠ []) :
    Disassembly.ofBytes r.bytes r.context = .ok ⟨r.bytes, r.context, h⟩ := dif_neg h

theorem decoded_of_ne_nil (h : r.bytes ≠ []) : r.decoded = .ok r.records := by
  rw [decoded, ofBytes_of_ne_nil h]
  rfl

theorem decoded_of_eq_nil (h : r.bytes = []) : r.decoded = .error .emptyBuffer := by
  rw [decoded, Disassembly.ofBytes, dif_pos h]
  rfl

theorem mapM_decoded (h : ∀ r ∈ regions, r.bytes ≠ []) :
    regions.mapM decoded = .ok (regions.map records) := by
  induction regions with
  | nil => rfl
  | cons r rest ih =>
    rw [List.mapM_cons, decoded_of_ne_nil (h r List.mem_cons_self),
      ih fun r hr => h r (List.mem_cons_of_mem _ hr)]
    rfl

theorem mapM_decoded_of_mem (hr : r ∈ regions) (h : r.bytes = []) :
    regions.mapM decoded = .error .emptyBuffer := by
  induction regions with
  | nil => exact nomatch hr
  | cons q rest ih =>
    rw [List.mapM_cons]
    by_cases hq : q.bytes = []
    · rw [decoded_of_eq_nil hq]
      rfl
    · have hrest : r ∈ rest := (List.mem_cons.1 hr).resolve_left fun heq => hq (heq ▸ h)
      rw [decoded_of_ne_nil hq, ih hrest]
      rfl

theorem further_job (k : Nat) (r : Region) : (job k r).further = [] := rfl

/-- A job writes the records of its region to its own place, and does not fail. -/
theorem effect_job (h : r.bytes ≠ []) (k : Nat) (s : Slots) :
    (job k r).effect s =
      (none, ⟨s.slots.set k r.records, s.notes ++ [r.decodedNote r.records]⟩) := by
  unfold job Job.ofEffect Job.effect
  dsimp only
  rw [ofBytes_of_ne_nil h]
  rfl

theorem exists_effect_of_mem (hne : ∀ r ∈ regions, r.bytes ≠ [])
    {j : Job ConfigurationError Slots} (hj : j ∈ regions.mapIdx job) (s : Slots) :
    ∃ (k : Nat) (_ : k < regions.length), j = job k regions[k] ∧ (j.effect s).1 = none ∧
      (j.effect s).2.slots = s.slots.set k regions[k].records := by
  obtain ⟨k, hk, rfl⟩ := List.mem_mapIdx.1 hj
  have heffect := effect_job (hne _ (List.getElem_mem hk)) k s
  exact ⟨k, hk, rfl, by rw [heffect], by rw [heffect]⟩

/-! ## What the jobs leave -/

/-- The store after some jobs. -/
def after (jobs : List (Job ConfigurationError Slots)) (s : Slots) : Slots :=
  jobs.foldl (fun s j => (j.effect s).2) s

theorem length_slots_after (hne : ∀ r ∈ regions, r.bytes ≠ [])
    {jobs : List (Job ConfigurationError Slots)} (hjobs : ∀ j ∈ jobs, j ∈ regions.mapIdx job)
    (s : Slots) : (after jobs s).slots.length = s.slots.length := by
  induction jobs generalizing s with
  | nil => rfl
  | cons j rest ih =>
    obtain ⟨k, hk, -, -, hslots⟩ := exists_effect_of_mem hne (hjobs j List.mem_cons_self) s
    have hrest := ih (fun i hi => hjobs i (List.mem_cons_of_mem _ hi)) (j.effect s).2
    rw [hslots, List.length_set] at hrest
    exact hrest

/-- A place holds the records of its region from when its job is performed. -/
theorem getElem?_slots_after (hne : ∀ r ∈ regions, r.bytes ≠ [])
    {jobs : List (Job ConfigurationError Slots)} (hjobs : ∀ j ∈ jobs, j ∈ regions.mapIdx job)
    {s : Slots} (hlen : s.slots.length = regions.length) {k : Nat} (hk : k < regions.length)
    (h : job k regions[k] ∈ jobs ∨ s.slots[k]? = some regions[k].records) :
    (after jobs s).slots[k]? = some regions[k].records := by
  induction jobs generalizing s with
  | nil => exact h.resolve_left List.not_mem_nil
  | cons j rest ih =>
    obtain ⟨i, hi, hj, -, hslots⟩ := exists_effect_of_mem hne (hjobs j List.mem_cons_self) s
    show (after rest (j.effect s).2).slots[k]? = _
    refine @ih (fun i hi => hjobs i (List.mem_cons_of_mem _ hi)) (j.effect s).2 ?_ ?_
    · rw [hslots, List.length_set, hlen]
    · rcases h with h | h
      · rcases List.mem_cons.1 h with rfl | h
        · refine Or.inr ?_
          rw [effect_job (hne _ (List.getElem_mem hk))]
          exact List.getElem?_set_self (hlen ▸ hk)
        · exact Or.inl h
      · refine Or.inr ?_
        rw [hslots]
        by_cases hik : i = k
        · subst hik
          exact List.getElem?_set_self (hlen ▸ hk)
        · rw [List.getElem?_set_ne hik]
          exact h

/-- In whatever order the jobs are performed, every place holds the records of its region. -/
theorem slots_after (hne : ∀ r ∈ regions, r.bytes ≠ [])
    {jobs : List (Job ConfigurationError Slots)} (hjobs : jobs.Perm (regions.mapIdx job)) :
    (after jobs ⟨List.replicate regions.length [], []⟩).slots = regions.map records := by
  have hmem : ∀ j ∈ jobs, j ∈ regions.mapIdx job := fun j hj => hjobs.mem_iff.1 hj
  have hlen : (after jobs ⟨List.replicate regions.length [], []⟩).slots.length =
      regions.length := by
    rw [length_slots_after hne hmem, List.length_replicate]
  refine List.ext_getElem? fun k => ?_
  by_cases hk : k < regions.length
  · have hjob : job k regions[k] ∈ regions.mapIdx job := List.mem_mapIdx.2 ⟨k, hk, rfl⟩
    rw [getElem?_slots_after hne hmem List.length_replicate hk (Or.inl (hjobs.mem_iff.2 hjob)),
      List.getElem?_map, List.getElem?_eq_getElem hk]
    rfl
  · rw [List.getElem?_eq_none (by omega), List.getElem?_eq_none (by rw [List.length_map]; omega)]

/-! ## Runs -/

/-- The pool that decodes the regions before anything is asked of it: a job for each region, in
order, and then a flush. -/
def service (threads : Nat) (regions : List Region) : Service ConfigurationError Slots :=
  .start (min threads regions.length) ⟨List.replicate regions.length [], []⟩
    ((regions.mapIdx job).map .enqueue ++ [.flush])

variable {threads : Nat} {events : List (Event ConfigurationError Slots)}
  {s : Service ConfigurationError Slots}

theorem request_of_mem {request : Request ConfigurationError Slots}
    (h : request ∈ (service threads regions).requests) :
    request = .flush ∨ ∃ j ∈ regions.mapIdx job, request = .enqueue j := by
  rcases List.mem_append.1 h with h | h
  · obtain ⟨j, hj, rfl⟩ := List.mem_map.1 h
    exact Or.inr ⟨j, hj, rfl⟩
  · exact Or.inl (List.eq_of_mem_singleton h)

/-- The jobs performed are those of the regions. -/
theorem mem_of_performed (h : Service.Run (service threads regions) events s) :
    ∀ j ∈ events.flatMap Event.performed, j ∈ regions.mapIdx job := by
  refine (h.all (P := (· ∈ regions.mapIdx job)) (fun j hj next hnext => ?_) ⟨?_, ?_, ?_⟩).2
  · obtain ⟨k, hk, rfl⟩ := List.mem_mapIdx.1 hj
    exact nomatch hnext
  · intro j hj
    rcases request_of_mem hj with heq | ⟨i, hi, heq⟩
    · exact nomatch heq
    · cases heq
      exact hi
  · exact fun _ hj => nomatch hj
  · exact fun _ hj => nomatch List.eq_of_mem_replicate hj

theorem filterMap_requests :
    (service threads regions).requests.filterMap Request.job? = regions.mapIdx job := by
  have hjobs : (Request.job? ∘ Request.enqueue : Job ConfigurationError Slots → _) = some := rfl
  show List.filterMap Request.job? (_ ++ _) = _
  rw [List.filterMap_append, List.filterMap_map, hjobs, List.filterMap_some]
  exact List.append_nil _

/-- No flush of the pool answers a failure. -/
theorem answer_eq_none (hne : ∀ r ∈ regions, r.bytes ≠ [])
    (h : Service.Run (service threads regions) events s) {answer : Option ConfigurationError}
    (hanswer : .flush answer ∈ events) : answer = none := by
  refine (h.unfailed (fun j hj store => ?_) ⟨rfl, fun _ hw => ?_⟩).2 answer hanswer
  · obtain ⟨-, -, -, hnone, -⟩ := exists_effect_of_mem hne (mem_of_performed h j hj) store
    exact hnone
  · exact nomatch List.eq_of_mem_replicate hw

/-- Once nothing is left to ask or to do, every place holds the records of its region. -/
theorem slots_eq (hne : ∀ r ∈ regions, r.bytes ≠ [])
    (h : Service.Run (service threads regions) events s) (hrequests : s.requests = [])
    (h0 : s.pool.outstanding = 0) : s.pool.store.slots = regions.map records := by
  have hperm := h.performed_perm hrequests h0 fun j hj => by
    obtain ⟨k, hk, rfl⟩ := List.mem_mapIdx.1 (mem_of_performed h j hj)
    exact further_job k _
  have hall : (service threads regions).requests.filterMap Request.job? = _ := filterMap_requests
  rw [service, Service.start] at hall
  rw [hall] at hperm
  rw [h.store_eq]
  exact slots_after hne hperm

/-! ## The schedule of one worker -/

theorem workers_pool (threads : Nat) (regions : List Region) :
    (pool threads regions).workers =
      .idle :: List.replicate (max (min threads regions.length) 1 - 1) .idle := by
  rw [pool, Pool.foldl_enqueue, ← List.replicate_succ, Nat.sub_add_cancel (Nat.le_max_right _ _)]
  rfl

theorem flush_pool (hne : ∀ r ∈ regions, r.bytes ≠ []) (threads : Nat) :
    (pool threads regions).flush.1 = none ∧
      (pool threads regions).flush.2.store.slots = regions.map records := by
  have hw := workers_pool threads regions
  have hload : (pool threads regions).load = 0 := Pool.load_eq_zero_iff.2 fun x hx => by
    rw [hw, ← List.replicate_succ] at hx
    rw [List.eq_of_mem_replicate hx]
    rfl
  obtain ⟨events, hadd⟩ := Service.run_enqueue (regions.mapIdx job)
    (.ofThreads (min threads regions.length) ⟨List.replicate regions.length [], []⟩) [.flush]
  have hcounted : (pool threads regions).Counted := hadd.counted (Pool.counted_ofThreads _ _)
  obtain ⟨⟨events', hflush, hanswer⟩, h0⟩ := Pool.exists_run_flush hcounted hw hload []
  have hrun : Service.Run (service threads regions) (events ++ events')
      ⟨(pool threads regions).flush.2, []⟩ := hadd.trans hflush
  exact ⟨answer_eq_none hne hrun (List.mem_append_right _ hanswer), slots_eq hne hrun rfl h0⟩

theorem disassemble_of_ne_nil (hne : ∀ r ∈ regions, r.bytes ≠ []) (threads : Nat) :
    disassemble threads regions = .ok ((ordered regions).map records).flatten := by
  have hfind : regions.find? (·.bytes.isEmpty) = none :=
    List.find?_eq_none.2 fun r hr h => hne r hr (List.isEmpty_iff.1 h)
  have hordered : ∀ r ∈ ordered regions, r.bytes ≠ [] :=
    fun r hr => hne r ((perm_ordered regions).mem_iff.1 hr)
  obtain ⟨hanswer, hslots⟩ := flush_pool hordered threads
  unfold disassemble perform
  rw [hfind]
  dsimp only
  split
  · next e p hflush =>
    rw [hflush] at hanswer
    exact nomatch hanswer
  · next p hflush =>
    rw [hflush] at hslots
    dsimp only
    rw [hslots]

/-- A region without bytes is refused, with a message that names one, and nothing is decoded. -/
theorem perform_of_mem {r : Region} (hr : r ∈ regions) (h : r.bytes = []) (threads : Nat) :
    ∃ q ∈ regions, q.bytes = [] ∧
      perform threads regions = ⟨.error .emptyBuffer, [q.emptyNote], []⟩ := by
  obtain ⟨q, hq⟩ := Option.isSome_iff_exists.1
    ((List.find?_isSome (p := fun q : Region => q.bytes.isEmpty)).2 ⟨r, hr, List.isEmpty_iff.2 h⟩)
  have hempty := List.find?_some hq
  refine ⟨q, List.mem_of_find?_eq_some hq, List.isEmpty_iff.1 hempty, ?_⟩
  unfold perform
  rw [hq]

/-! ## Every schedule -/

theorem potential_service (threads : Nat) (regions : List Region) :
    (service threads regions).potential =
      4 * regions.length + max (min threads regions.length) 1 + 2 := by
  have hjobs : ((regions.mapIdx job).map fun j => 3 * j.weight + 1) =
      List.replicate regions.length 4 := by
    refine List.eq_replicate_iff.2 ⟨by rw [List.length_map, List.length_mapIdx], fun n hn => ?_⟩
    obtain ⟨j, hj, rfl⟩ := List.mem_map.1 hn
    obtain ⟨k, hk, rfl⟩ := List.mem_mapIdx.1 hj
    rfl
  unfold Service.potential service Service.start Pool.ofThreads
  simp [Function.comp_def, hjobs, Request.potential, Job.weightOfAll, Worker.potential]
  omega

/-- **The schedule does not matter.** The listing of several regions is the records of each, the
regions sorted stably by address. Whatever the workers do in which order, they come to an end, no
flush fails, and what they leave is this listing. If a region is empty nothing is decoded. -/
theorem disassemble_schedule_independent (threads : Nat) (regions : List Region) :
    ((ordered regions).Perm regions ∧
      (ordered regions).Pairwise (fun a b => a.context.base ≤ b.context.base) ∧
      ∀ base, (ordered regions).filter (·.context.base = base) =
        regions.filter (·.context.base = base)) ∧
    disassemble threads regions = ((ordered regions).mapM decoded).map List.flatten ∧
    ((∀ r ∈ regions, r.bytes ≠ []) → ∀ events s,
      Service.Run (service threads (ordered regions)) events s →
        (∀ answer, .flush answer ∈ events → answer = none) ∧
        (s.Done → disassemble threads regions = .ok s.pool.store.slots.flatten) ∧
        events.length ≤ 4 * regions.length + max (min threads regions.length) 1 + 2 ∧
        ∃ events' t, Service.Run s events' t ∧ t.Done) ∧
    ((∃ r ∈ regions, r.bytes = []) → ∃ r ∈ regions, r.bytes = [] ∧
      perform threads regions = ⟨.error .emptyBuffer, [r.emptyNote], []⟩) := by
  refine ⟨⟨perm_ordered regions, pairwise_ordered regions, filter_ordered regions⟩, ?_, ?_, ?_⟩
  · by_cases hne : ∀ r ∈ regions, r.bytes ≠ []
    · rw [disassemble_of_ne_nil hne,
        mapM_decoded fun r hr => hne r ((perm_ordered regions).mem_iff.1 hr)]
      rfl
    · simp only [not_forall, not_not] at hne
      obtain ⟨r, hr, hnil⟩ := hne
      obtain ⟨q, -, -, hperform⟩ := perform_of_mem hr hnil threads
      rw [disassemble, hperform, mapM_decoded_of_mem ((perm_ordered regions).mem_iff.2 hr) hnil]
      rfl
  · intro hne events s hrun
    have hordered : ∀ r ∈ ordered regions, r.bytes ≠ [] :=
      fun r hr => hne r ((perm_ordered regions).mem_iff.1 hr)
    have hlive := hrun.live (Service.live_start _ _ _)
    refine ⟨fun answer hanswer => answer_eq_none hordered hrun hanswer, fun hdone => ?_, ?_,
      hlive.exists_done⟩
    · have h0 := hlive.outstanding_of_done hdone
      rw [disassemble_of_ne_nil hne, slots_eq hordered hrun hdone.1 h0]
    · have hlength := hrun.length_le
      rw [potential_service, (perm_ordered regions).length_eq] at hlength
      omega
  · rintro ⟨r, hr, hnil⟩
    exact perform_of_mem hr hnil threads

/-- Two workers for three regions, two of which stand at one address: some run comes to its end,
with the listing. With an empty region beside them there is none. -/
theorem disassemble_schedule_independent_overlapping :
    let a : Region := ⟨[0x90, 0xc3], ⟨.m64, 0x2000⟩, "a"⟩
    let b : Region := ⟨[0x0f, 0x05], ⟨.m64, 0x1000⟩, "b"⟩
    let c : Region := ⟨[0xcc], ⟨.m16, 0x1000⟩, "c"⟩
    (∃ events t, Service.Run (service 2 (ordered [a, b, c])) events t ∧ t.Done ∧
        disassemble 2 [a, b, c] = .ok t.pool.store.slots.flatten) ∧
      ∃ r ∈ [a, ⟨[], {}, "d"⟩, b], r.bytes = [] ∧
        perform 2 [a, ⟨[], {}, "d"⟩, b] = ⟨.error .emptyBuffer, [r.emptyNote], []⟩ := by
  intro a b c
  have hne : ∀ r ∈ [a, b, c], r.bytes ≠ [] := by decide
  have hempty : ∃ r ∈ [a, ⟨[], {}, "d"⟩, b], r.bytes = [] :=
    ⟨⟨[], {}, "d"⟩, List.mem_cons_of_mem _ List.mem_cons_self, rfl⟩
  obtain ⟨-, -, hruns, -⟩ := disassemble_schedule_independent 2 [a, b, c]
  obtain ⟨-, -, -, hrefused⟩ := disassemble_schedule_independent 2 [a, ⟨[], {}, "d"⟩, b]
  obtain ⟨-, -, -, events, t, hrun, hdone⟩ := hruns hne [] _ .refl
  exact ⟨⟨events, t, hrun, hdone, (hruns hne events t hrun).2.1 hdone⟩, hrefused hempty⟩

end Region

end Disasm
