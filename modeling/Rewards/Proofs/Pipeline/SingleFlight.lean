import Mathlib.Data.List.Basic
import Rewards.Proofs.Pipeline.Calls

/-!
# Single flight

No number ever has two jobs, and every number that has one is tracked. So attempts on one number
never overlap, and of the calls that bring one number only one returns that the order is queued
before the number is released. All of it holds whatever the parties see of the two flags of the
pipeline, also if a party acts on what it has seen of them some time before. The main statement is
`single_flight`.
-/

namespace Rewards.Pipeline

/-- The same world with other flags. -/
def World.withFlags (s : World) (isOpen isCancelled : Bool) : World :=
  { s with
    pipeline :=
      { s.pipeline with
        queue := { s.pipeline.queue with isOpen := isOpen },
        isCancelled := isCancelled } }

/-- A step of a party that sees the flags as they are, or one of a party that takes them for what
they need not be any more. -/
inductive LateStep (s : World) : Action → List Event → World → Prop where
  | now {action : Action} {events : List Event} {t : World} :
      Step s action events t → LateStep s action events t
  | late {action : Action} {events : List Event} {t : World} (isOpen isCancelled : Bool) :
      Step (s.withFlags isOpen isCancelled) action events t →
      LateStep s action events (t.withFlags s.pipeline.queue.isOpen s.pipeline.isCancelled)

variable {s t : World}

/-- No party has two jobs for a number, whatever it sees of the flags. -/
theorem late_step_single (hs : s.Single) {action : Action} {events : List Event}
    (h : LateStep s action events t) : t.Single := by
  cases h with
  | now hstep => exact (step_account hs.distinct hstep).single hs
  | late isOpen isCancelled hstep =>
      have hflags : (s.withFlags isOpen isCancelled).Single := ⟨hs.distinct, hs.once, hs.tracked⟩
      have hlater := (step_account hflags.distinct hstep).single hflags
      exact ⟨hlater.distinct, hlater.once, hlater.tracked⟩

/-- What a step does to the calls does not depend on the flags. -/
theorem late_step_calls (hs : s.Distinct) (hcalling : s.Calling) {action : Action}
    {events : List Event} (h : LateStep s action events t) : Calls s events t := by
  cases h with
  | now hstep => exact step_calls hs hcalling hstep
  | late isOpen isCancelled hstep =>
      have hlater := step_calls (s := s.withFlags isOpen isCancelled) hs hcalling hstep
      exact ⟨hlater.bringing, hlater.calling, hlater.queued⟩

/-! ## The log -/

/-- What a call returns whose order is queued. -/
abbrev queuedBy (id : Nat) (number : OrderNumber) : Event := .returned id number (.ok .queued)

/-- A call has returned that its order is queued, and the number has not been released since. -/
def Pending (log : List Event) (number : OrderNumber) : Prop :=
  ∃ before id later, log = before ++ queuedBy id number :: later ∧ .released number ∉ later

/-- An event of two logs in a row is in the second one or in the first one. -/
theorem append_eq_append_cons {log events before later : List Event} {event : Event}
    (h : log ++ events = before ++ event :: later) :
    (∃ front, before = log ++ front ∧ events = front ++ event :: later) ∨
    (∃ back, log = before ++ event :: back ∧ later = back ++ events) := by
  rcases List.append_eq_append_iff.mp h with ⟨front, hbefore, hevents⟩ | ⟨back, hlog, hlater⟩
  · exact .inl ⟨front, hbefore, hevents⟩
  · cases back with
    | nil => exact .inl ⟨[], by simpa using hlog.symm, by simpa using hlater.symm⟩
    | cons first back =>
        obtain ⟨rfl, rfl⟩ := List.cons.inj hlater
        exact .inr ⟨back, hlog, rfl⟩

/-- What is pending is so because of the last events or has been so before them. -/
theorem pending_append {log events : List Event} {number : OrderNumber}
    (h : Pending (log ++ events) number) :
    (∃ id, queuedBy id number ∈ events) ∨ (Pending log number ∧ .released number ∉ events) := by
  obtain ⟨before, id, later, heq, hkept⟩ := h
  rcases append_eq_append_cons heq with ⟨front, _, rfl⟩ | ⟨back, hlog, rfl⟩
  · exact .inl ⟨id, List.mem_append_right _ (List.mem_cons_self ..)⟩
  · rw [List.mem_append, not_or] at hkept
    exact .inr ⟨⟨before, id, back, hlog, hkept.1⟩, hkept.2⟩

/-- A number that is no longer tracked can be seen to be released. -/
theorem mem_released_until {number : OrderNumber} (hbefore : number ∈ s.tracked)
    (hafter : number ∉ t.tracked) : .released number ∈ s.releasedUntil t :=
  List.mem_map_of_mem (List.mem_filter.mpr ⟨hbefore, by simpa using hafter⟩)

/-- No call returns among the releases. -/
theorem not_mem_released_until {id : Nat} {number : OrderNumber} :
    queuedBy id number ∉ s.releasedUntil t := by
  intro h
  obtain ⟨other, _, heq⟩ := List.mem_map.mp h
  cases heq

/-- What holds of a run: single flight, every call that goes on is bringing an order, a number whose
order is queued remains tracked and is brought by nobody until it is released, and no call returns
that an order is queued that already is. -/
structure Flight (log : List Event) (s : World) : Prop where
  single : s.Single
  calling : s.Calling
  pending : ∀ number, Pending log number → number ∈ s.tracked ∧ ¬ s.Bringing number
  once : ∀ before id number later, log = before ++ queuedBy id number :: later →
    ¬ Pending before number

/-- Before anything happens nothing is queued. -/
theorem flight_of_capacity (capacity : Nat) : Flight [] (.ofCapacity capacity) where
  single := World.single_of_capacity capacity
  calling _ h := nomatch h
  pending number h := by
    obtain ⟨before, id, later, heq, _⟩ := h
    simp at heq
  once before id number later heq := by simp at heq

/-- A step keeps a run in single flight. -/
theorem Flight.step {log : List Event} (h : Flight log s) {action : Action} {events : List Event}
    (hstep : LateStep s action events t) : Flight (log ++ (s.releasedUntil t ++ events)) t := by
  have hsingle := late_step_single h.single hstep
  have hcalls := late_step_calls h.single.distinct h.calling hstep
  refine ⟨hsingle, hcalls.calling, ?_, ?_⟩
  · intro number hpending
    rcases pending_append hpending with ⟨id, hqueued⟩ | ⟨hpending, hkept⟩
    · -- The order has just been put into the buffer.
      rcases List.mem_append.mp hqueued with hqueued | hqueued
      · exact absurd hqueued not_mem_released_until
      · obtain ⟨_, _, order, hbuffer, rfl⟩ := hcalls.queued id number hqueued
        exact ⟨hsingle.tracked_of_mem_buffer hbuffer, hsingle.not_bringing hbuffer⟩
    · obtain ⟨htracked, hbringing⟩ := h.pending number hpending
      refine ⟨?_, fun hnow => ?_⟩
      · by_contra hreleased
        exact hkept (List.mem_append_left _ (mem_released_until htracked hreleased))
      · rcases hcalls.bringing number hnow with hbefore | hnew
        · exact hbringing hbefore
        · exact hnew htracked
  · intro before id number later heq hpending
    rcases append_eq_append_cons heq with ⟨front, rfl, hnew⟩ | ⟨back, hlog, _⟩
    · have hmem : queuedBy id number ∈ s.releasedUntil t ++ events := by
        rw [hnew]
        exact List.mem_append_right _ (List.mem_cons_self ..)
      have hqueued := (List.mem_append.mp hmem).resolve_left not_mem_released_until
      obtain ⟨hevents, hbringing, _⟩ := hcalls.queued id number hqueued
      rcases pending_append hpending with ⟨other, hother⟩ | ⟨hold, _⟩
      · -- In front of the only return of the step there are only releases.
        rw [hevents] at hnew
        rcases append_eq_append_cons hnew with ⟨rest, rfl, hrest⟩ | ⟨back, hreleased, _⟩
        · rcases List.mem_append.mp hother with hother | hother
          · exact not_mem_released_until hother
          · cases rest with
            | nil => cases hother
            | cons first rest => simp at hrest
        · have hmem : queuedBy id number ∈ s.releasedUntil t := by
            rw [hreleased]
            exact List.mem_append_right _ (List.mem_cons_self ..)
          exact not_mem_released_until hmem
      · exact (h.pending number hold).2 hbringing
    · exact h.once before id number back hlog hpending

/-- Every run is in single flight. -/
theorem flight_of_run {capacity : Nat} {actions : List Action} {log : List Event} {s : World}
    (h : Run LateStep (.ofCapacity capacity) actions log s) : Flight log s := by
  induction h with
  | nil => exact flight_of_capacity capacity
  | concat _ hstep ih => exact ih.step hstep

/-- Two workers who attempt orders with the same number are the same worker. -/
theorem World.Single.attempts_apart (h : s.Single) {i j : Nat} {first second : Order}
    (hi : (i, .attempting first) ∈ s.pipeline.workers)
    (hj : (j, .attempting second) ∈ s.pipeline.workers)
    (hnumber : first.number = second.number) : i = j := by
  have hone : s.pipeline.workers.countP (Party.hasOrder first.number ∘ .ofWorker) ≤ 1 := by
    have hjobs := h.once first.number
    rw [World.jobsOf, World.tally_eq, State.tally_eq] at hjobs
    omega
  rw [List.countP_eq_length_filter] at hone
  have hmem (k : Nat) (order : Order) (hk : (k, .attempting order) ∈ s.pipeline.workers)
      (hsame : order.number = first.number) : (k, .attempting order) ∈
        s.pipeline.workers.filter (Party.hasOrder first.number ∘ .ofWorker) := by
    refine List.mem_filter.mpr ⟨hk, ?_⟩
    simp [Party.ofWorker, Activity.order?, hsame]
  have hfirst := hmem i first hi rfl
  have hsecond := hmem j second hj hnumber.symm
  obtain ⟨worker, hworker⟩ := List.length_eq_one_iff.mp
    (Nat.le_antisymm hone (List.length_pos_of_mem hfirst))
  rw [hworker, List.mem_singleton] at hfirst hsecond
  have hsame := hfirst.trans hsecond.symm
  cases hsame
  rfl

/-- In every run, however late the parties see the flags: no number has two jobs. Every number that
has a job is tracked. Attempts on one number do not overlap. Between two returns that an order with
the number is queued, the number is released. -/
theorem single_flight {capacity : Nat} {actions : List Action} {log : List Event} {s : World}
    (h : Run LateStep (.ofCapacity capacity) actions log s) :
    (∀ number, s.jobsOf number ≤ 1) ∧
    (∀ number, 0 < s.jobsOf number → number ∈ s.tracked) ∧
    (∀ (i j : Nat) (first second : Order), (i, .attempting first) ∈ s.pipeline.workers →
      (j, .attempting second) ∈ s.pipeline.workers → first.number = second.number → i = j) ∧
    (∀ (before middle later : List Event) (i j : Nat) (number : OrderNumber),
      log = before ++ queuedBy i number :: (middle ++ queuedBy j number :: later) →
      .released number ∈ middle) := by
  have hflight := flight_of_run h
  refine ⟨hflight.single.once, hflight.single.tracked, ?_, ?_⟩
  · intro i j first second hi hj hnumber
    exact hflight.single.attempts_apart hi hj hnumber
  · intro before middle later i j number hlog
    by_contra hkept
    refine hflight.once (before ++ queuedBy i number :: middle) j number later ?_
      ⟨before, i, middle, rfl, hkept⟩
    rw [hlog]
    simp

/-- A new order. -/
def newOrder : Order := Order.upload ⟨"18", by decide⟩ default default

/-- A call queues an order, a second call finds its number tracked, and a third one queues it again
after a worker has succeeded with it: the number has been released in between. -/
theorem single_flight_again :
    ∃ (actions : List Action) (log : List Event) (s : World),
      Run LateStep (.ofCapacity 1) actions log s ∧
      log = queuedBy 1 newOrder.number ::
        ([.returned 2 newOrder.number (.ok .alreadyTracked), .released newOrder.number] ++
          queuedBy 3 newOrder.number :: []) ∧
      Event.released newOrder.number ∈
        [Event.returned 2 newOrder.number (.ok .alreadyTracked), .released newOrder.number] := by
  have hstart : Run LateStep (.ofCapacity 1) [] [] (.ofCapacity 1) := .nil
  have hworker := hstart.concat (.now (.addWorker 7 rfl))
  have harrived := hworker.concat (.now (.arrive 1 newOrder rfl (by decide +kernel)))
  have hqueued := harrived.concat
    (.now (.offer ⟨1, newOrder⟩ _ _ (by decide +kernel) rfl))
  have hturned := hqueued.concat (.now (.turnAway 2 newOrder (by decide +kernel)))
  have hreceived := hturned.concat (.now (.receive 7 newOrder [] rfl rfl rfl))
  have hsucceeded := hreceived.concat (.now (.succeed 7 newOrder rfl))
  have hreturned := hsucceeded.concat (.now (.arrive 3 newOrder rfl (by decide +kernel)))
  have hagain := hreturned.concat
    (.now (.offer ⟨3, newOrder⟩ _ _ (by decide +kernel) rfl))
  refine ⟨_, _, _, hagain, ?_, ?_⟩
  · cbv
  · exact (single_flight hagain).2.2.2 [] _ [] 1 3 newOrder.number (by cbv)

end Rewards.Pipeline
