import Rewards.Proofs.Pipeline.SingleFlight

/-!
# Lost jobs

A number is released by the party that has its job. A call that is dropped takes its job along, and
so does a worker who crashes or is aborted, and then nobody is left to release the number: it is
tracked for good, and every call that brings it is turned away. The main statement,
`stranded_iff_lost`, says that these are the only numbers that are tracked without a job. So as long
as no job is lost, the tracked numbers are those that have one.
-/

namespace Rewards.Pipeline

/-- Steps one after the other, with the numbers whose jobs are lost in them. -/
inductive LossyRun (start : World) : List OrderNumber → World → Prop where
  | nil : LossyRun start [] start
  | concat {lost : List OrderNumber} {events : List Event} {s t : World} {action : Action} :
      LossyRun start lost s → LateStep s action events t →
      LossyRun start (lost ++ s.lostBy action) t

variable {s t : World} {lost gone : List OrderNumber}

/-- No number has two jobs, every number that has a job is tracked, and the tracked numbers without
a job are those whose jobs are lost. -/
structure World.Traced (s : World) (lost : List OrderNumber) : Prop where
  single : s.Single
  stranded : ∀ number, number ∈ s.tracked ∧ s.jobsOf number = 0 ↔ number ∈ lost

/-- Before anything happens no job is lost. -/
theorem World.traced_of_capacity (capacity : Nat) : (World.ofCapacity capacity).Traced [] where
  single := World.single_of_capacity capacity
  stranded _ := ⟨fun h => h.1, fun h => nomatch h⟩

/-- What has an account adds the jobs that it loses to those that are lost. -/
theorem Account.traced (h : Account s t gone) (hs : s.Traced lost) : t.Traced (lost ++ gone) where
  single := h.single hs.single
  stranded number := by
    have hone := hs.single.once number
    have hjob := hs.single.tracked number
    rw [List.mem_append, ← hs.stranded number]
    rcases h.jobs number with
      ⟨hkept, hjobs, htracked⟩ | ⟨hkept, hjobs, hnew, _⟩ | ⟨hkept, hjobs, hreleased⟩ |
      ⟨hgone, hjobs, htracked⟩
    · simp only [hkept, hjobs, htracked, or_false]
    · -- A job has begun, so the number was not tracked before and has a job now.
      simp only [hkept, hjobs, hnew, Nat.succ_ne_zero, and_false, false_and, or_false]
    · -- The only job has ended, and the number has been released.
      have hbefore : s.jobsOf number ≠ 0 := by omega
      simp only [hkept, hreleased, hbefore, and_false, false_and, or_false]
    · have hnone : t.jobsOf number = 0 := by omega
      have hbefore : number ∈ s.tracked := hjob (by omega)
      simp only [hgone, hnone, htracked, hbefore, or_true, and_self]

/-- A step loses the jobs of `World.lostBy` and no other, whatever its party sees of the flags. -/
theorem late_step_traced (hs : s.Traced lost) {action : Action} {events : List Event}
    (h : LateStep s action events t) : t.Traced (lost ++ s.lostBy action) := by
  cases h with
  | now hstep => exact (step_account hs.single.distinct hstep).traced hs
  | late isOpen isCancelled hstep =>
      have hflags : (s.withFlags isOpen isCancelled).Traced lost :=
        ⟨⟨hs.single.distinct, hs.single.once, hs.single.tracked⟩, hs.stranded⟩
      have hlater := (step_account hflags.single.distinct hstep).traced hflags
      exact ⟨⟨hlater.single.distinct, hlater.single.once, hlater.single.tracked⟩, hlater.stranded⟩

/-- In every run the tracked numbers without a job are those whose jobs are lost. -/
theorem LossyRun.traced {capacity : Nat} (h : LossyRun (.ofCapacity capacity) lost s) :
    s.Traced lost := by
  induction h with
  | nil => exact World.traced_of_capacity capacity
  | concat _ hstep ih => exact late_step_traced ih hstep

/-- A call that brings an order is turned away exactly if the number is tracked. -/
theorem State.enqueue_eq_none_iff (p : State) (id : Nat) (order : Order) :
    (p.enqueue id order).2 = none ↔ order.number ∈ p.queue.tracked := by
  unfold State.enqueue Queue.isTracked
  split
  · rename_i htracked
    simpa using htracked
  · rename_i hfree
    simpa using hfree

/-- In every run, however late the parties see the flags: a number is tracked exactly if it has a
job or its job is lost. A number whose job is lost never has one again. So the calls that are
turned away are those that bring a number with a job, and those that bring a number whose job is
lost. -/
theorem stranded_iff_lost {capacity : Nat} {lost : List OrderNumber} {s : World}
    (h : LossyRun (.ofCapacity capacity) lost s) :
    (∀ number, number ∈ s.tracked ↔ s.jobsOf number = 1 ∨ number ∈ lost) ∧
    (∀ number ∈ lost, s.jobsOf number = 0) ∧
    (∀ (id : Nat) (order : Order), (s.pipeline.enqueue id order).2 = none ↔
      s.jobsOf order.number = 1 ∨ order.number ∈ lost) := by
  have htraced := h.traced
  have htracked (number : OrderNumber) :
      number ∈ s.tracked ↔ s.jobsOf number = 1 ∨ number ∈ lost := by
    have hone := htraced.single.once number
    constructor
    · intro hnumber
      by_cases hnone : s.jobsOf number = 0
      · exact .inr ((htraced.stranded number).mp ⟨hnumber, hnone⟩)
      · exact .inl (by omega)
    · rintro (hjob | hlost)
      · exact htraced.single.tracked number (by omega)
      · exact ((htraced.stranded number).mpr hlost).1
  refine ⟨htracked, fun number hlost => ((htraced.stranded number).mpr hlost).2, ?_⟩
  intro id order
  rw [State.enqueue_eq_none_iff]
  exact htracked order.number

/-- Another new order. -/
def secondOrder : Order := Order.upload ⟨"26", by decide⟩ default default

/-- A call queues an order, and a second one waits for room with another order and is dropped: the
second number is tracked because its job is lost, and the first one because it has a job. -/
theorem stranded_iff_lost_waiting :
    ∃ (lost : List OrderNumber) (s : World),
      LossyRun (.ofCapacity 1) lost s ∧ lost = [secondOrder.number] ∧
      s.jobsOf secondOrder.number = 0 ∧ secondOrder.number ∈ s.tracked ∧
      s.jobsOf newOrder.number = 1 ∧ (s.pipeline.enqueue 3 newOrder).2 = none := by
  have hstart : LossyRun (.ofCapacity 1) [] (.ofCapacity 1) := .nil
  have hfirst := hstart.concat (.now (.arrive 1 newOrder rfl (by decide +kernel)))
  have hqueued := hfirst.concat (.now (.offer ⟨1, newOrder⟩ _ _ (by decide +kernel) rfl))
  have hsecond := hqueued.concat (.now (.arrive 2 secondOrder rfl (by decide +kernel)))
  have hwaiting := hsecond.concat
    (.now (.offer ⟨2, secondOrder⟩ _ _ (by decide +kernel) rfl))
  have hdropped := hwaiting.concat
    (.now (.dropCall ⟨2, secondOrder⟩ (by decide +kernel) (by decide +kernel)))
  obtain ⟨htracked, hnone, hturned⟩ := stranded_iff_lost hdropped
  refine ⟨_, _, hdropped, by decide +kernel, ?_, ?_, ?_, ?_⟩
  · exact hnone secondOrder.number (by decide +kernel)
  · exact (htracked secondOrder.number).mpr (.inr (by decide +kernel))
  · decide +kernel
  · exact (hturned 3 newOrder).mpr (.inl (by decide +kernel))

/-- A call waits for room and is dropped, and the worker who attempts the order in the buffer
crashes. Both numbers are tracked, none has a job, and later calls are turned away. -/
theorem dropped_call_stays_tracked :
    ∃ (actions : List Action) (log : List Event) (s : World),
      Run LateStep (.ofCapacity 1) actions log s ∧
      s.pipeline.queue.isOpen = true ∧ s.pipeline.isCancelled = false ∧
      s.tracked = [secondOrder.number, newOrder.number] ∧
      s.jobsOf secondOrder.number = 0 ∧ s.jobsOf newOrder.number = 0 ∧
      (s.pipeline.enqueue 3 secondOrder).2 = none ∧ (s.pipeline.enqueue 3 newOrder).2 = none := by
  have hstart : Run LateStep (.ofCapacity 1) [] [] (.ofCapacity 1) := .nil
  have hworker := hstart.concat (.now (.addWorker 7 rfl))
  have hfirst := hworker.concat (.now (.arrive 1 newOrder rfl (by decide +kernel)))
  have hqueued := hfirst.concat (.now (.offer ⟨1, newOrder⟩ _ _ (by decide +kernel) rfl))
  have hsecond := hqueued.concat (.now (.arrive 2 secondOrder rfl (by decide +kernel)))
  have hwaiting := hsecond.concat
    (.now (.offer ⟨2, secondOrder⟩ _ _ (by decide +kernel) rfl))
  have hdropped := hwaiting.concat
    (.now (.dropCall ⟨2, secondOrder⟩ (by decide +kernel) (by decide +kernel)))
  have hreceived := hdropped.concat (.now (.receive 7 newOrder [] rfl rfl rfl))
  have hcrashed := hreceived.concat (.now (.crash 7 newOrder rfl))
  refine ⟨_, _, _, hcrashed, rfl, rfl, ?_, ?_, ?_, ?_, ?_⟩
  all_goals decide +kernel

end Rewards.Pipeline
