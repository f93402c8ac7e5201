import Rewards.Proofs.Pipeline.Losses
import Rewards.Proofs.Pipeline.Places

/-!
# No job is lost and none is doubled

As long as there is no shutdown, no call is dropped, and no worker crashes or is aborted, a job that
the queue has accepted stays in one of its places until an attempt succeeds or fails for good. A
`Hop` says what a step does to the places and to the counters. The main statement,
`jobs_conserved`, is that what has been accepted is what is done and what is still in a place, and
that the counters tell how many attempts there have been and how they ended.
-/

namespace Rewards.Pipeline

/-- The step is part of an orderly run: no call is dropped, no worker crashes or is aborted, and the
queue is neither stopped nor shut down. -/
def Action.isOrderly : Action → Bool
  | .dropCall _ | .crash _ | .abort _ | .stop | .cancel => false
  | _ => true

/-- A call returns that its order is queued. -/
def Event.isQueued : Event → Bool
  | .returned _ _ (.ok .queued) => true
  | _ => false

/-- What the queue has counted. -/
def World.counters (s : World) : Counters := s.pipeline.queue.counters

/-! ## Hops -/

/-- How a job passes from one place to another, and what is counted then: a worker receives it, is
to make another attempt later or has taken too long, pauses with it, attempts it again after the
pause or puts it back, or a retry brings it back. -/
inductive Passage : Place → Place → (Counters → Counters) → Prop where
  | receive : Passage .buffer .attempt fun c => { c with processed := c.processed + 1 }
  | retryLater : Passage .attempt .retry fun c => { c with retried := c.retried + 1 }
  | expire : Passage .attempt .retry fun c =>
      { c with timedOut := c.timedOut + 1, retried := c.retried + 1 }
  | pause : Passage .attempt .pause fun c => { c with paused := c.paused + 1 }
  | attemptAgain : Passage .pause .attempt fun c => { c with processed := c.processed + 1 }
  | putBack : Passage .pause .buffer id
  | bringBack : Passage .retry .buffer id

/-- What an orderly step does to the places and to the counters: nothing, a job is accepted, passes
from one place to another, or is done. -/
inductive Hop (s t : World) : List Event → Prop where
  | stay (events : List Event) :
      (events = [] ∨ ∃ id number, events = [.returned id number (.ok .alreadyTracked)]) →
      (∀ place q, t.count place q = s.count place q) → t.counters = s.counters → Hop s t events
  | accept (id : Nat) (order : Order) :
      (∀ place q, t.count place q = s.count place q + Place.part .buffer place (q order)) →
      t.counters = s.counters → Hop s t [queuedBy id order.number]
  | pass (source target : Place) (counted : Counters → Counters) (order : Order) :
      Passage source target counted →
      (∀ place q, t.count place q + Place.part source place (q order) =
        s.count place q + Place.part target place (q order)) →
      t.counters = counted s.counters → Hop s t []
  | succeed (order : Order) :
      (∀ place q, t.count place q + Place.part .attempt place (q order) = s.count place q) →
      t.counters = { s.counters with succeeded := s.counters.succeeded + 1 } → Hop s t []
  | fail (order : Order) :
      (∀ place q, t.count place q + Place.part .attempt place (q order) = s.count place q) →
      t.counters = { s.counters with failed := s.counters.failed + 1 } → Hop s t []

/-- What holds of an orderly run: the queue is open, there is no shutdown, no job is lost, and every
call that has not brought its order yet goes on. -/
structure World.Orderly (s : World) : Prop where
  isOpen : s.pipeline.queue.isOpen = true
  notCancelled : s.pipeline.isCancelled = false
  traced : s.Traced []
  calling : s.Calling
  expected : ∀ sender ∈ s.arriving, sender.id ∈ s.calls

/-- Before anything happens all is in order. -/
theorem World.orderly_of_capacity (capacity : Nat) : (World.ofCapacity capacity).Orderly where
  isOpen := rfl
  notCancelled := rfl
  traced := World.traced_of_capacity capacity
  calling _ h := nomatch h
  expected _ h := nomatch h

/-! ## Workers -/

namespace State

variable {p : State} (calls : List Nat) (place : Place) (q : Order → Bool) {id : Nat}

@[simp] theorem any_idle (place : Place) (q : Order → Bool) :
    ((Activity.idle.orderIn place).any q).toNat = 0 := by
  cases place <;> rfl

@[simp] theorem any_attempting (place : Place) (q : Order → Bool) (order : Order) :
    (((Activity.attempting order).orderIn place).any q).toNat =
      Place.part .attempt place (q order) := by
  cases place <;> rfl

@[simp] theorem any_pausing (place : Place) (q : Order → Bool) (order : Order) :
    (((Activity.pausing order).orderIn place).any q).toNat =
      Place.part .pause place (q order) := by
  cases place <;> rfl

/-- A worker who gives an order up has none. -/
theorem count_finish {activity : Activity} (hfound : p.activity? id = some activity)
    (hunique : p.tally (Party.isCalled id) ≤ 1) (order : Order) :
    (p.finish id order).count calls place q + ((activity.orderIn place).any q).toNat =
      p.count calls place q := by
  have hidle := count_set_activity (p := p.onQueue (·.release order.number)) calls place q hfound
    hunique .idle
  rw [any_idle] at hidle
  exact hidle

/-- A worker who starts an attempt has its order. -/
theorem count_start_attempt {activity : Activity} (hfound : p.activity? id = some activity)
    (hunique : p.tally (Party.isCalled id) ≤ 1) (order : Order) :
    (p.startAttempt id order).count calls place q + ((activity.orderIn place).any q).toNat =
      p.count calls place q + Place.part .attempt place (q order) := by
  have hstart := count_set_activity
    (p := p.onQueue (·.count fun c => { c with processed := c.processed + 1 })) calls place q hfound
    hunique (.attempting order)
  rw [any_attempting] at hstart
  exact hstart

/-- A retry takes over the order of an attempt. -/
theorem count_retry_later {order : Order} (hfound : p.activity? id = some (.attempting order))
    (hunique : p.tally (Party.isCalled id) ≤ 1) (retry : Nat) :
    (p.retryLater id order retry).count calls place q + Place.part .attempt place (q order) =
      p.count calls place q + Place.part .retry place (q order) := by
  have hidle := count_set_activity calls place q hfound hunique .idle
  have hadd : (p.retryLater id order retry).count calls place q =
      ((p.setActivity id .idle).onQueue
        (·.count fun c => { c with retried := c.retried + 1 })).count calls place q +
        Place.part .retry place (q order) := count_add_retry calls place q retry order
  have hcounted : ((p.setActivity id .idle).onQueue
      (·.count fun c => { c with retried := c.retried + 1 })).count calls place q =
        (p.setActivity id .idle).count calls place q := by
    cases place <;> rfl
  rw [any_attempting, any_idle] at hidle
  omega

end State

/-! ## Steps as hops -/

variable {s t : World}

/-- Somebody in line is nobody who is on the way to the queue. -/
theorem World.Distinct.waiting_ne_arriving (h : s.Distinct) {x y : Sender} (hx : x ∈ s.arriving)
    (hy : y ∈ s.pipeline.queue.waiting) : y.id ≠ x.id := by
  intro hsame
  have harriving : 0 < s.arriving.countP (Party.isCalled x.id ∘ .ofSender) :=
    List.countP_pos_iff.mpr ⟨x, hx, by simp [Party.ofSender]⟩
  have hwaiting : 0 < s.pipeline.queue.waiting.countP (Party.isCalled x.id ∘ .ofSender) :=
    List.countP_pos_iff.mpr ⟨y, hy, by simp [Party.ofSender, hsame]⟩
  have hone := h x.id
  rw [World.partiesOf, World.tally_eq, State.tally_eq] at hone
  omega

/-- An attempt begins with the first order of the buffer. -/
theorem receive_hop (h : s.Distinct) {id : Nat} {order : Order} {rest : List Order}
    (hfound : s.pipeline.activity? id = some .idle)
    (hbuffer : s.pipeline.queue.buffer = order :: rest) :
    Hop s (s.onPipeline (·.receive id)) [] := by
  rw [World.onPipeline, State.receive_eq hbuffer]
  refine .pass .buffer .attempt _ order .receive (fun place q => ?_) rfl
  have hstart := State.count_start_attempt
    (p := s.pipeline.onQueue fun queue => { queue with buffer := rest }) s.calls place q hfound
    (State.unique_take hbuffer (h.pipeline id)) order
  have htake := State.count_take s.calls place q hbuffer
  rw [State.any_idle] at hstart
  simp only [World.count_eq]
  omega

/-- A worker whose pause ends puts the order back, or attempts it again if the buffer is full. -/
theorem end_pause_hop (h : s.Orderly) {id : Nat} {order : Order}
    (hfound : s.pipeline.activity? id = some (.pausing order)) :
    Hop s (s.onPipeline (·.resumePause id order)) [] := by
  have hunique := h.traced.single.distinct.pipeline id
  rw [World.onPipeline]
  rcases State.resume_pause_cases s.pipeline id order with ⟨hend, _⟩ | ⟨_, _, heq⟩ | ⟨_, _, heq⟩
  · rw [h.isOpen] at hend
    cases hend
  · rw [heq]
    refine .pass .pause .buffer _ order .putBack (fun place q => ?_) rfl
    have hpush := State.count_push (p := s.pipeline) s.calls place q order
    have hpushed : (s.pipeline.onQueue (·.push order)).tally (Party.isCalled id) ≤ 1 := by
      rw [State.tally_push]
      exact hunique
    have hidle := State.count_set_activity (p := s.pipeline.onQueue (·.push order)) s.calls place q
      hfound hpushed .idle
    rw [State.any_pausing, State.any_idle] at hidle
    simp only [World.count_eq]
    omega
  · rw [heq]
    refine .pass .pause .attempt _ order .attemptAgain (fun place q => ?_) rfl
    have hstart := State.count_start_attempt s.calls place q hfound hunique order
    rw [State.any_pausing] at hstart
    exact hstart

/-- A call that was on its way brings its order: it is accepted, or the call gets in line. -/
theorem offer_hop (h : s.Orderly) {sender : Sender} (hsender : sender ∈ s.arriving)
    {pipeline : State} {offer : Offer}
    (hsend : s.pipeline.sendOrRelease sender.id sender.order = (pipeline, offer)) :
    Hop s { s with
      pipeline := pipeline,
      arriving := s.arriving.filter (·.id != sender.id),
      calls := s.callsAfter sender offer } (s.returnedBy sender offer) := by
  have hcall := h.expected sender hsender
  rcases State.send_or_release_cases s.pipeline sender.id sender.order with
    ⟨hend, _⟩ | ⟨_, _, _, heq⟩ | ⟨_, _, _, heq⟩
  · simp [h.isOpen, h.notCancelled] at hend
  · rw [hsend] at heq
    cases heq
    have hevents : s.returnedBy sender .sent = [queuedBy sender.id sender.order.number] :=
      if_pos hcall
    rw [hevents]
    refine .accept sender.id sender.order (fun place q => ?_) rfl
    -- Nobody in line has the identifier of the call that returns.
    have hother : ∀ x ∈ s.pipeline.queue.waiting, x.id ≠ sender.id := fun x hx =>
      h.traced.single.distinct.waiting_ne_arriving hsender hx
    show State.count _ (s.calls.filter (· != sender.id)) place q = _
    rw [State.count_without_call (p := s.pipeline.onQueue (·.push sender.order)) _ _ _ hother,
      State.count_push]
    rfl
  · rw [hsend] at heq
    cases heq
    refine .stay _ (.inl rfl) (fun place q => ?_) rfl
    show State.count _ s.calls place q = s.pipeline.count s.calls place q
    rw [State.count_await]
    simp [hcall]

/-- Somebody in line goes on: the order of a call is accepted, and that of a retry is brought
back. -/
theorem resume_hop (h : s.Orderly) {sender : Sender} (hsender : sender ∈ s.pipeline.queue.waiting)
    {pipeline : State} {offer : Offer}
    (hresume : s.pipeline.resumeSender sender.id = (pipeline, offer)) :
    Hop s { s with pipeline := pipeline, calls := s.callsAfter sender offer }
      (s.returnedBy sender offer) := by
  have hunique := h.traced.single.distinct.pipeline sender.id
  rcases State.resume_sender_cases hsender hunique with ⟨hend, _⟩ | ⟨_, _, heq⟩ | ⟨_, _, heq⟩
  · rw [h.notCancelled] at hend
    cases hend
  · rw [hresume] at heq
    cases heq
    have hcalls (place : Place) (q : Order → Bool) :
        ((s.pipeline.onQueue (·.leave sender.id)).onQueue (·.push sender.order)).count
            (s.calls.filter (· != sender.id)) place q +
          Place.part .retry place (q sender.order && decide (sender.id ∉ s.calls)) =
          s.pipeline.count s.calls place q + Place.part .buffer place (q sender.order) := by
      have hleave := State.count_leave_call s.calls place q hsender hunique
      rw [State.count_push]
      omega
    by_cases hcall : sender.id ∈ s.calls
    · have hevents : s.returnedBy sender .sent = [queuedBy sender.id sender.order.number] :=
        if_pos hcall
      rw [hevents]
      refine .accept sender.id sender.order (fun place q => ?_) rfl
      have hcount := hcalls place q
      have hnone :
          Place.part .retry place (q sender.order && decide (sender.id ∉ s.calls)) = 0 := by
        simp [hcall]
      rw [hnone] at hcount
      exact hcount
    · have hevents : s.returnedBy sender .sent = [] := if_neg hcall
      rw [hevents]
      refine .pass .retry .buffer _ sender.order .bringBack (fun place q => ?_) rfl
      have hcount := hcalls place q
      simp only [hcall, not_false_eq_true, decide_true, Bool.and_true] at hcount
      exact hcount
  · rw [hresume] at heq
    cases heq
    exact .stay _ (.inl rfl) (fun _ _ => rfl) rfl

/-- A retry brings its order back, or gets in line with it. -/
theorem wake_hop (h : s.Orderly) {id : Nat} {order : Order}
    (hfound : s.pipeline.retryOrder? id = some order) :
    Hop s (s.onPipeline fun p => (p.wakeRetry id order).1) [] := by
  have hunique := h.traced.single.distinct.pipeline id
  have hnocall := h.traced.single.distinct.retry_not_call h.calling hfound
  have hremove (place : Place) (q : Order → Bool) :=
    State.count_remove_retry s.calls place q hfound hunique
  show Hop s { s with pipeline := ((s.pipeline.removeRetry id).sendOrRelease id order).1 } []
  rcases State.send_or_release_cases (s.pipeline.removeRetry id) id order with
    ⟨hend, _⟩ | ⟨_, _, _, heq⟩ | ⟨_, _, _, heq⟩
  · have hopen : (s.pipeline.removeRetry id).queue.isOpen = true := h.isOpen
    have hrunning : (s.pipeline.removeRetry id).isCancelled = false := h.notCancelled
    simp [hopen, hrunning] at hend
  · rw [heq]
    refine .pass .retry .buffer _ order .bringBack (fun place q => ?_) rfl
    have hretry := hremove place q
    simp only [World.count_eq, State.count_push]
    omega
  · rw [heq]
    refine .stay _ (.inl rfl) (fun place q => ?_) rfl
    have hretry := hremove place q
    simp only [World.count_eq, State.count_await, hnocall, not_false_eq_true, decide_true,
      Bool.and_true]
    omega

/-- A call that arrives is of nobody in line. -/
theorem arrive_hop {id : Nat} {order : Order} (hfresh : s.partiesOf id = 0) :
    Hop s
      { s with
        pipeline := s.pipeline.onQueue (·.track order.number),
        arriving := s.arriving ++ [⟨id, order⟩],
        calls := s.calls ++ [id] } [] := by
  refine .stay _ (.inl rfl) (fun place q => ?_) rfl
  exact State.count_with_call (p := s.pipeline) _ _ _ fun x hx =>
    World.ne_of_mem_senders (World.mem_senders.mpr (.inr hx)) hfresh

/-- Every orderly step is a hop. -/
theorem step_hop (h : s.Orderly) {action : Action} {events : List Event}
    (haction : action.isOrderly = true) (hstep : Step s action events t) : Hop s t events := by
  have hdistinct := h.traced.single.distinct
  cases hstep with
  | dropArrival | dropCall | crash | abort | stop | cancel => cases haction
  | addWorker id => exact .stay _ (.inl rfl) (fun _ _ => State.count_add_worker _ _ _ id) rfl
  | arrive id order hfresh => exact arrive_hop hfresh
  | turnAway id order => exact .stay _ (.inr ⟨_, _, rfl⟩) (fun _ _ => rfl) rfl
  | offer sender pipeline offer hsender hsend => exact offer_hop h hsender hsend
  | resume sender pipeline offer hsender hresume => exact resume_hop h hsender hresume
  | receive id order rest hfound _ hbuffer => exact receive_hop hdistinct hfound hbuffer
  | succeed id order hfound =>
      refine .succeed order (fun place q => ?_) rfl
      have hfinish := State.count_finish s.calls place q hfound (hdistinct.pipeline id) order
      rw [State.any_attempting] at hfinish
      exact hfinish
  | fail id order reason hfound =>
      refine .fail order (fun place q => ?_) rfl
      have hfinish := State.count_finish s.calls place q hfound (hdistinct.pipeline id) order
      rw [State.any_attempting] at hfinish
      exact hfinish
  | retryLater id order retry hfound =>
      exact .pass .attempt .retry _ order .retryLater
        (fun place q =>
          State.count_retry_later s.calls place q hfound (hdistinct.pipeline id) retry) rfl
  | expire id order retry hfound =>
      exact .pass .attempt .retry _ order .expire
        (fun place q => State.count_retry_later
          (p := s.pipeline.onQueue (·.count fun c => { c with timedOut := c.timedOut + 1 })) s.calls
          place q hfound (hdistinct.pipeline id) retry) rfl
  | pause id order milliseconds hfound =>
      refine .pass .attempt .pause _ order .pause (fun place q => ?_) rfl
      have hpause := State.count_set_activity
        (p := s.pipeline.onQueue (·.count fun c => { c with paused := c.paused + 1 })) s.calls place
        q hfound (hdistinct.pipeline id) (.pausing order)
      rw [State.any_attempting, State.any_pausing] at hpause
      exact hpause
  | endPause id order hfound => exact end_pause_hop h hfound
  | wakeRetry id order hfound => exact wake_hop h hfound
  -- Workers and retries give up only after a stop or a shutdown.
  | leave id _ hend =>
      simp [h.notCancelled, Queue.isExhausted, Queue.isSealed, h.isOpen] at hend
  | interruptPause id order _ hend | cancelRetry id order _ hend =>
      rw [h.notCancelled] at hend
      cases hend

/-! ## Orderly runs -/

namespace State

/-- Both flags are as they were. -/
def SameFlags (p next : State) : Prop :=
  next.queue.isOpen = p.queue.isOpen ∧ next.isCancelled = p.isCancelled

/-- Bringing an order changes no flag. -/
theorem send_or_release_flags (p : State) (id : Nat) (order : Order) :
    p.SameFlags (p.sendOrRelease id order).1 := by
  rcases send_or_release_cases p id order with ⟨_, _, heq⟩ | ⟨_, _, _, heq⟩ | ⟨_, _, _, heq⟩ <;>
  · rw [heq]
    exact ⟨rfl, rfl⟩

/-- Going on in line changes no flag. -/
theorem resume_sender_flags (p : State) (id : Nat) : p.SameFlags (p.resumeSender id).1 := by
  unfold resumeSender
  split
  · exact ⟨rfl, rfl⟩
  · split
    · exact ⟨rfl, rfl⟩
    · split <;> exact ⟨rfl, rfl⟩

/-- Receiving an order changes no flag. -/
theorem receive_flags (p : State) (id : Nat) : p.SameFlags (p.receive id) := by
  unfold receive
  split <;> exact ⟨rfl, rfl⟩

/-- The end of a pause changes no flag. -/
theorem resume_pause_flags (p : State) (id : Nat) (order : Order) :
    p.SameFlags (p.resumePause id order) := by
  rcases resume_pause_cases p id order with ⟨_, heq⟩ | ⟨_, _, heq⟩ | ⟨_, _, heq⟩ <;>
  · rw [heq]
    exact ⟨rfl, rfl⟩

end State

/-- Only a stop and a shutdown change the flags. -/
theorem step_flags {action : Action} {events : List Event} (hstop : action ≠ .stop)
    (hcancel : action ≠ .cancel) (hstep : Step s action events t) :
    s.pipeline.SameFlags t.pipeline := by
  cases hstep with
  | stop => exact absurd rfl hstop
  | cancel => exact absurd rfl hcancel
  | offer sender pipeline offer _ hsend =>
      have hflags := s.pipeline.send_or_release_flags sender.id sender.order
      rwa [hsend] at hflags
  | resume sender pipeline offer _ hresume =>
      have hflags := s.pipeline.resume_sender_flags sender.id
      rwa [hresume] at hflags
  | receive id => exact s.pipeline.receive_flags id
  | endPause id order => exact s.pipeline.resume_pause_flags id order
  | wakeRetry id order => exact (s.pipeline.removeRetry id).send_or_release_flags id order
  | _ => exact ⟨rfl, rfl⟩

/-- A call that has not brought its order yet goes on. -/
theorem step_expected (h : s.Orderly) {action : Action} {events : List Event}
    (haction : action.isOrderly = true) (hstep : Step s action events t) :
    ∀ x ∈ t.arriving, x.id ∈ t.calls := by
  have hafter {x sender : Sender} {offer : Offer} (hcall : x.id ∈ s.calls)
      (hother : x.id ≠ sender.id) : x.id ∈ s.callsAfter sender offer := by
    unfold World.callsAfter
    split
    · exact hcall
    · exact List.mem_filter.mpr ⟨hcall, by simpa using hother⟩
  cases hstep with
  | dropArrival | dropCall | crash | abort | stop | cancel => cases haction
  | arrive id order =>
      intro x hx
      rcases List.mem_append.mp hx with hx | hx
      · exact List.mem_append_left _ (h.expected x hx)
      · rw [List.mem_singleton.mp hx]
        exact List.mem_append_right _ (List.mem_singleton_self _)
  | offer sender =>
      intro x hx
      obtain ⟨hx, hother⟩ := List.mem_filter.mp hx
      exact hafter (h.expected x hx) (by simpa using hother)
  | resume sender pipeline offer hsender =>
      intro x hx
      have hother := h.traced.single.distinct.waiting_ne_arriving hx hsender
      exact hafter (h.expected x hx) hother.symm
  | _ => exact h.expected

/-- An orderly step keeps all in order. -/
theorem World.Orderly.step (h : s.Orderly) {action : Action} {events : List Event}
    (haction : action.isOrderly = true) (hstep : Step s action events t) : t.Orderly := by
  have hdistinct := h.traced.single.distinct
  have hflags := step_flags (by rintro rfl; cases haction) (by rintro rfl; cases haction) hstep
  refine ⟨hflags.1.trans h.isOpen, hflags.2.trans h.notCancelled, ?_,
    (step_calls hdistinct h.calling hstep).calling, step_expected h haction hstep⟩
  have htraced := (step_account hdistinct hstep).traced h.traced
  have hlost : s.lostBy action = [] := by
    cases action <;> first | rfl | cases haction
  rwa [hlost] at htraced

/-! ## What is conserved -/

/-- The number belongs to an accepted job. -/
def World.Holds (s : World) (number : OrderNumber) : Prop :=
  ∃ place, 0 < s.count place (·.number == number)

/-- Jobs are accepted only when a call returns that its order is queued. -/
theorem Hop.holds {events : List Event} (h : Hop s t events) {number : OrderNumber}
    (hholds : t.Holds number) : s.Holds number ∨ ∃ id, events = [queuedBy id number] := by
  obtain ⟨place, hcount⟩ := hholds
  cases h with
  | stay _ _ hcounts =>
      rw [hcounts] at hcount
      exact .inl ⟨place, hcount⟩
  | accept id order hcounts =>
      by_cases hnumber : order.number = number
      · exact .inr ⟨id, by rw [hnumber]⟩
      · have hplace := hcounts place (·.number == number)
        have hpart : Place.part .buffer place (order.number == number) = 0 := by
          rw [beq_false_of_ne hnumber, Place.part_false]
        exact .inl ⟨place, by omega⟩
  | pass source target counted order hpassage hcounts =>
      by_cases hnumber : order.number = number
      · -- The job has been in the place that it has left.
        have hsource := hcounts source (·.number == number)
        have hpart : Place.part source source (order.number == number) = 1 := by simp [hnumber]
        have htarget : Place.part target source (order.number == number) = 0 := by
          cases hpassage <;> rfl
        exact .inl ⟨source, by omega⟩
      · have hplace := hcounts place (·.number == number)
        have hpart : Place.part target place (order.number == number) = 0 := by
          rw [beq_false_of_ne hnumber, Place.part_false]
        exact .inl ⟨place, by omega⟩
  | succeed order hcounts | fail order hcounts =>
      have hplace := hcounts place (·.number == number)
      exact .inl ⟨place, by omega⟩

/-- How many accepted jobs there are. -/
def World.acceptedCount (s : World) : Nat :=
  (s.ordersIn .buffer).length + (s.ordersIn .attempt).length + (s.ordersIn .pause).length +
    (s.ordersIn .retry).length

/-- The counters agree with what the calls have been told and with the places. -/
structure Balanced (log : List Event) (s : World) : Prop where
  accepted : log.countP Event.isQueued =
    s.counters.succeeded + s.counters.failed + s.acceptedCount
  attempts : s.counters.processed = s.counters.succeeded + s.counters.retried +
    s.counters.paused + s.counters.failed + (s.ordersIn .attempt).length
  timedOut : s.counters.timedOut ≤ s.counters.retried

/-- How many orders there are in a place. -/
theorem World.length_orders_in (s : World) (place : Place) :
    (s.ordersIn place).length = s.count place fun _ => true := by
  rw [World.count, List.countP_true]

/-- A hop keeps the counters in agreement. -/
theorem Hop.balanced {log events : List Event} (h : Hop s t events) (hs : Balanced log s) :
    Balanced (log ++ (s.releasedUntil t ++ events)) t := by
  have hlog : (log ++ (s.releasedUntil t ++ events)).countP Event.isQueued =
      log.countP Event.isQueued + events.countP Event.isQueued := by
    have hreleased : (s.releasedUntil t).countP Event.isQueued = 0 := by
      rw [World.releasedUntil, List.countP_map, List.countP_eq_zero]
      exact fun _ _ => Bool.false_ne_true
    rw [List.countP_append, List.countP_append, hreleased, Nat.zero_add]
  obtain ⟨haccepted, hattempts, htimedOut⟩ := hs
  simp only [World.acceptedCount, World.length_orders_in] at haccepted hattempts
  -- In numbers of orders, a hop is a sum over the places that changes as the counters do.
  suffices hsum : log.countP Event.isQueued + events.countP Event.isQueued =
      t.counters.succeeded + t.counters.failed + (t.count .buffer (fun _ => true) +
        t.count .attempt (fun _ => true) + t.count .pause (fun _ => true) +
        t.count .retry fun _ => true) ∧
      t.counters.processed = t.counters.succeeded + t.counters.retried + t.counters.paused +
        t.counters.failed + t.count .attempt (fun _ => true) ∧
      t.counters.timedOut ≤ t.counters.retried by
    constructor
    · simpa only [hlog, World.acceptedCount, World.length_orders_in] using hsum.1
    · simpa only [World.length_orders_in] using hsum.2.1
    · exact hsum.2.2
  cases h with
  | stay _ hquiet hcounts hcounters =>
      have hnone : events.countP Event.isQueued = 0 := by
        rcases hquiet with rfl | ⟨id, number, rfl⟩ <;> rfl
      simp only [hnone, hcounts, hcounters]
      omega
  | accept id order hcounts hcounters =>
      have hone : [queuedBy id order.number].countP Event.isQueued = 1 := rfl
      simp only [hone, hcounts, hcounters, Place.part, reduceCtorEq, if_true, if_false,
        Bool.toNat_true]
      omega
  | pass source target counted order hpassage hcounts hcounters =>
      have hbuffer := hcounts .buffer fun _ => true
      have hattempt := hcounts .attempt fun _ => true
      have hpause := hcounts .pause fun _ => true
      have hretry := hcounts .retry fun _ => true
      rw [hcounters]
      cases hpassage <;>
      · simp only [Place.part, reduceCtorEq, if_true, if_false, Bool.toNat_true] at *
        simp only [List.countP_nil, id_eq]
        omega
  | succeed order hcounts hcounters | fail order hcounts hcounters =>
      have hbuffer := hcounts .buffer fun _ => true
      have hattempt := hcounts .attempt fun _ => true
      have hpause := hcounts .pause fun _ => true
      have hretry := hcounts .retry fun _ => true
      rw [hcounters]
      simp only [Place.part, reduceCtorEq, if_true, if_false, Bool.toNat_true] at *
      simp only [List.countP_nil]
      omega

/-- A number belongs to an accepted job if it is the number of an order in one of the places. -/
theorem World.holds_iff (s : World) (number : OrderNumber) :
    s.Holds number ↔ 0 < s.accepted.countP (·.number == number) := by
  have hsum : s.accepted.countP (·.number == number) = s.count .buffer (·.number == number) +
      s.count .attempt (·.number == number) + s.count .pause (·.number == number) +
      s.count .retry (·.number == number) := by
    rw [accepted, List.countP_append, List.countP_append, List.countP_append]
    rfl
  rw [hsum]
  constructor
  · rintro ⟨place, hcount⟩
    cases place <;> omega
  · intro hcount
    by_contra hnone
    have hzero (place : Place) : s.count place (·.number == number) = 0 :=
      Nat.eq_zero_of_not_pos fun hpos => hnone ⟨place, hpos⟩
    simp only [hzero] at hcount
    omega

/-- An accepted job is a job. -/
theorem World.Holds.tracked {number : OrderNumber} (hholds : s.Holds number) (h : s.Orderly) :
    number ∈ s.tracked := by
  refine h.traced.single.tracked number ?_
  have hjobs := s.jobs_eq number
  have hcount := (s.holds_iff number).mp hholds
  omega

/-- What is tracked and is not brought by a call belongs to an accepted job. -/
theorem World.Orderly.holds_of_tracked (h : s.Orderly) {number : OrderNumber}
    (htracked : number ∈ s.tracked) (hbringing : ¬ s.Bringing number) : s.Holds number := by
  have hjob : s.jobsOf number ≠ 0 := fun hnone =>
    absurd ((h.traced.stranded number).mp ⟨htracked, hnone⟩) List.not_mem_nil
  have hbrought : s.broughtOf number = 0 := by
    rw [broughtOf, Nat.add_eq_zero_iff, List.countP_eq_zero, List.countP_eq_zero]
    refine ⟨fun x hx hnumber => hbringing ?_, fun x hx hnumber => hbringing ?_⟩
    · exact ⟨x, World.mem_senders.mpr (.inl hx), h.expected x hx, by simpa using hnumber⟩
    · obtain ⟨hx, hcall⟩ := List.mem_filter.mp hx
      exact ⟨x, World.mem_senders.mpr (.inr hx), by simpa using hcall, by simpa using hnumber⟩
  rw [s.holds_iff]
  have hjobs := s.jobs_eq number
  omega

/-- What holds of an orderly run: all is in order, the run is in single flight, the counters agree,
and the order of every accepted job is queued for some call. -/
structure Conserved (log : List Event) (s : World) : Prop where
  orderly : s.Orderly
  flight : Flight log s
  balanced : Balanced log s
  pending : ∀ number, s.Holds number → Pending log number

/-- An orderly step conserves the jobs. -/
theorem Conserved.step {log : List Event} (h : Conserved log s) {action : Action}
    {events : List Event} (haction : action.isOrderly = true) (hstep : Step s action events t) :
    Conserved (log ++ (s.releasedUntil t ++ events)) t := by
  have hhop := step_hop h.orderly haction hstep
  have horderly := h.orderly.step haction hstep
  refine ⟨horderly, h.flight.step (.now hstep), hhop.balanced h.balanced,
    fun number hholds => ?_⟩
  rcases hhop.holds hholds with hbefore | ⟨id, rfl⟩
  · obtain ⟨before, id, later, rfl, hkept⟩ := h.pending number hbefore
    refine ⟨before, id, later ++ (s.releasedUntil t ++ events), by simp, ?_⟩
    -- The number is still tracked, so it has not been released.
    have hreleased : .released number ∉ s.releasedUntil t := by
      intro hmem
      obtain ⟨other, hother, heq⟩ := List.mem_map.mp hmem
      cases heq
      exact absurd (hholds.tracked horderly) (by simpa using (List.mem_filter.mp hother).2)
    have hevents : .released number ∉ events := by
      cases hhop with
      | stay _ hquiet => rcases hquiet with rfl | ⟨_, _, rfl⟩ <;> simp
      | accept => simp
      | pass | succeed | fail => simp
    simp [hkept, hreleased, hevents]
  · exact ⟨log ++ s.releasedUntil t, id, [], by simp, List.not_mem_nil⟩

/-- Every orderly run conserves the jobs. -/
theorem conserved_of_run {capacity : Nat} {actions : List Action} {log : List Event}
    (h : Run Step (.ofCapacity capacity) actions log s)
    (horderly : ∀ action ∈ actions, action.isOrderly = true) : Conserved log s := by
  induction h with
  | nil =>
      refine ⟨World.orderly_of_capacity capacity, flight_of_capacity capacity,
        ⟨rfl, rfl, Nat.le_refl 0⟩, fun number hholds => ?_⟩
      exact absurd ((World.holds_iff _ number).mp hholds) (Nat.lt_irrefl 0)
  | concat _ hstep ih =>
      have hconserved := ih fun action hmem => horderly action (List.mem_append_left _ hmem)
      exact hconserved.step (horderly _ (List.mem_append_right _ (List.mem_singleton_self _))) hstep

/-- In every orderly run: the calls that have been told that their order is queued are as many as
the attempts that have succeeded or failed for good and the jobs in the buffer, with workers and
with retries. Each of these jobs is in one place, and they are those of the numbers that have been
queued and not released since. There have been as many attempts as have succeeded, are to be made
again later, have paused, have failed for good, or are being made, and none has taken too long
without being one that is to be made again. -/
theorem jobs_conserved {capacity : Nat} {actions : List Action} {log : List Event}
    (h : Run Step (.ofCapacity capacity) actions log s)
    (horderly : ∀ action ∈ actions, action.isOrderly = true) :
    log.countP Event.isQueued = s.counters.succeeded + s.counters.failed +
      ((s.ordersIn .buffer).length + (s.ordersIn .attempt).length + (s.ordersIn .pause).length +
        (s.ordersIn .retry).length) ∧
    (s.accepted.map (·.number)).Nodup ∧
    (∀ number, number ∈ s.accepted.map (·.number) ↔ Pending log number) ∧
    s.counters.processed = s.counters.succeeded + s.counters.retried + s.counters.paused +
      s.counters.failed + (s.ordersIn .attempt).length ∧
    s.counters.timedOut ≤ s.counters.retried := by
  have hconserved := conserved_of_run h horderly
  have hcount (number : OrderNumber) : (s.accepted.map (·.number)).count number =
      s.accepted.countP (·.number == number) := by
    rw [List.count, List.countP_map]
    rfl
  refine ⟨hconserved.balanced.accepted, ?_, fun number => ?_, hconserved.balanced.attempts,
    hconserved.balanced.timedOut⟩
  · rw [List.nodup_iff_count]
    intro number
    have hjobs := s.jobs_eq number
    have hone := hconserved.orderly.traced.single.once number
    rw [hcount]
    omega
  · rw [← List.count_pos_iff, hcount, ← s.holds_iff]
    constructor
    · exact hconserved.pending number
    · intro hpending
      obtain ⟨htracked, hbringing⟩ := hconserved.flight.pending number hpending
      exact hconserved.orderly.holds_of_tracked htracked hbringing

/-- A worker is to pause with an order, and the buffer is full when the pause ends, so the worker
attempts the order again: two attempts have begun, and two jobs have been accepted and are there. -/
theorem jobs_conserved_full :
    ∃ (actions : List Action) (log : List Event) (s : World),
      Run Step (.ofCapacity 1) actions log s ∧
      (∀ action ∈ actions, action.isOrderly = true) ∧
      s.ordersIn .buffer = [secondOrder] ∧ s.ordersIn .attempt = [newOrder] ∧
      s.counters.processed = 2 ∧ s.counters.paused = 1 ∧ log.countP Event.isQueued = 2 ∧
      Pending log newOrder.number := by
  have hstart : Run Step (.ofCapacity 1) [] [] (.ofCapacity 1) := .nil
  have hworker := hstart.concat (.addWorker 7 rfl)
  have hfirst := hworker.concat (.arrive 1 newOrder rfl (by decide +kernel))
  have hqueued := hfirst.concat (.offer ⟨1, newOrder⟩ _ _ (by decide +kernel) rfl)
  have hreceived := hqueued.concat (.receive 7 newOrder [] rfl rfl rfl)
  have hsecond := hreceived.concat (.arrive 2 secondOrder rfl (by decide +kernel))
  have hfull := hsecond.concat (.offer ⟨2, secondOrder⟩ _ _ (by decide +kernel) rfl)
  have hpaused := hfull.concat (.pause 7 newOrder 60000 rfl)
  have hagain := hpaused.concat (.endPause 7 newOrder rfl rfl)
  have horderly : ∀ action ∈ [Action.addWorker 7, .arrive 1, .offer 1, .receive 7, .arrive 2,
      .offer 2, .conclude 7 (.pauseWorkerFor 60000), .endPause 7], action.isOrderly = true := by
    decide
  obtain ⟨haccepted, _, hpending, hattempts, _⟩ := jobs_conserved hagain horderly
  refine ⟨_, _, _, hagain, horderly, by decide +kernel, by decide +kernel, ?_, by decide +kernel,
    ?_, ?_⟩
  · rw [hattempts]
    decide +kernel
  · rw [haccepted]
    decide +kernel
  · exact (hpending _).mp (by decide +kernel)

end Rewards.Pipeline
