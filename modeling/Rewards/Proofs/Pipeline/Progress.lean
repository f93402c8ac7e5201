import Mathlib.Data.Fintype.EquivFin
import Rewards.Proofs.Pipeline.Shutdown

/-!
# Progress

The workers take orders out of the buffer and, after a pause, put them back. No worker waits for
room in the buffer: if there is none at the end of a pause, the worker attempts its order again. So
whoever waits for room waits for somebody who can go on, and as long as there is a job somebody can
get one on. `World.toDo` counts the steps that are left, and each such step leaves fewer. The main
statement is `pool_goes_on`. It takes workers for granted; `at_work_of_run` says when there are any.
-/

namespace Rewards.Pipeline

/-! ## The size of the buffer -/

/-- The buffer has a capacity and holds no more orders than that. -/
structure State.Fits (p : State) (capacity : Nat) : Prop where
  size : p.queue.capacity = capacity
  bound : p.queue.buffer.length ≤ capacity

namespace State.Fits

variable {p : State} {capacity : Nat}

/-- An order for which there is room fits into the buffer. -/
theorem push (h : p.Fits capacity) (hroom : 0 < p.queue.room) (order : Order) :
    (p.onQueue (·.push order)).Fits capacity where
  size := h.size
  bound := by
    show (p.queue.buffer ++ [order]).length ≤ capacity
    have hsize := h.size
    unfold Queue.room at hroom
    rw [List.length_append, List.length_singleton]
    omega

/-- Free room is room. -/
theorem room_of_free (hfree : p.queue.hasFreeRoom = true) : 0 < p.queue.room :=
  Nat.zero_lt_of_lt (of_decide_eq_true hfree)

/-- Bringing an order does not overfill the buffer. -/
theorem send (h : p.Fits capacity) (id : Nat) (order : Order) :
    (p.sendOrRelease id order).1.Fits capacity := by
  rcases p.send_or_release_cases id order with
    ⟨_, _, heq⟩ | ⟨_, _, hfree, heq⟩ | ⟨_, _, _, heq⟩
  · rw [heq]
    exact ⟨h.size, h.bound⟩
  · rw [heq]
    exact h.push (room_of_free hfree) order
  · rw [heq]
    exact ⟨h.size, h.bound⟩

/-- Going on in line does not overfill the buffer. -/
theorem resume (h : p.Fits capacity) {sender : Sender} (hsender : sender ∈ p.queue.waiting)
    (hunique : p.tally (Party.isCalled sender.id) ≤ 1) :
    (p.resumeSender sender.id).1.Fits capacity := by
  rcases State.resume_sender_cases hsender hunique with
    ⟨_, heq⟩ | ⟨_, hgranted, heq⟩ | ⟨_, _, heq⟩
  · rw [heq]
    exact ⟨h.size, h.bound⟩
  · have hleft : (p.onQueue (·.leave sender.id)).Fits capacity := ⟨h.size, h.bound⟩
    have hroom : 0 < p.queue.room := by
      by_contra hnone
      rw [Queue.granted, Nat.eq_zero_of_not_pos hnone, List.take_zero] at hgranted
      cases hgranted
    rw [heq]
    exact hleft.push hroom sender.order
  · rw [heq]
    exact h

/-- The end of a pause does not overfill the buffer. -/
theorem end_pause (h : p.Fits capacity) (id : Nat) (order : Order) :
    (p.resumePause id order).Fits capacity := by
  rcases p.resume_pause_cases id order with ⟨_, heq⟩ | ⟨_, hfree, heq⟩ | ⟨_, _, heq⟩
  · rw [heq]
    exact ⟨h.size, h.bound⟩
  · have hpushed := h.push (room_of_free hfree) order
    rw [heq]
    exact ⟨hpushed.size, hpushed.bound⟩
  · rw [heq]
    exact ⟨h.size, h.bound⟩

end State.Fits

variable {s t : World} {capacity : Nat}

/-- No step overfills the buffer. -/
theorem step_fits (hs : s.Distinct) (h : s.pipeline.Fits capacity) {action : Action}
    {events : List Event} (hstep : Step s action events t) : t.pipeline.Fits capacity := by
  cases hstep with
  | offer sender pipeline offer _ heq =>
      have hsent := h.send sender.id sender.order
      rw [heq] at hsent
      exact hsent
  | resume sender pipeline offer hsender heq =>
      have hresumed := h.resume hsender (hs.pipeline sender.id)
      rw [heq] at hresumed
      exact hresumed
  | wakeRetry id order =>
      have hremoved : (s.pipeline.removeRetry id).Fits capacity := ⟨h.size, h.bound⟩
      exact hremoved.send id order
  | endPause id order => exact h.end_pause id order
  | receive id order rest _ _ hbuffer =>
      have hbound := h.bound
      rw [hbuffer, List.length_cons] at hbound
      show (s.pipeline.receive id).Fits capacity
      rw [State.receive_eq hbuffer]
      exact ⟨h.size, Nat.le_of_succ_le hbound⟩
  | turnAway => exact h
  | _ => exact ⟨h.size, h.bound⟩

/-- No step overfills the buffer, whatever its party sees of the flags. -/
theorem late_step_fits (hs : s.Distinct) (h : s.pipeline.Fits capacity) {action : Action}
    {events : List Event} (hstep : LateStep s action events t) : t.pipeline.Fits capacity := by
  cases hstep with
  | now hstep => exact step_fits hs h hstep
  | late isOpen isCancelled hstep =>
      have hlater := step_fits (s := s.withFlags isOpen isCancelled) hs ⟨h.size, h.bound⟩ hstep
      exact ⟨hlater.size, hlater.bound⟩

/-- After any run different parties have different identifiers, no number has two jobs, and the
buffer holds no more orders than it has room for. -/
theorem fits_of_run {actions : List Action} {log : List Event}
    (hrun : Run LateStep (.ofCapacity capacity) actions log s) :
    s.Single ∧ s.pipeline.Fits (max capacity 1) := by
  induction hrun with
  | nil => exact ⟨World.single_of_capacity capacity, rfl, Nat.zero_le _⟩
  | concat _ hstep ih =>
      obtain ⟨hsingle, hfits⟩ := ih
      exact ⟨late_step_single hsingle hstep, late_step_fits hsingle.distinct hfits hstep⟩

/-! ## What is left to do -/

/-- How many steps it takes to be rid of jobs, if there are so many in each place: one step for each
that ends an attempt, one before for each that takes an order out of the buffer, and one before that
for each that puts an order there. -/
def stepsFor (jobs : Place → Nat) : Nat :=
  jobs .attempt + 2 * jobs .buffer + 3 * jobs .pause + 3 * jobs .retry

/-- How many steps it takes for the job of a worker. -/
def Activity.toDo : Activity → Nat
  | .idle => 0
  | .attempting _ => 1
  | .pausing _ => 3

/-- How many steps it takes to be rid of all jobs in the pipeline. Those in line count like
retries. -/
def State.toDo (p : State) : Nat := stepsFor fun place => p.count [] place fun _ => true

/-- How many steps it takes to be rid of all jobs. -/
def World.toDo (s : World) : Nat := 3 * s.arriving.length + s.pipeline.toDo

namespace State

variable {p : State} {id : Nat}

/-- Jobs that go and jobs that come. -/
theorem to_do_balance {next : State} (gone come : Place → Nat)
    (h : ∀ place, next.count [] place (fun _ => true) + gone place =
      p.count [] place (fun _ => true) + come place) :
    next.toDo + stepsFor gone = p.toDo + stepsFor come := by
  have hattempt := h .attempt
  have hbuffer := h .buffer
  have hpause := h .pause
  have hretry := h .retry
  simp only [toDo, stepsFor]
  omega

/-- An order that is put into the buffer has to be taken out and attempted. -/
theorem to_do_push (p : State) (order : Order) :
    (p.onQueue (·.push order)).toDo = p.toDo + 2 :=
  to_do_balance (fun _ => 0) (fun place => Place.part .buffer place true)
    fun place => count_push [] place (fun _ => true) order

/-- An order that is taken out of the buffer is gone from there. -/
theorem to_do_take {order : Order} {rest : List Order} (hbuffer : p.queue.buffer = order :: rest) :
    (p.onQueue fun queue => { queue with buffer := rest }).toDo + 2 = p.toDo :=
  to_do_balance (fun place => Place.part .buffer place true) (fun _ => 0)
    fun place => count_take [] place (fun _ => true) hbuffer

/-- A worker who does something else has something else to do. -/
theorem to_do_set_activity {activity : Activity} (hfound : p.activity? id = some activity)
    (hunique : p.tally (Party.isCalled id) ≤ 1) (next : Activity) :
    (p.setActivity id next).toDo + activity.toDo = p.toDo + next.toDo := by
  have hsteps (w : Activity) :
      stepsFor (fun place => ((w.orderIn place).any fun _ => true).toNat) = w.toDo := by
    cases w <;> rfl
  rw [← hsteps activity, ← hsteps next]
  exact to_do_balance _ _ fun place =>
    count_set_activity [] place (fun _ => true) hfound hunique next

/-- A worker who is done with an order has nothing to do any more. -/
theorem to_do_finish {activity : Activity} (hfound : p.activity? id = some activity)
    (hunique : p.tally (Party.isCalled id) ≤ 1) (order : Order) :
    (p.finish id order).toDo + activity.toDo = p.toDo :=
  to_do_set_activity (p := p.onQueue (·.release order.number)) hfound hunique .idle

/-- A worker who starts an attempt has to end it. -/
theorem to_do_start_attempt {activity : Activity} (hfound : p.activity? id = some activity)
    (hunique : p.tally (Party.isCalled id) ≤ 1) (order : Order) :
    (p.startAttempt id order).toDo + activity.toDo = p.toDo + 1 :=
  to_do_set_activity (p := p.onQueue (·.count fun c => { c with processed := c.processed + 1 }))
    hfound hunique (.attempting order)

/-- Receiving an order gets it on. -/
theorem to_do_receive {order : Order} {rest : List Order} (hfound : p.activity? id = some .idle)
    (hunique : p.tally (Party.isCalled id) ≤ 1) (hbuffer : p.queue.buffer = order :: rest) :
    (p.receive id).toDo < p.toDo := by
  have htake := to_do_take hbuffer
  have hstart := to_do_start_attempt (p := p.onQueue fun queue => { queue with buffer := rest })
    hfound (unique_take hbuffer hunique) order
  simp only [Activity.toDo] at hstart
  rw [receive_eq hbuffer]
  omega

/-- The end of a pause gets the order on, also if there is no room for it. -/
theorem to_do_resume_pause {order : Order} (hfound : p.activity? id = some (.pausing order))
    (hunique : p.tally (Party.isCalled id) ≤ 1) : (p.resumePause id order).toDo < p.toDo := by
  rcases p.resume_pause_cases id order with ⟨_, heq⟩ | ⟨_, _, heq⟩ | ⟨_, _, heq⟩
  · have hdone := to_do_finish hfound hunique order
    simp only [Activity.toDo] at hdone
    rw [heq]
    omega
  · have hpushed : (p.onQueue (·.push order)).tally (Party.isCalled id) ≤ 1 := by
      rw [tally_push]
      exact hunique
    have hidle := to_do_set_activity (p := p.onQueue (·.push order)) hfound hpushed .idle
    rw [to_do_push] at hidle
    simp only [Activity.toDo] at hidle
    rw [heq]
    omega
  · have hagain := to_do_start_attempt hfound hunique order
    simp only [Activity.toDo] at hagain
    rw [heq]
    omega

/-- A retry that is taken away has nothing to do any more. -/
theorem to_do_remove_retry {order : Order} (hfound : p.retryOrder? id = some order)
    (hunique : p.tally (Party.isCalled id) ≤ 1) : (p.removeRetry id).toDo + 3 = p.toDo :=
  to_do_balance (fun place => Place.part .retry place true) (fun _ => 0)
    fun place => count_remove_retry [] place (fun _ => true) hfound hunique

/-- Somebody who leaves the line has nothing to do any more. -/
theorem to_do_leave {sender : Sender} (hsender : sender ∈ p.queue.waiting)
    (hunique : p.tally (Party.isCalled sender.id) ≤ 1) :
    (p.onQueue (·.leave sender.id)).toDo + 3 = p.toDo := by
  refine to_do_balance (fun place => Place.part .retry place true) (fun _ => 0) fun place => ?_
  have hleave := count_leave [] place (fun _ => true) hsender hunique
  simp only [List.not_mem_nil, not_false_eq_true, decide_true, Bool.and_true] at hleave
  exact hleave

end State

/-! ## Steps that get a job on -/

/-- A step gets a job on: a worker receives one, an attempt ends or takes too long, a pause or the
delay of a retry is over, or somebody who brings an order is rid of it. -/
inductive World.Progress (s t : World) : Prop where
  | receive (id : Nat) : Step s (.receive id) [] t → s.Progress t
  | conclude (id : Nat) (result : JobResult) : Step s (.conclude id result) [] t → s.Progress t
  | expire (id : Nat) : Step s (.expire id) [] t → s.Progress t
  | endPause (id : Nat) : Step s (.endPause id) [] t → s.Progress t
  | wakeRetry (id : Nat) : Step s (.wakeRetry id) [] t → s.Progress t
  | bring (action : Action) (sender : Sender) (events : List Event) :
      action = .offer sender.id ∨ action = .resume sender.id → Step s action events t →
      sender ∈ s.senders → (∀ other ∈ t.senders, other.id ≠ sender.id) → s.Progress t

/-- There are more identifiers than parties. -/
theorem World.exists_fresh (s : World) : ∃ id, s.partiesOf id = 0 := by
  obtain ⟨id, hid⟩ := Infinite.exists_notMem_finset (s.parties.filterMap (·.id)).toFinset
  refine ⟨id, List.countP_eq_zero.mpr fun x hx hcalled => hid ?_⟩
  rw [List.mem_toFinset, List.mem_filterMap]
  exact ⟨x, hx, eq_of_beq hcalled⟩

/-- What a worker can do by itself, whatever room there is: take an order if there is one, end its
attempt in any way or for lack of time, and end its pause. A worker whose pause ends while the
buffer is full attempts its order again. -/
def World.GoesOn (s : World) (id : Nat) : Activity → Prop
  | .idle => s.pipeline.queue.buffer ≠ [] → ∃ t, Step s (.receive id) [] t
  | .attempting _ =>
      (∀ result, ∃ t, Step s (.conclude id result) [] t) ∧ ∃ t, Step s (.expire id) [] t
  | .pausing order =>
      ∃ t, Step s (.endPause id) [] t ∧
        (t.pipeline.activity? id = some .idle ∨
          t.pipeline.activity? id = some (.attempting order)) ∧
        (s.pipeline.queue.isOpen = true →
          s.pipeline.queue.capacity ≤ s.pipeline.queue.buffer.length →
          t.pipeline.activity? id = some (.attempting order) ∧
            t.pipeline.queue.buffer = s.pipeline.queue.buffer ∧
            t.pipeline.queue.waiting = s.pipeline.queue.waiting)

section Workers

variable {id : Nat} {activity : Activity} {order : Order}

/-- A worker is found by its identifier. -/
theorem World.Distinct.activity_of_mem (hs : s.Distinct)
    (hworker : (id, activity) ∈ s.pipeline.workers) :
    s.pipeline.activity? id = some activity :=
  lookup_of_mem hworker (State.workers_unique (hs.pipeline id))

/-- A worker that is found does what it is let do. -/
theorem State.activity_set {p : State} (hfound : p.activity? id = some activity)
    (next : Activity) : (p.setActivity id next).activity? id = some next := by
  obtain ⟨before, later, hworkers, hbefore⟩ := List.lookup_eq_some_iff.mp hfound
  have hkept : before.map (fun w => if w.1 = id then (id, next) else w) = before := by
    refine (List.map_congr_left fun w hw => ?_).trans (List.map_id before)
    exact if_neg fun hsame => bne_iff_ne.mp (hbefore w hw) hsame.symm
  refine List.lookup_eq_some_iff.mpr
    ⟨before, later.map fun w => if w.1 = id then (id, next) else w, ?_, hbefore⟩
  rw [State.setActivity, hworkers, List.map_append, hkept, List.map_cons, if_pos rfl]

/-- A worker whose pause ends is idle or attempts its order again. -/
theorem State.resume_pause_activity {p : State} (hfound : p.activity? id = some activity)
    (order : Order) :
    (p.resumePause id order).activity? id = some .idle ∨
      (p.resumePause id order).activity? id = some (.attempting order) := by
  rcases p.resume_pause_cases id order with ⟨_, heq⟩ | ⟨_, _, heq⟩ | ⟨_, _, heq⟩
  · rw [heq]
    exact .inl (activity_set hfound .idle)
  · rw [heq]
    exact .inl (activity_set hfound .idle)
  · rw [heq]
    exact .inr (activity_set hfound (.attempting order))

/-- A worker whose pause ends while the buffer is full attempts its order again and leaves the
buffer and the line alone. -/
theorem State.resume_pause_full {p : State} (hfound : p.activity? id = some activity)
    (hopen : p.queue.isOpen = true) (hfull : p.queue.capacity ≤ p.queue.buffer.length)
    (order : Order) :
    (p.resumePause id order).activity? id = some (.attempting order) ∧
      (p.resumePause id order).queue.buffer = p.queue.buffer ∧
      (p.resumePause id order).queue.waiting = p.queue.waiting := by
  rcases p.resume_pause_cases id order with ⟨hclosed, _⟩ | ⟨_, hfree, _⟩ | ⟨_, _, heq⟩
  · rw [hopen] at hclosed
    cases hclosed
  · have hroom := Fits.room_of_free hfree
    unfold Queue.room at hroom
    omega
  · rw [heq]
    exact ⟨activity_set hfound (.attempting order), rfl, rfl⟩

/-- No worker waits for room. -/
theorem World.Single.goes_on (hs : s.Single) (hrunning : s.pipeline.isCancelled = false)
    (hworker : (id, activity) ∈ s.pipeline.workers) : s.GoesOn id activity := by
  have hfound := hs.distinct.activity_of_mem hworker
  obtain ⟨retry, hfresh⟩ := s.exists_fresh
  cases activity with
  | idle =>
      intro hbuffer
      obtain ⟨order, rest, hcons⟩ := List.exists_cons_of_ne_nil hbuffer
      exact ⟨_, .receive id order rest hfound hrunning hcons⟩
  | attempting order =>
      refine ⟨fun result => ?_, _, .expire id order retry hfound hfresh⟩
      cases result with
      | success => exact ⟨_, .succeed id order hfound⟩
      | retryAfterDelay => exact ⟨_, .retryLater id order retry hfound hfresh⟩
      | pauseWorkerFor milliseconds => exact ⟨_, .pause id order milliseconds hfound⟩
      | fatal reason => exact ⟨_, .fail id order reason hfound⟩
  | pausing order =>
      refine ⟨_, .endPause id order hfound hrunning, ?_, fun hopen hfull => ?_⟩
      · exact State.resume_pause_activity hfound order
      · exact State.resume_pause_full hfound hopen hfull order

/-- A worker with an order gets it on. -/
theorem World.Single.progress_of_busy (hs : s.Single) (hrunning : s.pipeline.isCancelled = false)
    (hworker : (id, activity) ∈ s.pipeline.workers) (hbusy : activity ≠ .idle) :
    ∃ t, s.Progress t ∧ t.toDo < s.toDo := by
  have hfound := hs.distinct.activity_of_mem hworker
  have hunique := hs.distinct.pipeline id
  cases activity with
  | idle => exact absurd rfl hbusy
  | attempting order =>
      refine ⟨_, .conclude id .success (.succeed id order hfound), Nat.add_lt_add_left ?_ _⟩
      show (s.pipeline.finish id order).toDo < s.pipeline.toDo
      exact Nat.lt_of_succ_le (State.to_do_finish hfound hunique order).le
  | pausing order =>
      refine ⟨_, .endPause id (.endPause id order hfound hrunning), Nat.add_lt_add_left ?_ _⟩
      exact State.to_do_resume_pause hfound hunique

/-- While there is an order in the buffer, any worker gets a job on: an order from there if it is
idle, or its own. -/
theorem World.Single.progress_of_buffer (hs : s.Single) (hrunning : s.pipeline.isCancelled = false)
    (hstaffed : s.pipeline.workers ≠ []) (hbuffer : s.pipeline.queue.buffer ≠ []) :
    ∃ t, s.Progress t ∧ t.toDo < s.toDo := by
  obtain ⟨⟨id, activity⟩, hworker⟩ := List.exists_mem_of_ne_nil _ hstaffed
  obtain ⟨order, rest, hcons⟩ := List.exists_cons_of_ne_nil hbuffer
  by_cases hidle : activity = .idle
  · subst hidle
    have hfound := hs.distinct.activity_of_mem hworker
    refine ⟨_, .receive id (.receive id order rest hfound hrunning hcons), Nat.add_lt_add_left ?_ _⟩
    exact State.to_do_receive hfound (hs.distinct.pipeline id) hcons
  · exact hs.progress_of_busy hrunning hworker hidle

/-- While the buffer is empty there is room. -/
theorem State.Fits.room_of_empty {p : State} (h : p.Fits (max capacity 1))
    (hbuffer : p.queue.buffer = []) : 0 < p.queue.room := by
  have hsize := h.size
  unfold Queue.room
  rw [hbuffer, List.length_nil]
  omega

/-- While the buffer is empty and nobody is in line, the room belongs to nobody. -/
theorem State.Fits.free_of_empty {p : State} (h : p.Fits (max capacity 1))
    (hbuffer : p.queue.buffer = []) (hline : p.queue.waiting = []) :
    p.queue.hasFreeRoom = true := by
  refine decide_eq_true ?_
  rw [hline]
  exact h.room_of_empty hbuffer

/-- While the buffer is empty the first one in line gets its order into it. -/
theorem World.Single.progress_of_line (hs : s.Single) (hrunning : s.pipeline.isCancelled = false)
    (hfits : s.pipeline.Fits (max capacity 1)) (hbuffer : s.pipeline.queue.buffer = [])
    (hline : s.pipeline.queue.waiting ≠ []) : ∃ t, s.Progress t ∧ t.toDo < s.toDo := by
  obtain ⟨sender, rest, hwaiting⟩ := List.exists_cons_of_ne_nil hline
  have hsender : sender ∈ s.pipeline.queue.waiting := by
    rw [hwaiting]
    exact List.mem_cons_self
  have hunique := hs.distinct.pipeline sender.id
  have hgranted : sender ∈ s.pipeline.queue.granted := by
    obtain ⟨room, hroom⟩ := Nat.exists_eq_add_of_lt (hfits.room_of_empty hbuffer)
    rw [Queue.granted, hwaiting, hroom, List.take_succ_cons]
    exact List.mem_cons_self
  rcases State.resume_sender_cases hsender hunique with
    ⟨hcancelled, _⟩ | ⟨_, _, heq⟩ | ⟨_, hnot, _⟩
  · rw [hrunning] at hcancelled
    cases hcancelled
  · refine ⟨_, .bring _ sender _ (.inr rfl) (.resume sender _ _ hsender heq)
      (World.mem_senders.mpr (.inr hsender)) fun other hother => ?_, Nat.add_lt_add_left ?_ _⟩
    · rcases World.mem_senders.mp hother with hother | hother
      · exact (hs.distinct.waiting_ne_arriving hother hsender).symm
      · exact bne_iff_ne.mp (List.mem_filter.mp hother).2
    · have hleave := State.to_do_leave hsender hunique
      rw [State.to_do_push]
      omega
  · exact absurd hgranted hnot

/-- While the buffer is empty and nobody is in line, a newcomer is rid of its order. -/
theorem World.Single.progress_of_arriving (hs : s.Single)
    (hfits : s.pipeline.Fits (max capacity 1)) (hbuffer : s.pipeline.queue.buffer = [])
    (hline : s.pipeline.queue.waiting = []) {sender : Sender} (hsender : sender ∈ s.arriving) :
    ∃ t, s.Progress t ∧ t.toDo < s.toDo := by
  have hfree := hfits.free_of_empty hbuffer hline
  have hlength : (s.arriving.filter (·.id != sender.id)).length + 1 = s.arriving.length := by
    have harrived := hs.distinct.tally_arrived hsender fun _ => true
    simpa only [List.countP_true, Function.comp_def, Bool.toNat_true] using harrived
  -- Nobody is in line afterwards either.
  have hgone (pipeline : State) (offer : Offer)
      (heq : s.pipeline.sendOrRelease sender.id sender.order = (pipeline, offer))
      (hempty : pipeline.queue.waiting = []) (htodo : pipeline.toDo ≤ s.pipeline.toDo + 2) :
      ∃ t, s.Progress t ∧ t.toDo < s.toDo := by
    refine ⟨_, .bring _ sender _ (.inl rfl) (.offer sender pipeline offer hsender heq)
      (World.mem_senders.mpr (.inl hsender)) fun other hother => ?_, ?_⟩
    · rcases World.mem_senders.mp hother with hother | hother
      · exact bne_iff_ne.mp (List.mem_filter.mp hother).2
      · rw [hempty] at hother
        cases hother
    · simp only [World.toDo]
      omega
  rcases s.pipeline.send_or_release_cases sender.id sender.order with
    ⟨_, _, heq⟩ | ⟨_, _, _, heq⟩ | ⟨_, _, hnone, _⟩
  · exact hgone _ _ heq hline (Nat.le_add_right _ _)
  · exact hgone _ _ heq hline (State.to_do_push _ _).le
  · rw [hfree] at hnone
    cases hnone

/-- While the buffer is empty and nobody is in line, a retry brings its order back. -/
theorem World.Single.progress_of_retry (hs : s.Single) (hrunning : s.pipeline.isCancelled = false)
    (hfits : s.pipeline.Fits (max capacity 1)) (hbuffer : s.pipeline.queue.buffer = [])
    (hline : s.pipeline.queue.waiting = []) (hretry : (id, order) ∈ s.pipeline.retries) :
    ∃ t, s.Progress t ∧ t.toDo < s.toDo := by
  have hunique := hs.distinct.pipeline id
  have hfound : s.pipeline.retryOrder? id = some order :=
    lookup_of_mem hretry (State.retries_unique hunique)
  have hremove := State.to_do_remove_retry hfound hunique
  refine ⟨_, .wakeRetry id (.wakeRetry id order hfound hrunning), Nat.add_lt_add_left ?_ _⟩
  show ((s.pipeline.removeRetry id).sendOrRelease id order).1.toDo < s.pipeline.toDo
  rcases (s.pipeline.removeRetry id).send_or_release_cases id order with
    ⟨_, _, heq⟩ | ⟨_, _, _, heq⟩ | ⟨_, _, hnone, _⟩
  · rw [heq]
    show (s.pipeline.removeRetry id).toDo < s.pipeline.toDo
    omega
  · rw [heq, State.to_do_push]
    omega
  · have hfree : (s.pipeline.removeRetry id).queue.hasFreeRoom = true :=
      hfits.free_of_empty hbuffer hline
    rw [hfree] at hnone
    cases hnone

/-- Whoever brings an order is not a worker. -/
theorem World.Distinct.worker_ne_sender (hs : s.Distinct)
    (hworker : (id, activity) ∈ s.pipeline.workers) {sender : Sender}
    (hsender : sender ∈ s.senders) : sender.id ≠ id := by
  rintro rfl
  have hbrings : 0 < s.senders.countP (Party.isCalled sender.id ∘ .ofSender) :=
    List.countP_pos_iff.mpr ⟨sender, hsender, by simp [Party.ofSender]⟩
  have hworks : 0 < s.pipeline.workers.countP (Party.isCalled sender.id ∘ .ofWorker) :=
    List.countP_pos_iff.mpr ⟨_, hworker, by simp [Party.ofWorker]⟩
  have hone := hs sender.id
  rw [World.senders, List.countP_append] at hbrings
  rw [World.partiesOf, World.tally_eq, State.tally_eq] at hone
  omega

end Workers

/-! ## The pool as a whole -/

/-- No worker crashes or is aborted in the step, and it is not the shutdown signal. -/
def Action.keepsPool : Action → Bool
  | .crash _ | .abort _ | .cancel => false
  | _ => true

/-- There are workers, unless all have left because nothing can come any more. -/
def World.IsStaffed (s : World) : Prop :=
  s.pipeline.workers ≠ [] ∨ s.pipeline.queue.isExhausted = true

/-- The pool is at work: different parties have different identifiers, no number has two jobs, the
buffer holds no more orders than it has room for, and the shutdown signal has not been given. -/
structure World.AtWork (s : World) (capacity : Nat) : Prop where
  single : s.Single
  fits : s.pipeline.Fits (max capacity 1)
  running : s.pipeline.isCancelled = false

/-- As long as a pool at work has workers, any job lets somebody get a job on, and then less is left
to do. -/
theorem World.AtWork.progress (h : s.AtWork capacity) (hstaffed : s.IsStaffed)
    {number : OrderNumber} (hjob : 0 < s.jobsOf number) :
    ∃ t, s.Progress t ∧ t.toDo < s.toDo := by
  by_cases hbuffer : s.pipeline.queue.buffer = []
  · by_cases hline : s.pipeline.queue.waiting = []
    · obtain ⟨x, hx, hnumber⟩ := List.countP_pos_iff.mp hjob
      rcases World.mem_parties.mp hx with ⟨sender, hsender, rfl⟩ | ⟨order, horder, rfl⟩ |
        ⟨⟨id, activity⟩, hworker, rfl⟩ | ⟨⟨id, order⟩, hretry, rfl⟩
      · rcases World.mem_senders.mp hsender with hsender | hsender
        · exact h.single.progress_of_arriving h.fits hbuffer hline hsender
        · rw [hline] at hsender
          cases hsender
      · rw [hbuffer] at horder
        cases horder
      · refine h.single.progress_of_busy h.running hworker ?_
        rintro rfl
        cases hnumber
      · exact h.single.progress_of_retry h.running h.fits hbuffer hline hretry
    · exact h.single.progress_of_line h.running h.fits hbuffer hline
  · rcases hstaffed with hworkers | hexhausted
    · exact h.single.progress_of_buffer h.running hworkers hbuffer
    · -- Workers that have left for good have left nothing in the buffer.
      rw [Queue.isExhausted, Bool.and_eq_true, List.isEmpty_iff] at hexhausted
      exact absurd hexhausted.2 hbuffer

/-- A queue is exhausted if it is stopped and nobody is in line or in the buffer. -/
theorem Queue.exhausted_iff (q : Queue) :
    q.isExhausted = true ↔ q.isOpen = false ∧ q.waiting = [] ∧ q.buffer = [] := by
  rw [Queue.isExhausted, Queue.isSealed, Bool.and_eq_true, Bool.and_eq_true, Bool.not_eq_true',
    List.isEmpty_iff, List.isEmpty_iff, and_assoc]

/-- An exhausted queue takes no order. -/
theorem State.send_or_release_exhausted {p : State} (h : p.queue.isExhausted = true) (id : Nat)
    (order : Order) : (p.sendOrRelease id order).1.queue.isExhausted = true := by
  have hclosed := ((Queue.exhausted_iff _).mp h).1
  rcases p.send_or_release_cases id order with ⟨_, _, heq⟩ | ⟨hopen, _⟩ | ⟨hopen, _⟩
  · rw [heq]
    exact h
  · rw [hclosed] at hopen
    cases hopen
  · rw [hclosed] at hopen
    cases hopen

/-- An exhausted queue remains exhausted. -/
theorem step_exhausted (h : s.pipeline.queue.isExhausted = true) {action : Action}
    {events : List Event} (hstep : Step s action events t) :
    t.pipeline.queue.isExhausted = true := by
  obtain ⟨hclosed, hline, hbuffer⟩ := (Queue.exhausted_iff _).mp h
  cases hstep with
  | offer sender pipeline offer _ heq =>
      have hoffered := State.send_or_release_exhausted h sender.id sender.order
      rw [heq] at hoffered
      exact hoffered
  | wakeRetry id order =>
      exact State.send_or_release_exhausted (p := s.pipeline.removeRetry id) h id order
  | resume sender _ _ hsender | dropCall sender hsender =>
      rw [hline] at hsender
      cases hsender
  | receive _ _ _ _ _ hcons =>
      rw [hbuffer] at hcons
      cases hcons
  | endPause id order =>
      show (s.pipeline.resumePause id order).queue.isExhausted = true
      rcases s.pipeline.resume_pause_cases id order with ⟨_, heq⟩ | ⟨hopen, _⟩ | ⟨hopen, _⟩
      · rw [heq]
        exact h
      · rw [hclosed] at hopen
        cases hopen
      · rw [hclosed] at hopen
        cases hopen
  | stop => exact (Queue.exhausted_iff _).mpr ⟨rfl, hline, hbuffer⟩
  | _ => exact h

/-- Bringing an order changes no worker. -/
theorem State.send_or_release_workers (p : State) (id : Nat) (order : Order) :
    (p.sendOrRelease id order).1.workers = p.workers := by
  rcases p.send_or_release_cases id order with ⟨_, _, heq⟩ | ⟨_, _, _, heq⟩ | ⟨_, _, _, heq⟩ <;>
  · rw [heq]
    rfl

/-- Going on in line changes no worker. -/
theorem State.resume_sender_workers (p : State) (id : Nat) :
    (p.resumeSender id).1.workers = p.workers := by
  unfold resumeSender
  split
  · rfl
  · split
    · rfl
    · split <;> rfl

/-- Workers who do something else are still there. -/
theorem State.set_activity_ne_nil {p : State} (h : p.workers ≠ []) (id : Nat)
    (activity : Activity) : (p.setActivity id activity).workers ≠ [] :=
  fun hnone => h (List.map_eq_nil_iff.mp hnone)

/-- As long as no worker crashes or is aborted and there is no shutdown, the last worker does not
leave before nothing can come any more. -/
theorem step_staffed (h : s.IsStaffed) (hrunning : s.pipeline.isCancelled = false)
    {action : Action} {events : List Event} (haction : action.keepsPool = true)
    (hstep : Step s action events t) : t.IsStaffed := by
  rcases h with hworkers | hexhausted
  · cases hstep with
    | crash | abort => cases haction
    | leave id _ hcause =>
        rcases hcause with hcancelled | hexhausted
        · rw [hrunning] at hcancelled
          cases hcancelled
        · exact .inr hexhausted
    | addWorker id => exact .inl (List.append_ne_nil_of_left_ne_nil hworkers _)
    | offer sender pipeline offer _ heq =>
        have hsame := s.pipeline.send_or_release_workers sender.id sender.order
        rw [heq] at hsame
        exact .inl fun hnone => hworkers (hsame.symm.trans hnone)
    | resume sender pipeline offer _ heq =>
        have hsame := s.pipeline.resume_sender_workers sender.id
        rw [heq] at hsame
        exact .inl fun hnone => hworkers (hsame.symm.trans hnone)
    | wakeRetry id order =>
        have hsame := (s.pipeline.removeRetry id).send_or_release_workers id order
        exact .inl fun hnone => hworkers (hsame.symm.trans hnone)
    | receive id order rest _ _ hbuffer =>
        refine .inl ?_
        show (s.pipeline.receive id).workers ≠ []
        rw [State.receive_eq hbuffer]
        exact State.set_activity_ne_nil hworkers _ _
    | endPause id order =>
        refine .inl ?_
        show (s.pipeline.resumePause id order).workers ≠ []
        rcases s.pipeline.resume_pause_cases id order with ⟨_, heq⟩ | ⟨_, _, heq⟩ | ⟨_, _, heq⟩ <;>
        · rw [heq]
          exact State.set_activity_ne_nil hworkers _ _
    | succeed | fail | retryLater | pause | expire | interruptPause =>
        exact .inl (State.set_activity_ne_nil hworkers _ _)
    | _ => exact .inl hworkers
  · exact .inr (step_exhausted hexhausted hstep)

/-- A pool at work stays at work. -/
theorem World.AtWork.step (h : s.AtWork capacity) {action : Action} {events : List Event}
    (haction : action.keepsPool = true) (hstep : Step s action events t) : t.AtWork capacity where
  single := late_step_single h.single (.now hstep)
  fits := step_fits h.single.distinct h.fits hstep
  running := by
    by_cases hstop : action = .stop
    · subst hstop
      cases hstep
      exact h.running
    · have hcancel : action ≠ .cancel := by
        rintro rfl
        cases haction
      exact (step_flags hstop hcancel hstep).2.trans h.running

/-- After any run without a shutdown in which no worker has crashed or been aborted, the pool is at
work, and there are workers if one has been started. -/
theorem at_work_of_run {actions : List Action} {log : List Event}
    (hrun : Run Step (.ofCapacity capacity) actions log s)
    (hkeeps : ∀ action ∈ actions, action.keepsPool = true) :
    s.AtWork capacity ∧ ((∃ id, .addWorker id ∈ actions) → s.IsStaffed) := by
  induction hrun with
  | nil =>
      refine ⟨⟨World.single_of_capacity capacity, ⟨rfl, Nat.zero_le _⟩, rfl⟩, ?_⟩
      rintro ⟨id, hmem⟩
      cases hmem
  | concat _ hstep ih =>
      obtain ⟨hwork, hstaffed⟩ := ih fun action hmem => hkeeps action (List.mem_append_left _ hmem)
      have haction := hkeeps _ (List.mem_append_right _ (List.mem_singleton_self _))
      refine ⟨hwork.step haction hstep, ?_⟩
      rintro ⟨id, hmem⟩
      rcases List.mem_append.mp hmem with hmem | hmem
      · exact step_staffed (hstaffed ⟨id, hmem⟩) hwork.running haction hstep
      · cases List.mem_singleton.mp hmem
        cases hstep
        exact .inl (List.append_ne_nil_of_right_ne_nil _ (List.cons_ne_nil _ _))

/-- A step that gets a job on keeps the pool. -/
theorem World.Progress.exists_step (h : s.Progress t) :
    ∃ action events, Step s action events t ∧ action.keepsPool = true := by
  cases h with
  | receive id hstep => exact ⟨_, _, hstep, rfl⟩
  | conclude id result hstep => exact ⟨_, _, hstep, rfl⟩
  | expire id hstep => exact ⟨_, _, hstep, rfl⟩
  | endPause id hstep => exact ⟨_, _, hstep, rfl⟩
  | wakeRetry id hstep => exact ⟨_, _, hstep, rfl⟩
  | bring action sender events haction hstep =>
      rcases haction with rfl | rfl
      · exact ⟨_, _, hstep, rfl⟩
      · exact ⟨_, _, hstep, rfl⟩

/-- A pool at work that has workers can get all jobs done. -/
theorem World.AtWork.can_finish (h : s.AtWork capacity) (hstaffed : s.IsStaffed) :
    ∃ u, Relation.ReflTransGen World.Progress s u ∧ ∀ number, u.jobsOf number = 0 := by
  induction hleft : s.toDo using Nat.strong_induction_on generalizing s with
  | h left ih =>
      by_cases hdone : ∀ number, s.jobsOf number = 0
      · exact ⟨s, .refl, hdone⟩
      · obtain ⟨number, hjob⟩ := not_forall.mp hdone
        obtain ⟨t, hprogress, hless⟩ := h.progress hstaffed (Nat.pos_of_ne_zero hjob)
        obtain ⟨_, _, hstep, haction⟩ := hprogress.exists_step
        obtain ⟨u, hlater, hu⟩ := ih t.toDo (hleft ▸ hless) (h.step haction hstep)
          (step_staffed hstaffed h.running haction hstep) rfl
        exact ⟨u, .head hprogress hlater, hu⟩

/-- In every run, however late the parties see the flags: the buffer holds no more orders than it
has room for, and if none of those in line has room, then the buffer is full. Until the shutdown
signal is given no worker is among those who bring an order to the queue, and every worker can go on
by itself. While there is a worker besides, or all have left because nothing can come any more, any
job lets somebody get a job on, and the parties can go on like this until all jobs are done. -/
theorem pool_goes_on {actions : List Action} {log : List Event}
    (h : Run LateStep (.ofCapacity capacity) actions log s) :
    s.pipeline.queue.buffer.length ≤ max capacity 1 ∧
    (s.pipeline.queue.waiting ≠ [] → s.pipeline.queue.granted = [] →
      s.pipeline.queue.buffer.length = max capacity 1) ∧
    (s.pipeline.isCancelled = false →
      (∀ id activity, (id, activity) ∈ s.pipeline.workers →
        (∀ sender ∈ s.senders, sender.id ≠ id) ∧ s.GoesOn id activity) ∧
      (s.IsStaffed →
        (∀ number, 0 < s.jobsOf number → ∃ t, s.Progress t) ∧
        ∃ t, Relation.ReflTransGen World.Progress s t ∧ ∀ number, t.jobsOf number = 0)) := by
  obtain ⟨hsingle, hfits⟩ := fits_of_run h
  refine ⟨hfits.bound, fun hline hgranted => ?_, fun hrunning => ⟨?_, fun hstaffed => ⟨?_, ?_⟩⟩⟩
  · have hnone : s.pipeline.queue.room = 0 :=
      (List.take_eq_nil_iff.mp hgranted).resolve_right hline
    have hsize := hfits.size
    have hbound := hfits.bound
    unfold Queue.room at hnone
    omega
  · intro id activity hworker
    exact ⟨fun _ => hsingle.distinct.worker_ne_sender hworker, hsingle.goes_on hrunning hworker⟩
  · intro number hjob
    have hwork : s.AtWork capacity := ⟨hsingle, hfits, hrunning⟩
    obtain ⟨t, hprogress, _⟩ := hwork.progress hstaffed hjob
    exact ⟨t, hprogress⟩
  · have hwork : s.AtWork capacity := ⟨hsingle, hfits, hrunning⟩
    exact hwork.can_finish hstaffed

/-- The only worker pauses with an order, the buffer is full, and a call waits for room. The worker
goes on by itself, somebody gets the job of the call on, and all jobs can be done. -/
theorem pool_goes_on_full :
    ∃ (actions : List Action) (log : List Event) (s : World),
      Run LateStep (.ofCapacity 0) actions log s ∧
      s.pipeline.workers = [(7, .pausing newOrder)] ∧
      s.pipeline.queue.waiting = [⟨3, thirdOrder⟩] ∧
      s.pipeline.queue.buffer.length = max 0 1 ∧
      s.GoesOn 7 (.pausing newOrder) ∧
      (∃ t, s.Progress t) ∧
      ∃ t, Relation.ReflTransGen World.Progress s t ∧ ∀ number, t.jobsOf number = 0 := by
  have hstart : Run LateStep (.ofCapacity 0) [] [] (.ofCapacity 0) := .nil
  have hworker := hstart.concat (.now (.addWorker 7 rfl))
  have hfirst := hworker.concat (.now (.arrive 1 newOrder rfl (by decide +kernel)))
  have hqueued := hfirst.concat (.now (.offer ⟨1, newOrder⟩ _ _ (by decide +kernel) rfl))
  have hreceived := hqueued.concat (.now (.receive 7 newOrder [] rfl rfl rfl))
  have hpaused := hreceived.concat (.now (.pause 7 newOrder 1000 rfl))
  have hsecond := hpaused.concat (.now (.arrive 2 secondOrder rfl (by decide +kernel)))
  have hfull := hsecond.concat (.now (.offer ⟨2, secondOrder⟩ _ _ (by decide +kernel) rfl))
  have hthird := hfull.concat (.now (.arrive 3 thirdOrder rfl (by decide +kernel)))
  have hwaiting := hthird.concat (.now (.offer ⟨3, thirdOrder⟩ _ _ (by decide +kernel) rfl))
  obtain ⟨_, hline, hgoes⟩ := pool_goes_on hwaiting
  obtain ⟨hworkers, hjobs⟩ := hgoes rfl
  obtain ⟨hprogress, hfinish⟩ := hjobs (.inl (List.cons_ne_nil _ _))
  refine ⟨_, _, _, hwaiting, rfl, rfl, ?_, ?_, ?_, hfinish⟩
  · exact hline (List.cons_ne_nil _ _) rfl
  · exact (hworkers 7 _ (List.mem_singleton_self _)).2
  · exact hprogress thirdOrder.number (by decide +kernel)

end Rewards.Pipeline
