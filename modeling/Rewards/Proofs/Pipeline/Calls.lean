import Rewards.Proofs.Pipeline.Jobs

/-!
# Calls that bring orders

A call that has not returned is bringing an order to the queue. `Calls` says what a step does to
them; `step_calls` is one lemma for each step that touches those on their way or in line.
-/

namespace Rewards.Pipeline

variable {s t : World}

namespace World

/-- Those who bring an order to the queue: on their way or in line. -/
def senders (s : World) : List Sender := s.arriving ++ s.pipeline.queue.waiting

/-- Who brings an order is on the way to the queue or in line. -/
theorem mem_senders {s : World} {sender : Sender} :
    sender ∈ s.senders ↔ sender ∈ s.arriving ∨ sender ∈ s.pipeline.queue.waiting :=
  List.mem_append

/-- A call is bringing the number to the queue. -/
def Bringing (s : World) (number : OrderNumber) : Prop :=
  ∃ sender ∈ s.senders, sender.id ∈ s.calls ∧ sender.order.number = number

/-- Every call that has not returned is bringing an order. -/
def Calling (s : World) : Prop := ∀ id ∈ s.calls, ∃ sender ∈ s.senders, sender.id = id

/-- Those who bring an order with the number have jobs for it. -/
theorem count_senders_le (s : World) (q : Party → Bool) :
    s.senders.countP (q ∘ .ofSender) + s.pipeline.retries.countP (q ∘ .ofRetry) +
      s.pipeline.queue.buffer.countP (q ∘ .ofOrder) ≤ s.tally q := by
  rw [tally_eq, State.tally_eq, senders, List.countP_append]
  omega

/-- Somebody new has another identifier than those who bring an order. -/
theorem ne_of_mem_senders {s : World} {sender : Sender} {id : Nat} (h : sender ∈ s.senders)
    (hfresh : s.partiesOf id = 0) : sender.id ≠ id := by
  rintro rfl
  have hbrought : 0 < s.senders.countP (Party.isCalled sender.id ∘ .ofSender) :=
    List.countP_pos_iff.mpr ⟨sender, h, by simp [Party.ofSender]⟩
  have hsum := s.count_senders_le (Party.isCalled sender.id)
  unfold partiesOf at hfresh
  omega

/-- A number in the buffer is not being brought by a call at the same time. -/
theorem Single.not_bringing (h : s.Single) {order : Order}
    (hbuffer : order ∈ s.pipeline.queue.buffer) : ¬ s.Bringing order.number := by
  rintro ⟨sender, hsender, _, hnumber⟩
  have hbrought : 0 < s.senders.countP (Party.hasOrder order.number ∘ .ofSender) :=
    List.countP_pos_iff.mpr ⟨sender, hsender, by simp [Party.ofSender, hnumber]⟩
  have hbuffered : 0 < s.pipeline.queue.buffer.countP (Party.hasOrder order.number ∘ .ofOrder) :=
    List.countP_pos_iff.mpr ⟨order, hbuffer, by simp [Party.ofOrder]⟩
  have hsum := s.count_senders_le (Party.hasOrder order.number)
  have hone := h.once order.number
  unfold jobsOf at hone
  omega

/-- A number in the buffer is tracked. -/
theorem Single.tracked_of_mem_buffer (h : s.Single) {order : Order}
    (hbuffer : order ∈ s.pipeline.queue.buffer) : order.number ∈ s.tracked := by
  refine h.tracked order.number ?_
  have hbuffered : 0 < s.pipeline.queue.buffer.countP (Party.hasOrder order.number ∘ .ofOrder) :=
    List.countP_pos_iff.mpr ⟨order, hbuffer, by simp [Party.ofOrder]⟩
  have hsum := s.count_senders_le (Party.hasOrder order.number)
  unfold jobsOf
  omega

/-- A retry is no call. -/
theorem Distinct.retry_not_call (h : s.Distinct) (hcalling : s.Calling) {id : Nat} {order : Order}
    (hfound : s.pipeline.retryOrder? id = some order) : id ∉ s.calls := by
  intro hcall
  obtain ⟨sender, hsender, hid⟩ := hcalling id hcall
  have hbrought : 0 < s.senders.countP (Party.isCalled id ∘ .ofSender) :=
    List.countP_pos_iff.mpr ⟨sender, hsender, by simp [Party.ofSender, hid]⟩
  have hretry : 0 < s.pipeline.retries.countP (Party.isCalled id ∘ .ofRetry) :=
    List.countP_pos_iff.mpr ⟨(id, order), State.mem_of_retry_order hfound,
      by simp [Party.ofRetry]⟩
  have hsum := s.count_senders_le (Party.isCalled id)
  have hone := h id
  unfold partiesOf at hone
  omega

end World

/-- What a step does to the calls: it begins to bring only numbers that were not tracked, every call
that goes on still brings an order, and if a call returns that its order is queued, it has been
bringing this order and the order is now in the buffer. -/
structure Calls (s : World) (events : List Event) (t : World) : Prop where
  bringing : ∀ number, t.Bringing number → s.Bringing number ∨ number ∉ s.tracked
  calling : t.Calling
  queued : ∀ id number, .returned id number (.ok .queued) ∈ events →
    events = [.returned id number (.ok .queued)] ∧ s.Bringing number ∧
      ∃ order ∈ t.pipeline.queue.buffer, order.number = number

/-- A step without a reply that leaves calls and senders alone. -/
theorem calls_quiet (hcalling : s.Calling) (hsenders : t.senders = s.senders)
    (hcalls : t.calls = s.calls) : Calls s [] t where
  bringing number h := by
    unfold World.Bringing at h
    rw [hsenders, hcalls] at h
    exact .inl h
  calling := by
    unfold World.Calling
    rw [hsenders, hcalls]
    exact hcalling
  queued _ _ h := nomatch h

/-- A sender is done, and his call, if there is one, is over. -/
theorem calls_settled (hcalling : s.Calling) {sender : Sender} {events : List Event}
    (hsub : ∀ x ∈ t.senders, x ∈ s.senders)
    (hkept : ∀ x ∈ s.senders, x.id ≠ sender.id → x ∈ t.senders)
    (hcalls : t.calls = s.calls.filter (· != sender.id))
    (hqueued : ∀ id number, .returned id number (.ok .queued) ∈ events →
      events = [.returned id number (.ok .queued)] ∧ s.Bringing number ∧
        ∃ order ∈ t.pipeline.queue.buffer, order.number = number) :
    Calls s events t where
  bringing number h := by
    obtain ⟨x, hx, hcall, hnumber⟩ := h
    rw [hcalls] at hcall
    exact .inl ⟨x, hsub x hx, (List.mem_filter.mp hcall).1, hnumber⟩
  calling id hid := by
    rw [hcalls] at hid
    obtain ⟨hcall, hother⟩ := List.mem_filter.mp hid
    obtain ⟨x, hx, rfl⟩ := hcalling id hcall
    exact ⟨x, hkept x hx (by simpa using hother), rfl⟩
  queued := hqueued

/-- A call returns that its order is queued only if the order has been sent. -/
theorem mem_returned_by {sender : Sender} {offer : Offer} {id : Nat} {number : OrderNumber}
    (h : .returned id number (.ok .queued) ∈ s.returnedBy sender offer) :
    offer = .sent ∧ sender.id ∈ s.calls ∧ number = sender.order.number ∧
      s.returnedBy sender offer = [.returned id number (.ok .queued)] := by
  unfold World.returnedBy at h ⊢
  cases offer with
  | waits => cases h
  | sent =>
      change _ ∈ (if sender.id ∈ s.calls then _ else _) at h
      split at h
      · rename_i hcall
        cases List.mem_singleton.mp h
        exact ⟨rfl, hcall, rfl, if_pos hcall⟩
      · cases h
  | refused e =>
      simp only [Offer.result?] at h
      split at h
      · cases List.mem_singleton.mp h
      · cases h

/-- A call that was on its way to the queue is over. -/
theorem arrived_calls (hcalling : s.Calling) {sender : Sender} {p : State} {events : List Event}
    (hwaiting : p.queue.waiting = s.pipeline.queue.waiting)
    (hqueued : ∀ id number, .returned id number (.ok .queued) ∈ events →
      events = [.returned id number (.ok .queued)] ∧ s.Bringing number ∧
        ∃ order ∈ p.queue.buffer, order.number = number) :
    Calls s events
      ⟨p, s.arriving.filter (·.id != sender.id), s.calls.filter (· != sender.id)⟩ := by
  refine calls_settled hcalling ?_ ?_ rfl hqueued
  · intro x hx
    rcases World.mem_senders.mp hx with hx | hx
    · exact World.mem_senders.mpr (.inl (List.mem_filter.mp hx).1)
    · exact World.mem_senders.mpr (.inr (hwaiting ▸ hx))
  · intro x hx hother
    rcases World.mem_senders.mp hx with hx | hx
    · exact World.mem_senders.mpr (.inl (List.mem_filter.mpr ⟨hx, by simpa using hother⟩))
    · exact World.mem_senders.mpr (.inr (hwaiting ▸ hx))

/-- A call that was in line is over. -/
theorem left_calls (hcalling : s.Calling) {sender : Sender} {p : State} {events : List Event}
    (hwaiting : p.queue.waiting = s.pipeline.queue.waiting.filter (·.id != sender.id))
    (hqueued : ∀ id number, .returned id number (.ok .queued) ∈ events →
      events = [.returned id number (.ok .queued)] ∧ s.Bringing number ∧
        ∃ order ∈ p.queue.buffer, order.number = number) :
    Calls s events ⟨p, s.arriving, s.calls.filter (· != sender.id)⟩ := by
  have hline (x : Sender) : x ∈ p.queue.waiting ↔
      x ∈ s.pipeline.queue.waiting ∧ x.id ≠ sender.id := by
    rw [hwaiting, List.mem_filter, bne_iff_ne]
  refine calls_settled hcalling ?_ ?_ rfl hqueued
  · intro x hx
    rcases World.mem_senders.mp hx with hx | hx
    · exact World.mem_senders.mpr (.inl hx)
    · exact World.mem_senders.mpr (.inr ((hline x).mp hx).1)
  · intro x hx hother
    rcases World.mem_senders.mp hx with hx | hx
    · exact World.mem_senders.mpr (.inl hx)
    · exact World.mem_senders.mpr (.inr ((hline x).mpr ⟨hx, hother⟩))

/-- A sender gets in line. If it is a call, it has been on its way before. -/
theorem awaited_calls (hcalling : s.Calling) {sender : Sender} {p : State}
    {arriving : List Sender} {events : List Event}
    (hwaiting : p.queue.waiting = s.pipeline.queue.waiting ++ [sender])
    (hsub : ∀ x ∈ arriving, x ∈ s.arriving)
    (hkept : ∀ x ∈ s.arriving, x.id ≠ sender.id → x ∈ arriving)
    (hcall : sender.id ∈ s.calls → sender ∈ s.senders)
    (hnone : ∀ id number, .returned id number (.ok .queued) ∉ events) :
    Calls s events ⟨p, arriving, s.calls⟩ := by
  have hline (x : Sender) : x ∈ p.queue.waiting ↔ x ∈ s.pipeline.queue.waiting ∨ x = sender := by
    rw [hwaiting, List.mem_append, List.mem_singleton]
  refine ⟨?_, ?_, fun id number h => absurd h (hnone id number)⟩
  · rintro number ⟨x, hx, hgoing, hnumber⟩
    refine .inl ⟨x, ?_, hgoing, hnumber⟩
    rcases World.mem_senders.mp hx with hx | hx
    · exact World.mem_senders.mpr (.inl (hsub x hx))
    · rcases (hline x).mp hx with hx | rfl
      · exact World.mem_senders.mpr (.inr hx)
      · exact hcall hgoing
  · intro id hid
    by_cases hself : id = sender.id
    · exact ⟨sender, World.mem_senders.mpr (.inr ((hline sender).mpr (.inr rfl))), hself.symm⟩
    · obtain ⟨x, hx, rfl⟩ := hcalling id hid
      rcases World.mem_senders.mp hx with hx | hx
      · exact ⟨x, World.mem_senders.mpr (.inl (hkept x hx hself)), rfl⟩
      · exact ⟨x, World.mem_senders.mpr (.inr ((hline x).mpr (.inl hx))), rfl⟩

/-- A call brings its order to the queue. -/
theorem offer_calls (hcalling : s.Calling) {sender : Sender} (hsender : sender ∈ s.arriving)
    {pipeline : State} {offer : Offer}
    (hsend : s.pipeline.sendOrRelease sender.id sender.order = (pipeline, offer)) :
    Calls s (s.returnedBy sender offer)
      ⟨pipeline, s.arriving.filter (·.id != sender.id), s.callsAfter sender offer⟩ := by
  rcases State.send_or_release_cases s.pipeline sender.id sender.order with
    ⟨_, e, heq⟩ | ⟨_, _, _, heq⟩ | ⟨_, _, _, heq⟩
  · rw [hsend] at heq
    cases heq
    exact arrived_calls hcalling rfl fun id number h => nomatch (mem_returned_by h).1
  · rw [hsend] at heq
    cases heq
    refine arrived_calls hcalling rfl fun id number h => ?_
    obtain ⟨_, hcall, rfl, hevents⟩ := mem_returned_by h
    exact ⟨hevents, ⟨sender, List.mem_append_left _ hsender, hcall, rfl⟩, sender.order,
      List.mem_append_right _ (List.mem_singleton_self _), rfl⟩
  · rw [hsend] at heq
    cases heq
    refine awaited_calls hcalling rfl ?_ ?_ ?_ ?_
    · intro x hx
      exact (List.mem_filter.mp hx).1
    · intro x hx hother
      exact List.mem_filter.mpr ⟨hx, by simpa using hother⟩
    · intro _
      exact World.mem_senders.mpr (.inl hsender)
    · intro id number h
      cases (mem_returned_by h).1

/-- Somebody in line goes on. -/
theorem resume_calls (hs : s.Distinct) (hcalling : s.Calling) {sender : Sender}
    (hsender : sender ∈ s.pipeline.queue.waiting) {pipeline : State} {offer : Offer}
    (hresume : s.pipeline.resumeSender sender.id = (pipeline, offer)) :
    Calls s (s.returnedBy sender offer) ⟨pipeline, s.arriving, s.callsAfter sender offer⟩ := by
  rcases State.resume_sender_cases hsender (hs.pipeline sender.id) with
    ⟨_, heq⟩ | ⟨_, _, heq⟩ | ⟨_, _, heq⟩
  · rw [hresume] at heq
    cases heq
    exact left_calls hcalling rfl fun id number h => nomatch (mem_returned_by h).1
  · rw [hresume] at heq
    cases heq
    refine left_calls hcalling rfl fun id number h => ?_
    obtain ⟨_, hcall, rfl, hevents⟩ := mem_returned_by h
    exact ⟨hevents, ⟨sender, List.mem_append_right _ hsender, hcall, rfl⟩, sender.order,
      List.mem_append_right _ (List.mem_singleton_self _), rfl⟩
  · rw [hresume] at heq
    cases heq
    exact calls_quiet hcalling rfl rfl

/-- A retry brings its order back. -/
theorem wake_calls (hs : s.Distinct) (hcalling : s.Calling) {id : Nat} {order : Order}
    (hfound : s.pipeline.retryOrder? id = some order) :
    Calls s [] (s.onPipeline fun p => (p.wakeRetry id order).1) := by
  show Calls s [] { s with
    pipeline := ((s.pipeline.removeRetry id).sendOrRelease id order).1 }
  rcases State.send_or_release_cases (s.pipeline.removeRetry id) id order with
    ⟨_, e, heq⟩ | ⟨_, _, _, heq⟩ | ⟨_, _, _, heq⟩
  · rw [heq]
    exact calls_quiet hcalling rfl rfl
  · rw [heq]
    exact calls_quiet hcalling rfl rfl
  · rw [heq]
    refine awaited_calls hcalling rfl ?_ ?_ ?_ ?_
    · intro x hx
      exact hx
    · intro x hx _
      exact hx
    · intro hcall
      exact absurd hcall (hs.retry_not_call hcalling hfound)
    · intro _ _ h
      cases h

/-- A call arrives. -/
theorem arrive_calls (hcalling : s.Calling) {id : Nat} {order : Order}
    (hfresh : s.partiesOf id = 0) (hnew : order.number ∉ s.tracked) :
    Calls s []
      { s with
        pipeline := s.pipeline.onQueue (·.track order.number),
        arriving := s.arriving ++ [⟨id, order⟩],
        calls := s.calls ++ [id] } := by
  have hway (x : Sender) : x ∈ s.arriving ++ [⟨id, order⟩] ↔ x ∈ s.arriving ∨ x = ⟨id, order⟩ := by
    rw [List.mem_append, List.mem_singleton]
  have hkept (x : Sender) (hx : x ∈ s.senders) :
      x ∈ s.arriving ++ [⟨id, order⟩] ∨ x ∈ s.pipeline.queue.waiting := by
    rcases World.mem_senders.mp hx with hx | hx
    · exact .inl ((hway x).mpr (.inl hx))
    · exact .inr hx
  refine ⟨?_, ?_, fun _ _ h => absurd h List.not_mem_nil⟩
  · rintro number ⟨x, hx, hcall, hnumber⟩
    have hsender : x ∈ s.senders ∨ x = ⟨id, order⟩ := by
      rcases World.mem_senders.mp hx with hx | hx
      · exact ((hway x).mp hx).imp_left fun h => World.mem_senders.mpr (.inl h)
      · exact .inl (World.mem_senders.mpr (.inr hx))
    rcases hsender with hold | rfl
    · rcases List.mem_append.mp hcall with hcall | hcall
      · exact .inl ⟨x, hold, hcall, hnumber⟩
      · exact absurd (List.mem_singleton.mp hcall) (World.ne_of_mem_senders hold hfresh)
    · exact .inr (hnumber ▸ hnew)
  · intro other hcall
    rcases List.mem_append.mp hcall with hcall | hcall
    · obtain ⟨x, hx, hid⟩ := hcalling other hcall
      exact ⟨x, World.mem_senders.mpr (hkept x hx), hid⟩
    · rw [List.mem_singleton.mp hcall]
      exact ⟨_, World.mem_senders.mpr (.inl ((hway _).mpr (.inr rfl))), rfl⟩

/-- What every step does to the calls. -/
theorem step_calls (hs : s.Distinct) (hcalling : s.Calling) {action : Action}
    {events : List Event} (hstep : Step s action events t) : Calls s events t := by
  cases hstep with
  | arrive id order hfresh hnew => exact arrive_calls hcalling hfresh hnew
  | turnAway id order =>
      refine ⟨fun number h => .inl h, hcalling, fun other number h => ?_⟩
      cases List.mem_singleton.mp h
  | offer sender pipeline offer hsender hsend => exact offer_calls hcalling hsender hsend
  | resume sender pipeline offer hsender hresume => exact resume_calls hs hcalling hsender hresume
  | dropArrival sender => exact arrived_calls hcalling rfl fun _ _ h => nomatch h
  | dropCall sender => exact left_calls hcalling rfl fun _ _ h => nomatch h
  | wakeRetry id order hfound => exact wake_calls hs hcalling hfound
  | receive id order rest _ _ hbuffer =>
      refine calls_quiet hcalling ?_ rfl
      show s.arriving ++ (s.pipeline.receive id).queue.waiting = _
      rw [State.receive_eq hbuffer]
      rfl
  | endPause id order =>
      refine calls_quiet hcalling ?_ rfl
      show s.arriving ++ (s.pipeline.resumePause id order).queue.waiting = _
      rcases State.resume_pause_cases s.pipeline id order with ⟨_, heq⟩ | ⟨_, _, heq⟩ | ⟨_, _, heq⟩
      · rw [heq]; rfl
      · rw [heq]; rfl
      · rw [heq]; rfl
  | _ => exact calls_quiet hcalling rfl rfl

end Rewards.Pipeline
