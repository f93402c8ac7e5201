import Rewards.Proofs.Pipeline.Race

/-!
# Why an attempt fails

An attempt that fails drops its order for good. `Attempt.OnCourse` says what an attempt that has not
failed can rely on in the store at each stage: writes of others keep it, and a step leads from it to
it unless the first look at the order finds nothing. So no race makes an attempt fail, and nobody
asks the accrual system about an order that has not been claimed.
-/

namespace Rewards.Pipeline

open Store (Allowed moved Started Writes)

variable {s t : Store} {number : OrderNumber} {now : Instant} {a b : Attempt}

namespace Attempt

/-! ## What an attempt relies on -/

/-- The attempt has not failed, and the store is as its next step needs it. An order that is to be
claimed is stored. From the claim on it is stored as started, whoever has started it. The copies
that the attempt holds are those that the operations of an order accept. -/
def OnCourse (s : Store) (number : OrderNumber) : Attempt → Prop
  | .reading => True
  | .claiming seen => seen.number = number ∧ seen.status = .new ∧ s.order? number ≠ none
  | .rereading => s.Started number
  | .asking order => order.number = number ∧ order.status = .processing ∧ s.Started number
  | .finishing seen => Allowed .processing seen.status (storedAccrual seen) ∧ s.Started number
  | .done result => ∀ reason, result ≠ .fatal reason

/-- A started order is stored. -/
theorem lookup_of_started (h : s.Started number) : s.order? number ≠ none := by
  obtain ⟨order, hfound, _⟩ := h
  rw [hfound]
  exact Option.some_ne_none order

/-- What others write does not lead an attempt astray. -/
theorem OnCourse.later (h : a.OnCourse s number) (hwrites : Writes s t) : a.OnCourse t number := by
  cases a with
  | reading => exact h
  | claiming seen =>
      obtain ⟨hnumber, hnew, hstored⟩ := h
      obtain ⟨order, hfound⟩ := Option.ne_none_iff_exists'.mp hstored
      obtain ⟨later, hlater, _⟩ := hwrites.leads_to hfound
      exact ⟨hnumber, hnew, by rw [hlater]; exact Option.some_ne_none later⟩
  | rereading => exact hwrites.started h
  | asking order => exact ⟨h.1, h.2.1, hwrites.started h.2.2⟩
  | finishing seen => exact ⟨h.1, hwrites.started h.2⟩
  | done result => exact h

/-- An attempt goes on with a stored order that has been started. -/
theorem on_course_proceed {order : Order} (hfound : s.order? number = some order)
    (hstarted : order.status ≠ .new) : (proceed order).OnCourse s number := by
  rcases proceed_cases order with ⟨hstatus, heq⟩ | ⟨_, heq⟩ | ⟨hnew, _⟩
  · rw [heq]
    exact ⟨Store.number_of_lookup hfound, hstatus, order, hfound, hstarted⟩
  · rw [heq]
    intro reason hfailed
    cases hfailed
  · exact absurd hnew hstarted

/-- An attempt goes on with the order that it has found first. -/
theorem on_course_begin {order : Order} (hfound : s.order? number = some order) :
    (begin order).OnCourse s number := by
  rcases begin_cases order with ⟨hnew, heq⟩ | ⟨hstarted, heq⟩
  · rw [heq]
    exact ⟨Store.number_of_lookup hfound, hnew, by rw [hfound]; exact Option.some_ne_none order⟩
  · rw [heq]
    exact on_course_proceed hfound hstarted

/-! ## What a step keeps -/

/-- Only an attempt that reads can miss its order. -/
theorem OnCourse.stored (h : a.OnCourse s number) (hwaiting : a.isWaiting = false)
    (hreading : a ≠ .reading) : s.order? number ≠ none := by
  cases a with
  | reading => exact absurd rfl hreading
  | claiming seen => exact h.2.2
  | rereading => exact lookup_of_started h
  | finishing seen => exact lookup_of_started h.2
  | asking | done => cases hwaiting

/-- A step keeps an attempt on course unless it reads an order that is not stored. -/
theorem OnCourse.effect (h : a.OnCourse s number) (heffect : Effect s number now a b t)
    (hread : a = .reading → s.order? number ≠ none) : b.OnCourse t number := by
  cases heffect with
  | wait => exact h
  | missing _ reason hwaiting hnone =>
      refine absurd hnone ?_
      by_cases hreading : a = .reading
      · exact hread hreading
      · exact h.stored hwaiting hreading
  | read order hfound => exact on_course_begin hfound
  | claim seen order hfound hstatus =>
      obtain ⟨hnumber, hnew, _⟩ := h
      rcases after_claim_cases seen with ⟨_, heq⟩ | ⟨hstarted, _⟩
      · rw [heq]
        refine ⟨hnumber, rfl, moved order .processing none, ?_, by simp [moved]⟩
        rw [Store.lookup_settle, hfound]
        simp [moved, Store.number_of_lookup hfound]
      · exact absurd hnew hstarted
  | late seen order hfound hstarted => exact ⟨order, hfound, hstarted⟩
  | reread order hfound =>
      -- Whoever was faster has started the order, so it is not found new again.
      obtain ⟨found, hlookup, hstarted⟩ := h
      obtain rfl : order = found := Option.some.inj (hfound.symm.trans hlookup)
      exact on_course_proceed hfound hstarted
  | refused seen reason hrefused => exact absurd h.1 hrefused
  | finish | beaten =>
      intro reason hfailed
      cases hfailed

/-- The first look at an order that is not stored says so. -/
theorem read_missing (hnone : s.order? number = none) (now : Instant) :
    ((Attempt.reading.step (access now) number).run s).1 =
      fail s!"order {number.text} not found" := by
  show useStored number begin (.ok (s.order? number)) = _
  rw [hnone]
  rfl

/-- A step leaves an attempt on course, or it is the first look at an order that is not stored. -/
theorem OnCourse.step (h : a.OnCourse s number) (now : Instant) :
    ((a.step (access now) number).run s).1.OnCourse ((a.step (access now) number).run s).2 number ∨
    (a = .reading ∧ s.order? number = none ∧
      ((a.step (access now) number).run s).1 = fail s!"order {number.text} not found") := by
  by_cases hmissing : a = .reading ∧ s.order? number = none
  · obtain ⟨rfl, hnone⟩ := hmissing
    exact .inr ⟨rfl, hnone, read_missing hnone now⟩
  · refine .inl (h.effect (step_effect s number now a) ?_)
    intro hreading hnone
    exact hmissing ⟨hreading, hnone⟩

/-- A reply leaves an attempt on course, or it is an error that asking again does not cure. An
amount must not be negative. -/
theorem OnCourse.answer {order : Order} (h : (Attempt.asking order).OnCourse s number)
    (reply : AccrualReply)
    (hamount : ∀ amount, reply = .ok (.resolved amount) → amount.isNegative = false) :
    (Attempt.answer order reply).OnCourse s number ∨
    ∃ e, reply = .error e ∧ e.isTransient = false ∧
      Attempt.answer order reply = fail e.message := by
  obtain ⟨_, hstatus, hstarted⟩ := h
  cases reply with
  | error e =>
      cases htransient : e.isTransient with
      | true =>
          refine .inl ?_
          simp [Attempt.answer, htransient, OnCourse]
      | false =>
          refine .inr ⟨e, rfl, htransient, ?_⟩
          simp [Attempt.answer, htransient]
  | ok outcome =>
      refine .inl ?_
      cases outcome with
      | resolved amount =>
          have hresolve := Order.resolve_ok_iff.mpr ⟨hstatus, hamount amount rfl, rfl⟩
          simp only [Attempt.answer, hresolve, settle]
          exact ⟨⟨rfl, fun _ => rfl⟩, hstarted⟩
      | invalid =>
          have hreject := Order.reject_ok_iff.mpr ⟨hstatus, rfl⟩
          simp only [Attempt.answer, hreject, settle]
          refine ⟨⟨rfl, fun hprocessed => ?_⟩, hstarted⟩
          cases hprocessed
      | notReady | notFound =>
          intro reason hfailed
          cases hfailed
      | throttled wait =>
          cases wait with
          | none | some =>
              intro reason hfailed
              cases hfailed

end Attempt

/-! ## Races -/

namespace Race

/-- What made a runner fail, with the reason that it gives: when it first looked its order up the
order was not stored, or its own question was answered by an error that asking again does not
cure. -/
inductive FatalCause (events : List Event) (id : Nat) (r : Runner) : String → Prop where
  | missing (before later : List Event) (now : Instant) (q : Runner) :
      events = before ++ .act id (.step now) :: later →
      (after before).runners[id]? = some q → q.isAbandoned = false →
      q.number = r.number → q.attempt = .reading →
      (after before).store.order? r.number = none →
      FatalCause events id r s!"order {r.number.text} not found"
  | refused (e : AccrualError) :
      r.heard = some (.error e) → e.isTransient = false → FatalCause events id r e.message

/-- The runner is on course, or it has failed with a cause. -/
def Explained (events : List Event) (id : Nat) (r : Runner) : Prop :=
  r.attempt.OnCourse (after events).store r.number ∨
  ∃ reason, r.attempt = .done (.fatal reason) ∧ FatalCause events id r reason

theorem after_concat (events : List Event) (event : Event) :
    after (events ++ [event]) = (after events).step event := by
  rw [after, List.foldl_append]
  rfl

/-- A runner after an event is as before, has just been started, or has acted. -/
theorem runner_of_step {w : Race} {event : Event} {id : Nat} {r : Runner}
    (h : (w.step event).runners[id]? = some r) :
    w.runners[id]? = some r ∨ (∃ number, r = Runner.start number) ∨
    ∃ q action, event = .act id action ∧ w.runners[id]? = some q ∧ q.isAbandoned = false ∧
      (w.step event).store = (q.act w.store action).2 ∧
      r = (q.act w.store action).1.observe w.store (q.act w.store action).2 := by
  cases event with
  | start number =>
      change (w.runners ++ [Runner.start number])[id]? = some r at h
      rw [List.getElem?_append] at h
      split at h
      · exact .inl h
      · exact .inr (.inl ⟨number, List.mem_singleton.mp (List.mem_of_getElem? h)⟩)
  | call call =>
      refine .inl ?_
      change (w.call call).runners[id]? = some r at h
      unfold Race.call at h
      split at h <;> exact h
  | act actor action =>
      change (w.act actor action).runners[id]? = some r at h
      cases hq : w.runners[actor]? with
      | none =>
          simp only [Race.act, hq] at h
          exact .inl h
      | some q =>
          cases habandoned : q.isAbandoned with
          | true =>
              simp only [Race.act, hq, habandoned, if_true] at h
              exact .inl h
          | false =>
              have hact : w.act actor action = ⟨(q.act w.store action).2, w.runners.set actor
                  ((q.act w.store action).1.observe w.store (q.act w.store action).2)⟩ := by
                simp [Race.act, hq, habandoned]
              rw [hact, List.getElem?_set] at h
              split at h
              · rename_i hactor
                subst hactor
                split at h
                · exact .inr (.inr ⟨q, action, rfl, hq, habandoned,
                    congrArg Race.store hact, (Option.some.inj h).symm⟩)
                · cases h
              · exact .inl h

/-- A cause remains a cause, whatever happens later and whatever the runner has not heard. -/
theorem FatalCause.later {events : List Event} {id : Nat} {r q : Runner} {reason : String}
    (h : FatalCause events id r reason) (event : Event) (hnumber : q.number = r.number)
    (hheard : q.heard = r.heard) : FatalCause (events ++ [event]) id q reason := by
  cases h with
  | missing before later now first hevents hfirst habandoned hsame hreading hnone =>
      rw [← hnumber] at hsame hnone ⊢
      refine .missing before (later ++ [event]) now first ?_ hfirst habandoned hsame hreading hnone
      rw [hevents, List.append_assoc]
      rfl
  | refused e herror htransient => exact .refused e (hheard.trans herror) htransient

/-- An event that leaves the attempt of a runner where it is leaves the runner explained. -/
theorem Explained.later {events : List Event} {id : Nat} {q r : Runner} (h : Explained events id q)
    (event : Event) (hnumber : r.number = q.number) (hattempt : r.attempt = q.attempt)
    (hheard : r.heard = q.heard) : Explained (events ++ [event]) id r := by
  unfold Explained
  rw [after_concat, hnumber, hattempt]
  rcases h with hcourse | ⟨reason, hfatal, hcause⟩
  · exact .inl (hcourse.later ((after events).step_writes event))
  · exact .inr ⟨reason, hfatal, hcause.later event hnumber hheard⟩

/-- A runner that acts stays explained. -/
theorem Explained.act {events : List Event} {id : Nat} {q : Runner} {action : Runner.Action}
    (h : Explained events id q)
    (hamount : ∀ amount, action = .hear (.ok (.resolved amount)) → amount.isNegative = false)
    (hq : (after events).runners[id]? = some q) (habandoned : q.isAbandoned = false)
    (hstore : (after (events ++ [.act id action])).store = (q.act (after events).store action).2) :
    Explained (events ++ [.act id action]) id
      ((q.act (after events).store action).1.observe (after events).store
        (q.act (after events).store action).2) := by
  cases action with
  | abandon => exact h.later _ rfl rfl rfl
  | step now =>
      rcases h with hcourse | ⟨reason, hfatal, hcause⟩
      · rcases hcourse.step now with hnext | ⟨hreading, hnone, hmissing⟩
        · refine .inl ?_
          rw [hstore]
          exact hnext
        · exact .inr ⟨_, hmissing,
            .missing events [] now q rfl hq habandoned rfl hreading hnone⟩
      · refine .inr ⟨reason, ?_, hcause.later _ rfl rfl⟩
        show ((q.attempt.step (Attempt.access now) q.number).run _).1 = _
        rw [hfatal]
        rfl
  | hear reply =>
      show Explained _ id ((q.hear reply).observe _ _)
      cases hattempt : q.attempt with
      | asking order =>
          have hheard : q.hear reply =
              { q with attempt := .answer order reply, heard := some reply } := by
            simp only [Runner.hear, hattempt]
          rw [hheard]
          rcases h with hcourse | ⟨reason, hfatal, _⟩
          · rw [hattempt] at hcourse
            have hcourse := hcourse.later ((after events).step_writes (.act id (.hear reply)))
            rcases hcourse.answer reply (fun amount heq => hamount amount (heq ▸ rfl)) with
              hnext | ⟨e, rfl, htransient, hfail⟩
            · rw [← after_concat] at hnext
              exact .inl hnext
            · exact .inr ⟨e.message, hfail, .refused e rfl htransient⟩
          · rw [hattempt] at hfatal
            cases hfatal
      | reading | claiming | rereading | finishing | done =>
          have hsame : q.hear reply = q := by simp only [Runner.hear, hattempt]
          rw [hsame]
          exact h.later _ rfl rfl rfl

/-- After any events every runner is on course or has failed with a cause, if no reply has a
negative amount. -/
theorem explained_after (events : List Event)
    (hamounts : ∀ id amount,
      .act id (.hear (.ok (.resolved amount))) ∈ events → amount.isNegative = false)
    (id : Nat) (r : Runner) (hr : (after events).runners[id]? = some r) :
    Explained events id r := by
  induction events using List.reverseRecOn generalizing r with
  | nil => cases hr
  | append_singleton events event ih =>
      have hbefore := ih fun id amount h => hamounts id amount (List.mem_append_left _ h)
      have hlast (amount : Decimal) (h : event = .act id (.hear (.ok (.resolved amount)))) :
          amount.isNegative = false :=
        hamounts id amount (List.mem_append_right _ (List.mem_singleton.mpr h.symm))
      rw [after_concat] at hr
      rcases runner_of_step hr with
        hr | ⟨number, rfl⟩ | ⟨q, action, rfl, hq, habandoned, hstore, hr⟩
      · exact (hbefore r hr).later event rfl rfl rfl
      · exact .inl trivial
      · rw [← after_concat] at hstore
        rw [hr]
        exact (hbefore q hq).act (fun amount h => hlast amount (h ▸ rfl)) hq habandoned hstore

/-- After any events in which no amount is negative: a runner that has failed has a cause, so it has
not found its order in the store when it first looked, or has been told an error that asking again
does not cure. The order that a runner is about to claim can be started; what a runner finds that
comes too late for the claim is not new. A runner that asks the accrual system asks about its own
order, which is stored and no longer new, and its copy can be rejected and can be resolved with
every amount that is not negative. -/
theorem failed_with_cause (events : List Event)
    (hamounts : ∀ id amount,
      .act id (.hear (.ok (.resolved amount))) ∈ events → amount.isNegative = false) :
    (∀ id r reason, (after events).runners[id]? = some r → r.attempt = .done (.fatal reason) →
      FatalCause events id r reason) ∧
    (∀ r ∈ (after events).runners, ∀ seen, r.attempt = .claiming seen →
      ∃ claimed, seen.start = .ok claimed) ∧
    (∀ r ∈ (after events).runners, r.attempt = .rereading →
      ∃ order, (after events).store.order? r.number = some order ∧ order.status ≠ .new) ∧
    (∀ r ∈ (after events).runners, ∀ order, r.attempt = .asking order →
      order.number = r.number ∧
      (∃ stored, (after events).store.order? r.number = some stored ∧ stored.status ≠ .new) ∧
      (∃ rejected, order.reject = .ok rejected) ∧
      ∀ amount, amount.isNegative = false → ∃ resolved, order.resolve amount = .ok resolved) := by
  have hexplained := explained_after events hamounts
  -- A runner that has not ended is on course.
  have hcourse (r : Runner) (hr : r ∈ (after events).runners)
      (hopen : ∀ reason, r.attempt ≠ .done (.fatal reason)) :
      r.attempt.OnCourse (after events).store r.number := by
    obtain ⟨id, hid⟩ := List.mem_iff_getElem?.mp hr
    rcases hexplained id r hid with hcourse | ⟨reason, hfatal, _⟩
    · exact hcourse
    · exact absurd hfatal (hopen reason)
  refine ⟨?_, ?_, ?_, ?_⟩
  · intro id r reason hr hfatal
    rcases hexplained id r hr with hcourse | ⟨other, hother, hcause⟩
    · rw [hfatal] at hcourse
      exact absurd rfl (hcourse reason)
    · rw [hfatal] at hother
      cases hother
      exact hcause
  · intro r hr seen hattempt
    have h := hcourse r hr (by rw [hattempt]; simp)
    rw [hattempt] at h
    exact ⟨_, Order.start_ok_iff.mpr ⟨h.2.1, rfl⟩⟩
  · intro r hr hattempt
    have h := hcourse r hr (by rw [hattempt]; simp)
    rw [hattempt] at h
    exact h
  · intro r hr order hattempt
    have h := hcourse r hr (by rw [hattempt]; simp)
    rw [hattempt] at h
    obtain ⟨hnumber, hstatus, hstarted⟩ := h
    exact ⟨hnumber, hstarted, ⟨_, Order.reject_ok_iff.mpr ⟨hstatus, rfl⟩⟩,
      fun amount hamount => ⟨_, Order.resolve_ok_iff.mpr ⟨hstatus, hamount, rfl⟩⟩⟩

/-- Three attempts: the first claims its order and is told that something is wrong, the second
finds the order claimed and is told an amount, the third finds no order. -/
theorem failed_with_cause_of_three :
    let events : List Event := [.call (.createOrder ⟨"18", by decide⟩ default default),
      .start ⟨"18", by decide⟩, .start ⟨"18", by decide⟩, .start ⟨"26", by decide⟩,
      .act 0 (.step default), .act 1 (.step default), .act 0 (.step default),
      .act 1 (.step default), .act 1 (.step default), .act 2 (.step default),
      .act 0 (.hear (.error (.unexpected "status 404"))),
      .act 1 (.hear (.ok (.resolved ⟨5, 0, by decide, by decide⟩)))]
    (after events).runners.map (·.attempt) =
      [.fail "unexpected accrual response: status 404",
        .finishing ⟨⟨"18", by decide⟩, default, .processed, ⟨5, 0, by decide, by decide⟩, default⟩,
        .fail "order 26 not found"] ∧
    (∀ id amount,
      .act id (.hear (.ok (.resolved amount))) ∈ events → amount.isNegative = false) ∧
    ∀ id r reason, (after events).runners[id]? = some r → r.attempt = .done (.fatal reason) →
      FatalCause events id r reason := by
  intro events
  have hamounts : ∀ id amount,
      .act id (.hear (.ok (.resolved amount))) ∈ events → amount.isNegative = false := by
    simp only [events, List.mem_cons, List.not_mem_nil, or_false]
    rintro id amount h
    simp at h
    rw [h.2]
    rfl
  exact ⟨rfl, hamounts, (failed_with_cause events hamounts).1⟩

end Race

end Rewards.Pipeline
