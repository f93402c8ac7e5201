import Rewards.Proofs.Order.Numbers
import Rewards.Proofs.Service.Visits

/-!
# The first uploader owns a number

Users upload numbers and withdraw points against them, and the pipeline moves the orders in between.
The first call that goes through with a number stores its order, and the number is that user's from
then on: no other call creates the order again, others are refused, and the owner and the time of
the upload stay. The main statement is `first_uploader_owns`.
-/

namespace Rewards

open InMemory (perform perform_run_bind)

variable {ω : Type}

namespace Service

/-! ## Withdrawals in full -/

section

variable (x : Surroundings ω) (s : Store) (w : ω) {user : UserId} {text : String}

/-- A withdrawal that is asked for passes every check that comes before the owner of the order: its
number is read, its amount may be withdrawn, and the user has the funds. -/
structure Covered (s : Store) (user : UserId) (text : String) (amount : Decimal)
    (withdrawal : Withdrawal) : Prop where
  number : OrderNumber.parse (Text.trim text) = .ok withdrawal.order
  amount : Withdrawal.request withdrawal.order user amount = .ok withdrawal
  funds : ∃ balance, s.balance? user = some balance ∧
    withdrawal.checkFunds balance.current = .ok ()

variable {amount : Decimal}

/-- What a withdrawal that passes the checks asks of the store. -/
theorem perform_withdraw_covered {s : Store} {withdrawal : Withdrawal}
    (h : Covered s user text amount withdrawal) :
    perform (x.service.withdraw user text amount).run s w =
      match s.createOrder withdrawal.order user (x.clock.run w).1 with
      | .error e => ⟨.error (.refused (.ofStore e)), s, (x.clock.run w).2⟩
      | .ok (.created order, t) =>
          ⟨.ok ⟨withdrawal.toEntry (x.clock.run w).1, some order⟩,
            { t with entries := t.entries ++ [withdrawal.toEntry (x.clock.run w).1] },
            (x.clock.run w).2⟩
      | .ok (.alreadyOwned _, t) =>
          ⟨.ok ⟨withdrawal.toEntry (x.clock.run w).1, none⟩,
            { t with entries := t.entries ++ [withdrawal.toEntry (x.clock.run w).1] },
            (x.clock.run w).2⟩ := by
  obtain ⟨balance, hbalance, hfunds⟩ := h.funds
  rw [withdraw, perform_run_bind, perform_read_number, h.number]
  simp only [Outcome.andThen, h.amount, perform_run_bind, perform_ask_amount, perform_withdraw,
    Store.withdraw, (Withdrawal.of_request h.amount).1, hbalance, hfunds]
  rcases s.createOrder withdrawal.order user (x.clock.run w).1 with
    e | ⟨order | order, t⟩ <;> rfl

/-- A withdrawal that does not pass the checks fails. -/
theorem withdraw_uncovered (h : ∀ withdrawal, ¬ Covered s user text amount withdrawal) :
    ∃ failure, (perform (x.service.withdraw user text amount).run s w).result = .error failure := by
  rw [withdraw, perform_run_bind, perform_read_number]
  cases hnumber : OrderNumber.parse (Text.trim text) with
  | error e => exact ⟨_, rfl⟩
  | ok number =>
      simp only [Outcome.andThen]
      cases hrequest : Withdrawal.request number user amount with
      | error e => exact ⟨_, rfl⟩
      | ok withdrawal =>
          obtain ⟨huser, rfl⟩ := Withdrawal.of_request hrequest
          simp only [perform_run_bind, perform_ask_amount, perform_withdraw, Store.withdraw]
          cases hbalance : s.balance? withdrawal.user with
          | none => exact ⟨_, rfl⟩
          | some balance =>
              cases hfunds : withdrawal.checkFunds balance.current with
              | error e => simp only [hfunds]; exact ⟨_, rfl⟩
              | ok =>
                  rw [huser] at hbalance
                  exact absurd ⟨hnumber, hrequest, balance, hbalance, hfunds⟩ (h withdrawal)

end

/-! ## Who has created an order -/

/-- Who sends a number in a request, and which number is read. -/
def Request.sent? : Request → Option (UserId × OrderNumber)
  | .submit user text => (OrderNumber.parse (Text.trim text)).toOption.map (user, ·)
  | .withdraw user text _ => (OrderNumber.parse (Text.trim text)).toOption.map (user, ·)
  | .register _ | .login _ | .transition _ _ _ _ => none

/-- An upload and a withdrawal send the number that is read from their text. -/
theorem Request.sent_of_number {text : String} {number : OrderNumber}
    (h : OrderNumber.parse (Text.trim text) = .ok number) (user : UserId) :
    (Request.submit user text).sent? = some (user, number) ∧
      ∀ amount, (Request.withdraw user text amount).sent? = some (user, number) := by
  have hsent : (OrderNumber.parse (Text.trim text)).toOption.map (user, ·) =
      some (user, number) := by
    rw [h]
    rfl
  exact ⟨hsent, fun _ => hsent⟩

/-- The upload or the withdrawal has gone through. -/
def Reply.wentThrough : Reply → Bool
  | .submission (.ok _) | .withdrawal (.ok _) => true
  | _ => false

/-- The order that a call has created: an upload that is accepted, or a withdrawal whose order is to
be processed. -/
def Reply.created? : Reply → Option Order
  | .submission (.ok ⟨.accepted, job⟩) => job
  | .withdrawal (.ok ⟨_, job⟩) => job
  | _ => none

/-- The request of a visit and the order that it has created, if the order has the number. -/
def creation? (number : OrderNumber) (visit : Request × Reply) : Option (Request × Order) :=
  (visit.2.created?.filter (·.number = number)).map (visit.1, ·)

/-- The requests that have created an order with a number, and the orders. -/
def History.creations (h : History) (number : OrderNumber) : List (Request × Order) :=
  h.log.filterMap (creation? number)

/-- What a visit does to the orders. It leaves alone which numbers are stored, and if it has gone
through, its number was the user's; or it creates an order under its number. -/
inductive Filed (s : Store) (request : Request) : Reply → Store → Prop where
  | kept (reply : Reply) (t : Store) :
      reply.created? = none → (∀ number, s.order? number = none → t.order? number = none) →
      (∀ user number, request.sent? = some (user, number) → reply.wentThrough = true →
        ∃ order, s.order? number = some order ∧ order.owner = user) →
      Filed s request reply t
  | created (number : OrderNumber) (user : UserId) (uploadedAt : Instant) (reply : Reply)
      (t : Store) :
      request.sent? = some (user, number) → s.order? number = none →
      reply.created? = some (Order.upload number user uploadedAt) →
      (∀ other, t.order? other = (s.order? other).or
        (if number = other then some (Order.upload number user uploadedAt) else none)) →
      Filed s request reply t

variable {s t : Store} {request : Request}

/-- A visit that fails files nothing. -/
theorem Filed.unmoved {reply : Reply} (hcreated : reply.created? = none)
    (hfailed : reply.wentThrough = false) : Filed s request reply s := by
  refine .kept reply s hcreated (fun _ hnone => hnone) fun user number _ hthrough => ?_
  rw [hfailed] at hthrough
  cases hthrough

/-- A visit that sends no number files nothing if it leaves alone which numbers are stored. -/
theorem Filed.unsent {reply : Reply} (hsent : request.sent? = none)
    (hcreated : reply.created? = none)
    (hkept : ∀ number, s.order? number = none → t.order? number = none) :
    Filed s request reply t := by
  refine .kept reply t hcreated hkept fun user number hsame _ => ?_
  rw [hsent] at hsame
  cases hsame

/-- A visit that finds the number to be the user's files nothing. -/
theorem Filed.owned {user : UserId} {number : OrderNumber} {order : Order} {reply : Reply}
    (hsent : request.sent? = some (user, number)) (hfound : s.order? number = some order)
    (howner : order.owner = user) (hcreated : reply.created? = none)
    (hkept : ∀ number, s.order? number = none → t.order? number = none) :
    Filed s request reply t := by
  refine .kept reply t hcreated hkept fun other sent hsame _ => ?_
  rw [hsent] at hsame
  cases hsame
  exact ⟨order, hfound, howner⟩

/-- An upload is refused, creates an order, or finds the number to be the user's. -/
theorem Submitted.filed {user : UserId} {text : String}
    {result : Except (Failure ServiceError) (Scheduling Submission)}
    (h : Submitted s user text result t) :
    Filed s (.submit user text) (.submission result) t := by
  cases h with
  | failed e => exact .unmoved rfl rfl
  | accepted number uploadedAt hnumber hnew =>
      have hsent := (Request.sent_of_number hnumber user).1
      exact .created number user uploadedAt _ _ hsent hnew rfl (Store.lookup_append s _)
  | known order hnumber hfound howner =>
      have hsent := (Request.sent_of_number hnumber user).1
      exact .owned hsent hfound howner rfl fun _ hnone => hnone

section

variable (x : Surroundings ω) (s : Store) (w : ω)

/-- A withdrawal finds the number to be the user's, fails, or creates an order. -/
theorem withdraw_filed (user : UserId) (text : String) (amount : Decimal) :
    Filed s (.withdraw user text amount) (visit x (.withdraw user text amount) s w).result
      (visit x (.withdraw user text amount) s w).store := by
  rw [visit_withdraw, Outcome.map_result, Outcome.map_store]
  by_cases hcovered : ∃ withdrawal, Covered s user text amount withdrawal
  · obtain ⟨withdrawal, hcovered⟩ := hcovered
    have hsent := (Request.sent_of_number hcovered.number user).2 amount
    rw [perform_withdraw_covered x w hcovered]
    rcases Store.create_order_cases s withdrawal.order user (x.clock.run w).1 with
      ⟨order, hfound, howner, heq⟩ | ⟨order, _, _, heq⟩ | ⟨hnew, heq⟩
    · rw [heq]
      exact .owned hsent hfound howner rfl fun _ hnone => hnone
    · rw [heq]
      exact .unmoved rfl rfl
    · rw [heq]
      exact .created withdrawal.order user _ _ _ hsent hnew rfl (Store.lookup_append s _)
  · obtain ⟨failure, hfailure⟩ :=
      withdraw_uncovered x s w fun withdrawal h => hcovered ⟨withdrawal, h⟩
    rw [spares_withdraw x user text amount s w failure hfailure, hfailure]
    exact .unmoved rfl rfl

/-- Every visit files its order like this. -/
theorem visit_filed (request : Request) :
    Filed s request (visit x request s w).result (visit x request s w).store := by
  cases request with
  | register c =>
      rw [visit_register, Outcome.map_result, Outcome.map_store]
      refine .unsent rfl rfl fun number hnone => ?_
      rwa [Store.order?, (enrol_effect x s w c).orders]
  | login c =>
      rw [visit_login, Outcome.map_result, Outcome.map_store, reads_login x c s w]
      exact .unmoved rfl rfl
  | submit user text =>
      rw [visit_submit, Outcome.map_result, Outcome.map_store]
      exact (submit_effect x s w user text).filed
  | withdraw user text amount => exact withdraw_filed x s w user text amount
  | transition number source target accrual =>
      rw [visit_transition, Outcome.map_result, Outcome.map_store]
      refine .unsent rfl rfl fun other hnone => ?_
      rcases Store.transition_cases s number source target accrual (x.clock.run w).1 with
        ⟨_, _, heq⟩ | ⟨_, _, heq⟩ | ⟨_, _, _, _, heq⟩ | ⟨order, _, _, _, heq⟩
      · rw [heq]; exact hnone
      · rw [heq]; exact hnone
      · rw [heq]; exact hnone
      · rw [heq]
        simp only [Outcome.committed, Store.lookup_settle, hnone, Option.map_none]

end

/-! ## Numbers over a history -/

namespace History

/-- Nobody has the number: no order is stored under it, no call has created one, and no call with it
has gone through. -/
structure Unclaimed (h : History) (number : OrderNumber) : Prop where
  lookup : h.store.order? number = none
  creations : h.creations number = []
  refused : ∀ request reply user, (request, reply) ∈ h.log →
    request.sent? = some (user, number) → reply.wentThrough = false

/-- The order is stored under the number. One call has created it, its owner has sent that call, and
only the owner's calls with the number have gone through. -/
structure Claimed (h : History) (number : OrderNumber) (order : Order) : Prop where
  lookup : h.store.order? number = some order
  creation : ∃ request, request.sent? = some (order.owner, number) ∧
    h.creations number = [(request, Order.upload number order.owner order.uploadedAt)]
  owned : ∀ request reply user, (request, reply) ∈ h.log →
    request.sent? = some (user, number) → reply.wentThrough = true → user = order.owner

variable {h : History} {x : Surroundings ω} {number : OrderNumber}

theorem creations_continue (h : History) (x : Surroundings ω) (request : Request) (w : ω)
    (number : OrderNumber) :
    (h.continue x request w).creations number = h.creations number ++
      (creation? number (request, (visit x request h.store w).result)).toList := by
  rw [creations, creations, filter_log_continue]

theorem mem_log_continue {request asked : Request} {w : ω} {reply : Reply} :
    (asked, reply) ∈ (h.continue x request w).log ↔
      (asked, reply) ∈ h.log ∨
        (asked = request ∧ reply = (visit x request h.store w).result) := by
  rw [History.continue, List.mem_append, List.mem_singleton, Prod.mk.injEq]

/-- A visit that creates no order with the number adds no creation. -/
theorem creations_kept {request : Request} {w : ω}
    (hother : ∀ order, (visit x request h.store w).result.created? = some order →
      order.number ≠ number) :
    (h.continue x request w).creations number = h.creations number := by
  have hnone : creation? number (request, (visit x request h.store w).result) = none := by
    rw [creation?, Option.map_eq_none_iff, Option.filter_eq_none_iff]
    intro order horder
    simpa using hother order horder
  rw [creations_continue, hnone, Option.toList_none, List.append_nil]

/-- After a further visit nobody has the number still, or the visit has created its order. -/
theorem Unclaimed.continue (hfree : h.Unclaimed number) (request : Request) (w : ω) :
    (h.continue x request w).Unclaimed number ∨
      ∃ order, (h.continue x request w).Claimed number order := by
  cases visit_filed x h.store w request with
  | kept _ _ hcreated hkept hthrough =>
      refine .inl ⟨hkept number hfree.lookup, ?_, fun asked reply user hmem hsent => ?_⟩
      · rw [creations_kept (by simp [hcreated]), hfree.creations]
      · rcases mem_log_continue.mp hmem with hmem | ⟨rfl, rfl⟩
        · exact hfree.refused asked reply user hmem hsent
        · rw [Bool.eq_false_iff]
          intro hwent
          obtain ⟨order, hfound, _⟩ := hthrough user number hsent hwent
          rw [hfree.lookup] at hfound
          cases hfound
  | created other user uploadedAt _ _ hsent hnew hcreated hlookup =>
      by_cases hnumber : other = number
      · subst hnumber
        refine .inr ⟨Order.upload other user uploadedAt, ?_, ⟨request, hsent, ?_⟩,
          fun asked reply sender hmem hasked hwent => ?_⟩
        · rw [History.continue, hlookup, hfree.lookup, if_pos rfl]
          rfl
        · simp [creations_continue, hfree.creations, creation?, hcreated, Order.upload]
        · rcases mem_log_continue.mp hmem with hmem | ⟨rfl, rfl⟩
          · -- No call with the number has gone through before.
            rw [hfree.refused asked reply sender hmem hasked] at hwent
            cases hwent
          · rw [hsent] at hasked
            cases hasked
            rfl
      · refine .inl ⟨?_, ?_, fun asked reply sender hmem hasked => ?_⟩
        · rw [History.continue, hlookup, hfree.lookup, if_neg hnumber]
          rfl
        · rw [creations_kept, hfree.creations]
          intro order horder
          rw [hcreated] at horder
          cases horder
          exact hnumber
        · rcases mem_log_continue.mp hmem with hmem | ⟨rfl, rfl⟩
          · exact hfree.refused asked reply sender hmem hasked
          · rw [hsent] at hasked
            cases hasked
            exact absurd rfl hnumber

/-- After a further visit the owner still has the number. -/
theorem Claimed.continue {order : Order} (hclaimed : h.Claimed number order) (request : Request)
    (w : ω) :
    ∃ later, order.LeadsTo later ∧ (h.continue x request w).Claimed number later ∧
      (h.continue x request w).creations number = h.creations number := by
  obtain ⟨later, hlater, hleads⟩ := (visit_writes x h.store w request).leads_to hclaimed.lookup
  have hsame : (h.continue x request w).creations number = h.creations number ∧
      ∀ user, request.sent? = some (user, number) →
        (visit x request h.store w).result.wentThrough = true → user = order.owner := by
    cases visit_filed x h.store w request with
    | kept _ _ hcreated hkept hthrough =>
        refine ⟨creations_kept (by simp [hcreated]), fun user hsent hwent => ?_⟩
        obtain ⟨found, hfound, howner⟩ := hthrough user number hsent hwent
        rw [hclaimed.lookup] at hfound
        cases hfound
        exact howner.symm
    | created other user uploadedAt _ _ hsent hnew hcreated hlookup =>
        -- An order is created under a number that is not stored, so it is another number.
        have hnumber : other ≠ number := by
          rintro rfl
          rw [hclaimed.lookup] at hnew
          cases hnew
        refine ⟨creations_kept fun made hmade => ?_, fun sender hasked _ => ?_⟩
        · rw [hcreated] at hmade
          cases hmade
          exact hnumber
        · rw [hsent] at hasked
          cases hasked
          exact absurd rfl hnumber
  refine ⟨later, hleads, ⟨hlater, ?_, fun asked reply user hmem hasked hwent => ?_⟩, hsame.1⟩
  · rw [hsame.1, hleads.owner, hleads.uploadedAt]
    exact hclaimed.creation
  · rw [hleads.owner]
    rcases mem_log_continue.mp hmem with hmem | ⟨rfl, rfl⟩
    · exact hclaimed.owned asked reply user hmem hasked hwent
    · exact hsame.2 user hasked hwent

end History

/-- After any visits nobody has a number, or one user has it. -/
theorem unclaimed_or_claimed (x : Surroundings ω) (visits : List (Request × ω))
    (number : OrderNumber) :
    (history x visits).Unclaimed number ∨ ∃ order, (history x visits).Claimed number order := by
  induction visits using List.reverseRecOn with
  | nil => exact .inl ⟨rfl, rfl, fun _ _ _ hmem _ => absurd hmem List.not_mem_nil⟩
  | append_singleton visits last ih =>
      rw [history_concat]
      rcases ih with hfree | ⟨order, hclaimed⟩
      · exact hfree.continue last.1 last.2
      · obtain ⟨later, _, hlater, _⟩ := hclaimed.continue last.1 last.2
        exact .inr ⟨later, hlater⟩

/-- Whatever visits follow, the order keeps its owner and the time of its upload, and it is not
created again. -/
theorem claimed_later {x : Surroundings ω} {visits : List (Request × ω)} {number : OrderNumber}
    {order : Order} (h : (history x visits).Claimed number order) (further : List (Request × ω)) :
    ∃ later, order.LeadsTo later ∧ (history x (visits ++ further)).Claimed number later ∧
      (history x (visits ++ further)).creations number = (history x visits).creations number := by
  induction further using List.reverseRecOn with
  | nil =>
      rw [List.append_nil]
      exact ⟨order, .refl order, h, rfl⟩
  | append_singleton further last ih =>
      obtain ⟨later, hleads, hlater, hcreations⟩ := ih
      obtain ⟨final, hnext, hfinal, hsame⟩ := hlater.continue (x := x) last.1 last.2
      rw [← List.append_assoc, history_concat]
      exact ⟨final, hleads.trans hnext, hfinal, hsame.trans hcreations⟩

/-! ## What the next call with a number comes to -/

/-- The next call with the number creates its order, whoever sends it. -/
structure Accepts (x : Surroundings ω) (s : Store) (number : OrderNumber) : Prop where
  submitted : ∀ user text w, OrderNumber.parse (Text.trim text) = .ok number →
    (visit x (.submit user text) s w).result =
      .submission (.ok ⟨.accepted, some (Order.upload number user (x.clock.run w).1)⟩)
  withdrawn : ∀ user text amount withdrawal w, Covered s user text amount withdrawal →
    withdrawal.order = number →
    (visit x (.withdraw user text amount) s w).result =
      .withdrawal (.ok ⟨withdrawal.toEntry (x.clock.run w).1,
        some (Order.upload number user (x.clock.run w).1)⟩)

/-- The owner of the order is told that it has been submitted, and may withdraw points against it.
Anybody else is refused: an upload always, and a withdrawal at the latest when it passes all other
checks. -/
structure Reserves (x : Surroundings ω) (s : Store) (order : Order) : Prop where
  submitted : ∀ user text w, OrderNumber.parse (Text.trim text) = .ok order.number →
    order.owner = user →
    (visit x (.submit user text) s w).result = .submission
      (.ok ⟨.alreadySubmitted, if order.status.isTerminal then none else some order⟩) ∧
    (visit x (.submit user text) s w).store = s
  withdrawn : ∀ user text amount withdrawal w, Covered s user text amount withdrawal →
    withdrawal.order = order.number → order.owner = user →
    (visit x (.withdraw user text amount) s w).result =
      .withdrawal (.ok ⟨withdrawal.toEntry (x.clock.run w).1, none⟩)
  submission_refused : ∀ user text w, OrderNumber.parse (Text.trim text) = .ok order.number →
    order.owner ≠ user →
    (visit x (.submit user text) s w).result =
      .submission (.error (.refused .orderOwnedByAnotherUser)) ∧
    (visit x (.submit user text) s w).store = s
  withdrawal_refused : ∀ user text amount withdrawal w, Covered s user text amount withdrawal →
    withdrawal.order = order.number → order.owner ≠ user →
    (visit x (.withdraw user text amount) s w).result =
      .withdrawal (.error (.refused .orderOwnedByAnotherUser)) ∧
    (visit x (.withdraw user text amount) s w).store = s

/-- A number that is not stored is accepted. -/
theorem accepts_of_lookup (x : Surroundings ω) {s : Store} {number : OrderNumber}
    (hnew : s.order? number = none) : Accepts x s number where
  submitted user text w hnumber := by
    rw [visit_submit, Outcome.map_result, perform_submit x s w hnumber,
      Store.create_order_new hnew]
  withdrawn user text amount withdrawal w hcovered hsame := by
    subst hsame
    rw [visit_withdraw, Outcome.map_result, perform_withdraw_covered x w hcovered,
      Store.create_order_new hnew]

/-- A number that is stored is reserved. -/
theorem reserves_of_lookup (x : Surroundings ω) {s : Store} {order : Order}
    (hfound : s.order? order.number = some order) : Reserves x s order where
  submitted user text w hnumber howner := by
    rw [visit_submit, Outcome.map_result, Outcome.map_store, perform_submit x s w hnumber,
      Store.create_order_owned hfound howner]
    exact ⟨rfl, rfl⟩
  withdrawn user text amount withdrawal w hcovered hsame howner := by
    rw [visit_withdraw, Outcome.map_result, perform_withdraw_covered x w hcovered, hsame,
      Store.create_order_owned hfound howner]
  submission_refused user text w hnumber hother := by
    rw [visit_submit, Outcome.map_result, Outcome.map_store, perform_submit x s w hnumber,
      Store.create_order_refused hfound hother]
    exact ⟨rfl, rfl⟩
  withdrawal_refused user text amount withdrawal w hcovered hsame hother := by
    rw [visit_withdraw, Outcome.map_result, Outcome.map_store,
      perform_withdraw_covered x w hcovered, hsame, Store.create_order_refused hfound hother]
    exact ⟨rfl, rfl⟩

/-- Whatever visits there have been, a number is free or one user has it. A free number has no order
and belongs to the next one who sends it. Otherwise exactly one call has created the order, the
owner's; the order keeps its owner and the time of its upload, it is never created again, and others
are refused. Blanks around a number make no difference, and leading zeros make another number. -/
theorem first_uploader_owns (x : Surroundings ω) (visits : List (Request × ω))
    (number : OrderNumber) :
    (((history x visits).Unclaimed number ∧ Accepts x (history x visits).store number) ∨
      ∃ order, (history x visits).Claimed number order ∧
        Reserves x (history x visits).store order ∧
        ∀ further, ∃ later, later.owner = order.owner ∧ later.uploadedAt = order.uploadedAt ∧
          (history x (visits ++ further)).Claimed number later ∧
          (history x (visits ++ further)).creations number =
            (history x visits).creations number) ∧
    (∀ before text later : String, before.toList.all Text.isBlank = true →
      later.toList.all Text.isBlank = true → ∀ user amount s w,
        visit x (.submit user (before ++ text ++ later)) s w = visit x (.submit user text) s w ∧
        visit x (.withdraw user (before ++ text ++ later) amount) s w =
          visit x (.withdraw user text amount) s w) ∧
    ∀ first second : Nat,
      OrderNumber.parse (Text.trim (number.padded first).text) = .ok (number.padded first) ∧
        (number.padded first = number.padded second ↔ first = second) := by
  refine ⟨?_, fun before text later hbefore hlater user amount s w => ?_, fun first second => ?_⟩
  · rcases unclaimed_or_claimed x visits number with hfree | ⟨order, hclaimed⟩
    · exact .inl ⟨hfree, accepts_of_lookup x hfree.lookup⟩
    · refine .inr ⟨order, hclaimed, ?_, fun further => ?_⟩
      · have hlookup := hclaimed.lookup
        obtain rfl := Store.number_of_lookup hlookup
        exact reserves_of_lookup x hlookup
      · obtain ⟨later, hleads, hlater, hsame⟩ := claimed_later hclaimed further
        exact ⟨later, hleads.owner, hleads.uploadedAt, hlater, hsame⟩
  · have hread : (readNumber (before ++ text ++ later) : Operation (InMemory ω) OrderNumber) =
        readNumber text := by
      unfold readNumber
      rw [Text.trim_surrounded hbefore hlater]
    rw [visit_submit, visit_submit, visit_withdraw, visit_withdraw, submitOrder, submitOrder,
      withdraw, withdraw, hread]
    exact ⟨rfl, rfl⟩
  · rw [OrderNumber.trim_text, OrderNumber.parse_text]
    exact ⟨rfl, number.padded_injective, fun h => h ▸ rfl⟩

/-- The second user sends the number with blanks around it and is refused. With another zero it is
another number, which is the second user's. -/
example :
    let second : UserId := ⟨.ofNat 1⟩
    let h := history .still [(.submit default "18", 0), (.submit second " 18\n", 0),
      (.submit second "018", 0)]
    h.creations ⟨"18", rfl⟩ =
        [(.submit default "18", Order.upload ⟨"18", rfl⟩ default default)] ∧
      h.creations ⟨"018", rfl⟩ =
        [(.submit second "018", Order.upload ⟨"018", rfl⟩ second default)] := by
  decide +kernel

end Service

end Rewards
