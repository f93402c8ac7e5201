import Rewards.Proofs.Service.InMemory
import Rewards.Proofs.Store.Calls

/-!
# What the operations of the service do

What an upload and a withdrawal come to and which store they leave. A refused operation leaves the
store as it was, and an operation that asks for an order to be processed has stored it or found it
there. Logging in only reads.
-/

namespace Rewards

open InMemory (perform perform_run_bind perform_run_lift perform_one_step Reads Spares reads_pure
  reads_get)

variable {ω α : Type}

/-- Whatever the clock shows, a session that begins then ends on the time line. -/
def Surroundings.Timely (x : Surroundings ω) : Prop :=
  ∀ w, ((x.clock.run w).1.addSeconds? x.issuer.lifetime).isSome = true

/-- A withdrawal is of the user who asks for it, against the number that it is asked for. -/
theorem Withdrawal.of_request {number : OrderNumber} {user : UserId} {amount : Decimal}
    {withdrawal : Withdrawal} (h : Withdrawal.request number user amount = .ok withdrawal) :
    withdrawal.user = user ∧ withdrawal.order = number := by
  unfold Withdrawal.request at h
  split at h
  · split at h
    · cases h
      exact ⟨rfl, rfl⟩
    · cases h
  · cases h

/-- The order that a withdrawal counts against if it is new. -/
def WithdrawalReceipt.newOrder? (receipt : WithdrawalReceipt) : Option Order :=
  match receipt.anchor with
  | .created order => some order
  | .alreadyOwned _ => none

/-- The order whose processing has to be scheduled, if there is one. -/
def Scheduling.job? {ε : Type} : Except ε (Scheduling α) → Option Order
  | .ok scheduling => scheduling.job
  | .error _ => none

/-- Between two stores there are only writes, and whatever order is new is to be processed. -/
structure Store.Booked (s : Store) (job : Option Order) (t : Store) : Prop where
  writes : Writes s t
  new : ∀ number order, s.order? number = none → t.order? number = some order → job = some order

/-- A store that has stayed the same has no new orders. -/
theorem Store.booked_self (s : Store) (job : Option Order) : s.Booked job s where
  writes := .refl
  new number order hnone hfound := by
    rw [hnone] at hfound
    cases hfound

/-- An order that is added is new under its own number only. -/
theorem Store.new_of_lookup_append {s : Store} {order found : Order} {number : OrderNumber}
    (hnone : s.order? number = none)
    (hfound : ({ s with orders := s.orders ++ [order] } : Store).order? number = some found) :
    some order = some found := by
  rw [lookup_append, hnone, Option.none_or] at hfound
  split at hfound
  · exact hfound
  · cases hfound

namespace Service

/-! ## Parts of operations -/

theorem perform_ask (answer : InMemory ω (Except StoreError α)) (s : Store) (w : ω) :
    perform (ask answer).run s w =
      (perform answer s w).mapError fun e => .refused (.ofStore e) := by
  rw [ask, perform_run_bind, perform_run_lift]
  cases perform answer s w with
  | mk result t v => cases result <;> rfl

theorem perform_ask_amount (answer : InMemory ω (Except (Failure StoreError) α)) (s : Store)
    (w : ω) :
    perform (askAmount answer).run s w = (perform answer s w).mapError (.map .ofStore) := by
  rw [askAmount, perform_run_bind, perform_run_lift]
  cases perform answer s w with
  | mk result t v => cases result <;> rfl

theorem perform_read_number (text : String) (s : Store) (w : ω) :
    perform (readNumber text).run s w =
      match OrderNumber.parse (Text.trim text) with
      | .ok number => ⟨.ok number, s, w⟩
      | .error e => ⟨.error (e.map .invalidOrderNumber), s, w⟩ := by
  unfold readNumber
  cases OrderNumber.parse (Text.trim text) <;> rfl

theorem perform_check_credentials (c : Credentials) (s : Store) (w : ω) :
    perform (checkCredentials c).run s w =
      if c.faults.isEmpty then ⟨.ok (), s, w⟩
      else ⟨.error (.refused (.invalidFields c.faults)), s, w⟩ := by
  unfold checkCredentials
  split <;> rfl

theorem reads_ask {answer : InMemory ω (Except StoreError α)} (h : Reads answer) :
    Reads (ask answer).run := by
  intro s w
  rw [perform_ask, Outcome.map_error_store]
  exact h s w

theorem reads_ask_amount {answer : InMemory ω (Except (Failure StoreError) α)} (h : Reads answer) :
    Reads (askAmount answer).run := by
  intro s w
  rw [perform_ask_amount, Outcome.map_error_store]
  exact h s w

theorem reads_ask_password (result : Except Crypto.PasswordHashError α) :
    Reads (askPassword result : Operation (InMemory ω) α).run := by
  cases result <;> exact reads_pure _

theorem reads_check_credentials (c : Credentials) :
    Reads (checkCredentials c : Operation (InMemory ω) Unit).run := by
  unfold checkCredentials
  split <;> exact reads_pure _

/-! ## The store in its surroundings -/

variable (x : Surroundings ω) (s : Store) (w : ω)

theorem perform_clock :
    perform x.service.clock s w = ⟨(x.clock.run w).1, s, (x.clock.run w).2⟩ := rfl

theorem perform_hash (password : String) :
    perform (x.service.passwords.hash password) s w =
      ⟨((x.hash password).run w).1, s, ((x.hash password).run w).2⟩ := rfl

theorem perform_user_by_id (id : UserId) :
    perform (x.service.store.userById id) s w = ⟨.ok (s.userById? id), s, w⟩ := rfl

theorem perform_create_order (number : OrderNumber) (user : UserId) (uploadedAt : Instant) :
    perform (x.service.store.createOrder number user uploadedAt) s w =
      .committed s w (s.createOrder number user uploadedAt) :=
  perform_one_step (s.apply_create_order number user uploadedAt) w

theorem perform_balance (user : UserId) :
    perform (x.service.store.balance user) s w =
      ⟨match s.balance? user with
        | some balance => .ok balance
        | none => .error .overflow, s, w⟩ := by
  show perform (match s.balance? user with
    | some balance => return .ok balance
    | none => return .error .overflow : InMemory ω (Except (Failure StoreError) Balance)) s w = _
  cases s.balance? user <;> rfl

theorem perform_withdraw (withdrawal : Withdrawal) :
    perform (x.service.store.withdraw withdrawal) s w =
      .committed s (x.clock.run w).2 (s.withdraw withdrawal (x.clock.run w).1) :=
  perform_one_step (s.apply_withdraw withdrawal (x.clock.run w).1) (x.clock.run w).2

theorem perform_create_user (login hash : String) :
    perform (x.service.store.createUser login hash) s w =
      .committed s (x.newId.run w).2 (s.createUser (x.newId.run w).1 login hash) :=
  perform_one_step (s.apply_create_user (x.newId.run w).1 login hash) (x.newId.run w).2

theorem perform_transition (number : OrderNumber) (source target : OrderStatus)
    (accrual : Option Decimal) :
    perform (x.service.store.transition number source target accrual) s w =
      .committed s (x.clock.run w).2
        (s.transition number source target accrual (x.clock.run w).1) :=
  perform_one_step (s.apply_transition number source target accrual (x.clock.run w).1)
    (x.clock.run w).2

/-! ## Uploads -/

/-- What an upload of an order number comes to. -/
inductive Submitted (s : Store) (user : UserId) (text : String) :
    Except (Failure ServiceError) (Scheduling Submission) → Store → Prop where
  | failed (failure : Failure ServiceError) : Submitted s user text (.error failure) s
  | accepted (number : OrderNumber) (uploadedAt : Instant) :
      OrderNumber.parse (Text.trim text) = .ok number → s.order? number = none →
      Submitted s user text (.ok ⟨.accepted, some (Order.upload number user uploadedAt)⟩)
        { s with orders := s.orders ++ [Order.upload number user uploadedAt] }
  | known (order : Order) :
      OrderNumber.parse (Text.trim text) = .ok order.number →
      s.order? order.number = some order → order.owner = user →
      Submitted s user text
        (.ok ⟨.alreadySubmitted, if order.status.isTerminal then none else some order⟩) s

/-- What an upload of a number asks of the store. -/
theorem perform_submit {user : UserId} {text : String} {number : OrderNumber}
    (hnumber : OrderNumber.parse (Text.trim text) = .ok number) :
    perform (x.service.submitOrder user text).run s w =
      match s.createOrder number user (x.clock.run w).1 with
      | .error e => ⟨.error (.refused (.ofStore e)), s, (x.clock.run w).2⟩
      | .ok (.created order, t) => ⟨.ok ⟨.accepted, some order⟩, t, (x.clock.run w).2⟩
      | .ok (.alreadyOwned order, t) =>
          ⟨.ok ⟨.alreadySubmitted, if order.status.isTerminal then none else some order⟩, t,
            (x.clock.run w).2⟩ := by
  rw [submitOrder, perform_run_bind, perform_read_number, hnumber]
  simp only [Outcome.andThen, perform_run_bind, perform_run_lift, perform_clock, perform_ask,
    perform_create_order]
  rcases s.createOrder number user (x.clock.run w).1 with e | ⟨order | order, t⟩ <;> rfl

/-- An upload fails, stores a new order, or finds one of the user. -/
theorem submit_effect (user : UserId) (text : String) :
    Submitted s user text (perform (x.service.submitOrder user text).run s w).result
      (perform (x.service.submitOrder user text).run s w).store := by
  cases hparse : OrderNumber.parse (Text.trim text) with
  | error e =>
      rw [submitOrder, perform_run_bind, perform_read_number, hparse]
      exact .failed _
  | ok number =>
      rw [perform_submit x s w hparse]
      rcases Store.create_order_cases s number user (x.clock.run w).1 with
        ⟨order, hfound, howner, heq⟩ | ⟨order, hfound, howner, heq⟩ | ⟨hnew, heq⟩
      · obtain rfl := Store.number_of_lookup hfound
        rw [heq]
        exact .known order hparse hfound howner
      · rw [heq]
        exact .failed _
      · rw [heq]
        exact .accepted number _ hparse hnew

/-- The order that an upload stores is to be processed. -/
theorem Submitted.booked {s t : Store} {user : UserId} {text : String}
    {result : Except (Failure ServiceError) (Scheduling Submission)}
    (h : Submitted s user text result t) : s.Booked (Scheduling.job? result) t := by
  cases h with
  | failed | known => exact s.booked_self _
  | accepted number uploadedAt _ hnew =>
      exact ⟨.single (.upload number user uploadedAt hnew),
        fun _ _ hnone hfound => Store.new_of_lookup_append hnone hfound⟩

/-- An upload that fails leaves the store as it was. -/
theorem spares_submit_order (user : UserId) (text : String) :
    Spares (x.service.submitOrder user text) := by
  refine .of_effect (fun s w => submit_effect x s w user text) fun s e t h => ?_
  cases h
  rfl

/-! ## Withdrawals -/

/-- What a withdrawal comes to. -/
inductive Withdrawn (s : Store) (user : UserId) :
    Except (Failure ServiceError) (Scheduling LedgerEntry) → Store → Prop where
  | failed (failure : Failure ServiceError) : Withdrawn s user (.error failure) s
  | debited (withdrawal : Withdrawal) (now : Instant) (receipt : WithdrawalReceipt) (t : Store) :
      withdrawal.user = user →
      Store.Effect s (.withdraw withdrawal now) (.withdrawn (.ok receipt)) t →
      Withdrawn s user (.ok ⟨receipt.entry, receipt.newOrder?⟩) t

/-- A withdrawal fails, or is debited in the store. -/
theorem withdraw_effect (user : UserId) (text : String) (amount : Decimal) :
    Withdrawn s user (perform (x.service.withdraw user text amount).run s w).result
      (perform (x.service.withdraw user text amount).run s w).store := by
  rw [withdraw, perform_run_bind, perform_read_number]
  cases OrderNumber.parse (Text.trim text) with
  | error e => exact .failed _
  | ok number =>
      simp only [Outcome.andThen]
      cases hrequest : Withdrawal.request number user amount with
      | error e => exact .failed _
      | ok withdrawal =>
          have heffect := Store.perform_effect (.withdraw withdrawal (x.clock.run w).1) s
          simp only [Store.perform, Store.run_reply, Store.apply_withdraw] at heffect
          simp only [perform_run_bind, perform_ask_amount, perform_withdraw]
          cases hresult : s.withdraw withdrawal (x.clock.run w).1 with
          | error failure => exact .failed _
          | ok answer =>
              obtain ⟨receipt, t⟩ := answer
              rw [hresult] at heffect
              have hdebited := Withdrawn.debited withdrawal _ receipt t
                (Withdrawal.of_request hrequest).1 heffect
              obtain ⟨entry, anchor⟩ := receipt
              cases anchor <;> exact hdebited

/-- The order that a withdrawal stores is to be processed. -/
theorem Withdrawn.booked {s t : Store} {user : UserId}
    {result : Except (Failure ServiceError) (Scheduling LedgerEntry)}
    (h : Withdrawn s user result t) : s.Booked (Scheduling.job? result) t := by
  cases h with
  | failed => exact s.booked_self _
  | debited withdrawal now receipt t _ heffect =>
      refine ⟨heffect.writes, fun number order hnone hfound => ?_⟩
      cases heffect with
      | nothing _ _ hreply => cases hreply
      | debit =>
          change s.order? number = some order at hfound
          rw [hnone] at hfound
          cases hfound
      | anchor => exact Store.new_of_lookup_append hnone hfound

/-- A withdrawal that fails leaves the store as it was. -/
theorem spares_withdraw (user : UserId) (text : String) (amount : Decimal) :
    Spares (x.service.withdraw user text amount) := by
  refine .of_effect (fun s w => withdraw_effect x s w user text amount) fun s e t h => ?_
  cases h
  rfl

/-! ## Sessions -/

/-- A session is given out unless it would end beyond the time line. -/
theorem perform_open_session (user : UserId) :
    perform (x.service.openSession user).run s w =
      ⟨match x.issuer.issue? user (x.clock.run w).1 with
        | some token => .ok token
        | none => .error .overflow, s, (x.clock.run w).2⟩ := by
  rw [openSession, perform_run_bind, perform_run_lift, perform_clock]
  show perform (match x.issuer.issue? user (x.clock.run w).1 with
    | some token => pure token
    | none => throw .overflow : Operation (InMemory ω) String).run s (x.clock.run w).2 = _
  cases x.issuer.issue? user (x.clock.run w).1 <;> rfl

theorem reads_open_session (user : UserId) : Reads (x.service.openSession user).run := by
  intro s w
  rw [perform_open_session]

/-- Logging in changes nothing. -/
theorem reads_login (c : Credentials) : Reads (x.service.login c).run := by
  refine (reads_check_credentials c).run_bind fun _ => ?_
  refine (reads_ask (reads_get.bind fun _ => reads_pure _)).run_bind fun found => ?_
  cases found with
  | none => exact reads_pure _
  | some user =>
      refine (reads_ask_password _).run_bind fun fits => ?_
      cases fits with
      | true => exact reads_open_session x user.id
      | false => exact reads_pure _

end Service
end Rewards
