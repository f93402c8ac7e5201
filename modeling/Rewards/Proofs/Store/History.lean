import Rewards.Proofs.Store.Finished

/-!
# The history of an order

What is stored under one number in the course of a run. `Follows` lists everything that a call can
do to it: nothing, or one step of the life cycle. The main statement, `order_history`, puts together
what this means for whole runs: an order is never removed, a finished one never changes, the accrual
is nothing until the order is processed and is written once at most, and a change of status that is
refused changes nothing at all.
-/

namespace Rewards.Store

/-- What is stored under a number before and after a call. The flag says that the call has written
the accrual. -/
inductive Follows (number : OrderNumber) : Bool → Option Order → Option Order → Prop where
  | keep (found : Option Order) : Follows number false found found
  | upload (owner : UserId) (uploadedAt : Instant) :
      Follows number false none (some (Order.upload number owner uploadedAt))
  | start (order : Order) :
      order.status = .new →
      Follows number false (some order) (some { order with status := .processing })
  | reject (order : Order) :
      order.status = .processing →
      Follows number false (some order) (some { order with status := .invalid })
  | resolve (order : Order) (accrual : Decimal) :
      order.status = .processing →
      Follows number true (some order)
        (some { order with status := .processed, accrual := accrual })

/-- The call has moved the order to the end of processing, which is where its accrual is
written. -/
def writesAccrual (number : OrderNumber) : Call × Reply → Bool
  | (.transition other _ target _ _, .moved (.ok true)) =>
      other == number && target == .processed
  | _ => false

/-- How many calls of a run write the accrual of an order. -/
def accrualWrites (calls : List Call) (number : OrderNumber) : Nat :=
  (calls.zip (replies calls)).countP (writesAccrual number)

variable {s t : Store} {number : OrderNumber}

/-! ## One call -/

/-- A new order is stored under its number, and nothing changes elsewhere. -/
theorem follows_upload (s : Store) {other : OrderNumber} (owner : UserId) (uploadedAt : Instant)
    (hnew : s.order? other = none) :
    Follows number false (s.order? number)
      (Store.order? { s with orders := s.orders ++ [Order.upload other owner uploadedAt] }
        number) := by
  have hown : (Order.upload other owner uploadedAt).number = other := rfl
  rw [lookup_append, hown]
  by_cases hnumber : other = number
  · subst hnumber
    rw [hnew, Option.none_or, if_pos rfl]
    exact .upload owner uploadedAt
  · rw [if_neg hnumber, Option.or_none]
    exact .keep _

/-- A call that is no change of status stores a new order or leaves all orders alone. -/
theorem Effect.follows {call : Call} {reply : Reply} (h : Effect s call reply t)
    (hcall : call.isTransition = false) :
    Follows number false (s.order? number) (t.order? number) := by
  cases h with
  | nothing | register | debit => exact .keep _
  | upload other owner uploadedAt hnew => exact follows_upload s owner uploadedAt hnew
  | anchor w now balance _ _ hnew => exact follows_upload s w.user now hnew
  | advance => cases hcall

/-- An allowed change of status is a step of the life cycle. It writes the accrual if it leads to
the end of processing. -/
theorem follows_moved {order : Order} {target : OrderStatus} {accrual : Option Decimal}
    (hallowed : Allowed order.status target accrual) :
    Follows number (target == .processed) (some order) (some (moved order target accrual)) := by
  obtain ⟨hstep, haccrual⟩ := hallowed
  have hnone (htarget : target ≠ .processed) : accrual = none := by
    cases accrual with
    | none => rfl
    | some amount => exact absurd (haccrual rfl) htarget
  cases hstatus : order.status with
  | new =>
      cases target with
      | new | invalid | processed => rw [hstatus] at hstep; cases hstep
      | processing =>
          rw [hnone (by simp)]
          exact .start order hstatus
  | processing =>
      cases target with
      | new | processing => rw [hstatus] at hstep; cases hstep
      | invalid =>
          rw [hnone (by simp)]
          exact .reject order hstatus
      | processed => exact .resolve order _ hstatus
  | invalid | processed => rw [hstatus] at hstep; cases hstep

/-- What a call does to what is stored under a number. -/
theorem perform_follows (call : Call) (s : Store) (number : OrderNumber) :
    Follows number (writesAccrual number (call, ((perform call).run s).1)) (s.order? number)
      (((perform call).run s).2.order? number) := by
  cases call with
  | createUser | createOrder | withdraw => exact (perform_effect _ s).follows rfl
  | transition other source target accrual now =>
      simp only [perform, run_reply, apply_transition]
      rcases transition_cases s other source target accrual now with
        ⟨_, _, heq⟩ | ⟨_, _, heq⟩ | ⟨_, _, _, _, heq⟩ | ⟨order, hallowed, hfound, rfl, heq⟩
      · rw [heq]; exact .keep _
      · rw [heq]; exact .keep _
      · rw [heq]; exact .keep _
      · rw [heq]
        obtain rfl := number_of_lookup hfound
        show Follows number (order.number == number && target == .processed) _
          ((s.settle (moved order target accrual) now).order? number)
        rw [lookup_settle]
        by_cases hnumber : number = order.number
        · subst hnumber
          rw [hfound]
          simpa [moved] using follows_moved hallowed
        · have hother : (order.number == number) = false := by simpa using Ne.symm hnumber
          simpa [hother, moved, hnumber] using Follows.keep (s.order? number)

/-- A change of status that is refused, or that finds the order elsewhere, leaves the store as it
was. -/
theorem transition_refused (s : Store) {number : OrderNumber} {source target : OrderStatus}
    {accrual : Option Decimal} {now : Instant} {result : Except StoreError Bool}
    (h : (perform (.transition number source target accrual now)).run s = (.moved result, t))
    (hresult : result ≠ .ok true) : t = s := by
  simp only [perform, run_reply, apply_transition] at h
  rcases transition_cases s number source target accrual now with
    ⟨_, _, heq⟩ | ⟨_, _, heq⟩ | ⟨_, _, _, _, heq⟩ | ⟨_, _, _, _, heq⟩
  · rw [heq] at h; cases h; rfl
  · rw [heq] at h; cases h; rfl
  · rw [heq] at h; cases h; rfl
  · rw [heq] at h; cases h; exact absurd rfl hresult

/-! ## Whole runs -/

/-- Every call has a reply. -/
theorem length_replies (calls : List Call) : (replies calls).length = calls.length := by
  induction calls using List.reverseRecOn with
  | nil => rfl
  | append_singleton calls call ih =>
      rw [replies_concat, List.length_append, List.length_append, ih]
      rfl

/-- One more call writes the accrual once more or not at all. -/
theorem accrual_writes_concat (calls : List Call) (call : Call) (number : OrderNumber) :
    accrualWrites (calls ++ [call]) number = accrualWrites calls number +
      (writesAccrual number (call, ((perform call).run (after calls)).1)).toNat := by
  rw [accrualWrites, replies_concat, List.zip_append (length_replies calls).symm,
    List.countP_append, ← accrualWrites]
  cases hwrites : writesAccrual number (call, ((perform call).run (after calls)).1) <;>
    simp [hwrites]

/-- The accrual of a processed order has been written once, and that of any other never. -/
theorem accrual_writes_eq (calls : List Call) (number : OrderNumber) :
    accrualWrites calls number =
      (((after calls).order? number).any (·.status == .processed)).toNat := by
  induction calls using List.reverseRecOn with
  | nil => rfl
  | append_singleton calls call ih =>
      have hfollows := perform_follows call (after calls) number
      rw [accrual_writes_concat, ih, after_concat]
      generalize (after calls).order? number = before at hfollows ⊢
      generalize (((perform call).run (after calls)).2).order? number = later at hfollows ⊢
      generalize writesAccrual number (call, ((perform call).run (after calls)).1) = wrote
        at hfollows ⊢
      cases hfollows with
      | keep => simp
      | upload => rfl
      | start order hstatus | reject order hstatus =>
          simp only [Option.any_some, hstatus]
          rfl
      | resolve order accrual hstatus => simp [hstatus]

/-- More calls make writes. -/
theorem writes_after_append (calls later : List Call) :
    Writes (after calls) (after (calls ++ later)) := by
  induction later using List.reverseRecOn with
  | nil => rw [List.append_nil]
  | append_singleton later call ih =>
      rw [← List.append_assoc, after_concat]
      exact ih.trans (perform_writes call _)

/-- After any calls, whatever they are: the next call does one step of the life cycle, or none, to
what is stored under a number. A stored order stays stored under all later calls, moves along the
life cycle, and never changes once it is finished. Only a processed order has an accrual, and that
has been written once, that of any other order never. A change of status that does not take place
leaves the whole store as it was. -/
theorem order_history (calls : List Call) (number : OrderNumber) :
    (∀ call, Follows number (writesAccrual number (call, ((perform call).run (after calls)).1))
      ((after calls).order? number) ((after (calls ++ [call])).order? number)) ∧
    (∀ later order, (after calls).order? number = some order →
      ∃ last, (after (calls ++ later)).order? number = some last ∧ order.LeadsTo last) ∧
    (∀ order, (after calls).order? number = some order → order.status ≠ .processed →
      order.accrual = .zero) ∧
    accrualWrites calls number =
      (((after calls).order? number).any (·.status == .processed)).toNat ∧
    (∀ source target accrual now result t,
      (perform (.transition number source target accrual now)).run (after calls) =
        (.moved result, t) → result ≠ .ok true → t = after calls) := by
  refine ⟨fun call => ?_, fun later order hfound => ?_, ?_, accrual_writes_eq calls number, ?_⟩
  · rw [after_concat]
    exact perform_follows call (after calls) number
  · exact (writes_after_append calls later).leads_to hfound
  · exact after_keeps (fun _ _ h => nomatch h) Write.unearned calls number
  · intro source target accrual now result t h hresult
    exact transition_refused (after calls) h hresult

end Rewards.Store
