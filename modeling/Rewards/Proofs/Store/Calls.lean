import Mathlib.Data.List.Induction
import Rewards.Proofs.Store.Writes

/-!
# Runs of calls

Callers may be many, but each call of the store is one step, so whatever they do together is a list
of calls. `after calls` is the store that such a list leaves behind, starting from the empty one,
and `replies calls` is what the callers are told. `after_keeps` reduces an invariant of all runs to
the four writes.
-/

namespace Rewards.Store

/-- A call of an operation that may change the store, with the instant or the identifier that the
operation takes from outside. -/
inductive Call where
  | createUser (id : UserId) (login passwordHash : String)
  | createOrder (number : OrderNumber) (owner : UserId) (uploadedAt : Instant)
  | transition (number : OrderNumber) (source target : OrderStatus) (accrual : Option Decimal)
      (now : Instant)
  | withdraw (w : Withdrawal) (now : Instant)
deriving DecidableEq

/-- What a caller is told. -/
inductive Reply where
  | user (result : Except StoreError User)
  | order (result : Except StoreError OrderCreation)
  | moved (result : Except StoreError Bool)
  | withdrawn (result : Except (Failure StoreError) WithdrawalReceipt)
deriving DecidableEq

/-- The entry of a withdrawal that went through. -/
def Reply.debit? : Reply → Option LedgerEntry
  | .withdrawn (.ok receipt) => some receipt.entry
  | _ => none

/-- Make a call on what is stored. -/
def perform {σ : Type} [Storage σ] : Call → StateM σ Reply
  | .createUser id login passwordHash =>
      .user <$> ExceptT.run (Storage.createUser id login passwordHash)
  | .createOrder number owner uploadedAt =>
      .order <$> ExceptT.run (Storage.createOrder number owner uploadedAt)
  | .transition number source target accrual now =>
      .moved <$> ExceptT.run (Storage.transition number source target accrual now)
  | .withdraw w now => .withdrawn <$> ExceptT.run (Storage.withdraw w now)

/-- The store after calls in their order. -/
def after (calls : List Call) : Store := ((calls.mapM perform).run empty).2

/-- The replies to calls in their order. -/
def replies (calls : List Call) : List Reply := ((calls.mapM perform).run empty).1

@[simp] theorem after_nil : after [] = empty := rfl

@[simp] theorem replies_nil : replies [] = [] := rfl

theorem after_concat (calls : List Call) (call : Call) :
    after (calls ++ [call]) = ((perform call).run (after calls)).2 := by
  rw [after, List.mapM_append]
  rfl

theorem replies_concat (calls : List Call) (call : Call) :
    replies (calls ++ [call]) = replies calls ++ [((perform call).run (after calls)).1] := by
  rw [replies, List.mapM_append]
  rfl

/-! ## What one call does -/

/-- A call replies what its operation says, and leaves what the operation leaves. -/
theorem run_reply {σ ε α : Type} (reply : Except ε α → Reply) (change : Storage.Change σ ε α)
    (s : σ) :
    (reply <$> ExceptT.run change : StateM σ Reply).run s =
      (reply (change.apply s).1, (change.apply s).2) := rfl

/-- What a call does to the store, and what it replies. A call that writes nothing has no debit. -/
inductive Effect (s : Store) : Call → Reply → Store → Prop where
  | nothing (call : Call) (reply : Reply) : reply.debit? = none → Effect s call reply s
  | register (id : UserId) (login passwordHash : String) :
      Effect s (.createUser id login passwordHash) (.user (.ok ⟨id, login, passwordHash⟩))
        { s with
          users := s.users ++ [⟨id, login, passwordHash⟩], logins := s.logins ++ [(login, id)] }
  | upload (number : OrderNumber) (owner : UserId) (uploadedAt : Instant) :
      s.order? number = none →
      Effect s (.createOrder number owner uploadedAt)
        (.order (.ok (.created (Order.upload number owner uploadedAt))))
        { s with orders := s.orders ++ [Order.upload number owner uploadedAt] }
  | advance (order : Order) (target : OrderStatus) (accrual : Option Decimal) (now : Instant) :
      s.order? order.number = some order →
      Allowed order.status target accrual →
      Effect s (.transition order.number order.status target accrual now) (.moved (.ok true))
        (s.settle (moved order target accrual) now)
  | debit (w : Withdrawal) (now : Instant) (balance : Balance) (anchor : Order) :
      s.balance? w.user = some balance →
      w.checkFunds balance.current = .ok () →
      s.order? w.order = some anchor →
      anchor.owner = w.user →
      Effect s (.withdraw w now) (.withdrawn (.ok ⟨w.toEntry now, .alreadyOwned anchor⟩))
        { s with entries := s.entries ++ [w.toEntry now] }
  | anchor (w : Withdrawal) (now : Instant) (balance : Balance) :
      s.balance? w.user = some balance →
      w.checkFunds balance.current = .ok () →
      s.order? w.order = none →
      Effect s (.withdraw w now)
        (.withdrawn (.ok ⟨w.toEntry now, .created (Order.upload w.order w.user now)⟩))
        { s with
          orders := s.orders ++ [Order.upload w.order w.user now],
          entries := s.entries ++ [w.toEntry now] }

/-- Every call has one of the effects. -/
theorem perform_effect (call : Call) (s : Store) :
    Effect s call ((perform call).run s).1 ((perform call).run s).2 := by
  cases call with
  | createUser id login passwordHash =>
      simp only [perform, run_reply, apply_create_user, createUser]
      by_cases htaken : (s.idOfLogin? login).isSome = true
      · rw [if_pos htaken]
        exact .nothing _ _ rfl
      · rw [if_neg htaken]
        exact .register id login passwordHash
  | createOrder number owner uploadedAt =>
      simp only [perform, run_reply, apply_create_order]
      rcases create_order_cases s number owner uploadedAt with
        ⟨_, _, _, heq⟩ | ⟨_, _, _, heq⟩ | ⟨hnew, heq⟩
      · rw [heq]; exact .nothing _ _ rfl
      · rw [heq]; exact .nothing _ _ rfl
      · rw [heq]; exact .upload number owner uploadedAt hnew
  | transition number source target accrual now =>
      simp only [perform, run_reply, apply_transition]
      rcases transition_cases s number source target accrual now with
        ⟨_, _, heq⟩ | ⟨_, _, heq⟩ | ⟨_, _, _, _, heq⟩ | ⟨order, hallowed, hfound, rfl, heq⟩
      · rw [heq]; exact .nothing _ _ rfl
      · rw [heq]; exact .nothing _ _ rfl
      · rw [heq]; exact .nothing _ _ rfl
      · rw [heq]
        obtain rfl := number_of_lookup hfound
        exact .advance order target accrual now hfound hallowed
  | withdraw w now =>
      simp only [perform, run_reply, apply_withdraw]
      rcases withdraw_cases s w now with
        ⟨_, heq⟩ | ⟨_, _, _, heq⟩ | ⟨_, _, _, _, _, _, heq⟩ |
        ⟨balance, anchor, t, hbalance, hamount, horder, heq⟩
      · rw [heq]; exact .nothing _ _ rfl
      · rw [heq]; exact .nothing _ _ rfl
      · rw [heq]; exact .nothing _ _ rfl
      · have hfunds : w.checkFunds balance.current = .ok () := by
          simp [Withdrawal.checkFunds, hamount]
        rw [heq]
        rcases create_order_cases s w.order w.user now with
          ⟨order, hfound, howner, hown⟩ | ⟨_, _, _, hother⟩ | ⟨hnew, hcreated⟩
        · rw [hown] at horder
          cases horder
          exact .debit w now balance order hbalance hfunds hfound howner
        · rw [hother] at horder
          cases horder
        · rw [hcreated] at horder
          cases horder
          exact .anchor w now balance hbalance hfunds hnew

/-- An effect is made of writes. -/
theorem Effect.writes {s t : Store} {call : Call} {reply : Reply} (h : Effect s call reply t) :
    Writes s t := by
  cases h with
  | nothing => exact .refl
  | register => exact .single (.register _ _ _)
  | upload number owner uploadedAt hnew => exact .single (.upload number owner uploadedAt hnew)
  | advance order target accrual now hfound hallowed =>
      exact .single (.advance order target accrual now hfound hallowed)
  | debit w now balance anchor hbalance hfunds hfound howner =>
      exact .single (.debit w now balance anchor hbalance hfunds hfound howner)
  | anchor w now balance hbalance hfunds hnew =>
      -- The balance has been read before the order was stored, which does not change it.
      refine .tail (.single (.upload w.order w.user now hnew))
        (.debit w now balance (Order.upload w.order w.user now) hbalance hfunds ?_ rfl)
      rw [lookup_append, hnew]
      simp [Order.upload]

/-- A call makes writes and nothing else. -/
theorem perform_writes (call : Call) (s : Store) : Writes s ((perform call).run s).2 :=
  (perform_effect call s).writes

/-- What holds of the empty store and is kept by every write holds after all calls. -/
theorem after_keeps {P : Store → Prop} (hempty : P empty)
    (hstep : ∀ {s t : Store}, Write s t → P s → P t) (calls : List Call) : P (after calls) := by
  induction calls using List.reverseRecOn with
  | nil => exact hempty
  | append_singleton calls call ih =>
      rw [after_concat]
      exact (perform_writes call _).keep hstep ih

end Rewards.Store
