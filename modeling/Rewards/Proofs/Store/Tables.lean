import Rewards.Proofs.Store.Calls
import Rewards.Proofs.Store.LifeCycle
import Rewards.Proofs.Store.Listings

/-!
# Orders in a table

A store in memory keeps its orders in a table, each in a row under a number. In which order the rows
are walked is not known, and it may change whenever the table does. `Tabled` keeps what is stored in
this way, and the operations run on it in place. By `perform_holds` it replies as `Store` does and
holds the same orders, each under its own number. The main statement, `listings_of_walk`, is about
all the tables that calls can reach: the lists of orders are as they should be, and where the rows
stand makes no difference to the orders of a user.
-/

namespace Rewards.Store

/-- The contents of a store with its orders in a table. The rows are listed as they are walked. -/
structure Tabled where
  users : List User
  logins : List (String × UserId)
  rows : List (OrderNumber × Order)
  entries : List LedgerEntry

namespace Tabled

/-- The store without any content. -/
def empty : Tabled := ⟨[], [], [], []⟩

/-- The store with the orders as they are walked. -/
def walked (t : Tabled) : Store := ⟨t.users, t.logins, t.rows.map (·.2), t.entries⟩

/-- The order in the row of a number. -/
def get? (t : Tabled) (number : OrderNumber) : Option Order :=
  (t.rows.find? (·.1 == number)).map (·.2)

/-- The table with an order in the row of a number, instead of any that was there. -/
def insert (t : Tabled) (number : OrderNumber) (order : Order) : Tabled :=
  { t with rows := (number, order) :: t.rows.filter (·.1 != number) }

instance : Storage Tabled where
  idOfLogin? t := t.walked.idOfLogin?
  order? := get?
  entriesOf t := t.walked.entriesOf
  addLogin login id t := { t with logins := t.logins ++ [(login, id)] }
  addUser user t := { t with users := t.users ++ [user] }
  insertOrder order t := t.insert order.number order
  addEntry entry t := { t with entries := t.entries ++ [entry] }

/-- A store that calls can reach, with the replies to the calls. Between the calls the rows may be
rearranged. -/
inductive Reached : List Call → List Reply → Tabled → Prop where
  | start : Reached [] [] empty
  | call (calls : List Call) (told : List Reply) (t : Tabled) (call : Call) :
      Reached calls told t →
      Reached (calls ++ [call]) (told ++ [((perform call).run t).1]) ((perform call).run t).2
  | rearrange (calls : List Call) (told : List Reply) (t : Tabled)
      (rows : List (OrderNumber × Order)) :
      Reached calls told t → rows.Perm t.rows → Reached calls told { t with rows := rows }

end Tabled

/-! ## The table and the list of orders -/

open Tabled (Reached)

/-- The table has the orders of the store, each under its own number, and everything else is as in
the store. -/
structure Holds (t : Tabled) (s : Store) : Prop where
  users : t.users = s.users
  logins : t.logins = s.logins
  own : ∀ row ∈ t.rows, row.2.number = row.1
  orders : (t.rows.map (·.2)).Perm s.orders
  entries : t.entries = s.entries

variable {t : Tabled} {s : Store} {number : OrderNumber} {order : Order}

/-- Around an order that is found stand the orders with other numbers. -/
theorem Keyed.split (hkeyed : s.Keyed) (hfound : s.order? number = some order) :
    ∃ before later, s.orders = before ++ order :: later ∧
      (∀ o ∈ before, o.number ≠ number) ∧ ∀ o ∈ later, o.number ≠ number := by
  obtain ⟨_, before, later, horders, hbefore⟩ := List.find?_eq_some_iff_append.mp hfound
  refine ⟨before, later, horders, fun o ho => by simpa using hbefore o ho, fun o ho hnumber => ?_⟩
  rw [Keyed, horders, List.map_append, List.map_cons, List.nodup_append, List.nodup_cons] at hkeyed
  refine hkeyed.2.1.1 (List.mem_map.mpr ⟨o, ho, ?_⟩)
  rw [hnumber, number_of_lookup hfound]

/-- Replacing an order takes the order out that has its number, and puts it in. -/
theorem Keyed.put_perm (hkeyed : s.Keyed) {found : Order}
    (hfound : s.order? order.number = some found) :
    (s.putOrder order).orders.Perm (order :: s.orders.filter (·.number != order.number)) := by
  obtain ⟨before, later, horders, hbefore, hlater⟩ := hkeyed.split hfound
  have hnumber : (found.number == order.number) = true := by
    rw [number_of_lookup hfound, beq_self_eq_true]
  have hother {others : List Order} (h : ∀ o ∈ others, o.number ≠ order.number) :
      others.map (fun o => if o.number == order.number then order else o) = others ∧
        others.filter (·.number != order.number) = others := by
    refine ⟨?_, List.filter_eq_self.mpr fun o ho => by simpa using h o ho⟩
    refine (List.map_congr_left fun o ho => ?_).trans (List.map_id others)
    rw [if_neg (by simpa using h o ho), id]
  have hput : (s.putOrder order).orders = before ++ order :: later := by
    rw [putOrder, horders, List.map_append, List.map_cons, (hother hbefore).1, (hother hlater).1,
      if_pos hnumber]
  have hrest : s.orders.filter (·.number != order.number) = before ++ later := by
    rw [horders, List.filter_append, List.filter_cons_of_neg (by simpa using hnumber),
      (hother hbefore).2, (hother hlater).2]
  rw [hput, hrest]
  exact List.perm_middle

/-! ## Looking up and inserting -/

namespace Holds

/-- The numbers of the rows are those of the orders. -/
theorem keys (h : Holds t s) : (t.rows.map (·.1)).Perm (s.orders.map (·.number)) := by
  have hown : t.rows.map (·.1) = (t.rows.map (·.2)).map (·.number) := by
    rw [List.map_map]
    exact List.map_congr_left fun row hrow => (h.own row hrow).symm
  rw [hown]
  exact h.orders.map _

/-- The row of a number has the order that the store finds under it. -/
theorem get_eq (h : Holds t s) (hkeyed : s.Keyed) (number : OrderNumber) :
    t.get? number = s.order? number := by
  have hkeys : (t.rows.map (·.1)).Nodup := h.keys.nodup_iff.mpr hkeyed
  refine Option.ext fun order => ?_
  rw [order?, find_unique_iff hkeyed, Tabled.get?, Option.map_eq_some_iff, ← h.orders.mem_iff,
    List.mem_map]
  simp only [find_unique_iff hkeys]
  constructor
  · rintro ⟨row, ⟨hrow, rfl⟩, rfl⟩
    exact ⟨⟨row, hrow, rfl⟩, h.own row hrow⟩
  · rintro ⟨⟨row, hrow, rfl⟩, rfl⟩
    exact ⟨row, ⟨hrow, (h.own row hrow).symm⟩, rfl⟩

/-- After an insertion, the orders are the new one and those with other numbers. -/
theorem insert_orders (h : Holds t s) (order : Order) :
    ((t.insert order.number order).rows.map (·.2)).Perm
      (order :: s.orders.filter (·.number != order.number)) := by
  have hrest : (t.rows.filter (·.1 != order.number)).map (·.2) =
      (t.rows.map (·.2)).filter (·.number != order.number) := by
    rw [List.filter_map]
    congr 1
    refine List.filter_congr fun row hrow => ?_
    rw [Function.comp_apply, h.own row hrow]
  rw [Tabled.insert, List.map_cons, hrest]
  exact (h.orders.filter _).cons order

/-- An insertion puts the order under its own number. -/
theorem insert_own (h : Holds t s) (order : Order) :
    ∀ row ∈ (t.insert order.number order).rows, row.2.number = row.1 := by
  intro row hrow
  rcases List.mem_cons.mp hrow with rfl | hrow
  · rfl
  · exact h.own row (List.mem_filter.mp hrow).1

/-- Inserting an order with a number that is not found adds it. -/
theorem insert_new (h : Holds t s) (hnew : s.order? order.number = none) :
    Holds (t.insert order.number order) { s with orders := s.orders ++ [order] } := by
  have hall : s.orders.filter (·.number != order.number) = s.orders := by
    refine List.filter_eq_self.mpr fun o ho => bne_iff_ne.mpr fun hnumber => ?_
    exact lookup_eq_none_iff.mp hnew (List.mem_map.mpr ⟨o, ho, hnumber⟩)
  have horders := h.insert_orders order
  rw [hall] at horders
  exact ⟨h.users, h.logins, h.insert_own order,
    horders.trans (List.perm_append_singleton order s.orders).symm, h.entries⟩

/-- Inserting an order with a number that is found replaces the one that was there. -/
theorem insert_put (h : Holds t s) (hkeyed : s.Keyed) {found : Order}
    (hfound : s.order? order.number = some found) :
    Holds (t.insert order.number order) (s.putOrder order) :=
  ⟨h.users, h.logins, h.insert_own order,
    (h.insert_orders order).trans (hkeyed.put_perm hfound).symm, h.entries⟩

/-- An order is inserted under its number, whether it is new or not. -/
theorem insert (h : Holds t s) (hkeyed : s.Keyed) (order : Order) :
    Holds (t.insert order.number order) (s.insertOrder order) := by
  unfold insertOrder
  cases hfound : s.order? order.number with
  | none => exact h.insert_new hfound
  | some found => exact h.insert_put hkeyed hfound

/-- A new entry comes behind the same entries. -/
theorem add_entry (h : Holds t s) (entry : LedgerEntry) :
    Holds (Storage.addEntry entry t) (Storage.addEntry entry s) :=
  ⟨h.users, h.logins, h.own, h.orders, congrArg (· ++ [entry]) h.entries⟩

/-- The logins are those of the store. -/
theorem login_eq (h : Holds t s) (login : String) :
    Storage.idOfLogin? t login = Storage.idOfLogin? s login := by
  show t.walked.idOfLogin? login = s.idOfLogin? login
  rw [idOfLogin?, idOfLogin?, Tabled.walked, h.logins]

/-- The entries are those of the store. -/
theorem entries_eq (h : Holds t s) (user : UserId) :
    Storage.entriesOf t user = Storage.entriesOf s user := by
  show t.walked.entriesOf user = s.entriesOf user
  rw [entriesOf, entriesOf, Tabled.walked, h.entries]

/-- An order is found in the table as it is in the store. -/
theorem order_eq (h : Holds t s) (hkeyed : s.Keyed) (number : OrderNumber) :
    Storage.order? t number = Storage.order? s number :=
  h.get_eq hkeyed number

end Holds

/-! ## Operations and calls -/

/-- An operation says the same in both stores, and they hold the same orders after it. -/
structure Alike {ε α : Type} (left : Except ε α × Tabled) (right : Except ε α × Store) :
    Prop where
  said : left.1 = right.1
  holds : Holds left.2 right.2

namespace Holds

/-- A registration is alike in both stores. -/
theorem create_user_alike (h : Holds t s) (id : UserId) (login passwordHash : String) :
    Alike ((Storage.createUser id login passwordHash).apply t)
      ((Storage.createUser id login passwordHash).apply s) := by
  rw [Storage.apply_create_user, Storage.apply_create_user, h.login_eq]
  split
  · exact ⟨rfl, h⟩
  · exact ⟨rfl, congrArg (· ++ _) h.users, congrArg (· ++ _) h.logins, h.own, h.orders, h.entries⟩

/-- An upload is alike in both stores. -/
theorem create_order_alike (h : Holds t s) (hkeyed : s.Keyed) (number : OrderNumber)
    (owner : UserId) (uploadedAt : Instant) :
    Alike ((Storage.createOrder number owner uploadedAt).apply t)
      ((Storage.createOrder number owner uploadedAt).apply s) := by
  rw [Storage.apply_create_order, Storage.apply_create_order, h.order_eq hkeyed]
  cases Storage.order? s number with
  | none => exact ⟨rfl, h.insert hkeyed _⟩
  | some order =>
      dsimp only
      split
      · exact ⟨rfl, h⟩
      · exact ⟨rfl, h⟩

/-- The credit of an order is added in both stores or in neither. -/
theorem add_credit (h : Holds t s) (order : Order) (now : Instant) :
    Holds (Storage.addCredit order now t) (Storage.addCredit order now s) := by
  unfold Storage.addCredit
  split
  · exact h.add_entry _
  · exact h

/-- A change of status is alike in both stores. -/
theorem transition_alike (h : Holds t s) (hkeyed : s.Keyed) (number : OrderNumber)
    (source target : OrderStatus) (accrual : Option Decimal) (now : Instant) :
    Alike ((Storage.transition number source target accrual now).apply t)
      ((Storage.transition number source target accrual now).apply s) := by
  rw [Storage.apply_transition, Storage.apply_transition, h.order_eq hkeyed]
  cases checkTransition source target accrual with
  | error e => exact ⟨rfl, h⟩
  | ok =>
      cases Storage.order? s number with
      | none => exact ⟨rfl, h⟩
      | some order =>
          dsimp only
          split
          · exact ⟨rfl, h⟩
          · refine ⟨rfl, (h.add_credit _ now).insert ?_ _⟩
            rw [add_credit_eq]
            exact hkeyed

/-- A withdrawal is alike in both stores. -/
theorem withdraw_alike (h : Holds t s) (hkeyed : s.Keyed) (w : Withdrawal) (now : Instant) :
    Alike ((Storage.withdraw w now).apply t) ((Storage.withdraw w now).apply s) := by
  rw [Storage.apply_withdraw, Storage.apply_withdraw, h.entries_eq]
  cases Balance.ofEntries? (Storage.entriesOf s w.user) with
  | none => exact ⟨rfl, h⟩
  | some balance =>
      dsimp only
      cases w.checkFunds balance.current with
      | error e => exact ⟨rfl, h⟩
      | ok =>
          dsimp only
          have halike := h.create_order_alike hkeyed w.order w.user now
          generalize (Storage.createOrder w.order w.user now).apply t = left at halike ⊢
          generalize (Storage.createOrder w.order w.user now).apply s = right at halike ⊢
          obtain ⟨said, t⟩ := left
          obtain ⟨_, s⟩ := right
          obtain ⟨rfl, hholds⟩ := halike
          cases said with
          | error e => exact ⟨rfl, hholds⟩
          | ok anchor => exact ⟨rfl, hholds.add_entry _⟩

end Holds

/-- A call has the same reply from both stores, and they hold the same orders after it. -/
theorem perform_holds (h : Holds t s) (hkeyed : s.Keyed) (call : Call) :
    ((perform call).run t).1 = ((perform call).run s).1 ∧
      Holds ((perform call).run t).2 ((perform call).run s).2 := by
  have hreply {ε α : Type} (reply : Except ε α → Reply) {left : Storage.Change Tabled ε α}
      {right : Storage.Change Store ε α} (halike : Alike (left.apply t) (right.apply s)) :
      ((reply <$> ExceptT.run left : StateM Tabled Reply).run t).1 =
          ((reply <$> ExceptT.run right : StateM Store Reply).run s).1 ∧
        Holds ((reply <$> ExceptT.run left : StateM Tabled Reply).run t).2
          ((reply <$> ExceptT.run right : StateM Store Reply).run s).2 :=
    ⟨congrArg reply halike.said, halike.holds⟩
  cases call with
  | createUser id login passwordHash =>
      exact hreply .user (h.create_user_alike id login passwordHash)
  | createOrder number owner uploadedAt =>
      exact hreply .order (h.create_order_alike hkeyed number owner uploadedAt)
  | transition number source target accrual now =>
      exact hreply .moved (h.transition_alike hkeyed number source target accrual now)
  | withdraw w now => exact hreply .withdrawn (h.withdraw_alike hkeyed w now)

/-- After calls, orders have different numbers. -/
theorem keyed_after (calls : List Call) : (after calls).Keyed :=
  after_keeps List.nodup_nil Write.keyed calls

/-- A store with a table that calls can reach has given the replies of the store without one, and
holds its orders. -/
theorem reached_holds {calls : List Call} {told : List Reply} (h : Reached calls told t) :
    told = replies calls ∧ Holds t (after calls) := by
  induction h with
  | start =>
      rw [after_nil, replies_nil]
      refine ⟨rfl, rfl, rfl, fun row hrow => ?_, .refl _, rfl⟩
      exact absurd hrow List.not_mem_nil
  | call calls told t call _ ih =>
      obtain ⟨htold, hholds⟩ := ih
      obtain ⟨hreply, hlater⟩ := perform_holds hholds (keyed_after calls) call
      rw [replies_concat, after_concat, htold, hreply]
      exact ⟨rfl, hlater⟩
  | rearrange calls told t rows _ hrows ih =>
      obtain ⟨htold, hholds⟩ := ih
      refine ⟨htold, hholds.users, hholds.logins, fun row hrow => ?_, ?_, hholds.entries⟩
      · exact hholds.own row (hrows.mem_iff.mp hrow)
      · exact (hrows.map _).trans hholds.orders

/-! ## Lists of orders -/

/-- A list of all the orders of a kind, each of them once, in an order. -/
structure IsListing (orders : List Order) (kind : Order → Prop) (before : Order → Order → Prop)
    (listed : List Order) : Prop where
  all : ∀ order, order ∈ listed ↔ order ∈ orders ∧ kind order
  once : (listed.map (·.number)).Nodup
  sorted : listed.Pairwise before

/-- The order was uploaded before another one, or at the same instant with a smaller number. -/
def Precedes (a b : Order) : Prop :=
  a.uploadedAt.lt b.uploadedAt = true ∨
    (a.uploadedAt = b.uploadedAt ∧ a.number.text < b.number.text)

/-- Of orders with different numbers, the one that is listed first precedes the other. -/
theorem precedes_of_uploaded_before {a b : Order} (hbefore : uploadedBefore a b = true)
    (hother : a.number ≠ b.number) : Precedes a b := by
  have hnumbers : b.number.le a.number = true → ¬a.number.le b.number = true :=
    fun hba hab => hother (OrderNumber.le_antisymm hab hba)
  obtain ⟨htime, hnumber⟩ := uploaded_before_iff.mp hbefore
  by_cases hsame : a.uploadedAt = b.uploadedAt
  · refine .inr ⟨hsame, String.not_le.mp fun hle => ?_⟩
    exact hnumbers (OrderNumber.le_iff.mpr hle) (hnumber hsame)
  · refine .inl ?_
    rw [Instant.lt, Bool.not_eq_true', ← Bool.not_eq_true]
    exact fun hle => hsame (Instant.le_antisymm htime hle)

/-- The orders of a user are listed one preceding the other. -/
theorem Keyed.orders_listing (hkeyed : s.Keyed) (user : UserId) :
    IsListing s.orders (·.owner = user) Precedes (s.ordersOf user) := by
  have honce : ((s.ordersOf user).map (·.number)).Nodup := by
    refine ((List.mergeSort_perm _ _).map _).nodup_iff.mpr ?_
    exact hkeyed.sublist (List.filter_sublist.map _)
  have hother : (s.ordersOf user).Pairwise fun a b => a.number ≠ b.number :=
    List.pairwise_map.mp honce
  refine ⟨fun order => ?_, honce, ?_⟩
  · rw [ordersOf, List.mem_mergeSort, List.mem_filter, Order.isOwnedBy, beq_iff_eq]
  · exact (s.orders_sorted user).imp₂ (fun a b => precedes_of_uploaded_before) hother

/-- The unfinished orders are listed none later than the next. -/
theorem Keyed.unfinished_listing (hkeyed : s.Keyed) :
    IsListing s.orders (·.status.isTerminal = false)
      (fun a b => a.uploadedAt.le b.uploadedAt = true) s.unfinishedOrders := by
  refine ⟨fun order => ?_, unfinished_numbers_nodup hkeyed, unfinished_sorted s⟩
  rw [unfinishedOrders, List.mem_mergeSort, List.mem_filter, Bool.not_eq_true']

/-- In every store with a table that calls can reach, whatever the rows' places are: the replies to
the calls have been those of the store without a table, and its orders are in the table. The orders
of a user are listed once each by the time of their upload and their number. Another table after the
same calls lists the same orders in the same places. The unfinished orders are listed once each by
the time of their upload. -/
theorem listings_of_walk {calls : List Call} {told : List Reply} (h : Reached calls told t)
    (user : UserId) :
    told = replies calls ∧ t.walked.orders.Perm (after calls).orders ∧
      IsListing t.walked.orders (·.owner = user) Precedes (t.walked.ordersOf user) ∧
      (∀ toldOther other, Reached calls toldOther other →
        other.walked.ordersOf user = t.walked.ordersOf user) ∧
      IsListing t.walked.orders (·.status.isTerminal = false)
        (fun a b => a.uploadedAt.le b.uploadedAt = true) t.walked.unfinishedOrders := by
  have hkeyed {told : List Reply} {t : Tabled} (h : Reached calls told t) : t.walked.Keyed :=
    ((reached_holds h).2.orders.map _).nodup_iff.mpr (keyed_after calls)
  obtain ⟨htold, hholds⟩ := reached_holds h
  refine ⟨htold, hholds.orders, (hkeyed h).orders_listing user, ?_, (hkeyed h).unfinished_listing⟩
  intro toldOther other hother
  refine orders_of_eq (hkeyed hother) (hkeyed h) fun order _ => ?_
  exact (reached_holds hother).2.orders.mem_iff.trans hholds.orders.mem_iff.symm

/-- Two orders of the same instant in both arrangements of their rows: the number decides, and as a
text 125 is smaller than 18. -/
theorem listings_of_walk_same_instant :
    let first := Order.upload ⟨"125", rfl⟩ default default
    let second := Order.upload ⟨"18", rfl⟩ default default
    let calls : List Call :=
      [.createOrder first.number default default, .createOrder second.number default default]
    let told : List Reply := [.order (.ok (.created first)), .order (.ok (.created second))]
    let t : Tabled := ⟨[], [], [(first.number, first), (second.number, second)], []⟩
    let other : Tabled := ⟨[], [], [(second.number, second), (first.number, first)], []⟩
    Reached calls told t ∧ Reached calls told other ∧
      other.walked.ordersOf default = [first, second] ∧
      t.walked.ordersOf default = [first, second] := by
  intro first second calls told t other
  have hother : Reached calls told other :=
    .call [calls[0]] [told[0]] _ calls[1] (.call [] [] _ calls[0] .start)
  have ht : Reached calls told t := .rearrange _ _ other t.rows hother (.swap _ _ _)
  have hlist : t.walked.ordersOf default = [first, second] :=
    List.mergeSort_of_pairwise (by decide +kernel)
  have hwalk := listings_of_walk ht default
  exact ⟨ht, hother, (hwalk.2.2.2.1 told other hother).trans hlist, hlist⟩

end Rewards.Store
