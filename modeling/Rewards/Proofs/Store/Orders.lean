import Mathlib.Data.List.Nodup
import Rewards.Store.Basic

/-!
# Looking up orders and entries

The orders of a store are kept in a list and looked up by their number. The lemmas here say what a
look-up finds after an order has been added or replaced, and that in a `Keyed` store every order is
found under its number. The entries of a user are picked out of the ledger.
-/

namespace Rewards.Store

/-- If no two items share a key, looking up a key finds the item that has it. -/
theorem find_unique_iff {α β : Type} [BEq β] [LawfulBEq β] {items : List α} {key : α → β}
    (hkeys : (items.map key).Nodup) {k : β} {item : α} :
    items.find? (key · == k) = some item ↔ item ∈ items ∧ key item = k := by
  constructor
  · intro hfound
    exact ⟨List.mem_of_find?_eq_some hfound, by simpa using List.find?_some hfound⟩
  · rintro ⟨hmem, rfl⟩
    cases hfound : items.find? (key · == key item) with
    | none => simpa using List.find?_eq_none.mp hfound item hmem
    | some found =>
        have hkey : key found = key item := by simpa using List.find?_some hfound
        rw [List.inj_on_of_nodup_map hkeys (List.mem_of_find?_eq_some hfound) hmem hkey]

/-- Different orders have different numbers. -/
def Keyed (s : Store) : Prop := (s.orders.map (·.number)).Nodup

variable {s : Store} {number : OrderNumber} {order : Order}

/-- An order is found under its own number. -/
theorem number_of_lookup (h : s.order? number = some order) : order.number = number := by
  simpa using List.find?_some h

/-- An order that is found is among the orders of the store. -/
theorem mem_of_lookup (h : s.order? number = some order) : order ∈ s.orders :=
  List.mem_of_find?_eq_some h

/-- A number that is not found belongs to no order. -/
theorem lookup_eq_none_iff : s.order? number = none ↔ number ∉ s.orders.map (·.number) := by
  simp [order?]

/-- If no two orders share a number, each of them is found. -/
theorem Keyed.lookup_of_mem (hkeyed : s.Keyed) (h : order ∈ s.orders) :
    s.order? order.number = some order :=
  (find_unique_iff hkeyed).mpr ⟨h, rfl⟩

/-- A new order is found unless there was one with its number before. -/
theorem lookup_append (s : Store) (order : Order) (number : OrderNumber) :
    ({ s with orders := s.orders ++ [order] } : Store).order? number =
      (s.order? number).or (if order.number = number then some order else none) := by
  by_cases h : order.number = number <;> simp [order?, h]

/-- Replacing an order changes what is found under its number and nothing else. -/
theorem lookup_put (s : Store) (order : Order) (number : OrderNumber) :
    (s.putOrder order).order? number =
      (s.order? number).map fun found => if number = order.number then order else found := by
  have hsame : ((·.number == number) ∘ fun o : Order =>
      if o.number == order.number then order else o) = (·.number == number) := by
    funext o
    by_cases h : o.number = order.number <;> simp [h]
  rw [order?, putOrder, List.find?_map, hsame, ← order?]
  cases h : s.order? number with
  | none => rfl
  | some found => simp [number_of_lookup h]

/-- Replacing an order keeps the numbers as they are. -/
theorem put_numbers (s : Store) (order : Order) :
    (s.putOrder order).orders.map (·.number) = s.orders.map (·.number) := by
  rw [putOrder, List.map_map]
  refine List.map_congr_left fun o _ => ?_
  by_cases h : o.number = order.number <;> simp [h]

/-- New entries of the ledger come behind the entries of their users. -/
theorem entries_of_append (s : Store) (entries : List LedgerEntry) (user : UserId) :
    ({ s with entries := s.entries ++ entries } : Store).entriesOf user =
      s.entriesOf user ++ entries.filter (·.user == user) :=
  List.filter_append _ _

end Rewards.Store
