import Rewards.Proofs.Store.Orders

/-!
# Lists of orders

The orders of a user are listed by the time of their upload, and those of the same instant by their
number. Different numbers never count as equal, so the list depends on which orders the user has and
not on where they stand in the store. The main statement is `orders_of_eq`. The unfinished orders
are listed by the time of their upload only.
-/

namespace Rewards

/-! ## The order of instants -/

namespace Instant

variable {a b c : Instant}

/-- Instants are ordered by their seconds and then by their nanoseconds. -/
theorem le_iff :
    a.le b = true ↔ a.second < b.second ∨ (a.second = b.second ∧ a.nano ≤ b.nano) := by
  simp [le]

theorem le_trans (hab : a.le b = true) (hbc : b.le c = true) : a.le c = true := by
  rw [le_iff] at hab hbc ⊢
  omega

theorem le_total (a b : Instant) : a.le b = true ∨ b.le a = true := by
  rw [le_iff, le_iff]
  omega

theorem le_refl (a : Instant) : a.le a = true := (le_total a a).elim id id

theorem le_antisymm (hab : a.le b = true) (hba : b.le a = true) : a = b := by
  rw [le_iff] at hab hba
  cases a with
  | mk second nano hnano =>
      cases b with
      | mk otherSecond otherNano hother =>
          obtain ⟨rfl, rfl⟩ : second = otherSecond ∧ nano = otherNano := by
            simp only at hab hba
            omega
          rfl

end Instant

/-! ## The order of numbers -/

namespace OrderNumber

variable {a b c : OrderNumber}

/-- Numbers are ordered by their texts. -/
theorem le_iff : a.le b = true ↔ a.text ≤ b.text := by
  rw [le, Bool.not_eq_true', decide_eq_false_iff_not]
  exact String.not_lt

theorem le_trans (hab : a.le b = true) (hbc : b.le c = true) : a.le c = true := by
  rw [le_iff] at hab hbc ⊢
  exact String.le_trans hab hbc

theorem le_total (a b : OrderNumber) : a.le b = true ∨ b.le a = true := by
  rw [le_iff, le_iff]
  exact String.le_total a.text b.text

theorem le_antisymm (hab : a.le b = true) (hba : b.le a = true) : a = b := by
  rw [le_iff] at hab hba
  have htext := String.le_antisymm hab hba
  cases a
  cases b
  cases htext
  rfl

end OrderNumber

/-! ## The order of uploads -/

namespace Store

/-- An upload comes before another one if it is earlier, or as early with a smaller number. -/
theorem uploaded_before_iff {a b : Order} :
    uploadedBefore a b = true ↔
      (a.uploadedAt.le b.uploadedAt = true ∧
        (a.uploadedAt = b.uploadedAt → a.number.le b.number = true)) := by
  unfold uploadedBefore
  split
  · rename_i hsame
    simp [hsame, Instant.le_refl]
  · rename_i hother
    simp [hother]

theorem uploaded_before_trans {a b c : Order} (hab : uploadedBefore a b = true)
    (hbc : uploadedBefore b c = true) : uploadedBefore a c = true := by
  rw [uploaded_before_iff] at hab hbc ⊢
  obtain ⟨htime, hnumber⟩ := hab
  obtain ⟨hnext, hother⟩ := hbc
  refine ⟨Instant.le_trans htime hnext, fun hsame => ?_⟩
  -- The upload in the middle is neither earlier nor later than the two at its ends.
  have hfirst : a.uploadedAt = b.uploadedAt :=
    Instant.le_antisymm htime (by rw [hsame]; exact hnext)
  exact OrderNumber.le_trans (hnumber hfirst) (hother (hfirst.symm.trans hsame))

theorem uploaded_before_total (a b : Order) :
    uploadedBefore a b = true ∨ uploadedBefore b a = true := by
  rw [uploaded_before_iff, uploaded_before_iff]
  by_cases hsame : a.uploadedAt = b.uploadedAt
  · have hle : a.uploadedAt.le b.uploadedAt = true ∧ b.uploadedAt.le a.uploadedAt = true := by
      rw [hsame]
      exact ⟨Instant.le_refl _, Instant.le_refl _⟩
    exact (OrderNumber.le_total a.number b.number).imp (fun h => ⟨hle.1, fun _ => h⟩)
      (fun h => ⟨hle.2, fun _ => h⟩)
  · exact (Instant.le_total a.uploadedAt b.uploadedAt).imp
      (fun h => ⟨h, fun hcontra => absurd hcontra hsame⟩)
      (fun h => ⟨h, fun hcontra => absurd hcontra.symm hsame⟩)

/-- Uploads of different numbers are never equal in the order. -/
theorem number_of_uploaded_before {a b : Order} (hab : uploadedBefore a b = true)
    (hba : uploadedBefore b a = true) : a.number = b.number := by
  rw [uploaded_before_iff] at hab hba
  have hsame := Instant.le_antisymm hab.1 hba.1
  exact OrderNumber.le_antisymm (hab.2 hsame) (hba.2 hsame.symm)

/-- The orders of a user stand in the order of their upload. -/
theorem orders_sorted (s : Store) (user : UserId) :
    (s.ordersOf user).Pairwise fun a b => uploadedBefore a b = true := by
  refine List.pairwise_mergeSort (fun a b c hab hbc => ?_) (fun a b => ?_) _
  · exact uploaded_before_trans hab hbc
  · rw [Bool.or_eq_true]
    exact uploaded_before_total a b

/-- Stores in which a user has the same orders list them in the same way. -/
theorem orders_of_eq {s t : Store} {user : UserId} (hs : s.Keyed) (ht : t.Keyed)
    (hsame : ∀ order, order.owner = user → (order ∈ s.orders ↔ order ∈ t.orders)) :
    s.ordersOf user = t.ordersOf user := by
  have hmem (order : Order) :
      order ∈ s.orders.filter (·.isOwnedBy user) ↔ order ∈ t.orders.filter (·.isOwnedBy user) := by
    rw [List.mem_filter, List.mem_filter]
    refine and_congr_left fun hown => hsame order ?_
    simpa [Order.isOwnedBy] using hown
  have hperm : (s.orders.filter (·.isOwnedBy user)).Perm (t.orders.filter (·.isOwnedBy user)) :=
    (List.perm_ext_iff_of_nodup (hs.of_map _ |>.filter _) (ht.of_map _ |>.filter _)).mpr hmem
  have hlists : (s.ordersOf user).Perm (t.ordersOf user) :=
    (List.mergeSort_perm _ _).trans (hperm.trans (List.mergeSort_perm _ _).symm)
  refine List.Perm.eq_of_pairwise (fun a b ha hb hab hba => ?_) (s.orders_sorted user)
    (t.orders_sorted user) hlists
  -- Both orders are in the same store, where the number belongs to one of them only.
  have ha := (List.mem_filter.mp (List.mem_mergeSort.mp ha)).1
  have hb := (List.mem_filter.mp ((hmem b).mpr (List.mem_mergeSort.mp hb))).1
  exact List.inj_on_of_nodup_map hs ha hb (number_of_uploaded_before hab hba)

/-! ## The unfinished orders -/

/-- The unfinished orders are those that are new or being processed. -/
theorem mem_unfinished_orders {s : Store} {order : Order} :
    order ∈ s.unfinishedOrders ↔
      order ∈ s.orders ∧ (order.status = .new ∨ order.status = .processing) := by
  rw [unfinishedOrders, List.mem_mergeSort, List.mem_filter]
  refine and_congr_right fun _ => ?_
  cases order.status <;> simp [OrderStatus.isTerminal]

/-- No number stands twice among the unfinished orders. -/
theorem unfinished_numbers_nodup {s : Store} (hkeyed : s.Keyed) :
    (s.unfinishedOrders.map (·.number)).Nodup := by
  have hperm : s.unfinishedOrders.Perm (s.orders.filter fun o => !o.status.isTerminal) :=
    List.mergeSort_perm _ _
  refine (hperm.map (·.number)).nodup_iff.mpr ?_
  exact hkeyed.sublist (List.filter_sublist.map _)

/-- The unfinished orders stand in the order of their upload. -/
theorem unfinished_sorted (s : Store) :
    s.unfinishedOrders.Pairwise fun a b => a.uploadedAt.le b.uploadedAt = true := by
  unfold unfinishedOrders
  refine List.pairwise_mergeSort ?_ ?_ _
  · exact fun a b c hab hbc => Instant.le_trans hab hbc
  · intro a b
    rw [Bool.or_eq_true]
    exact Instant.le_total a.uploadedAt b.uploadedAt

end Store

end Rewards
