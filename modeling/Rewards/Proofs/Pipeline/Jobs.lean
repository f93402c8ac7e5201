import Rewards.Proofs.Pipeline.Accounts

/-!
# Jobs and tracked numbers

What an account says of the jobs of one number, and the invariant that follows from it: no number
has two jobs, and every number that has a job is tracked.
-/

namespace Rewards.Pipeline

variable {s t : World} {lost : List OrderNumber}

/-! ## What accounts say of one number -/

/-- A step keeps the jobs of a number, begins one and tracks the number, ends one and releases the
number, or loses one. -/
theorem Account.jobs (h : Account s t lost) (number : OrderNumber) :
    (number ∉ lost ∧ t.jobsOf number = s.jobsOf number ∧
      (number ∈ t.tracked ↔ number ∈ s.tracked)) ∨
    (number ∉ lost ∧ t.jobsOf number = s.jobsOf number + 1 ∧ number ∉ s.tracked ∧
      number ∈ t.tracked) ∨
    (number ∉ lost ∧ t.jobsOf number + 1 = s.jobsOf number ∧ number ∉ t.tracked) ∨
    (number ∈ lost ∧ t.jobsOf number + 1 = s.jobsOf number ∧
      (number ∈ t.tracked ↔ number ∈ s.tracked)) := by
  unfold World.jobsOf
  cases h with
  | same htracked htally => exact .inl ⟨List.not_mem_nil, htally _, by rw [htracked]⟩
  | join id _ htracked htally | depart id htracked htally =>
      have hjobs := htally (Party.hasOrder number)
      simp only [Party.has_order_none, Bool.toNat_false] at hjobs
      exact .inl ⟨List.not_mem_nil, hjobs, by rw [htracked]⟩
  | deliver id other htracked htally | take id other htracked htally
  | put id other htracked htally | hand id _ other _ htracked htally =>
      have hjobs := htally (Party.hasOrder number)
      simp only [Party.has_order_none, Party.has_order_some, Bool.toNat_false] at hjobs
      exact .inl ⟨List.not_mem_nil, by omega, by rw [htracked]⟩
  | begin id other _ hnew htracked htally =>
      have hjobs := htally (Party.hasOrder number)
      rw [Party.has_order_some] at hjobs
      by_cases hother : other = number
      · subst hother
        exact .inr (.inl ⟨List.not_mem_nil, by simpa using hjobs, hnew, by simp [htracked]⟩)
      · rw [beq_eq_false_iff_ne.mpr hother] at hjobs
        exact .inl ⟨List.not_mem_nil, hjobs, by simp [htracked, Ne.symm hother]⟩
  | finish id other htracked htally | give id other htracked htally =>
      have hjobs := htally (Party.hasOrder number)
      simp only [Party.has_order_some, Party.has_order_none, Bool.toNat_false,
        Nat.add_zero] at hjobs
      by_cases hother : other = number
      · subst hother
        exact .inr (.inr (.inl ⟨List.not_mem_nil, by simpa using hjobs, by simp [htracked]⟩))
      · rw [beq_eq_false_iff_ne.mpr hother] at hjobs
        exact .inl ⟨List.not_mem_nil, hjobs, by simp [htracked, Ne.symm hother]⟩
  | lose id other htracked htally =>
      have hjobs := htally (Party.hasOrder number)
      rw [Party.has_order_some] at hjobs
      by_cases hother : other = number
      · subst hother
        exact .inr (.inr (.inr ⟨List.mem_singleton_self _, by simpa using hjobs,
          by rw [htracked]⟩))
      · rw [beq_eq_false_iff_ne.mpr hother] at hjobs
        exact .inl ⟨by simp [Ne.symm hother], hjobs, by rw [htracked]⟩

/-- A step brings at most one party with an identifier, and only if nobody has had it. -/
theorem Account.identifiers (h : Account s t lost) (id : Nat) :
    t.partiesOf id ≤ s.partiesOf id ∨ (s.partiesOf id = 0 ∧ t.partiesOf id ≤ 1) := by
  unfold World.partiesOf
  cases h with
  | same _ htally => exact .inl (Nat.le_of_eq (htally _))
  | join other hfresh _ htally | begin other _ hfresh _ _ htally =>
      have hparties := htally (Party.isCalled id)
      rw [Party.is_called_some] at hparties
      by_cases hother : other = id
      · subst hother
        unfold World.partiesOf at hfresh
        rw [hfresh] at hparties
        simp only [beq_self_eq_true, Bool.toNat_true] at hparties
        omega
      · simp only [beq_eq_false_iff_ne.mpr hother, Bool.toNat_false] at hparties
        omega
  | hand other retry number hfresh _ htally =>
      have hparties := htally (Party.isCalled id)
      simp only [Party.is_called_some] at hparties
      by_cases hretry : retry = id
      · subst hretry
        unfold World.partiesOf at hfresh
        rw [hfresh] at hparties
        simp only [beq_self_eq_true, Bool.toNat_true] at hparties
        omega
      · simp only [beq_eq_false_iff_ne.mpr hretry, Bool.toNat_false] at hparties
        omega
  | depart other _ htally | deliver other _ _ htally | take other _ _ htally | put other _ _ htally
  | finish other _ _ htally | give other _ _ htally | lose other _ _ htally =>
      have hparties := htally (Party.isCalled id)
      simp only [Party.is_called_some, Party.is_called_none, Bool.toNat_false] at hparties
      omega

/-! ## The invariant -/

/-- Different parties have different identifiers, no number has two jobs, and every number that has
a job is tracked. -/
structure World.Single (s : World) : Prop where
  distinct : s.Distinct
  once : ∀ number, s.jobsOf number ≤ 1
  tracked : ∀ number, 0 < s.jobsOf number → number ∈ s.tracked

/-- Before anything happens there are no jobs. -/
theorem World.single_of_capacity (capacity : Nat) : (World.ofCapacity capacity).Single where
  distinct _ := Nat.zero_le 1
  once _ := Nat.zero_le 1
  tracked _ h := absurd h (Nat.lt_irrefl 0)

/-- What has an account keeps the invariant. -/
theorem Account.single (h : Account s t lost) (hs : s.Single) : t.Single where
  distinct id := by
    have hone := hs.distinct id
    have hidentifiers := h.identifiers id
    omega
  once number := by
    have hone := hs.once number
    rcases h.jobs number with
      ⟨_, hjobs, _⟩ | ⟨_, hjobs, hnew, _⟩ | ⟨_, hjobs, _⟩ | ⟨_, hjobs, _⟩
    · omega
    · -- A number that has a job is tracked, and a job begins only if the number is not.
      have hnone : ¬ 0 < s.jobsOf number := fun hjob => hnew (hs.tracked number hjob)
      omega
    · omega
    · omega
  tracked number hjob := by
    have hone := hs.once number
    rcases h.jobs number with
      ⟨_, hjobs, htracked⟩ | ⟨_, _, _, htracked⟩ | ⟨_, hjobs, _⟩ | ⟨_, hjobs, _⟩
    · exact htracked.mpr (hs.tracked number (by omega))
    · exact htracked
    · omega
    · omega

end Rewards.Pipeline
