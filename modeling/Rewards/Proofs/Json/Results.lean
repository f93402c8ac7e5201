import Rewards.Proofs.Json.Records

/-!
# What readers give

Where the last files start from a document that was written, this one starts from a value that was
read: a reader that gives a value is taken apart into its steps, `run_bind_ok_iff`. A reader yields
what holds of every value that it can give, whatever it reads. A record yields what every one of its
fields keeps, in whatever form and order they stand, `yields_record`.
-/

namespace Rewards.Json.Reader

variable {α β : Type} {reader : Reader α}

/-- Two readers, one after the other, give a value if both do. -/
theorem run_bind_ok_iff {f : α → Reader β} {before after : List UInt8} {b : β} :
    StateT.run (reader >>= f) before = .ok (b, after) ↔
      ∃ a between, StateT.run reader before = .ok (a, between) ∧
        StateT.run (f a) between = .ok (b, after) := by
  rw [StateT.run_bind]
  cases StateT.run reader before with
  | error e => exact ⟨nofun, fun ⟨_, _, h, _⟩ => nomatch h⟩
  | ok result =>
      constructor
      · exact fun h => ⟨result.1, result.2, rfl, h⟩
      · rintro ⟨a, between, hfirst, h⟩
        cases hfirst
        exact h

/-- A document gives the value at its front, if there is only white space behind it. -/
theorem run_ok_iff {bytes : List UInt8} {a : α} :
    run reader bytes = .ok a ↔
      ∃ rest, StateT.run reader bytes = .ok (a, rest) ∧
        (rest.dropWhile isSpace).isEmpty = true := by
  unfold run
  cases StateT.run reader bytes with
  | error e => exact ⟨nofun, fun ⟨_, h, _⟩ => nomatch h⟩
  | ok result =>
      obtain ⟨value, rest⟩ := result
      by_cases hrest : (rest.dropWhile isSpace).isEmpty = true
      · constructor
        · intro h
          simp only [bind, Except.bind, hrest, if_true, pure, Except.pure] at h
          cases h
          exact ⟨rest, rfl, hrest⟩
        · rintro ⟨_, h, -⟩
          cases h
          exact if_pos hrest
      · constructor
        · intro h
          simp only [bind, Except.bind, hrest] at h
          cases h
        · rintro ⟨_, h, hempty⟩
          cases h
          exact absurd hempty hrest

/-! ## Values of readers -/

/-- All values that the reader gives have the property. -/
def Yields (reader : Reader α) (P : α → Prop) : Prop :=
  ∀ ⦃before a after⦄, StateT.run reader before = .ok (a, after) → P a

theorem yields_any (reader : Reader α) : Yields reader fun _ => True := fun _ _ _ _ => trivial

theorem yields_pure {P : α → Prop} {a : α} (h : P a) : Yields (pure a) P := by
  intro before read after hread
  cases hread
  exact h

theorem yields_throw (e : Error) (P : α → Prop) : Yields (throw e) P := nofun

theorem yields_malformed (P : α → Prop) : Yields malformed P := nofun

/-- What follows a value goes on from what is known of it. -/
theorem Yields.bind {P : α → Prop} {Q : β → Prop} {f : α → Reader β} (h : Yields reader P)
    (hf : ∀ a, P a → Yields (f a) Q) : Yields (reader >>= f) Q := by
  intro before b after hread
  obtain ⟨a, between, hfirst, hsecond⟩ := run_bind_ok_iff.mp hread
  exact hf a (h hfirst) hsecond

/-- Nothing is known of the value that comes first. -/
theorem yields_after {Q : β → Prop} {f : α → Reader β} (hf : ∀ a, Yields (f a) Q) :
    Yields (reader >>= f) Q :=
  (yields_any reader).bind fun a _ => hf a

/-- A document gives such a value only. -/
theorem Yields.run {P : α → Prop} (h : Yields reader P) {bytes : List UInt8} {a : α}
    (hread : Reader.run reader bytes = .ok a) : P a := by
  obtain ⟨rest, hfront, -⟩ := run_ok_iff.mp hread
  exact h hfront

/-- A value of the wrong kind gives nothing. -/
theorem yields_unexpected (expected : String) (P : α → Prop) :
    Yields (unexpected expected) P :=
  yields_after fun _ => yields_throw _ P

/-! ## Records -/

section Records

variable {σ : Type} {Inv : σ → Prop} {fields : List (Field σ)}
  (hfields : ∀ field ∈ fields, ∀ r, Inv r → Yields (field.read r) Inv)
include hfields

/-- The members of a map keep what every field keeps. -/
theorem yields_record_fields (fuel : Nat) (isFirst : Bool) {r : σ} (hr : Inv r) :
    Yields (recordFields fields fuel isFirst r) Inv := by
  induction fuel generalizing isFirst r with
  | zero => exact yields_malformed Inv
  | succ fuel ih =>
      have hmember (name : String) : Yields (recordMember fields fuel r name) Inv := by
        unfold recordMember
        split
        · rename_i field hfield
          have hread := hfields field (List.mem_of_find?_eq_some hfield) r hr
          split
          · exact yields_throw _ Inv
          · exact yields_after fun _ => hread.bind fun s hs => ih false hs
        · exact yields_after fun _ => yields_after fun _ => ih false hr
      have hnamed : Yields (do mark '"'; recordMember fields fuel r (← stringTail)) Inv :=
        yields_after fun _ => yields_after hmember
      unfold recordFields
      refine yields_after fun next => ?_
      -- The map ends here, or a member follows: at once if it is the first one, or after a comma.
      split
      · exact yields_pure hr
      · cases isFirst with
        | true => exact hnamed
        | false =>
            rw [Bool.not_false, if_pos rfl]
            split
            · exact yields_after fun _ => hnamed
            · exact yields_malformed Inv

/-- The elements of a sequence keep what every field keeps. -/
theorem yields_record_elements (expected : String) (count index : Nat) {rest : List (Field σ)}
    (hrest : ∀ field ∈ rest, field ∈ fields) {r : σ} (hr : Inv r) :
    Yields (recordElements expected count index rest r) Inv := by
  induction rest generalizing index r with
  | nil => exact yields_pure hr
  | cons field rest ih =>
      have hlater : ∀ field ∈ rest, field ∈ fields :=
        fun field hfield => hrest field (List.mem_cons_of_mem _ hfield)
      have hread := hfields field (hrest field List.mem_cons_self) r hr
      have hgo : Yields (do
          let s ← field.read r
          recordElements expected count (index + 1) rest s) Inv :=
        hread.bind fun s hs => ih (index + 1) hlater hs
      unfold recordElements
      refine yields_after fun next => ?_
      split
      · split
        · exact ih (index + 1) hlater hr
        · exact yields_throw _ Inv
      · split
        · split
          · refine yields_after fun _ => yields_after fun after => ?_
            split
            · exact yields_malformed Inv
            · exact hgo
          · exact yields_malformed Inv
        · split
          · exact yields_malformed Inv
          · exact hgo

/-- A record has what every field keeps, whatever it is read from. -/
theorem yields_record (expected : String) {empty : σ} (hempty : Inv empty) :
    Yields (record expected fields empty) Inv := by
  unfold record
  refine yields_after fun next => ?_
  split
  · split
    · refine yields_after fun _ => yields_after fun left => ?_
      refine (yields_record_fields hfields _ true hempty).bind fun filled hfilled => ?_
      split
      · exact yields_throw _ Inv
      · exact yields_after fun _ => yields_pure hfilled
    · split
      · refine yields_after fun _ => ?_
        refine (yields_record_elements hfields expected _ 0 (fun _ h => h) hempty).bind
          fun filled hfilled => ?_
        exact yields_after fun _ => yields_pure hfilled
      · exact yields_unexpected expected Inv
  · exact yields_malformed Inv

end Records

end Rewards.Json.Reader
