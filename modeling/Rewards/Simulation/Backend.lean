import Rewards.Store.Access

/-!
# A store with a clock

What a simulation keeps its data in. Each reading of the clock is a microsecond after the one
before it, so whatever is stored later is stamped later.
-/

namespace Rewards.Simulation

/-- A store, and the instant that its clock shows. -/
structure Backend where
  store : Store
  clock : Instant
deriving DecidableEq

namespace Backend

instance : MonadStateOf Store (StateM Backend) where
  get := return (← getThe Backend).store
  set store := modifyThe Backend fun b => { b with store := store }
  modifyGet f := modifyGetThe Backend fun b =>
    let (result, store) := f b.store
    (result, { b with store := store })

/-- The nanoseconds between two readings of the clock. -/
def tick : Nat := 1000

/-- The instant of the next reading. -/
def nextReading (t : Instant) : Instant where
  second := t.second + ((t.nano + tick) / Instant.nanosPerSecond : Nat)
  nano := (t.nano + tick) % Instant.nanosPerSecond
  nano_lt := Nat.lt_trans (Nat.mod_lt _ (by decide)) (by decide)

/-- Read the clock. -/
def readClock : StateM Backend Instant := modifyGetThe Backend fun b =>
  (b.clock, { b with clock := nextReading b.clock })

/-- The identifier of the first user. -/
def firstId : Nat := 0x019a0000000070008000000000000000

/-- The identifier of the next user. -/
def freshId : StateM Backend UserId :=
  return ⟨.ofNat (firstId + (← getThe Backend).store.users.length)⟩

/-- Access to the store. -/
def access : StoreAccess (StateM Backend) := .inMemory readClock freshId

end Backend

end Rewards.Simulation
