import Mathlib.Logic.Function.Basic

/-!
# Transactions under an exclusive lock

Transactions that collect writes until they end, and a lock that at most one of them
holds: it is taken within a transaction and released with it. An id names one
transaction ever. What a transaction has written stays on record after its commit.
-/

namespace NovoApex.Lib
set_option autoImplicit false

/-- Where a transaction stands. -/
inductive TxState (W : Type) where
  | unused
  | active (writes : List W)
  | committed (writes : List W)
  | rolledBack
  deriving DecidableEq

/-- It has begun and not ended. -/
def TxState.isActive {W : Type} : TxState W → Bool
  | .active _ => true
  | _ => false

theorem TxState.isActive_iff {W : Type} {s : TxState W} : s.isActive = true ↔ ∃ writes, s = .active writes := by
  cases s <;> simp [TxState.isActive]

/-- Transactions by id, and the one that holds the lock. -/
structure Transactions (W : Type) where
  state : String → TxState W
  holder : Option String
  held : ∀ tx, holder = some tx → ∃ writes, state tx = .active writes

namespace Transactions

variable {W : Type} {t : Transactions W} {tx other : String} {writes : List W}

/-- No transaction has started. -/
def empty : Transactions W := ⟨fun _ => .unused, none, fun _ h => by cases h⟩

/-- `BEGIN`. -/
def start (t : Transactions W) (tx : String) (unused : t.state tx = .unused) : Transactions W where
  state := Function.update t.state tx (.active [])
  holder := t.holder
  held := by
    intro other holds
    obtain ⟨writes, active⟩ := t.held other holds
    refine ⟨writes, ?_⟩
    rw [Function.update_of_ne (fun same => by rw [same, unused] at active; cases active)]
    exact active

/-- Take the lock. -/
def acquire (t : Transactions W) (tx : String) {writes : List W} (active : t.state tx = .active writes) : Transactions W where
  state := t.state
  holder := some tx
  held := fun _ same => ⟨writes, Option.some.inj same ▸ active⟩

/-- One more write. -/
def write (t : Transactions W) (tx : String) (writes : List W) (w : W) : Transactions W where
  state := Function.update t.state tx (.active (writes ++ [w]))
  holder := t.holder
  held := by
    intro other holds
    by_cases same : other = tx
    · exact ⟨writes ++ [w], by rw [same, Function.update_self]⟩
    · rw [Function.update_of_ne same]
      exact t.held other holds

/-- End a transaction, which releases the lock if it holds it. -/
def finish (t : Transactions W) (tx : String) (final : TxState W) : Transactions W where
  state := Function.update t.state tx final
  holder := if t.holder = some tx then none else t.holder
  held := by
    intro other holds
    split at holds
    · cases holds
    · rename_i free
      have ne : other ≠ tx := by
        intro same
        exact free (same ▸ holds)
      rw [Function.update_of_ne ne]
      exact t.held other holds

@[simp] theorem start_state (unused : t.state tx = .unused) :
    (t.start tx unused).state = Function.update t.state tx (.active []) := rfl

@[simp] theorem start_holder (unused : t.state tx = .unused) : (t.start tx unused).holder = t.holder := rfl

@[simp] theorem acquire_state (active : t.state tx = .active writes) : (t.acquire tx active).state = t.state := rfl

@[simp] theorem acquire_holder (active : t.state tx = .active writes) : (t.acquire tx active).holder = some tx := rfl

@[simp] theorem write_state (w : W) : (t.write tx writes w).state = Function.update t.state tx (.active (writes ++ [w])) := rfl

@[simp] theorem write_holder (w : W) : (t.write tx writes w).holder = t.holder := rfl

@[simp] theorem finish_state (final : TxState W) : (t.finish tx final).state = Function.update t.state tx final := rfl

/-- Another one keeps the lock. -/
theorem finish_holder_of_ne (final : TxState W) (holds : t.holder = some other) (ne : other ≠ tx) :
    (t.finish tx final).holder = some other := by
  show (if t.holder = some tx then none else t.holder) = _
  rw [if_neg (fun own => ne (Option.some.inj (holds.symm.trans own))), holds]

end Transactions

end NovoApex.Lib
