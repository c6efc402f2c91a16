import Mathlib.Algebra.Group.Nat.Defs
import Mathlib.Algebra.Ring.Int.Defs
import Mathlib.Logic.Function.Basic

/-!
# Redis commands

A database of strings, each under a key and with an optional deadline, and the
commands that read and write it. A command touches its own keys only: two databases
that agree on them answer alike (`Redis.exec_agree`), and every other key is as it
was (`Redis.exec_apart`).
-/

namespace NovoApex.Lib
set_option autoImplicit false

/-- A stored string and the second from which it is gone. -/
structure RedisEntry where
  value : String
  deadline : Option Nat
  deriving DecidableEq, Repr

/-- A database: what is stored under each key. -/
abbrev Redis : Type := String → Option RedisEntry

/-- Why a command fails. -/
inductive RedisErr where
  /-- `ERR value is not an integer or out of range`. -/
  | notInteger
  /-- `ERR increment or decrement would overflow`. -/
  | overflow
  /-- No reply came. -/
  | unavailable
  deriving DecidableEq, Repr

/-- A command, or a transaction of commands. -/
inductive RedisCommand where
  | get (key : String)
  | incr (key : String)
  | expire (key : String) (ttl : Nat)
  | del (keys : List String)
  /-- `MULTI`, `SET setKey setValue EX ttl`, `DEL delKeys`, `EXEC`. -/
  | multiSetWithDelete (setKey setValue : String) (ttl : Nat) (delKeys : List String)
  deriving DecidableEq

namespace RedisCommand

/-- What a command answers. -/
@[reducible] def Reply : RedisCommand → Type
  | get _ => Option String
  | incr _ => Int
  | _ => Unit

/-- The keys a command is about. -/
def keys : RedisCommand → List String
  | get key => [key]
  | incr key => [key]
  | expire key _ => [key]
  | del keys => keys
  | multiSetWithDelete setKey _ _ delKeys => setKey :: delKeys

end RedisCommand

namespace Redis

/-- The entry under a key, unless it has expired. -/
def lookup (now : Nat) (s : Redis) (key : String) : Option RedisEntry :=
  (s key).filter fun e => e.deadline.all fun d => decide (now < d)

/-- The 64-bit integer a string is the decimal form of. -/
def integer? (value : String) : Option Int :=
  let n : Int := match value.toList with
    | '-' :: digits => -(Nat.ofDigitChars 10 digits 0 : Nat)
    | digits => (Nat.ofDigitChars 10 digits 0 : Nat)
  if toString n = value ∧ -2 ^ 63 ≤ n ∧ n < 2 ^ 63 then some n else none

/-- Without the keys. -/
def erase (keys : List String) (s : Redis) : Redis := fun k => if k ∈ keys then none else s k

/-- Execute a command at `now`. -/
def exec (now : Nat) : (c : RedisCommand) → Redis → Except RedisErr c.Reply × Redis
  | .get key, s => (.ok ((s.lookup now key).map RedisEntry.value), s)
  | .incr key, s =>
    match s.lookup now key with
    | none => (.ok 1, Function.update s key (some ⟨"1", none⟩))
    | some e =>
      match integer? e.value with
      | none => (.error .notInteger, s)
      | some n =>
        if n + 1 < 2 ^ 63 then (.ok (n + 1), Function.update s key (some { e with value := toString (n + 1) }))
        else (.error .overflow, s)
  | .expire key ttl, s =>
    match s.lookup now key with
    | none => (.ok (), s)
    | some e => (.ok (), Function.update s key (some { e with deadline := some (now + ttl) }))
  | .del keys, s => (.ok (), s.erase keys)
  | .multiSetWithDelete setKey setValue ttl delKeys, s =>
    (.ok (), erase delKeys (Function.update s setKey (some ⟨setValue, some (now + ttl)⟩)))

variable {now : Nat} {s t : Redis} {c : RedisCommand} {K : String → Prop}

/-- A natural number's decimal form is read back. -/
theorem integer?_natCast {n : Nat} (small : n < 2 ^ 63) : integer? (toString (n : Int)) = some (n : Int) := by
  have digits : (toString (n : Int)).toList = Nat.toDigits 10 n := by
    show (Nat.repr n).toList = _
    rw [Nat.repr_eq_ofList_toDigits, String.toList_ofList]
  have noSign : ∀ rest, Nat.toDigits 10 n ≠ '-' :: rest := by
    intro rest same
    have mem : '-' ∈ Nat.toDigits 10 n := same ▸ List.mem_cons_self
    have digit : ('-').isDigit = true := Nat.isDigit_of_mem_toDigits (by decide) (by decide) mem
    cases digit
  have value : integer? (toString (n : Int)) =
      if toString ((Nat.ofDigitChars 10 (Nat.toDigits 10 n) 0 : Nat) : Int) = toString (n : Int) ∧
        -2 ^ 63 ≤ ((Nat.ofDigitChars 10 (Nat.toDigits 10 n) 0 : Nat) : Int) ∧
        ((Nat.ofDigitChars 10 (Nat.toDigits 10 n) 0 : Nat) : Int) < 2 ^ 63
      then some ((Nat.ofDigitChars 10 (Nat.toDigits 10 n) 0 : Nat) : Int) else none := by
    unfold integer?
    rw [digits]
    split
    · rename_i rest same
      exact (noSign rest same).elim
    · rfl
  have nonneg : (-2 ^ 63 : Int) ≤ n := Int.le_trans (by decide) (Int.natCast_nonneg n)
  rw [value, Nat.ofDigitChars_ten_toDigits, if_pos ⟨rfl, nonneg, by omega⟩]

/-! ## The keys of a command -/

/-- Two databases that store the same under the keys of `K`. -/
def Agree (K : String → Prop) (s t : Redis) : Prop := ∀ k, K k → s k = t k

theorem Agree.refl (K : String → Prop) (s : Redis) : Agree K s s := fun _ _ => rfl

theorem Agree.lookup (h : Agree K s t) {key : String} (mem : K key) : s.lookup now key = t.lookup now key := by
  unfold Redis.lookup
  rw [h key mem]

theorem Agree.update (h : Agree K s t) (key : String) (e : Option RedisEntry) :
    Agree K (Function.update s key e) (Function.update t key e) := by
  intro k mem
  by_cases same : k = key
  · rw [same, Function.update_self, Function.update_self]
  · rw [Function.update_of_ne same, Function.update_of_ne same]
    exact h k mem

theorem Agree.erase (h : Agree K s t) (keys : List String) : Agree K (s.erase keys) (t.erase keys) := by
  intro k mem
  unfold Redis.erase
  rw [h k mem]

/-- Databases that agree on the keys of a command answer alike, and still agree. -/
theorem exec_agree (now : Nat) (within : ∀ k ∈ c.keys, K k) (h : Agree K s t) :
    (exec now c s).1 = (exec now c t).1 ∧ Agree K (exec now c s).2 (exec now c t).2 := by
  cases c with
  | get key =>
    have same : s.lookup now key = t.lookup now key := h.lookup (within key List.mem_cons_self)
    exact ⟨by simp only [exec, same], h⟩
  | incr key =>
    have same : s.lookup now key = t.lookup now key := h.lookup (within key List.mem_cons_self)
    simp only [exec, same]
    split
    · exact ⟨rfl, h.update _ _⟩
    · split
      · exact ⟨rfl, h⟩
      · split
        · exact ⟨rfl, h.update _ _⟩
        · exact ⟨rfl, h⟩
  | expire key ttl =>
    have same : s.lookup now key = t.lookup now key := h.lookup (within key List.mem_cons_self)
    simp only [exec, same]
    split
    · exact ⟨rfl, h⟩
    · exact ⟨rfl, h.update _ _⟩
  | del keys => exact ⟨rfl, h.erase keys⟩
  | multiSetWithDelete setKey setValue ttl delKeys => exact ⟨rfl, (h.update _ _).erase delKeys⟩

theorem update_apart {key : String} (apart : ¬ K key) (e : Option RedisEntry) : Agree K s (Function.update s key e) := by
  intro k mem
  have other : k ≠ key := by
    rintro rfl
    exact apart mem
  exact (Function.update_of_ne other _ _).symm

theorem erase_apart {keys : List String} (apart : ∀ k ∈ keys, ¬ K k) : Agree K s (s.erase keys) := by
  intro k mem
  exact (if_neg fun listed => apart k listed mem).symm

/-- A command leaves the keys alone that it is not about. -/
theorem exec_apart (apart : ∀ k ∈ c.keys, ¬ K k) : Agree K s (exec now c s).2 := by
  cases c with
  | get key => exact Agree.refl K s
  | incr key =>
    have own := apart key List.mem_cons_self
    simp only [exec]
    split
    · exact update_apart own _
    · split
      · exact Agree.refl K s
      · split
        · exact update_apart own _
        · exact Agree.refl K s
  | expire key ttl =>
    have own := apart key List.mem_cons_self
    simp only [exec]
    split
    · exact Agree.refl K s
    · exact update_apart own _
  | del keys => exact erase_apart apart
  | multiSetWithDelete setKey setValue ttl delKeys =>
    intro k mem
    have own := update_apart (s := s) (apart setKey List.mem_cons_self) (some ⟨setValue, some (now + ttl)⟩) k mem
    exact own.trans (erase_apart (fun k' listed => apart k' (List.mem_cons_of_mem _ listed)) k mem)

end Redis

end NovoApex.Lib
