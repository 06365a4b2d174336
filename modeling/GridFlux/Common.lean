/-
GridFlux/Common.lean

The vocabulary shared by every module: byte strings, the `Status` a failing
call returns, and the way `common::Result` and `common::Status` are rendered.

A C++ function returning `common::Result<T>` becomes a function into
`Except Status T`; one returning `common::Status` becomes a function into
`Except Status Unit`.  A `Status` value is therefore always an error and its
code ranges over the three error codes only.
-/
import Mathlib.Data.List.Basic

namespace GridFlux

/-- A `std::string` or a byte buffer. -/
abbrev Bytes := List UInt8

/-- The bytes of a string literal of the source (all of them ASCII). -/
def ascii (s : String) : Bytes :=
  s.toList.map fun c => UInt8.ofNat c.toNat

/-! ### Status -/

/-- The error codes of `common::StatusCode`. -/
inductive StatusCode
  | invalidArgument
  | systemError
  | runtimeError
deriving DecidableEq, Repr

/-- `common::Status`, error values only.  For a system error the text ends in
`strerror(errorNumber)`, which `errorNumber` determines; the model keeps the
operation's name and the number. -/
structure Status where
  code : StatusCode
  message : Bytes
  errorNumber : Int
deriving DecidableEq, Repr

def Status.invalidArgument (message : Bytes) : Status := ⟨.invalidArgument, message, 0⟩

def Status.systemError (operation : Bytes) (errorNumber : Int) : Status :=
  ⟨.systemError, operation, errorNumber⟩

def Status.runtimeError (message : Bytes) : Status := ⟨.runtimeError, message, 0⟩

/-- `status.isOk()` / `result.isOk()`. -/
def isOk {α : Type*} : Except Status α → Bool
  | .ok _ => true
  | .error _ => false

@[simp] theorem isOk_ok {α : Type*} (a : α) : isOk (.ok a) = true := rfl

@[simp] theorem isOk_error {α : Type*} (e : Status) :
    isOk (.error e : Except Status α) = false := rfl

/-! ### Peeling a chain of checks apart -/

section Except

variable {ε α β : Type}

/-- A chain of fallible calls succeeds exactly when each link does. -/
theorem bind_eq_ok {x : Except ε α} {f : α → Except ε β} {b : β} :
    x >>= f = .ok b ↔ ∃ a, x = .ok a ∧ f a = .ok b := by
  rcases x with e | a
  · simp [bind, Except.bind]
  · simp [bind, Except.bind]

@[simp] theorem ok_bind (a : α) (f : α → Except ε β) :
    (Except.ok a >>= f) = f a := rfl

@[simp] theorem error_bind (e : ε) (f : α → Except ε β) :
    (Except.error e >>= f) = .error e := rfl

/-- Return an error unless the condition holds. -/
def require (c : Prop) [Decidable c] (e : ε) : Except ε Unit :=
  if c then .ok () else .error e

@[simp] theorem require_eq_ok {c : Prop} [Decidable c] {e : ε} {u : Unit} :
    require c e = .ok u ↔ c := by
  by_cases hc : c
  · simp [require, hc]
  · simp [require, hc]

theorem require_pos {c : Prop} [Decidable c] {e : ε} (hc : c) :
    require c e = .ok () := by
  simp [require, hc]

theorem require_neg {c : Prop} [Decidable c] {e : ε} (hc : ¬c) :
    require c e = .error e := by
  simp [require, hc]

theorem require_congr {c c' : Prop} [Decidable c] [Decidable c'] {e : ε} (h : c ↔ c') :
    require c e = require c' e := by
  simp only [require, h]

/-- A list of checks passes exactly when each check does. -/
theorem forM_eq_ok {l : List α} {f : α → Except ε Unit} {u : Unit} :
    l.forM f = .ok u ↔ ∀ a ∈ l, f a = .ok () := by
  induction l with
  | nil => exact ⟨fun _ => by simp, fun _ => rfl⟩
  | cons a l ih =>
      rw [List.forall_mem_cons]
      show (f a >>= fun _ => l.forM f) = .ok u ↔ _
      rw [bind_eq_ok]
      constructor
      · rintro ⟨_, ha, hl⟩
        exact ⟨ha, ih.mp hl⟩
      · rintro ⟨ha, hl⟩
        exact ⟨(), ha, ih.mpr hl⟩

end Except

end GridFlux
