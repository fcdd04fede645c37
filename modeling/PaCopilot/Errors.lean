/-
The exceptions of `core/exceptions.py` and `tm1/exceptions.py`.

`TM1OutcomeUnknownError` is kept apart from the other classes because the code
keeps it apart: it says that a request may have been applied, every other class
says what happened. That is the split `Remote.Failure` makes, so the exceptions
of this repository are the failures of the library at one definite error and one
message for the unknown outcome.
-/
import PaCopilot.Lib.Remote

set_option autoImplicit false

namespace PaCopilot

/-- The exception classes that say what happened. `PythonError` is an exception
that is none of the application's own, such as a `KeyError`. -/
inductive ErrorClass
  | PythonError
  | NotFoundException
  | ConflictException
  | ValidationException
  | PermissionDeniedException
  | AuthenticationException
  | QuotaExceededException
  | TM1ConnectionError
  | TM1ConnectionSuspendedError
  | TM1AuthenticationError
  | TM1NotFoundError
  deriving DecidableEq

/-- A raised exception of such a class. -/
structure DefiniteError where
  cls : ErrorClass
  message : String
  deriving DecidableEq

/-- `AppException`: a definite error, or `TM1OutcomeUnknownError` with its
message. -/
abbrev AppException := Remote.Failure DefiniteError String

/-- `AppException.message`. -/
def AppException.message : AppException → String
  | .definite e => e.message
  | .unknown m => m

/-- What TM1 answers to one call made through `call_with_resilience`. -/
abbrev Answer := Remote.Answer DefiniteError String

abbrev PythonError (message : String) : AppException :=
  .definite ⟨.PythonError, message⟩

abbrev NotFoundException (message : String) : AppException :=
  .definite ⟨.NotFoundException, message⟩

abbrev ConflictException (message : String) : AppException :=
  .definite ⟨.ConflictException, message⟩

abbrev ValidationException (message : String) : AppException :=
  .definite ⟨.ValidationException, message⟩

abbrev PermissionDeniedException (message : String) : AppException :=
  .definite ⟨.PermissionDeniedException, message⟩

abbrev AuthenticationException (message : String) : AppException :=
  .definite ⟨.AuthenticationException, message⟩

abbrev QuotaExceededException (message : String) : AppException :=
  .definite ⟨.QuotaExceededException, message⟩

/-- What the database raises for a row whose key a unique index has already. -/
def IntegrityError : AppException := PythonError "IntegrityError"

/-- What it raises for a value that does not fit its column. -/
def DataError : AppException := PythonError "DataError"

/-! ## Guards -/

/-- `if wrong: raise e`. -/
def refuse (wrong : Prop) [Decidable wrong] (e : AppException) : Except AppException Unit :=
  if wrong then .error e else .ok ()

@[simp] theorem refuse_eq_ok_iff {wrong : Prop} [Decidable wrong] {e : AppException} {u : Unit} :
    refuse wrong e = .ok u ↔ ¬ wrong := by
  unfold refuse
  split <;> simp [*]

theorem refuse_of_not {wrong : Prop} [Decidable wrong] (e : AppException) (h : ¬ wrong) :
    refuse wrong e = .ok () :=
  if_neg h

/-- A computation that returned went through each of its steps. -/
theorem bind_eq_ok_iff {ε α β : Type} {x : Except ε α} {f : α → Except ε β} {b : β} :
    x >>= f = .ok b ↔ ∃ a, x = .ok a ∧ f a = .ok b := by
  rcases x with e | a
  · exact ⟨fun h => (nomatch h), fun ⟨_, h, _⟩ => (nomatch h)⟩
  · exact ⟨fun h => ⟨a, rfl, h⟩, fun ⟨a', ha, h⟩ => by rw [Except.ok.inj ha]; exact h⟩

/-- A computation that raised did so in its first step or after it. -/
theorem bind_eq_error_iff {ε α β : Type} {x : Except ε α} {f : α → Except ε β} {e : ε} :
    x >>= f = .error e ↔ x = .error e ∨ ∃ a, x = .ok a ∧ f a = .error e := by
  rcases x with e' | a
  · simp [bind, Except.bind]
  · simp [bind, Except.bind]

theorem refuse_eq_error_iff {wrong : Prop} [Decidable wrong] {e e' : AppException} :
    refuse wrong e = .error e' ↔ wrong ∧ e = e' := by
  unfold refuse
  split <;> simp [*]

/-- What a computation that returned did after its first step. -/
theorem rest_of_bind {ε α β : Type} {x : Except ε α} {f : α → Except ε β} {b : β}
    (h : x >>= f = .ok b) : ∃ a, f a = .ok b := by
  obtain ⟨a, -, h⟩ := bind_eq_ok_iff.mp h
  exact ⟨a, h⟩

/-- A guard that a computation passed. -/
theorem passed_of_bind {wrong : Prop} [Decidable wrong] {e : AppException} {β : Type}
    {f : Unit → Except AppException β} {b : β} (h : (refuse wrong e >>= f) = .ok b) :
    ¬ wrong ∧ f () = .ok b := by
  obtain ⟨_, hguard, h⟩ := bind_eq_ok_iff.mp h
  exact ⟨refuse_eq_ok_iff.mp hguard, h⟩

theorem map_eq_ok_iff {ε α β : Type} {x : Except ε α} {f : α → β} {b : β} :
    x.map f = .ok b ↔ ∃ a, x = .ok a ∧ f a = b := by
  rcases x with e | a
  · exact ⟨fun h => (nomatch h), fun ⟨_, h, _⟩ => (nomatch h)⟩
  · exact ⟨fun h => ⟨a, rfl, Except.ok.inj h⟩, fun ⟨a', ha, h⟩ => by rw [Except.ok.inj ha, ← h]; rfl⟩

end PaCopilot
