import DocumentDb.Lib.Program

namespace DocumentDb

/-- The ways a run of the program ends without returning: a failed `assert`,
a call of `exit`, a step that C leaves undefined, or a loop that is still
running when the rounds its model allows are used up. -/
inductive Fault
  | assertion (condition : String)
  | exit (message : String)
  | undefined (reason : String)
  | diverges
  deriving DecidableEq, Repr

/-- `Result` of `result.h` together with the output a successful call fills. -/
abbrev Result (α : Type) := Except String α

variable {σ α : Type}

/-- The error a function passes on by `RETURN_IF_FAIL`. -/
def returnIfFail (result : Result α) (message : String) : Result α :=
  result.mapError fun _ => message

def abortIfFail (result : Result α) (message : String) : EStateM Fault σ α :=
  match result with
  | .ok a => pure a
  | .error _ => throw (.exit message)

@[simp] theorem run_abortIfFail_ok (a : α) (message : String) (s : σ) :
    (abortIfFail (.ok a) message : EStateM Fault σ α) s = .ok a s := (rfl)

theorem abortIfFail_eq_ok {result : Result α} {message : String} {s t : σ} {a : α} :
    (abortIfFail result message : EStateM Fault σ α) s = .ok a t ↔ result = .ok a ∧ s = t := by
  cases result <;> simp [abortIfFail]

end DocumentDb
