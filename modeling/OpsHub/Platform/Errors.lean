import Mathlib.Data.Nat.Notation

/-!
# Failures of the services

`DomainException` and its categories from `platform/src/errors`, and the plain
errors (a missing registration, a violated database constraint) that a call can
end with.  `Except Failure` is the result of every operation of the model; a call
that ends with a failure inside its transaction leaves the database as it was.
-/

namespace OpsHub

/-- `ErrorCategory`. -/
inductive ErrorCategory
  | notFound
  | conflict
  | validationFailed
  | unauthorized
  | permissionDenied
  | preconditionFailed
  | rateLimited
  | internal
  deriving DecidableEq, Repr

/-- What a call can throw: a `DomainException`, or an error of another kind. -/
inductive Failure
  | domain (code message : String) (category : ErrorCategory)
  | error (message : String)
  deriving DecidableEq, Repr

namespace Failure

def notFound (code message : String) : Failure := .domain code message .notFound

def conflict (code message : String) : Failure := .domain code message .conflict

def validation (code message : String) : Failure := .domain code message .validationFailed

def permissionDenied (message : String) : Failure := .domain "FORBIDDEN" message .permissionDenied

def unauthorized (code message : String) : Failure := .domain code message .unauthorized

def preconditionFailed (code message : String) : Failure :=
  .domain code message .preconditionFailed

/-- The error of the database for a second row with the same key. -/
def duplicateKey (table : String) : Failure :=
  .error ("duplicate key value violates unique constraint on " ++ table)

end Failure

end OpsHub
