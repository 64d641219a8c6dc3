import Mathlib.Logic.Basic

/-! Result codes the participant's functions return to their callers. -/
namespace FepParticipant

/-- The codes of `fep::Result` the modelled functions return. -/
inductive Result where
  | errNoError
  | errUnknown
  | errUnexpected
  | errPointer
  | errInvalidArg
  | errInvalidFunction
  | errInvalidHandle
  | errMemory
  | errTimeout
  | errResourceInUse
  | errNotFound
  | errInvalidState
  | errFailed
  | errCancelled
  | errEmpty
  | errNotImpl
  | errInvalidFlags
  | errNotSupported
  | errInvalidVersion
  | errNotInitialised
  | errInvalidType
  | errInvalidIndex
  | errInvalidFile
  | errPathNotFound
  | errAccessDenied
  | errNotReady
  | errOpenFailed
  | errDeviceInUse
  | errOutOfSync
  deriving DecidableEq

/-- `fep::isOk`. -/
def isOk (result : Result) : Bool := result == .errNoError

/-- `fep::isFailed`. -/
def isFailed (result : Result) : Bool := !isOk result

@[simp] theorem isOk_iff (result : Result) : isOk result = true ↔ result = .errNoError := by
  simp [isOk]

@[simp] theorem isFailed_iff (result : Result) : isFailed result = true ↔ result ≠ .errNoError := by
  simp [isFailed,isOk]

namespace Result

def getErrorCode : Result → Int
  | .errNoError => 0
  | .errUnknown => -2
  | .errUnexpected => -3
  | .errPointer => -4
  | .errInvalidArg => -5
  | .errInvalidFunction => -6
  | .errInvalidHandle => -8
  | .errInvalidFlags => -9
  | .errInvalidIndex => -10
  | .errInvalidFile => -11
  | .errMemory => -12
  | .errTimeout => -13
  | .errOutOfSync => -14
  | .errResourceInUse => -15
  | .errNotImpl => -16
  | .errNotSupported => -19
  | .errNotFound => -20
  | .errCancelled => -21
  | .errPathNotFound => -24
  | .errAccessDenied => -25
  | .errNotReady => -26
  | .errOpenFailed => -27
  | .errDeviceInUse => -34
  | .errNotInitialised => -37
  | .errFailed => -38
  | .errInvalidState => -40
  | .errInvalidType => -42
  | .errEmpty => -43
  | .errInvalidVersion => -44

/-- `operator|`: the first failure of the two. -/
def or (lhs rhs : Result) : Result := if isFailed lhs then lhs else rhs

@[simp] theorem or_eq_errNoError_iff (lhs rhs : Result) :
    lhs.or rhs = .errNoError ↔ lhs = .errNoError ∧ rhs = .errNoError := by
  by_cases h : lhs = .errNoError <;> simp [or,h]

end Result
end FepParticipant
