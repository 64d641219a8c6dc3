import FepParticipant.Result
import FepParticipant.Timing.TimingClient

/-! The data access of a step: its configuration, the validation of its inputs, and the flag that keeps its outputs
from being published. -/
namespace FepParticipant.DataAccess

inductive InputViolationStrategy where
  | unknown
  | ignoreInputValidityViolation
  | warnAboutInputValidityViolation
  | skipOutputPublish
  | setStmToError
  deriving DecidableEq

/-- `tInput`, together with the strategy it is filed under. -/
structure StepInput where
  name : String
  strategy : InputViolationStrategy
  validAge : Int
  delay : Int

structure StepDataAccess where
  needToSkip : Bool
  currSimTime : Int
  cycle : Int
  inputs : List StepInput
  outputs : List Nat

namespace StepDataAccess
variable (access : StepDataAccess)

/-- What `WaitUntilInTimeWindow` answers for an input and its time window. -/
abbrev Wait := String → Int → Int → Result

def new : StepDataAccess := ⟨false,0,0,[],[]⟩

def setSkip : StepDataAccess := {access with needToSkip := true}

def inputViolation (severity : SeverityLevel) (name consequence : String) : Effect :=
  .invokeIncident ⟨.fsiStepListenerInputValidityViolation,severity,
    "Input " ++ name ++ " does not meet required valid age." ++ consequence,"UserDataAccess"⟩

def applyInputViolationStrat (name : String) :
    InputViolationStrategy → StepDataAccess × Result × List Effect
  | .ignoreInputValidityViolation | .unknown => (access,.errNoError,[])
  | .warnAboutInputValidityViolation => (access,.errNoError,[inputViolation .warning name ""])
  | .skipOutputPublish => (access.setSkip,.errNoError,[inputViolation .criticalGlobal name
      " CAUTION: defined outputs will not be published!"])
  | .setStmToError => (access.setSkip,.errCancelled,[inputViolation .criticalGlobal name
      " FATAL: changing state to FS_ERROR - continuation not possible!",.errorEvent])

/-- The loop over the inputs; a cancelled wait and a failing strategy end it. -/
def validateEach (simTime : Int) (wait : Wait) (access : StepDataAccess) :
    List StepInput → StepDataAccess × Result × List Effect
  | [] => (access,.errNoError,[])
  | input::inputs =>
    let local' := wait input.name (simTime - input.validAge) (simTime + input.delay)
    if isFailed local' then
      if local' = .errCancelled then (access,local',[])
      else
        let (reacted,result,effects) := access.applyInputViolationStrat input.name input.strategy
        if isFailed result then (reacted,result,effects)
        else
          let (validated,result,more) := validateEach simTime wait reacted inputs
          (validated,result,effects ++ more)
    else validateEach simTime wait access inputs

def validateInputs (simTime : Int) (wait : Wait) :
    StepDataAccess × Result × List Effect :=
  validateEach simTime wait {access with currSimTime := simTime} access.inputs

/-- Some wait for an input is cancelled, as the shutdown semaphore makes it. -/
def waitCancelled (simTime : Int) (wait : Wait) : Bool :=
  access.inputs.any fun input => wait input.name (simTime - input.validAge) (simTime + input.delay) == .errCancelled

end StepDataAccess
end FepParticipant.DataAccess

namespace FepParticipant.Timing
open DataAccess Library

structure InputConfig where
  handle : Nat
  validAgeSimUs : Int
  delaySimUs : Int
  inputViolationStrategy : InputViolationStrategy
  deriving DecidableEq

structure OutputConfig where
  handle : Nat
  deriving DecidableEq

/-- `fep::StepConfig`; the two maps are listed in the order of their keys. -/
structure StepConfig where
  cycleTimeSimUs : Int
  maxRuntimeUs : Int
  maxInputWaittimeUs : Int
  runtimeViolationStrategy : TimeViolationStrategy
  inputs : List (String × InputConfig)
  outputs : List (String × OutputConfig)
  deriving DecidableEq

/-- What the user data access answers to `GetSampleBuffer` and `CreateUserDataSample`. -/
structure HandleAnswers where
  getSampleBuffer : Nat → Result
  createUserDataSample : Nat → Result

/-- The value of an enumerator of `InputViolationStrategy`. -/
def inputStrategyValue : InputViolationStrategy → Nat
  | .unknown => 0
  | .ignoreInputValidityViolation => 1
  | .warnAboutInputValidityViolation => 2
  | .skipOutputPublish => 3
  | .setStmToError => 4

/-- `std::multimap::insert`: behind the inputs that have the same strategy. -/
def insertInput (input : StepInput) : List StepInput → List StepInput
  | [] => [input]
  | i::inputs =>
    if inputStrategyValue input.strategy < inputStrategyValue i.strategy then input::i::inputs
    else i::insertInput input inputs

def configureInput (answers : HandleAnswers) (access : StepDataAccess) (name : String) (config : InputConfig) :
    StepDataAccess × Result :=
  if config.delaySimUs < 0 ∨ config.inputViolationStrategy = .unknown ∨ config.validAgeSimUs < 0 then
    (access,.errInvalidArg)
  else if isFailed (answers.getSampleBuffer config.handle) then (access,answers.getSampleBuffer config.handle)
  else
    let input := ⟨name,config.inputViolationStrategy,config.validAgeSimUs,config.delaySimUs⟩
    ({access with inputs := insertInput input access.inputs},.errNoError)

def configureOutput (answers : HandleAnswers) (access : StepDataAccess) (config : OutputConfig) :
    StepDataAccess × Result :=
  if isFailed (answers.createUserDataSample config.handle) then (access,answers.createUserDataSample config.handle)
  else if config.handle ∈ access.outputs then (access,.errNoError)
  else ({access with outputs := access.outputs ++ [config.handle]},.errNoError)

/-- A loop that configures entry after entry and stops at the first failure. -/
def configureEach {α : Type} (configure : StepDataAccess → α → StepDataAccess × Result) :
    StepDataAccess → List α → StepDataAccess × Result
  | access, [] => (access,.errNoError)
  | access, entry::entries =>
    if isFailed (configure access entry).2 then configure access entry
    else configureEach configure (configure access entry).1 entries

end FepParticipant.Timing
