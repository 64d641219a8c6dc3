import FepParticipant.Incident
import FepParticipant.Library.Reachability
import FepParticipant.Result
import Mathlib.Data.List.Basic

/-! The strategies of the incident handler: the delegates of incident codes, the catch-all ones, and the wrappers that
pass on changes of their configuration. -/
namespace FepParticipant.Incidents
open Library

/-- The shortcut references to the built-in strategies. -/
inductive IncidentStrategy where
  | esLogFile
  | esLogConsole
  | esLogHistory
  | esLogNotification

inductive StrategyAssociation where
  | append
  | replace

/-- `cStrategyConfigWrapper`: a strategy and the property whose changes it is told. -/
structure StrategyConfigWrapper where
  strategyDelegate : Nat
  stratConfigBase : String

/-- What the property tree and the strategy answer while a strategy is configured. -/
structure ConfigAnswers where
  localProperty : Bool
  setPropertyValue : Result
  refreshConfiguration : Result

/-- `cIncidentHandler`; a strategy is the address of its object, and the delegates are listed in the order of the
codes. -/
structure IncidentHandler where
  hasModule : Bool
  incidentDelegates : List (Int × Nat)
  catchAllDelegates : List (Nat × Bool)
  globalStrategies : List StrategyConfigWrapper

namespace IncidentStrategy

def stratRef : IncidentStrategy → Nat
  | .esLogFile => 0
  | .esLogConsole => 1
  | .esLogHistory => 2
  | .esLogNotification => 3

def configurationPath : IncidentStrategy → String
  | .esLogFile => "ComponentConfig.sIncidentHandler.sFileLog"
  | .esLogConsole => "ComponentConfig.sIncidentHandler.sConsoleLog"
  | .esLogHistory => "ComponentConfig.sIncidentHandler.sIncidentHistory"
  | .esLogNotification => "ComponentConfig.sIncidentHandler.sIncidentNotification"

end IncidentStrategy

namespace ConfigAnswers

/-- Whether the configuration path is there or can be made. -/
def prepared (answers : ConfigAnswers) : Result :=
  if answers.localProperty then .errNoError else answers.setPropertyValue

/-- The configuration of the strategy succeeds. -/
def accepted (answers : ConfigAnswers) : Bool := isOk answers.prepared && isOk answers.refreshConfiguration

end ConfigAnswers

namespace IncidentHandler
variable (handler : IncidentHandler)
variable (incident : Int)

def new : IncidentHandler := ⟨false,[],[],[]⟩

/-- `std::multimap::insert`: behind the delegates of the same code. -/
def insertDelegate (entry : Int × Nat) : List (Int × Nat) → List (Int × Nat)
  | [] => [entry]
  | d::delegates => if entry.1 < d.1 then entry::d::delegates else d::insertDelegate entry delegates

def catchAll : List Nat := handler.catchAllDelegates.map (·.1)

def delegatesOf : List Nat := (handler.incidentDelegates.filter (·.1 == incident)).map (·.2)

/-- `StrategyIsAssociatedAnywhere`. -/
def isAssociated (strategy : Nat) : Bool :=
  handler.catchAll.contains strategy || (handler.incidentDelegates.map (·.2)).contains strategy

/-- Whether `GetConfigWrapperReference` finds a wrapper. -/
def hasWrapper (strategy : Nat) : Bool := handler.globalStrategies.any (·.strategyDelegate == strategy)

def configFailed (result : Result) : Incident :=
  ⟨.fsiIncidentConfigFailed,.warning,"Unable to configure incident strategy; RefreshConfiguration() " ++
    "returned with error " ++ toString result.getErrorCode,"IncidentHandler"⟩

/-- The second half of both associations: the configuration of the strategy and its wrapper. -/
def configure (strategy : Nat) (path : String) (answers : ConfigAnswers) :
    IncidentHandler × Result × List Incident :=
  if isFailed answers.prepared then (handler,answers.prepared,[])
  else if isFailed answers.refreshConfiguration then
    (handler,answers.refreshConfiguration,[configFailed answers.refreshConfiguration])
  else if handler.hasWrapper strategy then (handler,.errNoError,[])
  else ({handler with globalStrategies := handler.globalStrategies ++ [⟨strategy,path⟩]},.errNoError,[])

def associateStrategy (strategyDelegate : Option Nat)
    (configurationPath : Option String) (association : StrategyAssociation) (answers : ConfigAnswers) :
    IncidentHandler × Result × List Incident :=
  if !handler.hasModule then (handler,.errNotInitialised,[])
  else match strategyDelegate, configurationPath with
    | none, _ => (handler,.errPointer,[])
    | some _, none => (handler,.errInvalidArg,[])
    | some strategy, some path =>
      if incident = 0 then (handler,.errInvalidIndex,[])
      else match association with
        | .append =>
          if (handler.delegatesOf incident).contains strategy then (handler,.errResourceInUse,[])
          else configure { handler with
              incidentDelegates := insertDelegate (incident,strategy) handler.incidentDelegates }
            strategy path answers
        | .replace => configure { handler with
              incidentDelegates := insertDelegate (incident,strategy)
                (handler.incidentDelegates.filter (·.1 != incident)) }
            strategy path answers

def associateBuiltIn (strategy : IncidentStrategy)
    (association : StrategyAssociation) (answers : ConfigAnswers) : IncidentHandler × Result × List Incident :=
  handler.associateStrategy incident (some strategy.stratRef) (some strategy.configurationPath) association answers

def associateCatchAllStrategy (strategyDelegate : Option Nat)
    (configurationPath : Option String) (association : StrategyAssociation) (answers : ConfigAnswers) :
    IncidentHandler × Result × List Incident :=
  match strategyDelegate, configurationPath with
  | _, none => (handler,.errInvalidArg,[])
  | none, some _ => (handler,.errPointer,[])
  | some strategy, some path =>
    if !handler.hasModule then (handler,.errNotInitialised,[])
    else match association with
      | .append =>
        if handler.catchAll.contains strategy then (handler,.errResourceInUse,[])
        else configure {handler with catchAllDelegates := handler.catchAllDelegates ++ [(strategy,true)]}
          strategy path answers
      | .replace => configure {handler with catchAllDelegates := [(strategy,true)]} strategy path answers

/-- The last part of both disassociations: the wrapper goes with the last association. -/
def dropWrapper (strategy : Nat) : IncidentHandler :=
  if handler.isAssociated strategy then handler
  else {handler with globalStrategies := handler.globalStrategies.eraseP (·.strategyDelegate == strategy)}

def disassociateStrategy (strategyDelegate : Option Nat) :
    IncidentHandler × Result :=
  match strategyDelegate with
  | none => (handler,.errPointer)
  | some strategy =>
    (dropWrapper { handler with
        incidentDelegates := handler.incidentDelegates.filter (· != (incident,strategy)) } strategy,
      if (handler.delegatesOf incident).contains strategy then .errNoError else .errNotFound)

def disassociateBuiltIn (strategy : IncidentStrategy) :
    IncidentHandler × Result :=
  handler.disassociateStrategy incident (some strategy.stratRef)

def disassociateCatchAllStrategy (strategyDelegate : Option Nat) :
    IncidentHandler × Result :=
  match strategyDelegate with
  | none => (handler,.errPointer)
  | some strategy =>
    (dropWrapper { handler with
        catchAllDelegates := handler.catchAllDelegates.filter (·.1 != strategy) } strategy,
      if handler.catchAll.contains strategy then .errNoError else .errNotFound)

/-- A change of `bEnableCatchAll` of a built-in strategy and the property's value. The entry of the map is taken
without a look whether it is there. -/
def processPropertyChange (strategy : IncidentStrategy)
    (getValue : Except Result Bool) : Option (IncidentHandler × Result) :=
  if handler.catchAll.contains strategy.stratRef then
    match getValue with
    | .ok value => some ({ handler with
        catchAllDelegates := handler.catchAllDelegates.map fun delegate =>
          if delegate.1 = strategy.stratRef then (delegate.1,value) else delegate },.errNoError)
    | .error result => some (handler,result)
  else none

/-- The catch-all associations of `SetModule` for the first module, one after the other. -/
def setModule (answers : IncidentStrategy → ConfigAnswers) : IncidentHandler × Bool :=
  [IncidentStrategy.esLogConsole,.esLogFile,.esLogHistory,.esLogNotification].foldl (fun acc strategy =>
    let (handler,result,_) := acc.1.associateCatchAllStrategy (some strategy.stratRef)
      (some strategy.configurationPath) .append (answers strategy)
    (handler,acc.2 && isOk result)) ({new with hasModule := true},true)

end IncidentHandler

inductive HandlerAction where
  | associateStrategy (incident : Int) (strategyDelegate : Option Nat) (configurationPath : Option String)
      (association : StrategyAssociation) (answers : ConfigAnswers)
  | associateBuiltIn (incident : Int) (strategy : IncidentStrategy) (association : StrategyAssociation)
      (answers : ConfigAnswers)
  | associateCatchAllStrategy (strategyDelegate : Option Nat) (configurationPath : Option String)
      (association : StrategyAssociation) (answers : ConfigAnswers)
  | disassociateStrategy (incident : Int) (strategyDelegate : Option Nat)
  | disassociateBuiltIn (incident : Int) (strategy : IncidentStrategy)
  | disassociateCatchAllStrategy (strategyDelegate : Option Nat)
  | processPropertyChange (strategy : IncidentStrategy) (getValue : Except Result Bool)

def HandlerAction.associates : HandlerAction → Bool
  | .associateStrategy .. | .associateBuiltIn .. | .associateCatchAllStrategy .. => true
  | .disassociateStrategy .. | .disassociateBuiltIn .. | .disassociateCatchAllStrategy _
  | .processPropertyChange .. => false

namespace IncidentHandler

/-- The handler after an action and what the call returned; no successor where the behaviour is undefined. -/
def call (handler : IncidentHandler) : HandlerAction → Option (IncidentHandler × Result)
  | .associateStrategy incident strategy path association answers =>
    let (next,result,_) := handler.associateStrategy incident strategy path association answers
    some (next,result)
  | .associateBuiltIn incident strategy association answers =>
    let (next,result,_) := handler.associateBuiltIn incident strategy association answers
    some (next,result)
  | .associateCatchAllStrategy strategy path association answers =>
    let (next,result,_) := handler.associateCatchAllStrategy strategy path association answers
    some (next,result)
  | .disassociateStrategy incident strategy => some (handler.disassociateStrategy incident strategy)
  | .disassociateBuiltIn incident strategy => some (handler.disassociateBuiltIn incident strategy)
  | .disassociateCatchAllStrategy strategy => some (handler.disassociateCatchAllStrategy strategy)
  | .processPropertyChange strategy getValue => handler.processPropertyChange strategy getValue

def step (handler : IncidentHandler) (action : HandlerAction) : Option IncidentHandler :=
  (handler.call action).map (·.1)

end IncidentHandler
end FepParticipant.Incidents
