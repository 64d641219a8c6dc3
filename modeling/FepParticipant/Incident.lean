import Mathlib.Logic.Basic

/-! Incidents a component reports to the incident handler. -/
namespace FepParticipant

inductive SeverityLevel where
  | info
  | warning
  | critical
  deriving DecidableEq

/-- The deprecated severities have the value of `SL_Critical`. -/
abbrev SeverityLevel.criticalLocal : SeverityLevel := .critical

abbrev SeverityLevel.criticalGlobal : SeverityLevel := .critical

/-- The incident codes the modelled functions use. -/
inductive IncidentCode where
  | fsiGeneralWarning
  | fsiGeneralCritical
  | fsiStmStateRqFailed
  | fsiStepListenerRuntimeViolation
  | fsiStepListenerInputValidityViolation
  | fsiStepListenerTransmitAcknowledgementFail
  | fsiTimingClientTriggerSkip
  | fsiTimingClientTriggerTimeout
  | fsiTimingMasterAcknowledgementReceptionTimeout
  | fsiTransmTxWrongSampleSize
  | fsiTransmDataTxFailed
  | fsiTransmSampleVersionFailed
  | fsiTransmFepProtoCorruptHeader
  | fsiTransmFepProtoWrongSerMode
  | fsiTransmMsgTxFailed
  | fsiTransmMessageVersionMismatchWarning
  | fsiTransmRxMissingDatasample
  | fsiIncidentConfigFailed
  | fsiSignalDescriptionInvalid
  deriving DecidableEq

abbrev IncidentCode.fsiGeneralCriticalFailure : IncidentCode := .fsiGeneralCritical

abbrev IncidentCode.fsiGeneralCriticalGlobalFailure : IncidentCode := .fsiGeneralCritical

/-- The arguments of one `InvokeIncident` call. -/
structure Incident where
  code : IncidentCode
  severity : SeverityLevel
  description : String
  origin : String
  deriving DecidableEq

/-- What a function asks of the rest of the participant while it runs. -/
inductive Effect where
  | invokeIncident (incident : Incident)
  | errorEvent
  | setSkip
  deriving DecidableEq

end FepParticipant
