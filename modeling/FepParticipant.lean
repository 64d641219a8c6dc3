import FepParticipant.Tooling.AwaitParticipants
import FepParticipant.Tooling.InitOrder
import FepParticipant.Timing.LockStepSafety
import FepParticipant.Timing.LockedStep
import FepParticipant.Timing.TriggerAccounting
import FepParticipant.Timing.ConfigRoundTrip
import FepParticipant.StateMachine.Shutdown
import FepParticipant.StateMachine.CallbackDiscipline
import FepParticipant.Components.ComponentLifecycle
import FepParticipant.Transmission.SharedReassembly
import FepParticipant.Transmission.Reassembly
import FepParticipant.Transmission.LostSamples
import FepParticipant.Transmission.PacketOrder
import FepParticipant.Transmission.ContainerPool
import FepParticipant.Transmission.RawRoundTrip
import FepParticipant.Transmission.MessageDelivery
import FepParticipant.Transmission.MessageListeners
import FepParticipant.DataAccess.UpperBoundLookup
import FepParticipant.DataAccess.NearestLookup
import FepParticipant.DataAccess.MissingSamples
import FepParticipant.DistributedDataBuffer.FrameIntegrity
import FepParticipant.DistributedDataBuffer.FrameCompleteness
import FepParticipant.Clock.SlaveFollowsMaster
import FepParticipant.Scheduler.AsynchronousQueue
import FepParticipant.Scheduler.RuntimeEnforcement
import FepParticipant.Scheduler.TimerThread
import FepParticipant.PropertyTree.RemoteAnswers
import FepParticipant.RPC.ResponseQueue
import FepParticipant.Automation.RequestsOwnAnswers
import FepParticipant.Messages.FormattedText
import FepParticipant.TransmissionDrivers.DriversOwnAndRoute
import FepParticipant.TransmissionAdapter.SignalsLive
import FepParticipant.Transmission.SendBuffer
import FepParticipant.Timing.ScheduleConfiguration
import FepParticipant.Timing.TickLoss
import FepParticipant.StateMachine.ListenerRegistry
import FepParticipant.Components.ComponentFallback
import FepParticipant.Clock.ClockMaster
import FepParticipant.Clock.MainClock
import FepParticipant.Timing.UnitConversions
import FepParticipant.Clock.InterpolationTime
import FepParticipant.DataRegistry.RegistrationOutcome
import FepParticipant.PropertyTree.Reparenting
import FepParticipant.PropertyTree.CarelessSteps
import FepParticipant.PropertyTree.FailedImport
import FepParticipant.PropertyTree.ChangeNotification
import FepParticipant.PropertyTree.ConfigurationRPC
import FepParticipant.Timing.ConfigValidation
import FepParticipant.DataRegistry.ReceiveNow
import FepParticipant.Signals.SignalDescriptions
import FepParticipant.Incidents.IncidentDispatch
import FepParticipant.Incidents.IncidentHistory
import FepParticipant.DataRegistry.RawMemory
import FepParticipant.Base.StreamType
import FepParticipant.Timing.RoutedAccess
import FepParticipant.Timing.ExternalTrigger
import FepParticipant.DataAccess.BacklogResizing
import FepParticipant.Base.NetworkInterfaces
import FepParticipant.Transmission.SampleMemory
import FepParticipant.DistributedDataBuffer.DDBEntries
import FepParticipant.Automation.ParticipantMonitors
import FepParticipant.Incidents.LogMessageMgr
import FepParticipant.StateMachine.WaitForState
import FepParticipant.Base.ListenerRemoval
import FepParticipant.Base.FastSemaphore
import FepParticipant.DataRegistry.SamplePool
import FepParticipant.Base.BlockingQueue
import FepParticipant.Scheduler.SchedulerService
import FepParticipant.Transmission.MessageAddressing
import FepParticipant.Mapping.EngineEnvironment
import FepParticipant.DataAccess.UserLocks
import FepParticipant.TransmissionAdapter.DefaultValues
import FepParticipant.Incidents.LogFileStrategy
import FepParticipant.Signals.MuteStatus
import FepParticipant.Scheduler.LockedStepSetUp
