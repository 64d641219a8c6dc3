import FepParticipant.Timing.ScheduleTable

/-! When a schedule map is configured as it should be, with cycles of any magnitude and whatever it
was configured for before. -/
namespace FepParticipant.Timing
open Library List Nat Int CalcHelper

namespace CalcHelper
variable {cycles : List Int}

end CalcHelper

namespace ScheduleMap
open ScheduleItem

def Due (configs : ScheduleConfigs) (slot : Nat) (uuid : String) : Prop :=
  ∃ config ∈ configs.items, config.stepUuid = uuid ∧ config.cycleTimeUs ∣ commonDivisor configs.cycles * slot

variable {maxSize : Nat} {map other : ScheduleMap} {configs : ScheduleConfigs}

section
variable (hne : configs.cycles ≠ [])
include hne

section
variable (hzero : 0 ∉ configs.cycles)
include hzero

end

end

section
variable (hne : configs.cycles ≠ [])
include hne

section
variable (hzero : 0 ∉ configs.cycles)
include hzero

end

end

end ScheduleMap

end FepParticipant.Timing
