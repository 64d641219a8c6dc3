import FepParticipant.Timing.ScheduleMap

/-! Which tasks each slot of a schedule table has, which of them have answered, and how the operations change that. As
long as no product leaves the 64-bit range, the tick is the greatest common divisor of the cycles and the slots span
their least common multiple. -/
namespace FepParticipant.Timing
open Library List Option Int

namespace ScheduleItem
variable {config : ScheduleConfig}

/-- The tasks of a slot, apart from the dummy configuration without a uuid. -/
def Awaits (item : ScheduleItem) (uuid : String) : Prop := uuid ≠ "" ∧ uuid ∈ item.scheduleReceivedMap

instance (item : ScheduleItem) (uuid : String) : Decidable (item.Awaits uuid) := inferInstanceAs (Decidable (_ ∧ _))

/-- The task has answered since the slot was last cleared. -/
def Answered (item : ScheduleItem) (uuid : String) : Prop := item.scheduleReceivedMap.lookup uuid = some true

instance (item : ScheduleItem) (uuid : String) : Decidable (item.Answered uuid) := inferInstanceAs (Decidable (_ = _))

/-- The flag kept beside the map agrees with the map. -/
def FlagAgrees (item : ScheduleItem) : Prop := item.hasConfiguredStep = true ↔ ∃ uuid, item.Awaits uuid

/-- Two slots with the same tasks, whatever the answers. -/
structure SameTasks (item other : ScheduleItem) : Prop where
  mem (uuid : String) : uuid ∈ other.scheduleReceivedMap ↔ uuid ∈ item.scheduleReceivedMap
  flag : other.hasConfiguredStep = item.hasConfiguredStep

variable {item other : ScheduleItem} {uuid sender : String}

theorem SameTasks.refl (item : ScheduleItem) : SameTasks item item := ⟨fun _ => Iff.rfl,rfl⟩

theorem SameTasks.awaits (h : SameTasks item other) : other.Awaits uuid ↔ item.Awaits uuid := by
  simp only [Awaits,h.mem]

theorem SameTasks.flagAgrees (h : SameTasks item other) (hf : item.FlagAgrees) : other.FlagAgrees := by
  unfold FlagAgrees at hf ⊢
  rw [h.flag,hf]
  exact exists_congr fun _ => h.awaits.symm

theorem mem_iff_entry (received : ScheduleReceivedMap) :
    uuid ∈ received ↔ ∃ b, (⟨uuid,b⟩ : Sigma fun _ : String => Bool) ∈ received.entries := by
  rw [AList.mem_keys,AList.keys,mem_keys]

theorem isStep_iff : item.isStepInCurrentSchedule = true ↔ ∃ uuid, uuid ∈ item.scheduleReceivedMap := by
  simp only [isStepInCurrentSchedule,decide_eq_true_eq,length_pos_iff_exists_mem,mem_iff_entry]
  constructor
  · rintro ⟨⟨uuid,b⟩,h⟩
    exact ⟨uuid,b,h⟩
  · rintro ⟨uuid,b,h⟩
    exact ⟨⟨uuid,b⟩,h⟩

theorem SameTasks.isStep (h : SameTasks item other) : other.isStepInCurrentSchedule = item.isStepInCurrentSchedule := by
  rw [Bool.eq_iff_iff,isStep_iff,isStep_iff]
  exact exists_congr h.mem

theorem isComplete_iff : item.isCurrentScheduleComplete = true ↔ ∀ uuid, item.Awaits uuid → item.Answered uuid := by
  simp only [isCurrentScheduleComplete,List.all_eq_true,Bool.or_eq_true]
  constructor
  · rintro h uuid ⟨hne,hmem⟩
    obtain ⟨b,hb⟩ := (mem_iff_entry _).mp hmem
    have htrue : b = true := by simpa [hne] using h _ hb
    exact AList.mem_lookup_iff.mpr (htrue ▸ hb)
  · rintro h ⟨uuid,b⟩ hb
    by_cases hne : uuid = ""
    · exact .inl (by simp [hne])
    · have hans := h uuid ⟨hne,(mem_iff_entry _).mpr ⟨b,hb⟩⟩
      exact .inr (some_inj.mp ((AList.mem_lookup_iff.mpr hb).symm.trans hans))

/-- The sender is due and has not answered. -/
def Waiting (item : ScheduleItem) (sender : String) : Prop := item.scheduleReceivedMap.lookup sender = some false

theorem mark_of_waiting (h : item.Waiting sender) : item.markStepForCurrentSchedule sender =
      ({item with scheduleReceivedMap := item.scheduleReceivedMap.insert sender true},true) := by
  simp only [markStepForCurrentSchedule,Waiting] at h ⊢
  rw [h]

theorem mark_of_not_waiting (h : ¬ item.Waiting sender) : item.markStepForCurrentSchedule sender = (item,false) := by
  simp only [markStepForCurrentSchedule,Waiting] at h ⊢
  split <;> simp_all

theorem mark_result : (item.markStepForCurrentSchedule sender).2 = true ↔ item.Waiting sender := by
  by_cases h : item.Waiting sender
  · simp [mark_of_waiting h,h]
  · simp [mark_of_not_waiting h,h]

theorem sameTasks_mark (item : ScheduleItem) (sender : String) :
    SameTasks item (item.markStepForCurrentSchedule sender).1 := by
  by_cases h : item.Waiting sender
  · have hmem : sender ∈ item.scheduleReceivedMap := AList.lookup_isSome.mp (by
      rw [Waiting] at h
      simp [h])
    rw [mark_of_waiting h]
    refine ⟨fun uuid => ?_,rfl⟩
    rw [AList.mem_insert]
    exact ⟨fun hu => hu.elim (fun e => e ▸ hmem) id,.inr⟩
  · rw [mark_of_not_waiting h]
    exact .refl item

theorem answered_mark : (item.markStepForCurrentSchedule sender).1.Answered uuid ↔
      item.Answered uuid ∨ (uuid = sender ∧ item.Waiting sender) := by
  by_cases h : item.Waiting sender
  · rw [mark_of_waiting h]
    by_cases hu : uuid = sender
    · subst hu
      simp [Answered,h]
    · simp [Answered,AList.lookup_insert_ne hu,hu]
  · simp [mark_of_not_waiting h,h]

theorem sameTasks_clear (item : ScheduleItem) : SameTasks item item.clearStepCompleteInternal := by
  refine ⟨fun uuid => ?_,rfl⟩
  simp [clearStepCompleteInternal,AList.mem_keys,AList.keys,List.keys,Function.comp_def]

theorem not_answered_clear : ¬ item.clearStepCompleteInternal.Answered uuid := by
  intro h
  have hmem := AList.mem_lookup_iff.mp h
  simp [clearStepCompleteInternal] at hmem

theorem mem_insertScheduleConfig : uuid ∈ (item.insertScheduleConfig config).scheduleReceivedMap ↔
      uuid = config.stepUuid ∨ uuid ∈ item.scheduleReceivedMap := by
  simp only [insertScheduleConfig]
  split
  · rename_i hmem
    exact ⟨.inr,fun hu => hu.elim (fun e => e ▸ hmem) id⟩
  · exact AList.mem_insert _

theorem answered_insertScheduleConfig : (item.insertScheduleConfig config).Answered uuid ↔ item.Answered uuid := by
  simp only [insertScheduleConfig,Answered]
  split
  · exact Iff.rfl
  · rename_i hmem
    by_cases hu : uuid = config.stepUuid
    · subst hu
      simp [AList.lookup_eq_none.mpr hmem]
    · rw [AList.lookup_insert_ne hu]

theorem flagAgrees_insertScheduleConfig (config : ScheduleConfig) : (item.insertScheduleConfig config).FlagAgrees := by
  simp only [FlagAgrees,Awaits,mem_iff_entry]
  simp only [insertScheduleConfig,List.any_eq_true]
  constructor
  · rintro ⟨⟨uuid,b⟩,hmem,hne⟩
    exact ⟨uuid,by simpa using hne,b,hmem⟩
  · rintro ⟨uuid,hne,b,hmem⟩
    exact ⟨⟨uuid,b⟩,hmem,by simpa using hne⟩

theorem flagAgrees_new : ScheduleItem.new.FlagAgrees := by
  simp [FlagAgrees,Awaits,new]

theorem not_answered_new : ¬ ScheduleItem.new.Answered uuid := by
  simp [Answered,new]

end ScheduleItem

namespace ScheduleMap
open ScheduleItem

variable {item : ScheduleItem} {uuid : String} {configs : ScheduleConfigs} {ti : Int}

private theorem mem_fold (cs : List ScheduleConfig) : uuid ∈ (cs.foldl (fun item config =>
      if ti.tmod config.cycleTimeUs = 0 then item.insertScheduleConfig config else item) item).scheduleReceivedMap ↔
      uuid ∈ item.scheduleReceivedMap ∨ ∃ config ∈ cs, config.stepUuid = uuid ∧ config.cycleTimeUs ∣ ti := by
  induction cs generalizing item with
  | nil => simp
  | cons config cs ih =>
    rw [foldl_cons,ih]
    by_cases hdue : ti.tmod config.cycleTimeUs = 0
    · have hdvd : config.cycleTimeUs ∣ ti := dvd_of_tmod_eq_zero hdue
      simp only [hdue,if_true,mem_insertScheduleConfig,mem_cons,exists_eq_or_imp,hdvd,and_true,eq_comm (a := uuid)]
      tauto
    · have hdvd : ¬ config.cycleTimeUs ∣ ti := fun h => hdue (tmod_eq_zero_of_dvd h)
      simp [hdue,hdvd]

theorem mem_fillSlot : uuid ∈ (fillSlot configs ti item).scheduleReceivedMap ↔ uuid ∈ item.scheduleReceivedMap ∨
      ∃ config ∈ configs.items, config.stepUuid = uuid ∧ config.cycleTimeUs ∣ ti :=
  mem_fold configs.items

theorem fillSlot_induction {P : ScheduleItem → Prop} (configs : ScheduleConfigs) (ti : Int)
    (h0 : P item) (hinsert : ∀ item config, P item → P (item.insertScheduleConfig config)) :
    P (fillSlot configs ti item) := by
  unfold fillSlot
  generalize configs.items = cs
  induction cs generalizing item with
  | nil => exact h0
  | cons config cs ih =>
    by_cases hdue : ti.tmod config.cycleTimeUs = 0
    · exact ih (by simpa only [hdue,if_true] using hinsert item config h0)
    · exact ih (by simpa only [hdue,if_false] using h0)

variable {map other : ScheduleMap}

/-- The index denotes a slot. -/
def IndexValid (map : ScheduleMap) : Prop := map.currentIndex < map.scheduleVector.length

/-- Two maps with the same tasks in every slot, whatever the answers and the index. -/
structure SameTable (map other : ScheduleMap) : Prop where
  length : other.scheduleVector.length = map.scheduleVector.length
  cycle : other.cycleTimeUs = map.cycleTimeUs
  slot {i : Nat} {item' : ScheduleItem} : other.scheduleVector[i]? = some item' →
    ∃ item, map.scheduleVector[i]? = some item ∧ SameTasks item item'

theorem SameTable.refl (map : ScheduleMap) : SameTable map map := ⟨rfl,rfl,fun h => ⟨_,h,.refl _⟩⟩

theorem SameTable.indexValid (h : SameTable map other) (hidx : other.currentIndex = map.currentIndex)
    (hv : map.IndexValid) : other.IndexValid := by
  unfold IndexValid at hv ⊢
  rwa [h.length,hidx]

theorem sameTable_modify {f : ScheduleItem → ScheduleItem} (hf : ∀ item, SameTasks item (f item))
    (i idx : Nat) : SameTable map ⟨map.scheduleVector.modify i f,map.cycleTimeUs,idx⟩ := by
  refine ⟨length_modify ..,rfl,fun {j item'} hslot => ?_⟩
  rw [getElem?_modify] at hslot
  obtain ⟨item,hitem,rfl⟩ := Option.map_eq_some_iff.mp hslot
  refine ⟨item,hitem,?_⟩
  split
  · exact hf item
  · exact .refl item

theorem currentItem_of_valid (hv : map.IndexValid) : ∃ item, map.currentItem = some item := ⟨_,getElem?_eq_getElem hv⟩

theorem length_ne_zero (hv : map.IndexValid) : map.scheduleVector.length ≠ 0 := by
  unfold IndexValid at hv
  omega

theorem modify_const (hv : map.currentItem = some item) (f : ScheduleItem → ScheduleItem) :
    map.scheduleVector.modify map.currentIndex (fun _ => f item) = map.scheduleVector.modify map.currentIndex f := by
  apply ext_getElem?
  intro j
  by_cases hj : map.currentIndex = j
  · subst hj
    rw [currentItem] at hv
    simp [hv]
  · simp [hj]

theorem increment_eq (hv : map.IndexValid) : map.incrementCurrentSchedule =
    some ⟨map.scheduleVector.modify map.currentIndex (·.clearStepCompleteInternal),map.cycleTimeUs,
      (map.currentIndex + 1) % map.scheduleVector.length⟩ := by
  obtain ⟨item,hitem⟩ := currentItem_of_valid hv
  have hwrap : (if map.scheduleVector.length ≤ map.currentIndex + 1 then 0 else map.currentIndex + 1) =
      (map.currentIndex + 1) % map.scheduleVector.length := by
    unfold IndexValid at hv
    split
    · rw [show map.currentIndex + 1 = map.scheduleVector.length by omega,Nat.mod_self]
    · exact (Nat.mod_eq_of_lt (by omega)).symm
  simp only [incrementCurrentSchedule,clearStepCompleteInternal,length_ne_zero hv,if_false,hitem,
    map_some,modifyCurrent,length_modify,hwrap,
    modify_const hitem (·.clearStepCompleteInternal)]

theorem mark_eq (hitem : map.currentItem = some item) (sender : String) : map.markStepForCurrentSchedule sender =
      some (⟨map.scheduleVector.modify map.currentIndex (fun i => (i.markStepForCurrentSchedule sender).1),
        map.cycleTimeUs,map.currentIndex⟩,(item.markStepForCurrentSchedule sender).2) := by
  have hv : map.IndexValid := (List.getElem?_eq_some_iff.mp hitem).1
  simp only [markStepForCurrentSchedule,length_ne_zero hv,if_false,hitem,map_some,
    modifyCurrent,modify_const hitem fun i => (i.markStepForCurrentSchedule sender).1]

theorem isComplete_eq (hitem : map.currentItem = some item) :
    map.isCurrentScheduleComplete = some item.isCurrentScheduleComplete := by
  have hv : map.IndexValid := (List.getElem?_eq_some_iff.mp hitem).1
  simp only [isCurrentScheduleComplete,length_ne_zero hv,if_false,hitem,map_some]

theorem sameTable_increment (hv : map.IndexValid) (h : map.incrementCurrentSchedule = some other) :
    SameTable map other ∧ other.IndexValid := by
  obtain rfl := some_inj.mp ((increment_eq hv).symm.trans h)
  refine ⟨sameTable_modify sameTasks_clear _ _,?_⟩
  unfold IndexValid at hv ⊢
  simp only [length_modify]
  exact Nat.mod_lt _ (by omega)

theorem sameTable_mark {sender : String} {result : Bool}
    (h : map.markStepForCurrentSchedule sender = some (other,result)) :
    SameTable map other ∧ other.currentIndex = map.currentIndex := by
  by_cases hsize : map.scheduleVector.length = 0
  · simp only [markStepForCurrentSchedule,hsize,if_true,Option.some.injEq,Prod.mk.injEq] at h
    exact h.1 ▸ ⟨.refl map,rfl⟩
  · cases hitem : map.currentItem with
    | none => simp [markStepForCurrentSchedule,hsize,hitem] at h
    | some item =>
      rw [mark_eq hitem,Option.some.injEq,Prod.mk.injEq] at h
      exact h.1 ▸ ⟨sameTable_modify (sameTasks_mark · sender) _ _,rfl⟩

/-- No task has answered in any slot but possibly the current one. -/
def OthersUnanswered (map : ScheduleMap) : Prop :=
  ∀ (i : Nat) (item : ScheduleItem), i ≠ map.currentIndex → map.scheduleVector[i]? = some item →
    ∀ uuid, ¬ item.Answered uuid

/-- No task has answered in any slot. -/
def Unanswered (map : ScheduleMap) : Prop :=
  ∀ (i : Nat) (item : ScheduleItem), map.scheduleVector[i]? = some item → ∀ uuid, ¬ item.Answered uuid

theorem Unanswered.others (h : Unanswered map) : OthersUnanswered map := fun i item _ => h i item

theorem unanswered_increment (hv : map.IndexValid) (ho : OthersUnanswered map)
    (h : map.incrementCurrentSchedule = some other) : Unanswered other := by
  obtain rfl := some_inj.mp ((increment_eq hv).symm.trans h)
  intro i item' hitem' uuid
  rw [getElem?_modify] at hitem'
  obtain ⟨item,hitem,rfl⟩ := Option.map_eq_some_iff.mp hitem'
  by_cases hi : map.currentIndex = i
  · simpa [hi] using not_answered_clear
  · simpa [hi] using ho i item (Ne.symm hi) hitem uuid

theorem othersUnanswered_mark {sender : String} {result : Bool} (ho : OthersUnanswered map)
    (h : map.markStepForCurrentSchedule sender = some (other,result)) : OthersUnanswered other := by
  by_cases hsize : map.scheduleVector.length = 0
  · simp only [markStepForCurrentSchedule,hsize,if_true,Option.some.injEq,Prod.mk.injEq] at h
    exact h.1 ▸ ho
  · cases hitem : map.currentItem with
    | none => simp [markStepForCurrentSchedule,hsize,hitem] at h
    | some item =>
      rw [mark_eq hitem,Option.some.injEq,Prod.mk.injEq] at h
      obtain ⟨rfl,-⟩ := h
      intro i item' hi hitem' uuid
      have hne : map.currentIndex ≠ i := Ne.symm hi
      exact ho i item' hi (by simpa [hne] using hitem') uuid

theorem answered_current_mark {sender : String} {result : Bool} {item' : ScheduleItem}
    (hitem : map.currentItem = some item) (h : map.markStepForCurrentSchedule sender = some (other,result))
    (hitem' : other.currentItem = some item') :
    item'.Answered uuid ↔ item.Answered uuid ∨ (uuid = sender ∧ item.Waiting sender) := by
  rw [mark_eq hitem,Option.some.injEq,Prod.mk.injEq] at h
  obtain ⟨rfl,-⟩ := h
  rw [currentItem] at hitem hitem'
  rw [getElem?_modify_eq,hitem] at hitem'
  obtain rfl := some_inj.mp hitem'
  exact answered_mark

variable {sender : String} {marked : Bool}

theorem indexValid_of_increment (h : map.incrementCurrentSchedule = some other)
    (hitem : other.currentItem = some item) : map.IndexValid := by
  by_cases hsize : map.scheduleVector.length = 0
  · have hnil : map.scheduleVector = [] := length_eq_zero_iff.mp hsize
    simp only [incrementCurrentSchedule,clearStepCompleteInternal,hsize,if_true,map_some,Option.some.injEq] at h
    subst h
    simp [currentItem,hnil] at hitem
  · simp only [incrementCurrentSchedule,clearStepCompleteInternal,hsize,if_false,
      Option.map_map,Option.map_eq_some_iff] at h
    obtain ⟨current,hcurrent,-⟩ := h
    exact (List.getElem?_eq_some_iff.mp hcurrent).1

theorem marked_iff (hitem : map.currentItem = some item)
    (h : map.markStepForCurrentSchedule sender = some (other,marked)) : marked = true ↔ item.Waiting sender := by
  rw [mark_eq hitem,Option.some.injEq,Prod.mk.injEq] at h
  rw [← h.2]
  exact ScheduleItem.mark_result

private theorem isComplete_iff_item : map.isCurrentScheduleComplete = some true ↔
    ∃ item, map.currentItem = some item ∧ item.isCurrentScheduleComplete = true := by
  constructor
  · intro h
    by_cases hsize : map.scheduleVector.length = 0
    · simp [isCurrentScheduleComplete,hsize] at h
    · simpa [isCurrentScheduleComplete,hsize] using h
  · rintro ⟨item,hitem,hcomplete⟩
    rw [isComplete_eq hitem,hcomplete]

theorem currentItem_mark {item' : ScheduleItem} (hitem' : other.currentItem = some item')
    (h : map.markStepForCurrentSchedule sender = some (other,marked)) :
    ∃ item, map.currentItem = some item ∧ ScheduleItem.SameTasks item item' := by
  obtain ⟨hsame,hindex⟩ := sameTable_mark h
  rw [currentItem,hindex] at hitem'
  exact hsame.slot hitem'

theorem isComplete_mark (hcomplete : map.isCurrentScheduleComplete = some true)
    (h : map.markStepForCurrentSchedule sender = some (other,marked)) :
    other.isCurrentScheduleComplete = some true := by
  obtain ⟨item,hitem,hitemComplete⟩ := isComplete_iff_item.mp hcomplete
  obtain ⟨hsame,hindex⟩ := sameTable_mark h
  have hvalid := hsame.indexValid hindex (List.getElem?_eq_some_iff.mp hitem).1
  obtain ⟨item',hitem'⟩ := currentItem_of_valid hvalid
  refine isComplete_iff_item.mpr ⟨item',hitem',ScheduleItem.isComplete_iff.mpr fun uuid hawaits => ?_⟩
  obtain ⟨item0,hitem0,htasks⟩ := currentItem_mark hitem' h
  obtain rfl := some_inj.mp (hitem.symm.trans hitem0)
  have hans := ScheduleItem.isComplete_iff.mp hitemComplete uuid (htasks.awaits.mp hawaits)
  exact (answered_current_mark hitem h hitem').mpr (.inl hans)

structure Configured (configs : ScheduleConfigs) (time : Int) (item : ScheduleItem) : Prop where
  mem (uuid : String) : uuid ∈ item.scheduleReceivedMap ↔
    ∃ config ∈ configs.items, config.stepUuid = uuid ∧ config.cycleTimeUs ∣ time
  flag : item.FlagAgrees
  unanswered (uuid : String) : ¬ item.Answered uuid

private theorem configured_fillSlot (configs : ScheduleConfigs) (ti : Int) :
    Configured configs ti (fillSlot configs ti .new) where
  mem uuid := by simp [mem_fillSlot,ScheduleItem.new]
  flag := fillSlot_induction configs ti flagAgrees_new fun _ config _ => flagAgrees_insertScheduleConfig config
  unanswered uuid := fillSlot_induction (P := fun item => ¬ item.Answered uuid) configs ti
    not_answered_new fun _ _ h => mt answered_insertScheduleConfig.mp h

theorem configure_slots {maxSize : Nat} (hempty : map.scheduleVector = [])
    (h : configure maxSize map configs = some (other,true)) :
    other.currentIndex = 0 ∧ ∀ i item, other.scheduleVector[i]? = some item →
      Configured configs (slotTime other.cycleTimeUs i) item := by
  unfold configure at h
  split at h
  · simp only [Option.some.injEq,Prod.mk.injEq,and_true] at h
    subst h
    simp [resizeVector]
  · split at h
    · cases h
    · simp only at h
      split at h
      · simp at h
      · simp only [Option.some.injEq,Prod.mk.injEq,and_true] at h
        subst h
        refine ⟨rfl,fun i item hitem => ?_⟩
        simp only [hempty,resizeVector,List.take_nil,nil_append,getElem?_mapIdx,
          map_eq_some_iff,getElem?_replicate] at hitem
        obtain ⟨item',hitem',rfl⟩ := hitem
        split at hitem'
        · cases hitem'
          exact configured_fillSlot ..
        · cases hitem'

theorem unanswered_configure {maxSize : Nat} (hempty : map.scheduleVector = [])
    (h : configure maxSize map configs = some (other,true)) : Unanswered other :=
  fun i item hitem => ((configure_slots hempty h).2 i item hitem).unanswered

end ScheduleMap

namespace CalcHelper

theorem GCD_eq {a b : Int} (ha : 0 ≤ a) (hb : 0 ≤ b) : GCD a b = Int.gcd a b := by
  induction a, b using GCD.induct with
  | case1 b => simpa [GCD] using (natAbs_of_nonneg hb).symm
  | case2 a b hne hmod =>
    unfold GCD
    rw [if_neg hne,if_pos hmod,gcd_eq_left ha (dvd_of_tmod_eq_zero hmod)]
  | case3 a b hne hmod ih =>
    have hb' : b.tmod a = b % a := tmod_eq_emod_of_nonneg hb
    have hpos : 0 ≤ b % a := emod_nonneg _ hne
    have ha' : a.tmod (b % a) = a % (b % a) := tmod_eq_emod_of_nonneg ha
    have hpos' : 0 ≤ a % (b % a) := emod_nonneg _ (hb' ▸ hmod)
    unfold GCD
    rw [if_neg hne,if_neg hmod,ih (by rw [hb',ha']; exact hpos') (by rw [hb']; exact hpos),hb',ha',
      gcd_emod,gcd_comm,gcd_emod,gcd_comm]

private theorem LCM_eq {a b : Int} (ha : 0 < a) (hb : 0 < b) (hlcm : (Int.lcm a b : Int) < 2 ^ 63) :
    LCM a b = Int.lcm a b := by
  have hgcd : (0 : Int) < Int.gcd a b := by exact_mod_cast gcd_pos_of_ne_zero_left b (by omega)
  have hprod : a / Int.gcd a b * b = Int.lcm a b := by
    have hquot : a / Int.gcd a b * b * Int.gcd a b = a * b := by
      rw [mul_right_comm,Int.ediv_mul_cancel (Int.gcd_dvd_left a b)]
    have hlcm : (Int.lcm a b : Int) * Int.gcd a b = a * b := by
      have := congrArg (Nat.cast : Nat → Int) (lcm_mul_gcd a b)
      push_cast at this
      rwa [abs_of_pos ha,abs_of_pos hb] at this
    exact Int.eq_of_mul_eq_mul_right hgcd.ne' (hquot.trans hlcm.symm)
  simp only [LCM,GCD_eq ha.le hb.le]
  rw [if_pos (by omega),tdiv_eq_ediv_of_nonneg ha.le,hprod]
  exact wrap64_of_nonneg (by omega) hlcm

theorem lcm_eq {cycles : List Int} (hpos : ∀ c ∈ cycles, 0 < c)
    (hrange : commonMultiple cycles < 2 ^ 63) : lcm cycles = commonMultiple cycles := by
  have key (l : List Int) : ∀ a : Int, 0 < a → (∀ c ∈ l, 0 < c) → l.foldl (fun a b => (Int.lcm a b : Int)) a < 2 ^ 63 →
      l.foldl LCM a = l.foldl (fun a b => (Int.lcm a b : Int)) a := by
    induction l with
    | nil => intro a _ _ _; rfl
    | cons c l ih =>
      intro a ha hl hlt
      have hc : 0 < c := hl c (by simp)
      have hlcm : 0 < Int.lcm a c := lcm_pos (by omega) (by omega)
      have hl' : ∀ d ∈ l, 0 < d := fun d hd => hl d (by simp [hd])
      rw [foldl_cons] at hlt ⊢
      have hle := le_foldl_lcm hl' (natCast_pos.mpr hlcm)
      rw [LCM_eq ha hc (hle.trans_lt hlt)]
      exact ih _ (natCast_pos.mpr hlcm) hl' hlt
  rw [commonMultiple_eq_foldl] at hrange ⊢
  exact key cycles 1 one_pos hpos hrange

theorem gcd_eq {cycles : List Int} (hne : cycles ≠ []) (hpos : ∀ c ∈ cycles, 0 < c) :
    gcd cycles = commonDivisor cycles := by
  have key (l : List Int) : ∀ a : Int, 0 ≤ a → (∀ c ∈ l, 0 < c) →
      l.foldl GCD a = l.foldl (fun a b => (Int.gcd a b : Int)) a := by
    induction l with
    | nil => intro a _ _; rfl
    | cons c l ih =>
      intro a ha hl
      rw [foldl_cons,foldl_cons,GCD_eq ha (hl c (by simp)).le]
      exact ih _ (natCast_nonneg _) fun d hd => hl d (by simp [hd])
  obtain ⟨c,l,rfl⟩ := exists_cons_of_ne_nil hne
  have hc : 0 < c := hpos c (by simp)
  rw [← foldl_gcd_of_mem hc.le (by simp)]
  exact key (c::l) c hc.le hpos

end CalcHelper

namespace ScheduleMap

variable {configs : ScheduleConfigs} {maxSize : Nat} {map other : ScheduleMap}

theorem configure_period (hne : configs.items ≠ []) (hpos : ∀ c ∈ configs.cycles, 0 < c)
    (hrange : commonMultiple configs.cycles < 2 ^ 63) (h : configure maxSize map configs = some (other,true)) :
    other.cycleTimeUs = commonDivisor configs.cycles ∧
      (other.scheduleVector.length : Int) * commonDivisor configs.cycles = commonMultiple configs.cycles := by
  have hcycles : configs.cycles ≠ [] := by simpa [ScheduleConfigs.cycles] using hne
  have hg := commonDivisor_pos hcycles hpos
  have hcalc : calculateLcmAndGcd configs = some (commonMultiple configs.cycles,commonDivisor configs.cycles) := by
    simp only [calculateLcmAndGcd,length_eq_zero_iff,hcycles,if_false,
      CalcHelper.lcm_eq hpos hrange,CalcHelper.gcd_eq hcycles hpos]
  have hdiv : (commonMultiple configs.cycles).tdiv (commonDivisor configs.cycles) =
      commonMultiple configs.cycles / commonDivisor configs.cycles :=
    tdiv_eq_ediv_of_nonneg (commonMultiple_nonneg _)
  have hnonneg : 0 ≤ commonMultiple configs.cycles / commonDivisor configs.cycles :=
    ediv_nonneg (commonMultiple_nonneg _) hg.le
  simp only [configure,hcalc,hg.ne',if_false,hdiv] at h
  split at h
  · simp at h
  · simp only [Option.some.injEq,Prod.mk.injEq,and_true] at h
    subst h
    refine ⟨rfl,?_⟩
    have hlen := toNat_of_nonneg hnonneg
    rw [length_mapIdx,resizeVector,length_append,length_take,length_replicate,
      show min (commonMultiple configs.cycles / commonDivisor configs.cycles).toNat
          map.scheduleVector.length + ((commonMultiple configs.cycles /
            commonDivisor configs.cycles).toNat - map.scheduleVector.length) =
        (commonMultiple configs.cycles / commonDivisor configs.cycles).toNat by omega,hlen]
    exact Int.ediv_mul_cancel (commonDivisor_dvd_commonMultiple hcycles)

end ScheduleMap
end FepParticipant.Timing
