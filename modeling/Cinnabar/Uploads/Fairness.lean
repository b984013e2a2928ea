import Cinnabar.Keys
import Cinnabar.Uploads.RetainedPriorities

/-! # The order of upload waiters -/

namespace Cinnabar.Uploads

open RetainedUploadPriorities List

def gpuUpdateOverdueFrames : ℕ := 2

/-- An update waiting this long goes before every nearer one, oldest first. -/
def gpuUpdateStarvedFrames : ℕ := 60

def maxGpuUpdateFairnessEntries : ℕ := 65536
def maximumFrameItems : ℕ := 512

def i128Max : ℤ := 170141183460469231731687303715884105727
def i128Min : ℤ := -170141183460469231731687303715884105728
def u64Max : ℕ := 18446744073709551615

/-- The complete floating-point order of an `f32`, from its bits. -/
def uploadDistanceKey (bits : UInt32) : ℕ :=
  (if bits &&& 0x80000000=0 then bits ^^^ 0x80000000 else ~~~bits).toNat

/-- The bits of an `f32` below zero. -/
def isUrgent (bits : UInt32) : Bool := 0x80000000<bits && bits≤0xFF800000

structure ChunkBiomeTintIdentity where
  stream : ℕ
  revision : ℕ
deriving DecidableEq

/-- What an upload order compares, with the birth `B` of the waiter. -/
structure UploadOrder (B : Type) where
  urgent : Bool
  birth : B
  overdue : Bool
  distance : ℕ
  key : SubChunkKey
deriving DecidableEq

namespace UploadOrder

variable {B : Type} [LinearOrder B]

abbrev Tuple (B : Type) : Type := Boolᵒᵈ ×ₗ B ×ₗ Boolᵒᵈ ×ₗ ℕ ×ₗ SubChunkKey

/-- Urgent and overdue updates come first. -/
def tuple (order : UploadOrder B) : Tuple B :=
  toLex (OrderDual.toDual order.urgent,toLex (order.birth,
    toLex (OrderDual.toDual order.overdue,toLex (order.distance,order.key))))

omit [LinearOrder B] in
lemma tuple_injective : Function.Injective (tuple : UploadOrder B → Tuple B) := by
  rintro ⟨urgent,birth,overdue,distance,key⟩ ⟨urgent',birth',overdue',distance',key'⟩ h
  simpa [tuple] using h

instance : LinearOrder (UploadOrder B) := LinearOrder.lift' tuple tuple_injective

lemma le_iff {a b : UploadOrder B} : a≤b ↔ b.urgent<a.urgent ∨ a.urgent=b.urgent ∧
    (a.birth<b.birth ∨ a.birth=b.birth ∧ (b.overdue<a.overdue ∨ a.overdue=b.overdue ∧
      (a.distance<b.distance ∨ a.distance=b.distance ∧ a.key≤b.key))) := by
  have hle : a≤b ↔ a.tuple≤b.tuple := Iff.rfl
  rw [hle]
  simp only [tuple,Prod.Lex.toLex_le_toLex,OrderDual.toDual_lt_toDual,OrderDual.toDual_inj]

end UploadOrder

structure GpuUpdateCandidate (E : Type) where
  entity : E
  key : SubChunkKey
  generation : ℕ
  tintIdentity : ChunkBiomeTintIdentity
  priority : UInt32

structure ArenaAllocation where
  generation : ℕ
  tintIdentity : ChunkBiomeTintIdentity

abbrev CameraBits : Type := UInt32 × UInt32 × UInt32

structure GpuUpdatePriorities (E : Type) where
  camera : Option CameraBits
  order : RetainedUploadPriorities E (UploadOrder ℤ)

structure GpuUpdateFairness (E : Type) where
  waitAges : List (E × ℕ)
  urgentWaiters : List E
  limit : ℕ
  recoverUntracked : Bool
  examinationCursor : ℕ
  priorityFrame : ℕ
  priorities : GpuUpdatePriorities E

def chunkTintIdentityIsActive (record active : ChunkBiomeTintIdentity) : Bool :=
  record.stream=active.stream && record.revision=active.revision

/-- Birth frames keep the order of starved waiters as they age; saturated ages tie. -/
def birth (frame age : ℕ) : ℤ :=
  if age=u32Max then i128Min
  else if gpuUpdateStarvedFrames≤age then frame-age
  else i128Max

namespace GpuUpdateFairness

variable {E : Type}

def withLimit (limit : ℕ) : GpuUpdateFairness E :=
  ⟨[],[],limit,false,0,0,⟨none,RetainedUploadPriorities.default⟩⟩

def default : GpuUpdateFairness E := withLimit maxGpuUpdateFairnessEntries

def examinationOrder (fairness : GpuUpdateFairness E) (selected : List E) :
    GpuUpdateFairness E × List E :=
  let first := selected.take maximumFrameItems
  let tail := selected.drop maximumFrameItems
  let start := fairness.examinationCursor % max tail.length 1
  let count := min tail.length maximumFrameItems
  ({ fairness with examinationCursor := (start+count) % max tail.length 1 },
    first ++ (tail.drop start++tail.take start).take count)

variable [DecidableEq E]

def waitAge (fairness : GpuUpdateFairness E) (entity : E) : ℕ :=
  (fairness.waitAges.lookup entity).getD 0

def isUrgent (fairness : GpuUpdateFairness E) (entity : E) : Bool :=
  entity ∈ fairness.urgentWaiters

/-- One more frame of waiting for an update that was not successful. -/
def await (limit : ℕ) (tracked : List (E × ℕ) × Bool) (entity : E) : List (E × ℕ) × Bool :=
  match tracked.1.lookup entity with
  | some _ =>
    (tracked.1.map fun waiter =>
      if waiter.1=entity then (waiter.1,min (waiter.2+1) u32Max) else waiter,tracked.2)
  | none =>
    if tracked.1.length<limit then (tracked.1 ++ [(entity,1)],tracked.2)
    else (tracked.1,true)

def finishFrame (fairness : GpuUpdateFairness E) (active successful urgent : List E) :
    GpuUpdateFairness E :=
  let waitAges := fairness.waitAges.filter fun waiter=>waiter.1 ∈ active
  let urgentWaiters := fairness.urgentWaiters.filter (· ∈ active)
  let waitAges := waitAges.filter fun waiter=>waiter.1 ∉ successful
  let urgentWaiters := urgentWaiters.filter (· ∉ successful)
  let tracked := (active.filter (· ∉ successful)).foldl (await fairness.limit) (waitAges,false)
  let urgentWaiters := (urgent.filter (· ∉ successful)).foldl (fun urgentWaiters entity =>
    if (tracked.1.lookup entity).isSome then urgentWaiters.insert entity else urgentWaiters)
    urgentWaiters
  { fairness with
    waitAges := tracked.1
    urgentWaiters
    recoverUntracked := tracked.2
    priorityFrame := min (fairness.priorityFrame+1) u64Max }

end GpuUpdateFairness

structure GpuUpdateFrame (E : Type) where
  candidates : List (GpuUpdateCandidate E)
  allocations : E → Option ArenaAllocation
  camera : CameraBits
  activeTintIdentity : ChunkBiomeTintIdentity
  successful : List E
  urgent : List E

section Plan

variable {E : Type} [DecidableEq E] (distanceSquared : SubChunkKey → CameraBits → UInt32)

def waits (frame : GpuUpdateFrame E) (candidate : GpuUpdateCandidate E) : Bool :=
  chunkTintIdentityIsActive candidate.tintIdentity frame.activeTintIdentity &&
    !(frame.allocations candidate.entity).any fun allocation =>
      allocation.generation=candidate.generation && allocation.tintIdentity=candidate.tintIdentity

section

variable (fairness : GpuUpdateFairness E)

def planUpdate (frame : GpuUpdateFrame E) (cameraUnchanged : Bool)
    (order : RetainedUploadPriorities E (UploadOrder ℤ)) (candidate : GpuUpdateCandidate E) :
    RetainedUploadPriorities E (UploadOrder ℤ) :=
  if waits frame candidate then
    let cached := (order.priority candidate.entity).filter fun retained =>
      cameraUnchanged && retained.key=candidate.key
    let distance := match cached with
      | some retained => retained.distance
      | none => uploadDistanceKey (distanceSquared candidate.key frame.camera)
    let age := fairness.waitAge candidate.entity
    order.update candidate.entity ⟨isUrgent candidate.priority || fairness.isUrgent candidate.entity,
        birth fairness.priorityFrame age,gpuUpdateOverdueFrames≤age,distance,candidate.key⟩
  else order

/-- The waiting updates in their total order, from the retained buckets and distances. -/
def planUpdates (frame : GpuUpdateFrame E) :
    GpuUpdateFairness E × List E :=
  let cameraUnchanged : Bool := fairness.priorities.camera=some frame.camera
  let order := (frame.candidates.foldl (planUpdate distanceSquared fairness frame cameraUnchanged)
    fairness.priorities.order.begin).finish
  ({ fairness with priorities := ⟨some frame.camera,order⟩ },order.ordered)

/-- One frame: the waiters are planned, some of them examined, and the others age. -/
def GpuUpdateFairness.frame (frame : GpuUpdateFrame E) :
    GpuUpdateFairness E :=
  let planned := planUpdates distanceSquared fairness frame
  let examined := planned.1.examinationOrder planned.2
  examined.1.finishFrame planned.2 frame.successful frame.urgent

/-- The order of a waiter by its age, with nothing retained. -/
def scratchOrder (camera : CameraBits)
    (candidate : GpuUpdateCandidate E) : UploadOrder ℕᵒᵈ :=
  let age := fairness.waitAge candidate.entity
  ⟨isUrgent candidate.priority || fairness.isUrgent candidate.entity,
    OrderDual.toDual (if gpuUpdateStarvedFrames≤age then age else 0),
    gpuUpdateOverdueFrames≤age,uploadDistanceKey (distanceSquared candidate.key camera),
    candidate.key⟩

def scratchPlan (frame : GpuUpdateFrame E) : List E :=
  ((frame.candidates.filter (waits frame)).mergeSort fun a b =>
    scratchOrder distanceSquared fairness frame.camera a ≤
      scratchOrder distanceSquared fairness frame.camera b).map GpuUpdateCandidate.entity

end

end Plan

section Birth

variable {frame a b : ℕ}

lemma birth_le_iff (hframe : frame≤u64Max) (ha : a≤u32Max) (hb : b≤u32Max) :
    birth frame a≤birth frame b ↔ OrderDual.toDual (if gpuUpdateStarvedFrames≤a then a else 0) ≤
      OrderDual.toDual (if gpuUpdateStarvedFrames≤b then b else 0) := by
  rw [OrderDual.toDual_le_toDual]
  unfold birth gpuUpdateStarvedFrames i128Min i128Max
  unfold u32Max at *
  unfold u64Max at hframe
  split_ifs <;> omega

lemma birth_lt_iff (hframe : frame≤u64Max) (ha : a≤u32Max) (hb : b≤u32Max)
    (hstarved : gpuUpdateStarvedFrames≤a) : birth frame a<birth frame b ↔ b<a := by
  rw [← not_le,birth_le_iff hframe hb ha,OrderDual.toDual_le_toDual,if_pos hstarved,not_le]
  split
  · exact Iff.rfl
  · omega

end Birth

section Orders

variable {B C : Type} [LinearOrder B] [LinearOrder C]

lemma UploadOrder.le_congr {a a' : UploadOrder B} {b b' : UploadOrder C}
    (hle : a.birth≤a'.birth ↔ b.birth≤b'.birth) (hge : a'.birth≤a.birth ↔ b'.birth≤b.birth)
    (h : (a.urgent,a.overdue,a.distance,a.key) = (b.urgent,b.overdue,b.distance,b.key))
    (h' : (a'.urgent,a'.overdue,a'.distance,a'.key) =
      (b'.urgent,b'.overdue,b'.distance,b'.key)) : a≤a' ↔ b≤b' := by
  simp only [Prod.mk.injEq] at h h'
  have hlt : a.birth<a'.birth ↔ b.birth<b'.birth := by rw [lt_iff_le_not_ge,lt_iff_le_not_ge,hle,hge]
  have heq : a.birth=a'.birth ↔ b.birth=b'.birth := by rw [le_antisymm_iff,le_antisymm_iff,hle,hge]
  rw [UploadOrder.le_iff,UploadOrder.le_iff,hlt,heq,h.1,h.2.1,h.2.2.1,h.2.2.2,h'.1,h'.2.1, h'.2.2.1,h'.2.2.2]

end Orders

section Examination

variable {E : Type} {fairness : GpuUpdateFairness E} {selected : List E}

lemma examinationOrder_short (h : selected.length ≤ maximumFrameItems) :
    (fairness.examinationOrder selected).2=selected := by
  simp [GpuUpdateFairness.examinationOrder,take_of_length_le h,drop_of_length_le h]

lemma length_examinationOrder : (fairness.examinationOrder selected).2.length = min maximumFrameItems selected.length +
      min (selected.length-maximumFrameItems) maximumFrameItems := by
  simp only [GpuUpdateFairness.examinationOrder,length_append,length_take, length_drop]
  omega

/-- The examined updates are the first of the selected ones, then a turn of the others. -/
lemma examinationOrder_eq : ∃ start, (fairness.examinationOrder selected).2=selected.take maximumFrameItems ++
      ((selected.drop maximumFrameItems).rotate start).take maximumFrameItems := by
  refine ⟨fairness.examinationCursor % max (selected.drop maximumFrameItems).length 1,?_⟩
  unfold GpuUpdateFairness.examinationOrder
  dsimp only
  congr 1
  generalize selected.drop maximumFrameItems=tail
  generalize hstart : fairness.examinationCursor % max tail.length 1=start
  have hlt : start≤tail.length := by
    have hmod : start < max tail.length 1 := by
      rw [← hstart]
      exact Nat.mod_lt _ (by omega)
    omega
  rw [rotate_eq_drop_append_take hlt,take_eq_take_iff]
  simp
  omega

end Examination

section Bounds

variable {E : Type} [DecidableEq E] {fairness : GpuUpdateFairness E}

/-- Ages and frames stay in their words. -/
structure Bounded (fairness : GpuUpdateFairness E) : Prop where
  waitAges : ∀ waiter ∈ fairness.waitAges, waiter.2≤u32Max
  priorityFrame : fairness.priorityFrame≤u64Max

lemma Bounded.waitAge (h : Bounded fairness) (entity : E) : fairness.waitAge entity≤u32Max := by
  unfold GpuUpdateFairness.waitAge
  cases hage : fairness.waitAges.lookup entity with
  | none => exact Nat.zero_le _
  | some age =>
    obtain ⟨before,after,hsplit,-⟩ := lookup_eq_some_iff.1 hage
    exact h.waitAges (entity,age) (hsplit ▸ mem_append_right _ (.head _))

omit [DecidableEq E] in
lemma Bounded.of_eq {other : GpuUpdateFairness E} (h : Bounded fairness) (hages : other.waitAges=fairness.waitAges)
    (hframe : other.priorityFrame=fairness.priorityFrame) : Bounded other :=
  ⟨hages ▸ h.waitAges,hframe ▸ h.priorityFrame⟩

lemma await_bounded {limit : ℕ} {tracked : List (E × ℕ) × Bool} {entity : E}
    (h : ∀ waiter ∈ tracked.1, waiter.2≤u32Max) :
    ∀ waiter ∈ (GpuUpdateFairness.await limit tracked entity).1, waiter.2≤u32Max := by
  unfold GpuUpdateFairness.await
  split
  · intro waiter hmem
    obtain ⟨other,hother,rfl⟩ := mem_map.1 hmem
    split
    · exact min_le_right _ _
    · exact h other hother
  · split
    · intro waiter hmem
      rcases mem_append.1 hmem with hmem | hmem
      · exact h waiter hmem
      · rw [mem_singleton.1 hmem]
        exact Nat.succ_le_succ (Nat.zero_le _)
    · exact h

lemma Bounded.finishFrame (h : Bounded fairness) (active successful urgent : List E) :
    Bounded (fairness.finishFrame active successful urgent) where
  waitAges := by
    unfold GpuUpdateFairness.finishFrame
    refine List.foldlRecOn (motive := fun tracked : List (E × ℕ) × Bool =>
      ∀ waiter ∈ tracked.1, waiter.2≤u32Max)
      (active.filter (· ∉ successful)) _ ?_ fun tracked htracked entity _=>await_bounded htracked
    intro waiter hmem
    exact h.waitAges waiter (mem_filter.1 (mem_filter.1 hmem).1).1
  priorityFrame := min_le_right _ _

omit [DecidableEq E] in
lemma bounded_withLimit (limit : ℕ) : Bounded (GpuUpdateFairness.withLimit limit : GpuUpdateFairness E) where
  waitAges := by simp [GpuUpdateFairness.withLimit]
  priorityFrame := Nat.zero_le _

end Bounds

section Retention

variable {E : Type} [DecidableEq E] {distanceSquared : SubChunkKey → CameraBits → UInt32}
  {fairness : GpuUpdateFairness E} {frame : GpuUpdateFrame E}

def uploadOrder (distanceSquared : SubChunkKey → CameraBits → UInt32)
    (fairness : GpuUpdateFairness E) (camera : CameraBits) (candidate : GpuUpdateCandidate E) :
    UploadOrder ℤ :=
  ⟨isUrgent candidate.priority || fairness.isUrgent candidate.entity,
    birth fairness.priorityFrame (fairness.waitAge candidate.entity),
    gpuUpdateOverdueFrames≤fairness.waitAge candidate.entity,
    uploadDistanceKey (distanceSquared candidate.key camera),candidate.key⟩

def Measured (distanceSquared : SubChunkKey → CameraBits → UInt32) (camera : CameraBits)
    (order : RetainedUploadPriorities E (UploadOrder ℤ)) : Prop :=
  ∀ entry ∈ order.entries, entry.2.priority.distance=uploadDistanceKey (distanceSquared entry.2.priority.key camera)

variable {order : RetainedUploadPriorities E (UploadOrder ℤ)} {candidate : GpuUpdateCandidate E}

lemma planUpdate_eq {unchanged : Bool} (hwaits : waits frame candidate)
    (h : unchanged=true → Measured distanceSquared frame.camera order) :
    planUpdate distanceSquared fairness frame unchanged order candidate =
      order.update candidate.entity (uploadOrder distanceSquared fairness frame.camera candidate) := by
  unfold planUpdate
  rw [if_pos hwaits]
  dsimp only
  congr 2
  split
  · rename_i retained hcached
    obtain ⟨hretained,hkey⟩ := Option.filter_eq_some_iff.1 hcached
    rw [Bool.and_eq_true,decide_eq_true_eq] at hkey
    obtain ⟨value,hvalue,rfl⟩ := Option.map_eq_some_iff.1 hretained
    rw [h hkey.1 _ (find_mem hvalue),hkey.2]
  · rfl

lemma Measured.update {camera : CameraBits} (h : Measured distanceSquared camera order) :
    Measured distanceSquared camera
      (order.update candidate.entity (uploadOrder distanceSquared fairness camera candidate)) := by
  intro entry hmem
  rcases mem_update hmem with heq | hold
  · rw [heq]
    rfl
  · exact h entry hold

def waiters (distanceSquared : SubChunkKey → CameraBits → UInt32) (fairness : GpuUpdateFairness E)
    (frame : GpuUpdateFrame E) : List (E × UploadOrder ℤ) :=
  (frame.candidates.filter (waits frame)).map fun candidate =>
    (candidate.entity,uploadOrder distanceSquared fairness frame.camera candidate)

lemma foldl_planUpdate {candidates : List (GpuUpdateCandidate E)} {unchanged : Bool}
    (h : unchanged=true → Measured distanceSquared frame.camera order) :
    candidates.foldl (planUpdate distanceSquared fairness frame unchanged) order =
      order.mark ((candidates.filter (waits frame)).map fun candidate =>
        (candidate.entity,uploadOrder distanceSquared fairness frame.camera candidate)) := by
  induction candidates generalizing order with
  | nil => rfl
  | cons candidate candidates ih =>
    rw [foldl_cons]
    cases hwaits : waits frame candidate with
    | false =>
      have hskip : planUpdate distanceSquared fairness frame unchanged order candidate=order := by
        simp [planUpdate,hwaits]
      rw [hskip,ih h,filter_cons_of_neg (by simp [hwaits])]
    | true =>
      rw [planUpdate_eq hwaits h,ih fun hunchanged=>(h hunchanged).update, filter_cons_of_pos hwaits]
      rfl

/-- What frames leave for the next: settled buckets, with the distances of the last camera. -/
structure Retains (distanceSquared : SubChunkKey → CameraBits → UInt32)
    (fairness : GpuUpdateFairness E) : Prop where
  settled : Settled fairness.priorities.order
  measured : ∀ camera, fairness.priorities.camera=some camera →
    Measured distanceSquared camera fairness.priorities.order
  bounded : Bounded fairness

omit [DecidableEq E] in
lemma retains_withLimit (limit : ℕ) :
    Retains distanceSquared (GpuUpdateFairness.withLimit limit : GpuUpdateFairness E) where
  settled := settled_default
  measured := by
    intro camera hcamera
    cases hcamera
  bounded := bounded_withLimit limit

lemma Retains.planUpdates_eq (h : Retains distanceSquared fairness) : planUpdates distanceSquared fairness frame =
      ({ fairness with priorities :=
        ⟨some frame.camera,fairness.priorities.order.frame (waiters distanceSquared fairness frame)⟩ },
        (fairness.priorities.order.frame (waiters distanceSquared fairness frame)).ordered) := by
  unfold planUpdates
  dsimp only
  rw [foldl_planUpdate]
  · rfl
  · intro hunchanged
    exact h.measured _ (of_decide_eq_true hunchanged)

lemma nodup_waiters (hdistinct : (frame.candidates.map GpuUpdateCandidate.entity).Nodup) :
    ((waiters distanceSquared fairness frame).map Prod.fst).Nodup := by
  rw [waiters,map_map]
  exact hdistinct.sublist (filter_sublist.map _)

lemma Retains.plan_eq (h : Retains distanceSquared fairness)
    (hdistinct : (frame.candidates.map GpuUpdateCandidate.entity).Nodup) :
    (planUpdates distanceSquared fairness frame).2=scratchPlan distanceSquared fairness frame := by
  rw [h.planUpdates_eq]
  rw [h.settled.ordered_frame (nodup_waiters hdistinct),scratchPlan,waiters,
    ← map_mergeSort (r := fun a b=>scratchOrder distanceSquared fairness frame.camera a ≤
      scratchOrder distanceSquared fairness frame.camera b),map_map]
  · rfl
  · intro a _ b _
    have hbirth := fun a b : GpuUpdateCandidate E=>birth_le_iff h.bounded.priorityFrame
      (h.bounded.waitAge a.entity) (h.bounded.waitAge b.entity)
    exact decide_eq_decide.2 (UploadOrder.le_congr (hbirth a b).symm (hbirth b a).symm rfl rfl)

lemma Retains.after (h : Retains distanceSquared fairness)
    (hdistinct : (frame.candidates.map GpuUpdateCandidate.entity).Nodup) :
    Retains distanceSquared (fairness.frame distanceSquared frame) := by
  unfold GpuUpdateFairness.frame
  rw [h.planUpdates_eq]
  refine ⟨h.settled.frame (nodup_waiters hdistinct),fun camera hcamera entry hmem=>?_,
    Bounded.finishFrame (h.bounded.of_eq ?_ ?_) _ _ _⟩
  case refine_2 | refine_3 => rfl
  obtain ⟨candidate,-,heq⟩ := mem_map.1 (h.settled.mem_frame (nodup_waiters hdistinct) hmem)
  have hpriority : uploadOrder distanceSquared fairness frame.camera candidate=entry.2.priority := congrArg Prod.snd heq
  rw [← hpriority,← Option.some.inj hcamera]
  rfl

lemma retains_frames (limit : ℕ) (frames : List (GpuUpdateFrame E))
    (hdistinct : ∀ frame ∈ frames, (frame.candidates.map GpuUpdateCandidate.entity).Nodup) :
    Retains distanceSquared (frames.foldl (GpuUpdateFairness.frame distanceSquared)
      (GpuUpdateFairness.withLimit limit)) := by
  induction frames using List.reverseRecOn with
  | nil => exact retains_withLimit limit
  | append_singleton frames frame ih =>
    rw [foldl_append]
    exact (ih fun other hmem=>hdistinct other (mem_append_left _ hmem)).after
      (hdistinct frame (mem_append_right _ (.head _)))

end Retention

/-- A frame of waiters at distinct sub-chunks. -/
def crowd (count : ℕ) : GpuUpdateFrame ℕ where
  candidates := (List.range count).map fun i=>⟨i,⟨0,i,0,0⟩,1,⟨0,0⟩,0⟩
  allocations := fun _=>none
  camera := (0,0,0)
  activeTintIdentity := ⟨0,0⟩
  successful := []
  urgent := []

lemma crowd_distinct (count : ℕ) : ((crowd count).candidates.map GpuUpdateCandidate.entity).Nodup := by
  have hentities : (crowd count).candidates.map GpuUpdateCandidate.entity=List.range count := by
    simp [crowd,Function.comp_def]
  rw [hentities]
  exact nodup_range

section

variable (distanceSquared : SubChunkKey → CameraBits → UInt32)
include distanceSquared

lemma length_scratchPlan_crowd (fairness : GpuUpdateFairness ℕ) (count : ℕ) :
    (scratchPlan distanceSquared fairness (crowd count)).length=count := by
  have hwaits : (crowd count).candidates.filter (waits (crowd count)) = (crowd count).candidates := by
    refine filter_eq_self.2 fun candidate hmem=>?_
    obtain ⟨i,-,rfl⟩ := mem_map.1 hmem
    rfl
  rw [scratchPlan,hwaits,length_map,length_mergeSort]
  simp [crowd]

lemma length_examination_crowd (count : ℕ) :
    let planned := planUpdates distanceSquared GpuUpdateFairness.default (crowd count)
    (planned.1.examinationOrder planned.2).2.length =
      min maximumFrameItems count+min (count-maximumFrameItems) maximumFrameItems := by
  dsimp only
  have hretains : Retains distanceSquared (GpuUpdateFairness.default : GpuUpdateFairness ℕ) :=
    retains_withLimit maxGpuUpdateFairnessEntries
  rw [length_examinationOrder,hretains.plan_eq (crowd_distinct count),length_scratchPlan_crowd]

lemma crowd_unsorted {count : ℕ} (hcount : 2*maximumFrameItems < count) :
    let planned := planUpdates distanceSquared GpuUpdateFairness.default (crowd count)
    (planned.1.examinationOrder planned.2).2 ≠
      scratchPlan distanceSquared GpuUpdateFairness.default (crowd count) := by
  intro planned hexamined
  have hlength := congrArg List.length hexamined
  rw [length_scratchPlan_crowd,length_examination_crowd] at hlength
  omega

end

/-- More waiters than two frames hold are not all examined, so not in the sorted order. -/
theorem examination_leaves_waiters : ¬ ∀ (distanceSquared : SubChunkKey → CameraBits → UInt32)
    (frames : List (GpuUpdateFrame ℕ)) (frame : GpuUpdateFrame ℕ),
    (∀ other ∈ frames ++ [frame], (other.candidates.map GpuUpdateCandidate.entity).Nodup) →
    let fairness := frames.foldl (GpuUpdateFairness.frame distanceSquared) GpuUpdateFairness.default
    let planned := planUpdates distanceSquared fairness frame
    (planned.1.examinationOrder planned.2).2 = scratchPlan distanceSquared fairness frame := by
  intro h
  have hfirst : ∀ frame : GpuUpdateFrame ℕ, (frame.candidates.map GpuUpdateCandidate.entity).Nodup →
      ((planUpdates (fun _ _=>0) GpuUpdateFairness.default frame).1.examinationOrder
        (planUpdates (fun _ _=>0) GpuUpdateFairness.default frame).2).2 =
          scratchPlan (fun _ _=>0) GpuUpdateFairness.default frame := by
    intro frame hframe
    refine h (fun _ _=>0) [] frame fun other hmem => ?_
    have heq : other=frame := mem_singleton.1 hmem
    rwa [heq]
  exact crowd_unsorted _ (by decide) (hfirst (crowd 1025) (crowd_distinct 1025))

/-- Retained priorities come out as the last frame sorted stably, and the plan of a frame as its
waiters sorted from scratch; the first waiters are examined in that order, then a turn of the
others. -/
theorem upload_order_is_sorting :
    (∀ (I P : Type) [DecidableEq I] [LinearOrder P] (frames : List (List (I × P))) (updates : List (I × P)),
      (∀ other ∈ frames ++ [updates], (other.map Prod.fst).Nodup) →
      ((frames ++ [updates]).foldl RetainedUploadPriorities.frame
        (RetainedUploadPriorities.default : RetainedUploadPriorities I P)).ordered =
          (updates.mergeSort fun a b => a.2 ≤ b.2).map Prod.fst) ∧
    ∀ (E : Type) [DecidableEq E] (distanceSquared : SubChunkKey → CameraBits → UInt32) (limit : ℕ)
      (frames : List (GpuUpdateFrame E)) (frame : GpuUpdateFrame E),
      (∀ other ∈ frames ++ [frame], (other.candidates.map GpuUpdateCandidate.entity).Nodup) →
      let fairness := frames.foldl (GpuUpdateFairness.frame distanceSquared) (GpuUpdateFairness.withLimit limit)
      let planned := planUpdates distanceSquared fairness frame
      let sorted := scratchPlan distanceSquared fairness frame
      let examined := (planned.1.examinationOrder planned.2).2
      (∀ a b, gpuUpdateStarvedFrames ≤ fairness.waitAge a → (birth fairness.priorityFrame (fairness.waitAge a) <
          birth fairness.priorityFrame (fairness.waitAge b) ↔ fairness.waitAge b < fairness.waitAge a)) ∧
      planned.2=sorted ∧
      (∃ start, examined = sorted.take maximumFrameItems ++
        ((sorted.drop maximumFrameItems).rotate start).take maximumFrameItems) ∧
      (sorted.length ≤ maximumFrameItems → examined=sorted) := by
  refine ⟨fun I P _ _ frames updates hdistinct => ?_, fun E _ distanceSquared limit frames frame hdistinct => ?_⟩
  · rw [foldl_append]
    exact (settled_frames frames fun other hmem =>
      hdistinct other (mem_append_left _ hmem)).ordered_frame (hdistinct updates (mem_append_right _ (.head _)))
  · intro fairness planned sorted examined
    have hretains : Retains distanceSquared fairness := retains_frames limit frames fun other hmem =>
      hdistinct other (mem_append_left _ hmem)
    have hplan : planned.2=sorted := hretains.plan_eq (hdistinct frame (mem_append_right _ (.head _)))
    refine ⟨fun a b hstarved => ?_,hplan,?_,fun hshort => ?_⟩
    · exact birth_lt_iff hretains.bounded.priorityFrame (hretains.bounded.waitAge a)
        (hretains.bounded.waitAge b) hstarved
    · rw [← hplan]
      exact examinationOrder_eq
    · rw [← hplan] at hshort ⊢
      exact examinationOrder_short hshort

/-- An identity moves, one leaves and one comes, and the ties keep the order of the last frame. -/
theorem upload_order_is_sorting_small : ([[(1,5),(2,3)],[(2,7),(1,7),(3,1)]].foldl RetainedUploadPriorities.frame
      (RetainedUploadPriorities.default : RetainedUploadPriorities ℕ ℕ)).ordered = [3,2,1] ∧
    (planUpdates (fun _ _=>0) (GpuUpdateFairness.withLimit 1) (crowd 2)).2 =
      scratchPlan (fun _ _=>0) (GpuUpdateFairness.withLimit 1) (crowd 2) := by
  refine ⟨?_,?_⟩
  · have hsorted := upload_order_is_sorting.1 ℕ ℕ [[(1,5),(2,3)]] [(2,7),(1,7),(3,1)] (by decide)
    rw [singleton_append] at hsorted
    rw [hsorted]
    simp [List.mergeSort]
  · refine (upload_order_is_sorting.2 ℕ (fun _ _=>0) 1 [] (crowd 2) fun frame hmem => ?_).2.1
    have heq : frame = crowd 2 := mem_singleton.1 hmem
    rw [heq]
    exact crowd_distinct 2

end Cinnabar.Uploads
