import Cinnabar.Keys
import Cinnabar.Library.Patches

/-! # Writes of an arena stream and its growth -/

namespace Cinnabar.Uploads

open List Function

abbrev Write : Type := ℕ × Patch UInt8

/-- A command of a submission: a staged write, or a copy between buffers. -/
inductive Command where
  | upload (write : Write)
  | copyBuffer (source target offset size : ℕ)

/-- The device queue: `content` is what the next submission finds in a buffer. -/
structure Device (M : Type) where
  live : M → ℕ → Prop
  content : M → ℕ → ℕ → UInt8
  writeBuffer : Write → M → M
  submit : List Command → M → M
  createBuffer : M → Option (ℕ × M)

def putWrite (write : Write) (contents : ℕ → ℕ → UInt8) : ℕ → ℕ → UInt8 :=
  update contents write.1 (write.2.apply (contents write.1))

def putWrites (writes : List Write) (contents : ℕ → ℕ → UInt8) : ℕ → ℕ → UInt8 :=
  writes.foldl (fun contents write=>putWrite write contents) contents

def Command.run (contents : ℕ → ℕ → UInt8) : Command → ℕ → ℕ → UInt8
  | .upload write => putWrite write contents
  | .copyBuffer source target offset size =>
    update contents target fun x =>
      if offset≤x ∧ x<offset+size then contents source x else contents target x

/-- The documented order of a device queue: the next submission finds what was queued before it,
the commands of a submission run in order, and a new buffer is another buffer, of zeros. -/
structure Device.Ordered {M : Type} (device : Device M) : Prop where
  writeBuffer : ∀ write m, device.content (device.writeBuffer write m) = putWrite write (device.content m)
  submit : ∀ commands m, device.content (device.submit commands m) = commands.foldl Command.run (device.content m)
  createBuffer : ∀ m buffer m', device.createBuffer m=some (buffer,m') → ¬device.live m buffer ∧ device.live m' buffer ∧
      device.content m'=update (device.content m) buffer fun _=>0
  live_writeBuffer : ∀ write m buffer, device.live m buffer → device.live (device.writeBuffer write m) buffer
  live_submit : ∀ commands m buffer, device.live m buffer → device.live (device.submit commands m) buffer
  live_createBuffer : ∀ m buffer m' other, device.createBuffer m=some (buffer,m') →
    device.live m other → device.live m' other

section Growth

structure ArenaGrowthPlan where
  newCapacity : ℕ
  gpuCopyBytes : ℕ
deriving DecidableEq

def saturatingMul (a b : ℕ) : ℕ := min (a*b) usizeMax

/-- `checked_next_power_of_two`, at least one. -/
def nextPowerOfTwo (n : ℕ) : Option ℕ :=
  let power := 2^Nat.clog 2 n
  if power≤usizeMax then some power else none

def roundArenaCapacity (items maxItems : ℕ) : ℕ :=
  let granule := max (((nextPowerOfTwo items).getD maxItems) / 8) 1
  min (saturatingMul ((items+granule-1) / granule) granule) maxItems

def bufferByteLen (itemCount itemBytes : ℕ) : ℕ := saturatingMul itemCount itemBytes

/-- Growth to what is required, at least a quarter more than there was; `none` is an error. -/
def planArenaGrowth (currentCapacity requiredLen itemBytes maxItems : ℕ) :
    Option (Option ArenaGrowthPlan) :=
  if maxItems < requiredLen then none
  else if requiredLen ≤ currentCapacity then some none
  else
    let wanted := max requiredLen (min (currentCapacity+currentCapacity/4) usizeMax)
    some (some ⟨roundArenaCapacity wanted maxItems,bufferByteLen currentCapacity itemBytes⟩)

/-- A backlog-sized replacement, of which only the prefix in use is copied. -/
def backlogGrowth (used wanted itemBytes limit : ℕ) (minimum : ArenaGrowthPlan) : ArenaGrowthPlan :=
  ⟨roundArenaCapacity (max wanted minimum.newCapacity) limit, min (bufferByteLen used itemBytes) minimum.gpuCopyBytes⟩

end Growth

section Parts

inductive ArenaStream where
  | quads
  | origins
  | geometryStreams
  | biomes
deriving DecidableEq

def ArenaStream.itemBytes : ArenaStream → ℕ
  | .quads => 8
  | .origins => 32
  | .geometryStreams => 4
  | .biomes => 4

/-- The parts of a chunk, in the order in which overlapping writes are kept. -/
inductive Part where
  | quads
  | origins
  | model
  | modelLighting
  | modelDraw
  | transparentModelDraw
  | liquid
  | liquidLighting
  | cubeLighting
  | biome
deriving DecidableEq

def Part.destination : Part → ArenaStream
  | .quads => .quads
  | .origins => .origins
  | .biome => .biomes
  | .model | .modelLighting | .modelDraw | .transparentModelDraw | .liquid | .liquidLighting
  | .cubeLighting => .geometryStreams

def Part.order : Part → ℕ
  | .quads => 0
  | .origins => 1
  | .model => 2
  | .modelLighting => 3
  | .modelDraw => 4
  | .transparentModelDraw => 5
  | .liquid => 6
  | .liquidLighting => 7
  | .cubeLighting => 8
  | .biome => 9

structure PartWrite where
  part : Part
  patch : Patch UInt8

def PartWrite.push (part : Part) (offset : ℕ) (payload : List UInt8) (writes : List PartWrite) :
    List PartWrite :=
  if payload.isEmpty then writes
  else writes ++ [⟨part,offset*part.destination.itemBytes,payload⟩]

def byAddress (writes : List PartWrite) : List PartWrite :=
  writes.mergeSort fun a b=>a.patch.offset≤b.patch.offset

def byPart (writes : List PartWrite) : List PartWrite :=
  writes.mergeSort fun a b=>a.part.order≤b.part.order

/-- Whether a write goes past the start of the next. -/
def overlapping : List PartWrite → Bool
  | a::b::writes => (b.patch.offset<a.patch.stop) || overlapping (b::writes)
  | _ => false

end Parts

section Merging

/-- The writes that continue from an offset, and the others. -/
def takeRun (next : ℕ) : List Write → List Write × List Write
  | [] => ([],[])
  | write::writes =>
    if write.2.offset=next then
      let run := takeRun (next+write.2.bytes.length) writes
      (write::run.1,run.2)
    else ([],write::writes)

lemma length_takeRun (next : ℕ) (writes : List Write) : (takeRun next writes).2.length≤writes.length := by
  induction writes generalizing next with
  | nil => exact le_rfl
  | cons write writes ih =>
    rw [takeRun]
    split
    · exact (ih _).trans (Nat.le_succ _)
    · exact le_rfl

def mergeRun (first : Write) (run : List Write) : List Write :=
  if run.isEmpty then [first]
  else
    let bytes := ((first::run).map fun write=>write.2.bytes).flatten
    if bytes.isEmpty then [] else [(first.1,⟨first.2.offset,bytes⟩)]

def mergeAbutting : List Write → List Write
  | [] => []
  | write::writes =>
    let run := takeRun write.2.stop writes
    mergeRun write run.1++mergeAbutting run.2
  termination_by writes => writes.length
  decreasing_by exact Nat.lt_succ_of_le (length_takeRun _ _)

def queueMerged (overlapping : Bool) (writes : List Write) : List Write :=
  if overlapping then writes else mergeAbutting writes

end Merging

section Staging

variable {M : Type} (device : Device M)

/-- The device and the staged writes whose copies are not yet encoded. -/
structure TerrainUploads (M : Type) where
  device : M
  copies : List Write

/-- Whether writes would run before an older staged write of the same bytes. -/
def overlaps (copies writes : List Write) : Bool :=
  copies.any fun copy =>
    (writes.filter fun write=>!write.2.bytes.isEmpty).any fun write =>
      write.1=copy.1 && write.2.offset < copy.2.stop && copy.2.offset<write.2.stop

def flush (uploads : TerrainUploads M) : TerrainUploads M :=
  ⟨device.submit (uploads.copies.map Command.upload) uploads.device,[]⟩

def queueWrites (writes : List Write) (uploads : TerrainUploads M) : TerrainUploads M :=
  { uploads with device := writes.foldl (fun m write=>device.writeBuffer write m) uploads.device }

/-- How far the pool has room for a batch: for all of it, or up to some bytes of one write. -/
abbrev Room : Type := Option (ℕ × ℕ)

def writeBatch (staging : Bool) (room : Room) (queue : List Write → List Write)
    (writes : List Write) (uploads : TerrainUploads M) : TerrainUploads M :=
  if staging then
    match room.bind fun room=>(writes[room.1]?).map fun write=>(room,write) with
    | none => { uploads with copies := uploads.copies++writes }
    | some ((index,staged),write) =>
      let part : Write := (write.1,⟨write.2.offset,write.2.bytes.take staged⟩)
      let rest : List Write := (write.1,⟨write.2.offset+staged,write.2.bytes.drop staged⟩) ::
        (writes.drop (index+1)).filter fun write=>!write.2.bytes.isEmpty
      let staged : TerrainUploads M := { uploads with copies := uploads.copies++writes.take index ++ [part] }
      let uploads := if overlaps staged.copies rest then flush device staged else staged
      queueWrites device (queue rest) uploads
  else queueWrites device (queue writes) uploads

end Staging

section Arena

/-- A replacement buffer, copied across frames until it is swapped in. -/
structure ArenaMigration where
  buffer : ℕ
  newCapacity : ℕ
  copyBytes : ℕ
  copiedBytes : ℕ

structure Arena (M : Type) where
  uploads : TerrainUploads M
  stream : ArenaStream
  staging : Bool
  buffer : ℕ
  capacity : ℕ
  migration : Option ArenaMigration

variable {M : Type} (device : Device M)

def writeMerged (room : Room) (overlapping : Bool) (writes : List PartWrite) (buffer : ℕ)
    (arena : Arena M) : Arena M :=
  let batch : List Write := writes.map fun write=>(buffer,write.patch)
  { arena with
    uploads := writeBatch device arena.staging room (queueMerged overlapping) batch arena.uploads }

def issueOrder (writes : List PartWrite) : List PartWrite :=
  if overlapping (byAddress writes) then byPart writes else byAddress writes

def issue (mirrorRoom room : Room) (writes : List PartWrite) (arena : Arena M) : Arena M :=
  let writes := writes.filter fun write=>write.part.destination=arena.stream
  if writes.isEmpty then arena
  else
    let overlapped := overlapping (byAddress writes)
    let writes := issueOrder writes
    let arena := match arena.migration with
      | some migration => writeMerged device mirrorRoom overlapped writes migration.buffer arena
      | none => arena
    writeMerged device room overlapped writes arena.buffer arena

def mirroredWords (patch : Patch UInt8) (arena : Arena M) : List Write :=
  (arena.buffer,patch) :: arena.migration.toList.map fun migration=>(migration.buffer,patch)

def writeGeometryStreamWords (room : Room) (patch : Patch UInt8) (arena : Arena M) : Arena M :=
  { arena with
    uploads := writeBatch device arena.staging room id (mirroredWords patch arena) arena.uploads }

def beginArenaMigration (growth : ArenaGrowthPlan) (arena : Arena M) : Arena M :=
  match device.createBuffer arena.uploads.device with
  | none => arena
  | some (buffer,m) =>
    { arena with
      uploads := { arena.uploads with device := m }
      migration := some ⟨buffer,growth.newCapacity,growth.gpuCopyBytes,0⟩ }

def grow (used wanted requiredLen maxItems : ℕ) (arena : Arena M) : Arena M :=
  match arena.migration, planArenaGrowth arena.capacity requiredLen arena.stream.itemBytes maxItems with
  | none, some (some growth) =>
    beginArenaMigration device (backlogGrowth used wanted arena.stream.itemBytes maxItems growth) arena
  | _, _ => arena

/-- Copies at most an allowance of a replacement, and swaps the buffers once it is complete. -/
def advanceArenaMigration (allowance : ℕ) (arena : Arena M) : Arena M :=
  match arena.migration with
  | none => arena
  | some migration =>
    let slice := min (migration.copyBytes-migration.copiedBytes) (allowance/4*4)
    let uploads : TerrainUploads M := if 0 < slice then
        ⟨device.submit (arena.uploads.copies.map Command.upload ++
          [.copyBuffer arena.buffer migration.buffer migration.copiedBytes slice])
          arena.uploads.device,[]⟩
      else arena.uploads
    let copied := migration.copiedBytes+slice
    if copied=migration.copyBytes then
      { arena with
        uploads, buffer := migration.buffer, capacity := migration.newCapacity, migration := none }
    else { arena with uploads, migration := some { migration with copiedBytes := copied } }

end Arena

section Effects

variable {contents : ℕ → ℕ → UInt8} {writes more : List Write}

lemma putWrites_append : putWrites (writes++more) contents = putWrites more (putWrites writes contents) := foldl_append

def patchesOf (buffer : ℕ) (writes : List Write) : List (Patch UInt8) :=
  (writes.filter fun write=>write.1=buffer).map Prod.snd

lemma putWrites_eq (buffer : ℕ) :
    putWrites writes contents buffer=applyAll (patchesOf buffer writes) (contents buffer) := by
  induction writes generalizing contents with
  | nil => rfl
  | cons write writes ih =>
    rw [putWrites,foldl_cons,← putWrites,ih,putWrite]
    by_cases heq : write.1=buffer
    · subst heq
      rw [update_self,patchesOf,patchesOf,filter_cons_of_pos (by simp)]
      rfl
    · rw [update_of_ne (Ne.symm heq),patchesOf,patchesOf, filter_cons_of_neg (by simpa using heq)]

lemma putWrite_comm {a b : Write} (h : a.1=b.1 → a.2.Disjoint b.2) :
    putWrite a (putWrite b contents) = putWrite b (putWrite a contents) := by
  unfold putWrite
  by_cases heq : a.1=b.1
  · rw [heq,update_self,update_self,update_idem,update_idem, Patch.apply_comm (h heq)]
  · rw [update_of_ne heq,update_of_ne (Ne.symm heq),update_comm heq]

lemma putWrites_putWrite_comm {a : Write} (h : ∀ b ∈ writes, a.1=b.1 → a.2.Disjoint b.2) :
    putWrites writes (putWrite a contents) = putWrite a (putWrites writes contents) := by
  induction writes generalizing contents with
  | nil => rfl
  | cons b writes ih =>
    change putWrites writes (putWrite b (putWrite a contents)) = putWrite a (putWrites writes (putWrite b contents))
    rw [← putWrite_comm (h b (.head _)),ih fun c hc=>h c (.tail _ hc)]

lemma putWrites_comm (h : ∀ a ∈ writes, ∀ b ∈ more, a.1=b.1 → a.2.Disjoint b.2) :
    putWrites writes (putWrites more contents) = putWrites more (putWrites writes contents) := by
  induction writes generalizing contents with
  | nil => rfl
  | cons a writes ih =>
    change putWrites writes (putWrite a (putWrites more contents)) =
      putWrites more (putWrites writes (putWrite a contents))
    rw [← putWrites_putWrite_comm (h a (.head _)), ih fun b hb=>h b (.tail _ hb)]

lemma putWrite_nil {buffer offset : ℕ} : putWrite (buffer,⟨offset,[]⟩) contents=contents := by
  unfold putWrite
  rw [Patch.apply_nil,update_eq_self]

lemma putWrites_filter_nonempty : putWrites (writes.filter fun write=>!write.2.bytes.isEmpty) contents =
      putWrites writes contents := by
  induction writes generalizing contents with
  | nil => rfl
  | cons write writes ih =>
    rw [filter_cons]
    split
    · exact ih
    · rename_i hempty
      obtain ⟨buffer,offset,bytes⟩ := write
      have hnil : bytes = [] := by simpa using hempty
      subst hnil
      rw [ih,putWrites,putWrites,foldl_cons,putWrite_nil]

end Effects

section Merged

variable {contents : ℕ → ℕ → UInt8} {buffer : ℕ}

lemma takeRun_append (next : ℕ) (writes : List Write) : (takeRun next writes).1 ++ (takeRun next writes).2=writes := by
  induction writes generalizing next with
  | nil => rfl
  | cons write writes ih =>
    rw [takeRun]
    split
    · exact congrArg (write :: ·) (ih _)
    · rfl

section

variable {writes : List Write}

lemma putWrite_run (offset : ℕ) (bytes : List UInt8) (h : ∀ write ∈ writes, write.1=buffer) :
    putWrite (buffer,⟨offset,bytes ++
        ((takeRun (offset+bytes.length) writes).1.map fun write=>write.2.bytes).flatten⟩) contents =
      putWrites (takeRun (offset+bytes.length) writes).1
        (putWrite (buffer,⟨offset,bytes⟩) contents) := by
  induction writes generalizing bytes with
  | nil => simp [takeRun,putWrites]
  | cons write writes ih =>
    rw [takeRun]
    split
    · rename_i hnext
      obtain ⟨target,start,more⟩ := write
      have htarget : target=buffer := h _ (.head _)
      subst hnext htarget
      have hrest := ih (bytes++more) fun write hmem=>h write (.tail _ hmem)
      rw [length_append,← Nat.add_assoc,append_assoc] at hrest
      have hjoin : putWrite (target,⟨offset,bytes++more⟩) contents=putWrite (target,⟨offset+bytes.length,more⟩)
            (putWrite (target,⟨offset,bytes⟩) contents) := by
        unfold putWrite
        rw [Patch.apply_append,update_self,update_idem]
      rw [hjoin] at hrest
      exact hrest
    · simp [putWrites]

lemma putWrites_mergeRun {first : Write} (h : ∀ write ∈ first::writes, write.1=buffer) :
    putWrites (mergeRun first (takeRun first.2.stop writes).1) contents =
      putWrites (takeRun first.2.stop writes).1 (putWrite first contents) := by
  obtain ⟨target,offset,bytes⟩ := first
  have htarget : target=buffer := h _ (.head _)
  subst htarget
  have hrest : ∀ write ∈ writes, write.1=target := fun write hmem =>
    h write (.tail _ hmem)
  unfold mergeRun
  split
  · rename_i hempty
    rw [List.isEmpty_iff.1 hempty]
    rfl
  · dsimp only
    rw [map_cons,flatten_cons]
    refine Eq.trans ?_ (putWrite_run offset bytes hrest)
    split
    · rename_i hbytes
      have hnil := List.isEmpty_iff.1 hbytes
      unfold Patch.stop at hnil
      rw [hnil,putWrite_nil]
      rfl
    · rfl

lemma putWrites_mergeAbutting (h : ∀ write ∈ writes, write.1=buffer) :
    putWrites (mergeAbutting writes) contents=putWrites writes contents := by
  induction writes using mergeAbutting.induct generalizing contents with
  | case1 => rw [mergeAbutting]
  | case2 write writes run =>
    rename_i ih
    have hsplit := takeRun_append write.2.stop writes
    have hrest : ∀ other ∈ (takeRun write.2.stop writes).2, other.1=buffer := fun other hmem =>
      h other (.tail _ (hsplit ▸ mem_append_right _ hmem))
    rw [mergeAbutting,putWrites_append,putWrites_mergeRun h,ih hrest,← putWrites_append,hsplit]
    rfl

lemma putWrites_queueMerged {overlapped : Bool} (h : ∀ write ∈ writes, write.1=buffer) :
    putWrites (queueMerged overlapped writes) contents=putWrites writes contents := by
  unfold queueMerged
  split
  · rfl
  · exact putWrites_mergeAbutting h

end

end Merged

section Batches

variable {M : Type} {device : Device M} {uploads : TerrainUploads M}

/-- What a buffer holds once all that is queued and staged has run. -/
def effect (device : Device M) (uploads : TerrainUploads M) : ℕ → ℕ → UInt8 :=
  putWrites uploads.copies (device.content uploads.device)

variable (hordered : device.Ordered)

include hordered

lemma content_queueWrites (writes : List Write) : device.content (queueWrites device writes uploads).device =
      putWrites writes (device.content uploads.device) := by
  obtain ⟨m,copies⟩ := uploads
  unfold queueWrites
  induction writes generalizing m with
  | nil => rfl
  | cons write writes ih =>
    rw [foldl_cons,ih,hordered.writeBuffer]
    rfl

lemma content_uploads (copies : List Write) (m : M) : device.content (device.submit (copies.map Command.upload) m) =
      putWrites copies (device.content m) := by
  rw [hordered.submit,foldl_map]
  rfl

lemma effect_flush : effect device (flush device uploads) = effect device uploads := by
  unfold effect flush
  rw [content_uploads hordered]
  rfl

omit hordered in
lemma disjoint_of_not_overlaps {copies writes : List Write} (h : overlaps copies writes=false) :
    ∀ copy ∈ copies, ∀ write ∈ writes, write.2.bytes ≠ [] → copy.1=write.1 →
      copy.2.Disjoint write.2 := by
  intro copy hcopy write hwrite hbytes heq
  have hnone := any_eq_false.1 h copy hcopy
  rw [Bool.not_eq_true,any_eq_false] at hnone
  have hpair := hnone write (mem_filter.2 ⟨hwrite,by simpa using hbytes⟩)
  rw [Bool.not_eq_true] at hpair
  simp only [heq,decide_true,Bool.true_and,Bool.and_eq_false_iff,decide_eq_false_iff_not, not_lt] at hpair
  exact hpair

/-- Queued writes run before the staged ones, which is their order where they do not overlap. -/
lemma effect_queue_apart {writes : List Write} {queue : List Write → List Write}
    (hqueue : ∀ contents, putWrites (queue writes) contents=putWrites writes contents)
    (h : overlaps uploads.copies writes=false) :
    effect device (queueWrites device (queue writes) uploads) =
      putWrites writes (effect device uploads) := by
  unfold effect
  rw [content_queueWrites hordered,hqueue,← @putWrites_filter_nonempty _ writes]
  refine Eq.trans (putWrites_comm fun copy hcopy write hwrite=>?_) putWrites_filter_nonempty
  obtain ⟨hmem,hbytes⟩ := mem_filter.1 hwrite
  exact disjoint_of_not_overlaps h copy hcopy write hmem (by simpa using hbytes)

lemma effect_writeBatch {staging : Bool} {room : Room} {queue : List Write → List Write}
    {writes : List Write} (hstaging : staging=false → uploads.copies = [])
    (hqueue : ∀ rest contents, (∀ write ∈ rest, ∃ other ∈ writes, write.1=other.1) →
      putWrites (queue rest) contents=putWrites rest contents) :
    effect device (writeBatch device staging room queue writes uploads) =
      putWrites writes (effect device uploads) := by
  unfold writeBatch
  split
  case isFalse hoff =>
    have hempty := hstaging (Bool.not_eq_true _ ▸ hoff)
    unfold effect
    rw [content_queueWrites hordered,hqueue writes _ fun write hmem=>⟨write,hmem,rfl⟩]
    change putWrites uploads.copies _=_
    rw [hempty]
    rfl
  split
  · exact putWrites_append
  rename_i index staged write hroom
  obtain ⟨room,hsome,hfound⟩ := Option.bind_eq_some_iff.1 hroom
  obtain ⟨found,hfound,heq⟩ := Option.map_eq_some_iff.1 hfound
  cases heq
  have hsplit : writes=writes.take index++write::writes.drop (index+1) := by
    obtain ⟨hlt,hget⟩ := List.getElem?_eq_some_iff.1 hfound
    rw [← hget,getElem_cons_drop,take_append_drop]
  have hwrite : write ∈ writes := List.mem_of_getElem? hfound
  generalize hrest : ((write.1,⟨write.2.offset+staged,write.2.bytes.drop staged⟩) ::
    (writes.drop (index+1)).filter fun write=>!write.2.bytes.isEmpty : List Write) = rest
  have hbuffers : ∀ other ∈ rest, ∃ known ∈ writes, other.1=known.1 := by
    intro other hmem
    rw [← hrest] at hmem
    rcases mem_cons.1 hmem with rfl | hmem
    · exact ⟨write,hwrite,rfl⟩
    · exact ⟨other,mem_of_mem_drop (mem_filter.1 hmem).1,rfl⟩
  have hparts : ∀ contents, putWrites rest (putWrites (writes.take index ++
      [(write.1,⟨write.2.offset,write.2.bytes.take staged⟩)]) contents) =
        putWrites writes contents := by
    intro contents
    have hjoin : ∀ contents, putWrite (write.1,⟨write.2.offset+staged,write.2.bytes.drop staged⟩)
        (putWrite (write.1,⟨write.2.offset,write.2.bytes.take staged⟩) contents) =
          putWrite write contents := by
      intro contents
      unfold putWrite
      rw [Patch.apply_split write.2 staged,update_self,update_idem]
    conv_rhs => rw [hsplit]
    rw [← hrest,putWrites_append,putWrites_append]
    change putWrites _ (putWrite _ (putWrite _ _)) = putWrites _ (putWrite write _)
    rw [hjoin,putWrites_filter_nonempty]
  dsimp only
  split
  · have hflushed := content_uploads hordered
      (uploads.copies++writes.take index ++ [(write.1,⟨write.2.offset,write.2.bytes.take staged⟩)])
      uploads.device
    unfold effect
    rw [content_queueWrites hordered,hqueue rest _ hbuffers]
    unfold flush
    change putWrites rest (device.content (device.submit _ _)) = _
    rw [hflushed,append_assoc,putWrites_append,hparts]
  · rename_i hapart
    rw [effect_queue_apart hordered (fun contents=>hqueue rest contents hbuffers) (Bool.not_eq_true _ ▸ hapart)]
    unfold effect
    rw [append_assoc,putWrites_append,hparts]

end Batches

end Cinnabar.Uploads
