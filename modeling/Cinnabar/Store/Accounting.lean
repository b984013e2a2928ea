import Cinnabar.Store.BlockEntities

/-! # The accounts of block entities -/

namespace Cinnabar.Store

open Nbt List

variable {S B : Type}

/-- A column whose total and positions are right, within the limits. -/
structure Chunk.Balanced (key : ChunkKey) (chunk : Chunk S B) : Prop where
  counted : chunk.blockEntityBytes=entityBytes chunk.blockEntities
  bytes : entityBytes chunk.blockEntities ≤ maxBlockEntityBytesPerChunk
  length : chunk.blockEntities.length ≤ maxBlockEntitiesPerChunk
  held : ∀ entity ∈ chunk.blockEntities.keys, entity.chunk=key

def Accounted (store : ChunkStore S B) : Prop :=
  ∀ key chunk, store.chunks key=some chunk → chunk.Balanced key ∧ chunk.isEmpty=false

/-- Only the revisions have run out; the columns are as they were. -/
def Exhausted (store : ChunkStore S B) (fault : Fault) (after : ChunkStore S B) : Prop :=
  fault = .refused .collisionRevision ∧ after.chunks=store.chunks

/-- The revisions have run out, or a limit refused the operation and nothing changed. -/
def Refused (store : ChunkStore S B) (fault : Fault) (after : ChunkStore S B) : Prop :=
  Exhausted store fault after ∨ (∃ refusal, fault = .refused refusal) ∧ after=store

def Never (_ : Fault) (_ : ChunkStore S B) : Prop := False

section Columns

variable {store : ChunkStore S B} {key : ChunkKey} {chunk : Chunk S B}

lemma accounted_default : Accounted (ChunkStore.default : ChunkStore S B) := by
  intro key chunk h
  cases h

variable {other : ChunkStore S B}

lemma Accounted.of_chunks (h : Accounted store) (hchunks : other.chunks=store.chunks) : Accounted other := by
  intro key chunk hchunk
  exact h key chunk (hchunks ▸ hchunk)

lemma balanced_default : (Chunk.default : Chunk S B).Balanced key where
  counted := rfl
  bytes := Nat.zero_le _
  length := Nat.zero_le _
  held := by
    intro entity h
    cases h

lemma Accounted.chunkOrDefault (h : Accounted store) (key : ChunkKey) : (store.chunkOrDefault key).Balanced key := by
  unfold ChunkStore.chunkOrDefault
  cases hchunk : store.chunks key with
  | none => exact balanced_default
  | some chunk => exact (h key chunk hchunk).1

lemma chunkOrDefault_of_chunks (hchunks : other.chunks=store.chunks)
    (key : ChunkKey) : other.chunkOrDefault key=store.chunkOrDefault key := by
  unfold ChunkStore.chunkOrDefault
  rw [hchunks]

lemma Accounted.putChunk (h : Accounted store) {chunk : Option (Chunk S B)}
    (hchunk : ∀ value, chunk=some value → value.Balanced key ∧ value.isEmpty=false) :
    Accounted (store.putChunk key chunk) := by
  intro other value hvalue
  by_cases heq : other=key
  · subst heq
    exact hchunk value (by simpa [ChunkStore.putChunk] using hvalue)
  · exact h other value (by simpa [ChunkStore.putChunk,heq] using hvalue)

lemma Accounted.settleChunk (h : Accounted store) (hchunk : chunk.Balanced key) :
    Accounted (store.settleChunk key chunk) := by
  refine h.putChunk fun value hvalue=>?_
  split at hvalue
  · cases hvalue
  · rename_i hempty
    cases hvalue
    exact ⟨hchunk,by simpa using hempty⟩

lemma Chunk.Balanced.withSections (h : chunk.Balanced key) (subChunks : Entries ℤ S) :
    Chunk.Balanced key { chunk with subChunks := subChunks } :=
  ⟨h.counted,h.bytes,h.length,h.held⟩

lemma entries_eq_empty {m : EntityMap} (h : m.isEmpty=true) : m = .empty := by
  obtain ⟨entries,hnodup⟩ := m
  have hnil : entries = [] := List.isEmpty_iff.1 h
  subst hnil
  rfl

lemma isEmpty_insert {m : Entries ℤ S} {y : ℤ} {subChunk : S} : (m.insert y subChunk).isEmpty=false := by
  simp [Entries.isEmpty,Entries.insert]

end Columns

section Revisions

variable {store : ChunkStore S B} {key : ChunkKey}

lemma meets_allocateBatch (count : ℕ) : Meets (allocateBatch count) store
    (fun revisions after=>revisions.length=count ∧ after.chunks=store.chunks)
    (Exhausted store) := by
  refine .ite (fun hzero=>.pure ⟨by simp [hzero],rfl⟩) fun _=>.bind (.get ?_)
  refine .ite (fun _=>.throw ⟨rfl,rfl⟩) fun _=>.bind (.set ?_)
  exact .pure ⟨length_range' ..,rfl⟩

lemma meets_allocate : Meets allocate store (fun _ after=>after.chunks=store.chunks) (Exhausted store) := by
  refine .bind ((meets_allocateBatch 1).mono (fun revisions after h=>?_) fun _ _ h=>h)
  match revisions, h with
  | _::_, ⟨_,hchunks⟩ => exact .pure hchunks

lemma meets_reserveLoadedChange (key : SubChunkKey) : Meets (reserveLoadedChange key) store
    (fun _ after=>after.chunks=store.chunks) (Exhausted store) := by
  refine .bind (.get (.ite (fun _=>.bind (meets_allocate.mono ?_ fun _ _ h=>h)) fun _=>.pure rfl))
  exact fun _ _ h=>.pure h

lemma meets_reserveActorChange (changed : Bool) : Meets (reserveActorChange key changed) store
    (fun _ after=>after.chunks=store.chunks) (Exhausted store) := by
  refine .bind (.get (.ite (fun _=>.bind (meets_allocate.mono ?_ fun _ _ h=>h)) fun _=>.pure rfl))
  exact fun _ _ h=>.pure h

lemma meets_applyReservedRevision (revision : Option ℕ) : Meets (applyReservedRevision key revision) store
      (fun _ after=>after.chunks=store.chunks) Never := by
  cases revision with
  | none => exact .pure rfl
  | some revision => exact .bind (.get (.modified rfl))

variable {A : Type} [DecidableEq A] {contents : Contents S A}

lemma meets_reserveActorReplacement (scope : Option SubChunkKey) (replacement : EntityMap) :
    Meets (reserveActorReplacement contents key scope replacement) store
      (fun _ after=>after.chunks=store.chunks) (Exhausted store) := by
  exact .bind (.get (meets_reserveActorChange _))

end Revisions

section Sections

variable {store : ChunkStore S B} {column : ChunkKey}

def KeepsEntities (store after : ChunkStore S B) : Prop :=
  ∀ column, after.previousEntities column=store.previousEntities column

lemma KeepsEntities.of_chunks {after : ChunkStore S B} (h : after.chunks=store.chunks) :
    KeepsEntities store after := by
  intro column
  rw [ChunkStore.previousEntities,h]
  rfl

lemma KeepsEntities.trans {after last : ChunkStore S B} (h : KeepsEntities store after)
    (h' : KeepsEntities after last) : KeepsEntities store last :=
  fun column=>(h' column).trans (h column)

lemma Accounted.previousBytes (h : Accounted store) (column : ChunkKey) :
    store.previousBytes column=entityBytes (store.previousEntities column) := by
  unfold ChunkStore.previousBytes ChunkStore.previousEntities
  cases hchunk : store.chunks column with
  | none => rfl
  | some chunk => exact (h column chunk hchunk).1.counted

lemma previousEntities_eq (store : ChunkStore S B) (column : ChunkKey) :
    store.previousEntities column = (store.chunkOrDefault column).blockEntities := by
  unfold ChunkStore.previousEntities ChunkStore.chunkOrDefault
  cases store.chunks column <;> rfl

lemma keepsEntities_putChunk {chunk : Chunk S B} (h : chunk.blockEntities=store.previousEntities column) :
    KeepsEntities store (store.putChunk column (some chunk)) := by
  intro other
  by_cases heq : other=column
  · subst heq
    simp [ChunkStore.previousEntities,ChunkStore.putChunk,h]
  · simp [ChunkStore.previousEntities,ChunkStore.putChunk,heq]

lemma keepsEntities_settleChunk {chunk : Chunk S B} (h : chunk.blockEntities=store.previousEntities column) :
    KeepsEntities store (store.settleChunk column chunk) := by
  unfold ChunkStore.settleChunk
  split
  · rename_i hempty
    intro other
    by_cases heq : other=column
    · subst heq
      unfold Chunk.isEmpty at hempty
      rw [Bool.and_eq_true] at hempty
      rw [← h,entries_eq_empty hempty.2]
      simp [ChunkStore.previousEntities,ChunkStore.putChunk]
    · simp [ChunkStore.previousEntities,ChunkStore.putChunk,heq]
  · exact keepsEntities_putChunk h

lemma meets_removeSubChunkWithoutRevision (h : Accounted store) (key : SubChunkKey) :
    Meets (removeSubChunkWithoutRevision key) store
      (fun _ after=>Accounted after ∧ KeepsEntities store after) Never := by
  refine .bind (.get ?_)
  split
  · exact .pure ⟨h,fun _=>rfl⟩
  · rename_i chunk hchunk
    refine .bind (.set (.pure ⟨h.settleChunk ((h _ _ hchunk).1.withSections _),?_⟩))
    refine keepsEntities_settleChunk ?_
    rw [ChunkStore.previousEntities,hchunk]
    rfl

lemma meets_insertSubChunk (h : Accounted store) (key : SubChunkKey) (subChunk : S) :
    Meets (insertSubChunk key subChunk) store
      (fun _ after=>Accounted after ∧ KeepsEntities store after) Never := by
  refine .modified ⟨h.putChunk fun value hvalue=>?_,?_⟩
  · cases hvalue
    refine ⟨(h.chunkOrDefault _).withSections _,?_⟩
    unfold Chunk.isEmpty
    rw [isEmpty_insert]
    rfl
  · exact keepsEntities_putChunk (previousEntities_eq _ _).symm

lemma meets_removeSubChunk (h : Accounted store) (key : SubChunkKey) : Meets (removeSubChunk key) store
      (fun _ after=>Accounted after ∧ KeepsEntities store after) (Exhausted store) := by
  refine .bind (.get ?_)
  split
  · exact .pure ⟨h,fun _=>rfl⟩
  refine .bind ((meets_reserveLoadedChange key).mono (fun _ reserved hreserved=>?_) fun _ _ h=>h)
  refine .bind ((meets_removeSubChunkWithoutRevision (h.of_chunks hreserved) key).mono
    (fun _ removed hremoved=>?_) fun _ _ h=>h.elim)
  refine .bind ((meets_applyReservedRevision _).mono (fun _ after hafter=>?_) fun _ _ h=>h.elim)
  exact .pure ⟨hremoved.1.of_chunks hafter,
    ((KeepsEntities.of_chunks hreserved).trans hremoved.2).trans (.of_chunks hafter)⟩

variable {A : Type} {contents : Contents S A}

lemma meets_commitSubChunk (h : Accounted store) (key : SubChunkKey) (decoded : S) :
    Meets (commitSubChunk contents key decoded) store
      (fun _ after=>Accounted after ∧ KeepsEntities store after) (Exhausted store) := by
  refine .ite (fun _=>meets_removeSubChunk h key) fun _=>.bind (.get ?_)
  refine .ite (fun _=>.pure ⟨h,fun _=>rfl⟩) fun _=>?_
  refine .bind ((meets_reserveLoadedChange key).mono (fun _ reserved hreserved=>?_) fun _ _ h=>h)
  refine .bind ((meets_insertSubChunk (h.of_chunks hreserved) key decoded).mono
    (fun _ inserted hinserted=>?_) fun _ _ h=>h.elim)
  refine .bind ((meets_applyReservedRevision _).mono (fun _ after hafter=>?_) fun _ _ h=>h.elim)
  exact .pure ⟨hinserted.1.of_chunks hafter,
    ((KeepsEntities.of_chunks hreserved).trans hinserted.2).trans (.of_chunks hafter)⟩

end Sections

section BlockEntities

variable {store : ChunkStore S B} {column : ChunkKey} (entities : EntityMap)

lemma entityBytes_retain (key : SubChunkKey) : entityBytes (entities.retain fun entity=>entity.subChunk≠key) +
      entityBytes (entities.retain fun entity=>entity.subChunk=key) = entityBytes entities := by
  have hsplit := Entries.weight_retain (fun entity : BlockEntityKey=>decide (entity.subChunk≠key))
    entities fun nbt=>nbt.bytes.length
  simpa [entityBytes] using hsplit

lemma length_retain (key : SubChunkKey) : (entities.retain fun entity=>entity.subChunk≠key).length +
      (entities.retain fun entity=>entity.subChunk=key).length=entities.length := by
  have hsplit := Entries.weight_retain (fun entity : BlockEntityKey=>decide (entity.subChunk≠key)) entities fun _=>1
  rw [Entries.length_eq_weight,Entries.length_eq_weight,Entries.length_eq_weight]
  simpa using hsplit

section

variable (previous replacement : EntityMap)

lemma entityBytes_reuseEqual : entityBytes (reuseEqual previous replacement) = entityBytes replacement := by
  refine Entries.weight_mapValues fun entity _=>?_
  split
  · split
    · rename_i hbytes
      rw [hbytes]
    · rfl
  · rfl

lemma keys_reuseEqual : (reuseEqual previous replacement).keys=replacement.keys := Entries.keys_mapValues _ _

lemma length_eq_keys : entities.length=entities.keys.length :=
  (length_map _).symm

lemma length_reuseEqual : (reuseEqual previous replacement).length=replacement.length := by
  rw [length_eq_keys,length_eq_keys,keys_reuseEqual]

end

lemma meets_ensureChunkBlockEntityBytes (bytes : ℕ) : Meets (ensureChunkBlockEntityBytes bytes) store
      (fun _ after=>bytes ≤ maxBlockEntityBytesPerChunk ∧ after=store) (Refused store) :=
  .ite (fun _=>.throw (.inr ⟨⟨_,rfl⟩,rfl⟩)) fun h=>.pure ⟨not_lt.1 h,rfl⟩

lemma meets_expectSub {total part : ℕ} (h : part≤total) : Meets (expectSub total part) store
    (fun rest after=>rest=total-part ∧ after=store) Never :=
  .ite (fun hlt=>absurd hlt (not_lt.2 h)) fun _=>.pure ⟨rfl,rfl⟩

/-- What is left of a column and what replaces a section of it, within the limits. -/
def Replaces (store : ChunkStore S B) (key : SubChunkKey) (replacement : EntityMap) (bytes : ℕ) :
    Prop :=
  let retained := (store.previousEntities key.chunk).retain fun entity=>entity.subChunk≠key
  bytes=entityBytes retained+entityBytes replacement ∧ bytes ≤ maxBlockEntityBytesPerChunk ∧
    retained.length+replacement.length ≤ maxBlockEntitiesPerChunk

variable {replacement : EntityMap}

lemma Replaces.of_keeps {after : ChunkStore S B} {key : SubChunkKey}
    {bytes : ℕ} (h : Replaces store key replacement bytes) (hkeeps : KeepsEntities store after) :
    Replaces after key replacement bytes := by
  unfold Replaces at *
  rwa [hkeeps key.chunk]

lemma saturatingAdd_eq {a b : ℕ} (h : saturatingAdd a (min b usizeMax) ≤ maxBlockEntityBytesPerChunk) :
    saturatingAdd a (min b usizeMax) = a+b := by
  unfold saturatingAdd maxBlockEntityBytesPerChunk usizeMax at *
  omega

section

variable (h : Accounted store)
include h

lemma meets_validate (key : SubChunkKey) (replacement : EntityMap) :
    Meets (validateSubChunkBlockEntityReplacement key replacement) store
      (fun bytes after=>Replaces store key replacement bytes ∧ after=store) (Refused store) := by
  refine .bind (.get ?_)
  have hbytes := entityBytes_retain (store.previousEntities key.chunk) key
  have hlength := length_retain (store.previousEntities key.chunk) key
  have htotal := h.previousBytes key.chunk
  refine .ite (fun _=>.throw (.inr ⟨⟨_,rfl⟩,rfl⟩)) fun hcount=>?_
  refine .bind ((meets_expectSub (by omega)).mono (fun retained after hretained=>?_) fun _ _ h=>h.elim)
  obtain ⟨hretained,rfl⟩ := hretained
  refine .bind ((meets_ensureChunkBlockEntityBytes _).mono (fun _ last hlast=>?_) fun _ _ h=>h)
  obtain ⟨hfits,rfl⟩ := hlast
  refine .pure ⟨⟨?_,hfits,?_⟩,rfl⟩
  · rw [saturatingAdd_eq hfits]
    omega
  · omega

lemma balanced_replace {key : SubChunkKey} {bytes : ℕ} (hreplaces : Replaces store key replacement bytes)
    (hsection : ∀ entity ∈ replacement.keys, entity.subChunk=key) :
    Chunk.Balanced key.chunk { store.chunkOrDefault key.chunk with
      blockEntities := ((store.chunkOrDefault key.chunk).blockEntities.retain
        fun entity=>entity.subChunk≠key).extend (reuseEqual (store.previousEntities key.chunk) replacement)
      blockEntityBytes := bytes } := by
  obtain ⟨hbytes,hfits,hlength⟩ := hreplaces
  rw [previousEntities_eq] at *
  have hapart : ∀ entity ∈ (reuseEqual (store.chunkOrDefault key.chunk).blockEntities
      replacement).keys, entity ∉ ((store.chunkOrDefault key.chunk).blockEntities.retain
        fun entity=>entity.subChunk≠key).keys := by
    intro entity hmem hretained
    rw [keys_reuseEqual] at hmem
    have hother := of_decide_eq_true (Entries.mem_keys_retain.1 hretained).2
    exact hother (hsection entity hmem)
  have hextend := fun w=>Entries.weight_extend (w := w) hapart
  have htotal := hextend fun nbt=>nbt.bytes.length
  have hcount := hextend fun _=>1
  rw [← Entries.length_eq_weight,← Entries.length_eq_weight,← Entries.length_eq_weight, length_reuseEqual] at hcount
  have hsum : entityBytes _=entityBytes _+entityBytes _ := htotal
  rw [entityBytes_reuseEqual] at hsum
  refine ⟨?_,?_,?_,?_⟩
  · rw [hsum,hbytes]
  · rw [hsum,← hbytes]
    exact hfits
  · rw [hcount]
    exact hlength
  · intro entity hmem
    rcases Entries.mem_keys_extend.1 hmem with hold | hnew
    · exact (h.chunkOrDefault key.chunk).held entity (Entries.mem_keys_retain.1 hold).1
    · rw [keys_reuseEqual] at hnew
      rw [← hsection entity hnew]
      rfl

lemma meets_replace {key : SubChunkKey} {bytes : ℕ} (hreplaces : Replaces store key replacement bytes)
    (hsection : ∀ entity ∈ replacement.keys, entity.subChunk=key) :
    Meets (replaceSubChunkBlockEntities key replacement bytes) store (fun _ after=>Accounted after)
      Never := by
  refine .bind (.get (.ite (fun _=>.pure h) fun _=>.set ?_))
  exact h.settleChunk (balanced_replace h hreplaces hsection)

lemma meets_clear (key : SubChunkKey) :
    Meets (clearSubChunkBlockEntities key) store (fun _ after=>Accounted after) Never := by
  refine .bind (.get ?_)
  split
  · exact .pure h
  rename_i chunk hchunk
  have hbalanced := (h _ _ hchunk).1
  have hbytes := entityBytes_retain chunk.blockEntities key
  have hlength := length_retain chunk.blockEntities key
  have htotal := hbalanced.counted
  have hfits := hbalanced.bytes
  have hremoved : min (entityBytes (chunk.blockEntities.retain fun entity=>entity.subChunk=key))
      usizeMax=entityBytes (chunk.blockEntities.retain fun entity=>entity.subChunk=key) := by
    unfold maxBlockEntityBytesPerChunk at hfits
    unfold usizeMax
    omega
  refine .bind ((meets_expectSub (by omega)).mono (fun retained after hretained=>?_) fun _ _ h=>h.elim)
  refine .set (h.settleChunk ⟨?_,?_,?_,?_⟩)
  · dsimp only
    omega
  · dsimp only
    omega
  · have hcount := hbalanced.length
    dsimp only
    omega
  · exact fun entity hmem=>hbalanced.held entity (Entries.mem_keys_retain.1 hmem).1

end

lemma erase_le_length (key : BlockEntityKey) :
    (entities.erase key).length + (if (entities.find key).isSome then 1 else 0) = entities.length := by
  have herase := Entries.weight_erase (m := entities) (k := key) (w := fun _=>1)
  rw [← Entries.length_eq_weight,← Entries.length_eq_weight] at herase
  rw [← herase]
  cases entities.find key <;> rfl

/-- A column after one live entity, from what was at its position. -/
lemma balanced_insert {chunk : Chunk S B} {key : BlockEntityKey} {nbt : BlockEntityNbt} {bytes : ℕ}
    (h : chunk.Balanced key.chunk)
    (hbytes : bytes=entityBytes (chunk.blockEntities.erase key) + nbt.bytes.length)
    (hfits : bytes ≤ maxBlockEntityBytesPerChunk)
    (hlength : (chunk.blockEntities.erase key).length < maxBlockEntitiesPerChunk) :
    Chunk.Balanced key.chunk { chunk with
      blockEntities := chunk.blockEntities.insert key nbt
      blockEntityBytes := bytes } := by
  have hinsert : entityBytes (chunk.blockEntities.insert key nbt) = bytes := by
    rw [hbytes]
    exact Entries.weight_insert
  refine ⟨hinsert.symm,hinsert ▸ hfits,?_,?_⟩
  · have hcount : (chunk.blockEntities.insert key nbt).length =
        (chunk.blockEntities.erase key).length+1 := length_append ..
    dsimp only
    omega
  · intro entity hmem
    rcases Entries.mem_keys_insert.1 hmem with hold | rfl
    · exact h.held entity hold
    · rfl

variable {A : Type} [DecidableEq A] {contents : Contents S A}

section

variable (h : Accounted store)
include h

lemma meets_commitDecodedSubChunk {key : SubChunkKey} (subChunk : S)
    (hsection : ∀ entity ∈ replacement.keys, entity.subChunk=key) :
    Meets (commitDecodedSubChunk contents key subChunk replacement) store
      (fun _ after=>Accounted after) (Refused store) := by
  refine .bind ((meets_validate h key replacement).mono (fun bytes after hvalid=>?_) fun _ _ h=>h)
  obtain ⟨hreplaces,rfl⟩ := hvalid
  refine .bind ((meets_reserveActorReplacement _ _).mono (fun _ reserved hreserved=>?_) fun _ _ h=>.inl h)
  refine .bind ((meets_commitSubChunk (h.of_chunks hreserved) key subChunk).mono
    (fun _ committed hcommitted=>?_) fun _ _ h=>.inl ⟨h.1,h.2.trans hreserved⟩)
  obtain ⟨haccounted,hkeeps⟩ := hcommitted
  have hnow := hreplaces.of_keeps ((KeepsEntities.of_chunks hreserved).trans hkeeps)
  refine .bind ((meets_replace haccounted hnow hsection).mono (fun _ replaced hreplaced=>?_) fun _ _ h=>h.elim)
  refine .bind ((meets_applyReservedRevision _).mono (fun _ after hafter=>?_) fun _ _ h=>h.elim)
  exact .pure (hreplaced.of_chunks hafter)

lemma meets_commitBlockEntityUpdate (key : BlockEntityKey)
    (nbt : BlockEntityNbt) : Meets (commitBlockEntityUpdate contents key nbt) store
      (fun _ after=>Accounted after) (Refused store) := by
  unfold commitBlockEntityUpdate
  split
  · exact .throw (.inr ⟨⟨_,rfl⟩,rfl⟩)
  refine .ite (fun _=>.pure h) fun _=>?_
  refine .ite (fun _=>.throw (.inr ⟨⟨_,rfl⟩,rfl⟩)) fun hroom=>?_
  have htotal := h.previousBytes key.chunk
  rw [previousEntities_eq] at htotal hroom ⊢
  have hbalanced := h.chunkOrDefault key.chunk
  have hlength := hbalanced.length
  have hsum : entityBytes _+_=entityBytes _ := Entries.weight_erase
    (m := (store.chunkOrDefault key.chunk).blockEntities) (k := key)
  have hcount := erase_le_length (store.chunkOrDefault key.chunk).blockEntities key
  have hfree : ((store.chunkOrDefault key.chunk).blockEntities.erase key).length <
      maxBlockEntitiesPerChunk := by
    cases hfind : (store.chunkOrDefault key.chunk).blockEntities.find key with
    | none =>
      rw [hfind] at hroom hcount
      simp at hroom hcount
      omega
    | some current =>
      rw [hfind] at hcount
      simp at hcount
      omega
  refine .bind ((meets_expectSub (by omega)).mono (fun retained after hretained=>?_) fun _ _ h=>h.elim)
  obtain ⟨hretained,rfl⟩ := hretained
  refine .bind ((meets_ensureChunkBlockEntityBytes _).mono (fun _ last hlast=>?_) fun _ _ h=>h)
  obtain ⟨hfits,rfl⟩ := hlast
  refine .bind ((meets_reserveActorChange _).mono (fun _ reserved hreserved=>?_) fun _ _ h=>.inl h)
  have hsame := chunkOrDefault_of_chunks hreserved key.chunk
  have haccounted := h.of_chunks hreserved
  refine .bind (.modified ?_)
  refine .bind ((meets_applyReservedRevision _).mono (fun _ after hafter=>?_) fun _ _ h=>h.elim)
  refine .pure (Accounted.of_chunks ?_ hafter)
  refine haccounted.putChunk fun value hvalue=>?_
  cases hvalue
  rw [hsame]
  refine ⟨balanced_insert hbalanced ?_ hfits hfree,?_⟩
  · unfold saturatingAdd maxBlockEntityBytesPerChunk at *
    unfold usizeMax at *
    omega
  · simp [Chunk.isEmpty,Entries.isEmpty,Entries.insert]

lemma meets_commitChunkBlockEntities {key : ChunkKey} (hbytes : entityBytes replacement ≤ maxBlockEntityBytesPerChunk)
    (hlength : replacement.length ≤ maxBlockEntitiesPerChunk)
    (hheld : ∀ entity ∈ replacement.keys, entity.chunk=key) :
    Meets (commitChunkBlockEntities contents key replacement) store
      (fun _ after=>Accounted after) (Refused store) := by
  refine .bind ((meets_reserveActorReplacement _ _).mono (fun _ reserved hreserved=>?_) fun _ _ h=>.inl h)
  have haccounted := h.of_chunks hreserved
  refine .bind (.get (.ite (fun _=>.pure haccounted) fun _=>.bind (.set ?_)))
  refine (meets_applyReservedRevision _).mono (fun _ after hafter=>?_) fun _ _ h=>h.elim
  refine Accounted.of_chunks ?_ hafter
  refine haccounted.settleChunk ⟨rfl,?_,?_,?_⟩
  · rwa [entityBytes_reuseEqual]
  · rwa [length_reuseEqual]
  · rwa [keys_reuseEqual]

lemma meets_applyAllAir (key : SubChunkKey) :
    Meets (applyAllAir contents key) store (fun _ after=>Accounted after) (Refused store) := by
  refine .bind ((meets_reserveActorReplacement _ _).mono (fun _ reserved hreserved=>?_) fun _ _ h=>.inl h)
  refine .bind ((meets_removeSubChunk (h.of_chunks hreserved) key).mono
    (fun _ removed hremoved=>?_) fun _ _ h=>.inl ⟨h.1,h.2.trans hreserved⟩)
  refine .bind ((meets_clear hremoved.1 key).mono (fun _ cleared hcleared=>?_) fun _ _ h=>h.elim)
  refine .bind ((meets_applyReservedRevision _).mono (fun _ after hafter=>?_) fun _ _ h=>h.elim)
  exact .pure (hcleared.of_chunks hafter)

end

end BlockEntities

section Columns

variable {store : ChunkStore S B}

lemma meets_setCollisionRevision (key : ChunkKey) (revision : ℕ) : Meets (setCollisionRevision key revision) store
      (fun _ after=>after.chunks=store.chunks) Never := .modified rfl

section

variable (h : Accounted store)
include h

lemma meets_markChunkLoaded (key : ChunkKey) :
    Meets (markChunkLoaded key) store (fun _ after=>Accounted after) (Exhausted store) := by
  refine .bind (.get (.ite (fun _=>.pure h) fun _=>?_))
  refine .bind (meets_allocate.mono (fun _ allocated hallocated=>?_) fun _ _ h=>h)
  exact h.of_chunks hallocated

lemma meets_markSubChunkLoaded (key : SubChunkKey) :
    Meets (markSubChunkLoaded key) store (fun _ after=>Accounted after) (Exhausted store) := by
  refine .bind (.get (.ite (fun _=>.pure h) fun _=>?_))
  refine .bind (meets_allocate.mono (fun _ allocated hallocated=>?_) fun _ _ h=>h)
  exact h.of_chunks hallocated

lemma meets_forM {α : Type} {f : α → StoreM S B Unit} {items : List α}
    (hf : ∀ item store, Accounted store → Meets (f item) store (fun _ after=>Accounted after) Never) :
    Meets (items.forM f) store (fun _ after=>Accounted after) Never := by
  induction items generalizing store with
  | nil => exact .pure h
  | cons item items ih => exact .bind ((hf item store h).mono (fun _ _ h=>ih h) fun _ _ h=>h)

lemma meets_applyPrepared (mutation : PreparedSubChunkMutation S) :
    Meets (applyPrepared mutation) store (fun _ after=>Accounted after) Never := by
  refine .ite (fun _=>?_) fun _=>.pure h
  split
  · exact (meets_insertSubChunk h _ _).mono (fun _ _ h=>h.1) fun _ _ h=>h
  · exact .bind ((meets_removeSubChunkWithoutRevision h _).mono (fun _ _ h=>.pure h.1) fun _ _ h=>h)

lemma meets_commitPrepared (prepared : List (PreparedSubChunkMutation S)) :
    Meets (commitPreparedBlockUpdates prepared) store (fun _ after=>Accounted after)
      (Exhausted store) := by
  refine .bind (.get (.bind ((meets_allocateBatch _).mono (fun _ allocated hallocated=>?_) fun _ _ h=>h)))
  refine .bind ((meets_forM (h.of_chunks hallocated.2) fun mutation _ h =>
    meets_applyPrepared h mutation).mono (fun _ applied happlied=>?_) fun _ _ h=>h.elim)
  refine .bind ((meets_forM happlied fun revision store h =>
    (meets_setCollisionRevision revision.1 revision.2).mono (fun _ _ hafter=>h.of_chunks hafter)
      fun _ _ h=>h).mono (fun _ _ h=>.pure h) fun _ _ h=>h.elim)

lemma accounted_detachChunk (key : ChunkKey) : Accounted (detachChunk key store) := by
  have hput : Accounted (store.putChunk key none) := h.putChunk fun value hvalue=>by cases hvalue
  exact hput.of_chunks rfl

lemma meets_detachChunks (keys : List ChunkKey) :
    Meets (detachChunks keys) store (fun _ after=>Accounted after) (Never (S := S) (B := B)) := by
  induction keys generalizing store with
  | nil => exact h
  | cons key keys ih => exact ih (accounted_detachChunk h key)

lemma meets_commitBiomeColumn (key : ChunkKey) (replacement : B) :
    Meets (commitBiomeColumn key replacement) store (fun _ after=>Accounted after) Never := by
  refine .modified (h.putChunk fun value hvalue=>?_)
  cases hvalue
  have hbalanced := h.chunkOrDefault key
  refine ⟨⟨hbalanced.counted,hbalanced.bytes,hbalanced.length,hbalanced.held⟩,?_⟩
  simp [Chunk.isEmpty]

end

lemma isEmpty_residentSections {A : Type} (contents : Contents S A) (old : Option (Chunk S B))
    (subChunks : Entries ℤ S) :
    (residentSections contents old subChunks).isEmpty=subChunks.isEmpty := by
  rw [Bool.eq_iff_iff,Entries.isEmpty_iff,Entries.isEmpty_iff]
  exact Eq.congr_left (Entries.keys_mapValues _ subChunks)

variable {subChunks : Entries ℤ S}

lemma mem_sections {A : Type} {contents : Contents S A} {chunk : Chunk S B} (h : sectionsChanged contents (some chunk) subChunks=false) (y : ℤ) :
    y ∈ chunk.subChunks.keys ↔ y ∈ subChunks.keys := by
  have hsame : ∀ y ∈ chunk.subChunks.keys++subChunks.keys, chunk.subChunks.find y=none ↔ subChunks.find y=none := by
    intro y hy
    have hy := any_eq_false.1 h y hy
    cases hold : chunk.subChunks.find y <;> cases hnew : subChunks.find y <;> simp [hold,hnew] at hy ⊢
  have hiff := hsame y
  rw [Entries.find_eq_none,Entries.find_eq_none,not_iff_not] at hiff
  by_cases hmem : y ∈ chunk.subChunks.keys++subChunks.keys
  · exact hiff hmem
  · rw [mem_append,not_or] at hmem
    exact iff_of_false hmem.1 hmem.2

lemma isEmpty_unchanged {A : Type} {contents : Contents S A} {old : Option (Chunk S B)} (h : sectionsChanged contents old subChunks=false) :
    ((old.map Chunk.subChunks).getD (residentSections contents old subChunks)).isEmpty =
      subChunks.isEmpty := by
  cases old with
  | none => exact isEmpty_residentSections contents (none : Option (Chunk S B)) subChunks
  | some chunk =>
    rw [Bool.eq_iff_iff,Entries.isEmpty_iff,Entries.isEmpty_iff,eq_nil_iff_forall_not_mem, eq_nil_iff_forall_not_mem]
    exact forall_congr' fun y=>not_congr (mem_sections h y)

variable {A : Type} [DecidableEq A] {contents : Contents S A}

def Fits (key : ChunkKey) (entities : EntityMap) : Prop :=
  entityBytes entities ≤ maxBlockEntityBytesPerChunk ∧
    entities.length ≤ maxBlockEntitiesPerChunk ∧ ∀ entity ∈ entities.keys, entity.chunk=key

lemma fits_levelChunkTail (key : ChunkKey) (yStart yEnd : ℤ) (payload : Bytes) :
    Fits key (decodeLevelChunkTail key yStart yEnd payload) :=
  ⟨entityBytes_decodeEntities _ _ _,(sound_decodeScope _ _ _).length, fun _ hmem=>chunk_of_mem_levelChunkTail hmem⟩

lemma Accounted.fits (h : Accounted store) (key : ChunkKey) : Fits key (store.previousEntities key) := by
  have hbalanced := h.chunkOrDefault key
  rw [previousEntities_eq]
  exact ⟨hbalanced.bytes,hbalanced.length,hbalanced.held⟩

lemma Fits.reuseEqual {key : ChunkKey} {entities : EntityMap} (h : Fits key entities)
    (previous : EntityMap) : Fits key (reuseEqual previous entities) := by
  unfold Fits
  rwa [entityBytes_reuseEqual,length_reuseEqual,keys_reuseEqual]

lemma meets_reserveColumn (key : ChunkKey) (blocks : Bool) (entities : EntityMap) :
    Meets (reserveColumn contents key blocks entities) store
      (fun _ after=>after.chunks=store.chunks) (Exhausted store) := by
  exact .ite (fun _=>.bind (meets_allocate.mono (fun _ _ h=>.pure h) fun _ _ h=>h))
    fun _=>meets_reserveActorReplacement _ _

lemma meets_publishColumn (key : ChunkKey) (newlyLoaded : Bool) :
    Meets (publishColumn key newlyLoaded) store (fun _ after=>after.chunks=store.chunks) Never := by
  exact .ite (fun _=>.modified rfl) fun _=>.pure rfl

lemma meets_commitLevelChunk (h : Accounted store) {key : ChunkKey} {decoded : DecodedLevelChunk S B}
    (hfits : ∀ entities, decoded.blockEntities=some entities → Fits key entities) :
    Meets (commitLevelChunk contents key decoded) store (fun _ after=>Accounted after)
      (Refused store) := by
  refine .bind (.get ?_)
  have hentities : Fits key (decoded.blockEntities.getD (store.previousEntities key)) := by
    cases hsome : decoded.blockEntities with
    | none => exact h.fits key
    | some entities => exact hfits entities hsome
  obtain ⟨hbytes,hlength,hheld⟩ := hentities.reuseEqual (store.previousEntities key)
  refine .bind ((meets_reserveColumn key _ _).mono (fun _ reserved hreserved=>?_) fun _ _ h=>.inl h)
  refine .bind (.modified ?_)
  refine .bind ((meets_publishColumn key _).mono (fun _ published hpublished=>?_) fun _ _ h=>h.elim)
  refine (meets_applyReservedRevision _).mono (fun _ after hafter=>?_) fun _ _ h=>h.elim
  refine Accounted.of_chunks ?_ (hafter.trans hpublished)
  refine (h.of_chunks hreserved).putChunk fun value hvalue=>?_
  split at hvalue
  · cases hvalue
  rename_i hempty
  cases hvalue
  refine ⟨⟨rfl,hbytes,hlength,hheld⟩,?_⟩
  rw [isEmpty_residentSections] at hempty
  unfold Chunk.isEmpty
  split
  · rw [isEmpty_residentSections]
    simpa using hempty
  · rename_i hchanged
    rw [isEmpty_unchanged (by simpa using hchanged)]
    simpa using hempty

end Columns

section Runs

inductive Operation (S B : Type) where
  | commitSubChunk (key : SubChunkKey) (decoded : S)
  | commitDecodedSubChunk (key : SubChunkKey) (subChunk : S) (tail : Bytes)
  | commitBlockEntityUpdate (key : BlockEntityKey) (nbt : BlockEntityNbt)
  | commitChunkBlockEntities (key : ChunkKey) (yStart yEnd : ℤ) (tail : Bytes)
  | applyAllAir (key : SubChunkKey)
  | applyRequestModeAir (key : SubChunkKey)
  | commitPreparedBlockUpdates (prepared : List (PreparedSubChunkMutation S))
  | commitBiomeColumn (key : ChunkKey) (replacement : B)
  | commitLevelChunk (key : ChunkKey) (subChunks : Entries ℤ S) (biomes : Option B) (tail : Option (ℤ × ℤ × Bytes))
  | detachChunks (keys : List ChunkKey)
  | markChunkLoaded (key : ChunkKey)
  | markSubChunkLoaded (key : SubChunkKey)

/-- Does something for its effect. -/
def ignore {α : Type} (m : StoreM S B α) : StoreM S B Unit := do
  let _ ← m
  pure ()

variable {A : Type} [DecidableEq A] (contents : Contents S A)

def Operation.run : Operation S B → StoreM S B Unit
  | .commitSubChunk key decoded => ignore (Store.commitSubChunk contents key decoded)
  | .commitDecodedSubChunk key subChunk tail =>
    ignore (Store.commitDecodedSubChunk contents key subChunk (decodeSubChunkTail key tail))
  | .commitBlockEntityUpdate key nbt => ignore (Store.commitBlockEntityUpdate contents key nbt)
  | .commitChunkBlockEntities key yStart yEnd tail =>
    Store.commitChunkBlockEntities contents key (decodeLevelChunkTail key yStart yEnd tail)
  | .applyAllAir key => ignore (Store.applyAllAir contents key)
  | .applyRequestModeAir key => ignore (removeSubChunk key)
  | .commitPreparedBlockUpdates prepared => ignore (Store.commitPreparedBlockUpdates prepared)
  | .commitBiomeColumn key replacement => Store.commitBiomeColumn key replacement
  | .commitLevelChunk key subChunks biomes tail =>
    Store.commitLevelChunk contents key ⟨subChunks,biomes,
      tail.map fun (yStart,yEnd,payload)=>decodeLevelChunkTail key yStart yEnd payload⟩
  | .detachChunks keys => Store.detachChunks keys
  | .markChunkLoaded key => ignore (Store.markChunkLoaded key)
  | .markSubChunkLoaded key => ignore (Store.markSubChunkLoaded key)

def Operation.after (store : ChunkStore S B) (operation : Operation S B) : ChunkStore S B :=
  match operation.run contents store with
  | .ok _ after => after
  | .error _ after => after

variable {contents} {store : ChunkStore S B}

lemma meets_ignore {α : Type} {m : StoreM S B α} {E : Fault → ChunkStore S B → Prop}
    (h : Meets m store (fun _ after=>Accounted after) E)
    (hE : ∀ fault after, E fault after → Refused store fault after) :
    Meets (ignore m) store (fun _ after=>Accounted after) (Refused store) :=
  .bind (h.mono (fun _ _ h=>.pure h) hE)

lemma meets_run (h : Accounted store) (operation : Operation S B) :
    Meets (operation.run contents) store (fun _ after=>Accounted after) (Refused store) := by
  cases operation with
  | commitSubChunk key decoded =>
    exact meets_ignore ((meets_commitSubChunk h key decoded).mono (fun _ _ h=>h.1) fun _ _ h=>h) fun _ _ h=>.inl h
  | commitDecodedSubChunk key subChunk tail =>
    exact meets_ignore (meets_commitDecodedSubChunk h subChunk
      fun _ hmem=>subChunk_of_mem_subChunkTail hmem) fun _ _ h=>h
  | commitBlockEntityUpdate key nbt =>
    exact meets_ignore (meets_commitBlockEntityUpdate h key nbt) fun _ _ h=>h
  | commitChunkBlockEntities key yStart yEnd tail =>
    have hfits := fits_levelChunkTail key yStart yEnd tail
    exact meets_commitChunkBlockEntities h hfits.1 hfits.2.1 hfits.2.2
  | applyAllAir key => exact meets_ignore (meets_applyAllAir h key) fun _ _ h=>h
  | applyRequestModeAir key =>
    exact meets_ignore ((meets_removeSubChunk h key).mono (fun _ _ h=>h.1) fun _ _ h=>h) fun _ _ h=>.inl h
  | commitPreparedBlockUpdates prepared =>
    exact meets_ignore (meets_commitPrepared h prepared) fun _ _ h=>.inl h
  | commitBiomeColumn key replacement =>
    exact (meets_commitBiomeColumn h key replacement).mono (fun _ _ h=>h) fun _ _ h=>h.elim
  | commitLevelChunk key subChunks biomes tail =>
    refine meets_commitLevelChunk h fun entities hentities=>?_
    obtain ⟨⟨yStart,yEnd,payload⟩,-,rfl⟩ := Option.map_eq_some_iff.1 hentities
    exact fits_levelChunkTail key yStart yEnd payload
  | detachChunks keys => exact (meets_detachChunks h keys).mono (fun _ _ h=>h) fun _ _ h=>h.elim
  | markChunkLoaded key => exact meets_ignore (meets_markChunkLoaded h key) fun _ _ h=>.inl h
  | markSubChunkLoaded key => exact meets_ignore (meets_markSubChunkLoaded h key) fun _ _ h=>.inl h

lemma accounted_after (h : Accounted store) (operation : Operation S B) :
    Accounted (operation.after contents store) := by
  have hrun : Meets (operation.run contents) store (fun _ after=>Accounted after)
      (Refused store) := meets_run h operation
  unfold Operation.after
  cases houtcome : operation.run contents store with
  | ok _ after => exact hrun.of_ok houtcome
  | error fault after =>
    rcases hrun.of_error houtcome with hexhausted | hrefused
    · exact h.of_chunks hexhausted.2
    · rw [hrefused.2]
      exact h

lemma accounted_run (operations : List (Operation S B)) :
    Accounted (operations.foldl (Operation.after contents) ChunkStore.default) :=
  List.foldlRecOn operations _ accounted_default fun _ h operation _=>accounted_after h operation

/-- In every state reached, each column's total is that of its block entities, within the limits
and in place; no operation fails an expectation, and one refused for a limit changes nothing. -/
theorem block_entity_accounts_hold (S B A : Type) [DecidableEq A] (contents : Contents S A)
    (operations : List (Operation S B)) :
    let store := operations.foldl (Operation.after contents) ChunkStore.default
    (∀ key chunk, store.chunks key=some chunk → chunk.blockEntityBytes =
        (chunk.blockEntities.toList.map fun entity => entity.2.bytes.length).sum ∧
      chunk.blockEntityBytes ≤ 8 * 1024 * 1024 ∧ chunk.blockEntities.toList.length ≤ 16384 ∧
      (∀ entity ∈ chunk.blockEntities.toList, entity.1.chunk=key) ∧
      ¬(chunk.subChunks.toList = [] ∧ chunk.biomes=none ∧ chunk.blockEntities.toList = [])) ∧
    ∀ operation : Operation S B, (∀ after, operation.run contents store ≠ .error .panicked after) ∧
      ∀ refusal after, operation.run contents store = .error (.refused refusal) after →
        after.chunks=store.chunks ∧ (refusal ≠ .collisionRevision → after=store) := by
  intro store
  have haccounted : Accounted store := accounted_run operations
  refine ⟨fun key chunk hchunk => ?_,fun operation => ⟨fun after hpanic => ?_, fun refusal after hrefusal => ?_⟩⟩
  · obtain ⟨hbalanced,hempty⟩ := haccounted key chunk hchunk
    refine ⟨hbalanced.counted,hbalanced.counted ▸ hbalanced.bytes,hbalanced.length,
      fun entity hmem => hbalanced.held entity.1 (List.mem_map_of_mem hmem),?_⟩
    rintro ⟨hsections,hbiomes,hentities⟩
    simp [Chunk.isEmpty,Entries.isEmpty,hsections,hbiomes,hentities] at hempty
  · rcases (meets_run haccounted operation).of_error hpanic with hexhausted | ⟨⟨_,hrefused⟩,_⟩
    · cases hexhausted.1
    · cases hrefused
  · rcases (meets_run haccounted operation).of_error hrefusal with hexhausted | ⟨_,hsame⟩
    · refine ⟨hexhausted.2,fun hlimit => absurd ?_ hlimit⟩
      exact Fault.refused.inj hexhausted.1
    · exact ⟨congrArg ChunkStore.chunks hsame,fun _=>hsame⟩

end Runs

end Cinnabar.Store
