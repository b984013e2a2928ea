import Cinnabar.BlobCache.Resolver
import Cinnabar.Library.Maps

/-! # What a recovery has to request -/

namespace Cinnabar.BlobCache

open Std List

/-- One section of a column, or its full height. -/
structure Need where
  column : ColumnKey
  y : Option ℤ
deriving DecidableEq

/-- A resync requests a need: exact sections when it names them, else the full height. -/
def ChunkResyncEvent.Covers (event : ChunkResyncEvent) (need : Need) : Prop :=
  event.column=need.column ∧ match event.requestedSubChunkYs with
    | none => event.requestedSubChunks=none
    | some ys => ∃ y ∈ ys, need.y=some y

def PendingPacket.Needs (need : Need) : PendingPacket → Prop
  | .levelChunk packet => need = ⟨packet.column,none⟩
  | .subChunk packet => ∃ position ∈ packet.positions, need = ⟨⟨packet.dimension,position.x,position.z⟩,some position.y⟩

def BlobCacheResolver.Queues (resolver : BlobCacheResolver) (need : Need) : Prop :=
  ∃ recovery, resolver.recoveryReady[need.column]? = some recovery ∧ recovery.intoEvent.Covers need

lemma mem_stableUnique {α : Type} [DecidableEq α] {items : List α} {item : α} :
    item ∈ stableUnique items ↔ item ∈ items := by
  unfold stableUnique
  have h : ∀ (items seen : List α),
      item ∈ items.foldl (fun seen item=>if item ∈ seen then seen else seen ++ [item]) seen ↔
        item ∈ seen ∨ item ∈ items := by
    intro items
    induction items with
    | nil => simp
    | cons first items ih =>
      intro seen
      rw [foldl_cons,ih]
      split
      · rename_i hmem
        constructor
        · rintro (h | h)
          · exact Or.inl h
          · exact Or.inr (.tail _ h)
        · rintro (h | h)
          · exact Or.inl h
          · rcases mem_cons.1 h with rfl | h
            · exact Or.inl hmem
            · exact Or.inr h
      · rw [mem_append,mem_singleton,mem_cons,or_assoc]
  simpa using h items []

lemma nodup_stableUnique {α : Type} [DecidableEq α] (items : List α) : (stableUnique items).Nodup := by
  have h : ∀ (items seen : List α), seen.Nodup →
      (items.foldl (fun seen item=>if item ∈ seen then seen else seen ++ [item]) seen).Nodup := by
    intro items
    induction items with
    | nil => exact fun _ h=>h
    | cons first items ih =>
      intro seen hseen
      rw [foldl_cons]
      refine ih _ ?_
      split
      · exact hseen
      · rename_i hmem
        rw [nodup_append]
        refine ⟨hseen,nodup_singleton _,fun a ha b hb=>?_⟩
        rw [mem_singleton] at hb
        rintro rfl
        exact hmem (hb ▸ ha)
  exact h items [] nodup_nil

section Requests

lemma subChunkRecoveries_column {dimension : ℤ} {positions : List SubChunkPos}
    {position : SubChunkPos} (h : position ∈ positions) :
    ∃ event ∈ subChunkRecoveries dimension positions,
      event.Covers ⟨⟨dimension,position.x,position.z⟩,some position.y⟩ := by
  have hfold : ∀ (positions : List SubChunkPos) (columns : TreeMap ColumnKey (Finset ℤ)) (position : SubChunkPos),
      position ∈ positions ∨ position.y ∈ columns.getD ⟨dimension,position.x,position.z⟩ ∅ →
      position.y ∈ (positions.foldl (fun columns position =>
        let key : ColumnKey := ⟨dimension,position.x,position.z⟩
        columns.insert key (insert position.y (columns.getD key ∅))) columns).getD
        ⟨dimension,position.x,position.z⟩ ∅ := by
    intro positions
    induction positions with
    | nil =>
      rintro columns position (h | h)
      · exact absurd h not_mem_nil
      · exact h
    | cons first positions ih =>
      intro columns position h
      refine ih _ position ?_
      rcases h with h | h
      · rcases mem_cons.1 h with rfl | h
        · right
          rw [count_insert,if_pos rfl]
          exact Finset.mem_insert_self _ _
        · exact Or.inl h
      · right
        rw [count_insert]
        split
        · rename_i heq
          rw [heq]
          exact Finset.mem_insert_of_mem h
        · exact h
  have hmem := hfold positions ∅ position (Or.inl h)
  unfold subChunkRecoveries
  rw [TreeMap.getD_eq_getD_getElem?] at hmem
  cases hlookup : (positions.foldl (fun columns position =>
      let key : ColumnKey := ⟨dimension,position.x,position.z⟩
      columns.insert key (insert position.y (columns.getD key ∅)))
      (∅ : TreeMap ColumnKey (Finset ℤ)))[(⟨dimension,position.x,position.z⟩ : ColumnKey)]? with
  | none =>
    rw [hlookup] at hmem
    exact absurd hmem (Finset.notMem_empty _)
  | some ys =>
    rw [hlookup] at hmem
    refine ⟨_,mem_map.2 ⟨(_,ys),TreeMap.mem_toList_iff_getElem?_eq_some.2 hlookup,rfl⟩,rfl,?_⟩
    exact ⟨position.y,mem_listedYs.2 hmem,rfl⟩

variable {packet : PendingPacket} {event : ChunkResyncEvent}

lemma subChunkRecoveries_plain {dimension : ℤ} {positions : List SubChunkPos}
    (h : event ∈ subChunkRecoveries dimension positions) :
    event.requestedSubChunks=none := by
  obtain ⟨column,-,rfl⟩ := mem_map.1 h
  rfl

lemma pendingPacketRecovery_plain (h : event ∈ pendingPacketRecovery packet) : event.requestedSubChunks=none := by
  cases packet with
  | levelChunk packet =>
    rw [mem_singleton.1 h]
    rfl
  | subChunk packet =>
    unfold pendingPacketRecovery at h
    dsimp only at h
    split at h
    · exact subChunkRecoveries_plain h
    · exact absurd h not_mem_nil

lemma unadmittedPacketRecovery_plain (h : event ∈ unadmittedPacketRecovery packet) : event.requestedSubChunks=none := by
  cases packet with
  | levelChunk packet =>
    rw [mem_singleton.1 h]
    rfl
  | subChunk packet => exact absurd h not_mem_nil

lemma readyValueRecovery_plain {value : ResolverReady}
    (h : event ∈ readyValueRecovery value) : event.requestedSubChunks=none := by
  cases value with
  | packet packet =>
    cases packet with
    | levelChunk packet =>
      rw [mem_singleton.1 h]
      rfl
    | subChunk packet => exact subChunkRecoveries_plain h
    | other id => exact absurd h not_mem_nil
  | worldEvent event => exact absurd h not_mem_nil
  | levelChunkBytes event payload => exact absurd h not_mem_nil

lemma pendingPacketRecovery_covers {need : Need}
    (hcached : ∀ {reply}, packet = .subChunk reply → reply.cacheEnabled=true)
    (h : packet.Needs need) : ∃ event ∈ pendingPacketRecovery packet, event.Covers need := by
  cases packet with
  | levelChunk packet =>
    obtain rfl := h
    exact ⟨packet.resync,mem_singleton_self _,rfl,rfl⟩
  | subChunk packet =>
    obtain ⟨position,hposition,rfl⟩ := h
    rw [pendingPacketRecovery,if_pos (hcached rfl)]
    exact subChunkRecoveries_column hposition

lemma readyValueRecovery_covers {need : Need} (blob : ℕ → Bytes) (h : packet.Needs need) :
    ∃ event ∈ readyValueRecovery (.packet (packet.splice blob)), event.Covers need := by
  cases packet with
  | levelChunk packet =>
    obtain rfl := h
    exact ⟨packet.resync,mem_singleton_self _,rfl,rfl⟩
  | subChunk packet =>
    obtain ⟨position,hposition,rfl⟩ := h
    have hpositions : (packet.splice blob).positions=packet.positions := by
      simp only [SubChunk.positions,SubChunk.splice,map_map]
      rfl
    change ∃ event ∈ subChunkRecoveries packet.dimension (packet.splice blob).positions, _
    rw [hpositions]
    exact subChunkRecoveries_column hposition

end Requests

section Merging

variable {resolver : BlobCacheResolver} {event : ChunkResyncEvent} {need : Need}
  {existing incoming : RecoveryReady}

def BlobCacheResolver.QueueFormed (resolver : BlobCacheResolver) : Prop :=
  ∀ {key : ColumnKey} {recovery : RecoveryReady}, resolver.recoveryReady[key]? = some recovery →
    recovery.intoEvent.column=key ∧ recovery.requestedSubChunks=none

lemma RecoveryReady.covers_iff {recovery : RecoveryReady}
    (hplain : recovery.requestedSubChunks=none) : recovery.intoEvent.Covers need ↔
      recovery.intoEvent.column=need.column ∧
        ∀ ys, recovery.requestedSubChunkYs=some ys → ∃ y ∈ ys, need.y=some y := by
  unfold ChunkResyncEvent.Covers RecoveryReady.intoEvent
  cases recovery.requestedSubChunkYs with
  | none => simp [hplain]
  | some ys => simp

@[simp] lemma RecoveryReady.column_merge : (existing.merge incoming).intoEvent.column=existing.intoEvent.column := rfl

lemma RecoveryReady.merge_plain (hexisting : existing.requestedSubChunks=none)
    (hincoming : incoming.requestedSubChunks=none) :
    (existing.merge incoming).requestedSubChunks=none := by
  unfold merge
  split
  · exact hincoming
  · exact hexisting

lemma RecoveryReady.merge_covers (hexisting : existing.requestedSubChunks=none)
    (hincoming : incoming.requestedSubChunks=none)
    (hcolumn : existing.intoEvent.column=incoming.intoEvent.column)
    (h : existing.intoEvent.Covers need ∨ incoming.intoEvent.Covers need) :
    (existing.merge incoming).intoEvent.Covers need := by
  rw [covers_iff (merge_plain hexisting hincoming),column_merge]
  rw [covers_iff hexisting,covers_iff hincoming,← hcolumn] at h
  refine ⟨h.elim (·.1) (·.1),fun ys hys=>?_⟩
  unfold merge at hys
  cases hexistingYs : existing.requestedSubChunkYs with
  | none => simp [hexistingYs] at hys
  | some existingYs =>
    cases hincomingYs : incoming.requestedSubChunkYs with
    | none => simp [hexistingYs,hincomingYs] at hys
    | some incomingYs =>
      rw [hexistingYs,hincomingYs] at hys
      cases hys
      rcases h with ⟨-,h⟩ | ⟨-,h⟩
      · obtain ⟨y,hy,hneed⟩ := h existingYs hexistingYs
        exact ⟨y,Finset.mem_union_left _ hy,hneed⟩
      · obtain ⟨y,hy,hneed⟩ := h incomingYs hincomingYs
        exact ⟨y,Finset.mem_union_right _ hy,hneed⟩

lemma covers_fromEvent : (RecoveryReady.fromEvent event).2.intoEvent.Covers need ↔
    event.Covers need := by
  unfold ChunkResyncEvent.Covers RecoveryReady.intoEvent RecoveryReady.fromEvent
  cases event.requestedSubChunkYs with
  | none => rfl
  | some ys => simp [ChunkResyncEvent.column]

lemma recoveryReady_enqueueRecovery (key : ColumnKey) :
    (resolver.enqueueRecovery event).recoveryReady[key]? = if event.column=key then
        some (match resolver.recoveryReady[event.column]? with
          | none => (RecoveryReady.fromEvent event).2
          | some existing => existing.merge (RecoveryReady.fromEvent event).2)
      else resolver.recoveryReady[key]? := by
  exact lookup_insert

lemma queues_enqueueRecovery (hformed : resolver.QueueFormed) (hplain : event.requestedSubChunks=none) :
    (resolver.enqueueRecovery event).QueueFormed ∧ ∀ need, resolver.Queues need ∨ event.Covers need →
        (resolver.enqueueRecovery event).Queues need := by
  constructor
  · intro key recovery hlookup
    rw [recoveryReady_enqueueRecovery] at hlookup
    split at hlookup
    · rename_i hkey
      cases hexisting : resolver.recoveryReady[event.column]? with
      | none =>
        rw [hexisting] at hlookup
        cases hlookup
        exact ⟨hkey,hplain⟩
      | some existing =>
        rw [hexisting] at hlookup
        cases hlookup
        obtain ⟨hcolumn,hnone⟩ := hformed hexisting
        exact ⟨hcolumn.trans hkey,RecoveryReady.merge_plain hnone hplain⟩
    · exact hformed hlookup
  · intro need h
    unfold BlobCacheResolver.Queues
    rw [recoveryReady_enqueueRecovery]
    by_cases hkey : event.column=need.column
    · rw [if_pos hkey]
      refine ⟨_,rfl,?_⟩
      cases hexisting : resolver.recoveryReady[event.column]? with
      | none =>
        rcases h with ⟨recovery,hlookup,-⟩ | h
        · rw [← hkey,hexisting] at hlookup
          cases hlookup
        · exact covers_fromEvent.2 h
      | some existing =>
        obtain ⟨hcolumn,hnone⟩ := hformed hexisting
        refine RecoveryReady.merge_covers hnone hplain hcolumn ?_
        rcases h with ⟨recovery,hlookup,hcovers⟩ | h
        · rw [← hkey,hexisting] at hlookup
          cases hlookup
          exact Or.inl hcovers
        · exact Or.inr (covers_fromEvent.2 h)
    · rw [if_neg hkey]
      rcases h with ⟨recovery,hlookup,hcovers⟩ | h
      · exact ⟨recovery,hlookup,hcovers⟩
      · exact absurd h.1 hkey

lemma queues_enqueueRecoveries {events : List ChunkResyncEvent} (hformed : resolver.QueueFormed)
    (hplain : ∀ event ∈ events, event.requestedSubChunks=none) :
    (resolver.enqueueRecoveries events).QueueFormed ∧
      ∀ need, (resolver.Queues need ∨ ∃ event ∈ events, event.Covers need) →
        (resolver.enqueueRecoveries events).Queues need := by
  unfold BlobCacheResolver.enqueueRecoveries
  induction events generalizing resolver with
  | nil =>
    refine ⟨hformed,fun need h=>?_⟩
    rcases h with h | ⟨event,hmem,-⟩
    · exact h
    · exact absurd hmem not_mem_nil
  | cons first events ih =>
    obtain ⟨hformed',hqueues⟩ := queues_enqueueRecovery hformed (hplain first (.head _))
    obtain ⟨hformed'',hqueues'⟩ := ih hformed' fun event hmem=>hplain event (.tail _ hmem)
    refine ⟨hformed'',fun need h=>hqueues' need ?_⟩
    rcases h with h | ⟨event,hmem,h⟩
    · exact Or.inl (hqueues need (Or.inl h))
    · rcases mem_cons.1 hmem with rfl | hmem
      · exact Or.inl (hqueues need (Or.inr h))
      · exact Or.inr ⟨event,hmem,h⟩

lemma enqueueRecoveries_eq (resolver : BlobCacheResolver) (events : List ChunkResyncEvent) :
    ∃ queue, resolver.enqueueRecoveries events = { resolver with recoveryReady := queue } := by
  unfold BlobCacheResolver.enqueueRecoveries
  induction events generalizing resolver with
  | nil => exact ⟨resolver.recoveryReady,rfl⟩
  | cons first events ih =>
    obtain ⟨queue,heq⟩ := ih (resolver.enqueueRecovery first)
    exact ⟨queue,heq⟩

end Merging

end Cinnabar.BlobCache
