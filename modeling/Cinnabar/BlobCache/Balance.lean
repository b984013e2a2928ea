import Cinnabar.BlobCache.Responses

/-! # The store's accounts -/

namespace Cinnabar.BlobCache

open Std

namespace CacheStore

def residentBytes (store : CacheStore) : ℕ :=
  total store.entries fun _ entry=>entry.payload.length

/-- What a body counts for under the pins. -/
def heldWeight (pins : TreeMap ℕ ℕ) (hash : ℕ) (entry : CacheEntry) : ℕ :=
  if pins.contains hash then entry.payload.length else 0

/-- The bytes of the bodies that are both pinned and resident. -/
def heldBytes (store : CacheStore) : ℕ := total store.entries (heldWeight store.pins)

structure Balanced (store : CacheStore) : Prop where
  totalBytes : store.totalBytes=store.residentBytes
  pinnedBytes : store.pinnedBytes=store.heldBytes
  counted : ∀ {hash count : ℕ}, store.pins[hash]? = some count → 0 < count
  entries : store.entries.size ≤ maxClientBlobCacheEntries
  bytes : store.totalBytes≤u64Max

variable {limits : BlobCacheLimits} {s t : CacheStore} {hash victim : ℕ} {payload : Bytes}

lemma balanced_empty : Balanced ({} : CacheStore) where
  totalBytes := rfl
  pinnedBytes := rfl
  counted := fun h=>by simp at h
  entries := Nat.zero_le _
  bytes := Nat.zero_le _

lemma total_heldWeight_le (pins : TreeMap ℕ ℕ) : total s.entries (heldWeight pins) ≤ s.residentBytes :=
  total_le_total fun hash entry _=>by
    unfold heldWeight
    split_ifs
    · exact Nat.le_refl _
    · exact Nat.zero_le _

/-- One more pinned hash counts its body from then on. -/
lemma total_heldWeight_gain {pins more : TreeMap ℕ ℕ} (hfree : pins.contains hash=false)
    (hpin : more.contains hash=true)
    (hsame : ∀ other, other≠hash → more.contains other=pins.contains other) :
    total s.entries (heldWeight more) = total s.entries (heldWeight pins) + s.payloadLen hash := by
  have hzero : heldWeight pins hash = fun _=>0 := by
    funext entry
    rw [heldWeight,hfree]
    rfl
  have hwhole : heldWeight more hash = fun entry=>entry.payload.length := by
    funext entry
    rw [heldWeight,if_pos hpin]
  rw [total_gain hzero fun other hne=>by
    funext entry
    rw [heldWeight,heldWeight,hsame other hne],hwhole]
  rfl

namespace Balanced

lemma of_same (h : s.Balanced) (hentries : t.entries=s.entries) (hpins : t.pins=s.pins)
    (htotal : t.totalBytes=s.totalBytes) (hpinned : t.pinnedBytes=s.pinnedBytes) :
    t.Balanced where
  totalBytes := by rw [htotal,h.totalBytes,residentBytes,residentBytes,hentries]
  pinnedBytes := by rw [hpinned,h.pinnedBytes,heldBytes,heldBytes,hentries,hpins]
  counted := by
    rw [hpins]
    exact h.counted
  entries := by rw [hentries]; exact h.entries
  bytes := by rw [htotal]; exact h.bytes

lemma pinCount_pos (h : s.Balanced) (hpin : hash ∈ s.pins) : 0 < s.pinCount hash := by
  rw [pinCount,TreeMap.getD_eq_getD_getElem?]
  cases hcount : s.pins[hash]? with
  | none =>
    rw [TreeMap.mem_iff_isSome_getElem?,hcount] at hpin
    cases hpin
  | some count => exact h.counted hcount

lemma touch {entry : CacheEntry} {used : ℕ} (h : s.Balanced) (hentry : s.entries[hash]? = some entry)
    (hentries : t.entries=s.entries.insert hash { entry with lastUsed := used })
    (hpins : t.pins=s.pins) (htotal : t.totalBytes=s.totalBytes)
    (hpinned : t.pinnedBytes=s.pinnedBytes) : t.Balanced where
  totalBytes := by
    rw [htotal,h.totalBytes,residentBytes,residentBytes,hentries]
    rw [total_insert_same hentry]
    rfl
  pinnedBytes := by
    rw [hpinned,h.pinnedBytes,heldBytes,heldBytes,hentries,hpins]
    rw [total_insert_same hentry]
    rfl
  counted := by
    rw [hpins]
    exact h.counted
  entries := by
    rw [hentries,TreeMap.size_insert,if_pos]
    · exact h.entries
    · rw [TreeMap.contains_eq_isSome_getElem?,hentry]
      rfl
  bytes := by rw [htotal]; exact h.bytes

lemma evict (h : s.Balanced) (hpin : victim ∉ s.pins) : (s.evict victim).Balanced := by
  have hfree : s.pins.contains victim=false := by
    rw [← Bool.not_eq_true]
    exact hpin
  have hsize := TreeMap.size_erase_le (t := s.entries) (k := victim)
  cases hentry : s.entries[victim]? with
  | none =>
    have hlen : s.payloadLen victim=0 := by simp [payloadLen,hentry]
    refine ⟨?_,?_,h.counted,hsize.trans h.entries,(Nat.sub_le _ _).trans h.bytes⟩
    · change s.totalBytes-s.payloadLen victim=total (s.entries.erase victim) _
      rw [total_erase_absent hentry,hlen,Nat.sub_zero]
      exact h.totalBytes
    · change s.pinnedBytes=total (s.entries.erase victim) _
      rw [total_erase_absent hentry]
      exact h.pinnedBytes
  | some entry =>
    have hlen : s.payloadLen victim=entry.payload.length := by simp [payloadLen,hentry]
    refine ⟨?_,?_,h.counted,hsize.trans h.entries,(Nat.sub_le _ _).trans h.bytes⟩
    · change s.totalBytes-s.payloadLen victim=total (s.entries.erase victim) _
      rw [h.totalBytes,residentBytes,total_erase hentry,hlen,Nat.add_sub_cancel_left]
    · change s.pinnedBytes=total (s.entries.erase victim) _
      rw [h.pinnedBytes,heldBytes,total_erase hentry,heldWeight,hfree]
      exact Nat.zero_add _

lemma evictDown (floor entryFloor : ℕ) {victims : List (ℕ × ℕ)} (h : s.Balanced)
    (hpins : ∀ entry ∈ victims, entry.2 ∉ s.pins) :
    (evictDown floor entryFloor victims s).Balanced := by
  induction victims generalizing s with
  | nil => exact h
  | cons entry rest ih =>
    unfold CacheStore.evictDown
    split
    · exact h
    · exact ih (h.evict (hpins entry (.head _))) fun other hother=>hpins other (.tail _ hother)

lemma trimIfNeeded (h : s.Balanced) : (s.trimIfNeeded limits hash).Balanced := by
  unfold CacheStore.trimIfNeeded
  dsimp only
  split
  · exact h
  · exact (h.evictDown _ _ fun entry hentry=>(mem_victims hentry).2).of_same rfl rfl rfl rfl

lemma reserveEntry (h : s.Balanced) : Meets (reserveEntry limits hash) s
      (fun _ t=>t.Balanced ∧ t.entries.size < maxClientBlobCacheEntries) fun _ t=>t.Balanced := by
  refine .bind (.get (.ite (fun _=>?_) fun hroom=>.pure ⟨h,Nat.lt_of_not_le hroom⟩))
  refine .bind (.modified (.bind (.get (.ite (fun _=>?_) fun hroom=>?_))))
  · exact .throw h.trimIfNeeded
  · exact .pure ⟨h.trimIfNeeded,Nat.lt_of_not_le hroom⟩

/-- What a stored body adds to the pinned bytes, when the limit allows it. -/
lemma pinnedWith : Meets (s.pinnedWith hash payload) t (fun pinned u=>u=t ∧ pinned =
        (if s.pins.contains hash then payload.length else 0) + s.pinnedBytes)
      fun _ u=>u=t := by
  unfold CacheStore.pinnedWith
  refine .ite (fun hpin=>.ite (fun _=>.throw rfl) fun hroom=>.pure ⟨rfl,?_⟩) fun hpin=>.pure ⟨rfl,?_⟩
  · rw [if_pos hpin]
    unfold saturatingAdd at hroom ⊢
    simp only [maxClientBlobPinnedBytes,maxClientBlobPendingBytes,u64Max] at hroom ⊢
    omega
  · rw [if_neg hpin,Nat.zero_add]

section

variable (h : s.Balanced)
include h

lemma insertAbsent (habsent : s.entries[hash]? = none) :
    Meets (insertAbsent limits hash payload) s (fun _ t=>t.Balanced) fun _ t=>t.Balanced := by
  have hstays : ∀ {clientBlobHash : Bytes → ℕ}, Meets (BlobCache.reserveEntry limits hash) s
      (fun _ t=>Settled clientBlobHash s t ∧ t.body hash=s.body hash)
      fun _ t=>Settled clientBlobHash s t := reserveEntry_spec
  refine .bind ((h.reserveEntry.and (@hstays fun _=>0)).mono (fun _ t ht=>?_) fun _ t ht=>ht.1)
  obtain ⟨⟨ht,hroom⟩,-,hbody⟩ := ht
  have hnone : t.entries[hash]? = none := by
    rw [← body_eq_none,hbody,body_eq_none]
    exact habsent
  refine .bind (.get (.bind ?_))
  unfold addBytes checkedAddUsize
  by_cases hbytes : t.totalBytes+payload.length≤usizeMax
  · rw [if_pos hbytes]
    refine .pure (.bind (pinnedWith.mono (fun pinned u ⟨hu,hpinned⟩=>?_) fun _ u hu=>hu ▸ ht))
    subst hu hpinned
    refine .set (trimIfNeeded ⟨?_,?_,ht.counted,?_,hbytes⟩)
    · change u.totalBytes+payload.length=total (u.entries.insert hash _) _
      rw [total_insert_absent hnone,ht.totalBytes,residentBytes,Nat.add_comm]
    · change _=total (u.entries.insert hash _) _
      rw [total_insert_absent hnone,ht.pinnedBytes]
      rfl
    · change (u.entries.insert hash _).size≤_
      have hsize := TreeMap.size_insert_le (t := u.entries) (k := hash) (v := ⟨payload,saturatingAdd u.clock 1⟩)
      omega
  · rw [if_neg hbytes]
    exact .throw ht

lemma insertShared : Meets (insertShared limits hash payload) s (fun _ t=>t.Balanced) fun _ t=>t.Balanced := by
  refine .bind (.get ?_)
  cases hentry : s.entries[hash]? with
  | some existing => exact .ite (fun _=>.throw h) fun _=>.pure h
  | none => exact h.insertAbsent hentry

lemma admitBody {clientBlobHash : Bytes → ℕ} :
    Meets (admitBody clientBlobHash limits hash payload) s (fun _ t=>t.Balanced)
      fun _ t=>t.Balanced := by
  refine .ite (fun _=>.throw h) fun _=>?_
  refine .bind (.get (.ite (fun _=>.pure h) fun _=>?_))
  exact .bind (h.insertShared.mono (fun _ _ ht=>.pure ht) fun _ _=>id)

lemma fetch : Meets (fetch hash) s (fun _ t=>t.Balanced) fun _ t=>t.Balanced := by
  refine .bind (.modified (.bind (.get ?_)))
  cases hentry : s.entries[hash]? with
  | none =>
    have hnone : s.tick.entries[hash]? = none := hentry
    rw [hnone]
    exact .pure (h.of_same rfl rfl rfl rfl)
  | some entry =>
    have hsome : s.tick.entries[hash]? = some entry := hentry
    rw [hsome]
    exact .bind (.set (.pure (h.touch hentry rfl rfl rfl rfl)))

lemma fileHash {filed : Classified} : Meets (fileHash filed hash) s (fun _ t=>t.Balanced) fun _ t=>t.Balanced := by
  refine .bind (.get ?_)
  cases hentry : s.entries[hash]? with
  | some entry => exact .bind (.set (.pure (h.touch hentry rfl rfl rfl rfl)))
  | none => exact .pure h

lemma pin : (s.pin hash).Balanced where
  __ := h
  pinnedBytes := by
    have hkeys : ∀ other, (s.pins.insert hash (s.pins.getD hash 0+1)).contains other =
        (decide (hash=other) || s.pins.contains other) := fun other=>by
      rw [Bool.eq_iff_iff,Bool.or_eq_true,decide_eq_true_eq,TreeMap.contains_insert,
        Bool.or_eq_true,beq_iff_eq,Std.compare_eq_iff_eq]
    unfold CacheStore.pin
    cases hpin : s.pins.contains hash with
    | true =>
      rw [h.pinnedBytes,heldBytes]
      refine total_congr fun other entry _=>?_
      rw [heldWeight,heldWeight,hkeys]
      by_cases heq : hash=other
      · rw [← heq,hpin,Bool.or_true]
      · rw [decide_eq_false heq,Bool.false_or]
    | false =>
      have hgain : total s.entries (heldWeight (s.pins.insert hash (s.pins.getD hash 0+1))) =
          s.heldBytes+s.payloadLen hash :=
        total_heldWeight_gain hpin (by rw [hkeys]; simp)
          fun other hne=>by rw [hkeys,decide_eq_false (Ne.symm hne),Bool.false_or]
      have hle : s.heldBytes+s.payloadLen hash ≤ s.residentBytes := by
        rw [← hgain]
        exact total_heldWeight_le _
      have hbytes := h.bytes
      rw [h.totalBytes] at hbytes
      change saturatingAdd s.pinnedBytes (s.payloadLen hash) = total s.entries (heldWeight _)
      rw [hgain,h.pinnedBytes,saturatingAdd,min_eq_left (hle.trans hbytes)]
  counted := by
    intro other count hcount
    rw [CacheStore.pin,lookup_insert] at hcount
    split_ifs at hcount
    · cases hcount
      exact Nat.succ_pos _
    · exact h.counted hcount

lemma classifyHash {shouldPin : Bool} {filed : Classified} :
    Meets (classifyHash shouldPin filed hash) s (fun _ t=>t.Balanced) fun _ t=>t.Balanced := by
  refine .bind (h.fileHash.mono (fun filed' t ht=>?_) fun _ _=>id)
  exact .bind (.ite (fun _=>.modified (.pure ht.pin)) fun _=>.pure (.pure ht))

lemma classify {hashes : List ℕ} {shouldPin : Bool} :
    Meets (classify hashes shouldPin) s (fun _ t=>t.Balanced) fun _ t=>t.Balanced := by
  unfold BlobCache.classify
  generalize ({} : Classified) = filed
  induction hashes generalizing s filed with
  | nil => exact .pure h
  | cons first rest ih =>
    exact .bind (h.classifyHash.mono (fun filed' t ht=>ih ht filed') fun _ _=>id)

/-- The last pin of a hash goes. -/
lemma release (hpin : s.pins.contains hash=true) :
    ({ s with
      pins := s.pins.erase hash
      pinnedBytes := s.pinnedBytes-s.payloadLen hash } : CacheStore).Balanced where
  __ := h
  pinnedBytes := by
    have hgain : s.heldBytes=total s.entries (heldWeight (s.pins.erase hash)) +
        s.payloadLen hash :=
      total_heldWeight_gain (by simp) hpin fun other hne=>by
        rw [Bool.eq_iff_iff,TreeMap.contains_erase,Bool.and_eq_true,bne_iff_ne,ne_eq, Std.compare_eq_iff_eq]
        exact ⟨fun hin=>⟨Ne.symm hne,hin⟩,And.right⟩
    change s.pinnedBytes-s.payloadLen hash=total s.entries (heldWeight _)
    rw [h.pinnedBytes,hgain,Nat.add_sub_cancel]
  counted := by
    intro other count hcount
    rw [lookup_erase] at hcount
    split_ifs at hcount
    exact h.counted hcount

lemma unpin : (s.unpin limits hash).Balanced := by
  unfold CacheStore.unpin
  cases hcount : s.pins[hash]? with
  | none => exact h
  | some count =>
    have hpin : s.pins.contains hash=true := by
      rw [TreeMap.contains_eq_isSome_getElem?,hcount]
      rfl
    dsimp only
    split_ifs with hzero howed
    · have hgone : hash ∉ s.pins.erase hash := by simp
      exact ((h.release hpin).evict hgone).of_same rfl rfl rfl rfl
    · exact h.release hpin
    · refine ⟨h.totalBytes,?_,?_,h.entries,h.bytes⟩
      · rw [h.pinnedBytes,heldBytes]
        refine total_congr fun other entry _=>?_
        have hkeys : (s.pins.insert hash (count-1)).contains other=s.pins.contains other := by
          rw [Bool.eq_iff_iff,TreeMap.contains_insert,Bool.or_eq_true,beq_iff_eq, Std.compare_eq_iff_eq]
          refine ⟨fun hin=>hin.elim (fun heq=>heq ▸ hpin) id,Or.inr⟩
        rw [heldWeight,heldWeight,hkeys]
      · intro other left hleft
        rw [lookup_insert] at hleft
        split_ifs at hleft
        · cases hleft
          exact Nat.pos_of_ne_zero hzero
        · exact h.counted hleft

lemma unpinAll {hashes : List ℕ} : (s.unpinAll limits hashes).Balanced := by
  induction hashes generalizing s with
  | nil => exact h
  | cons first rest ih => exact ih h.unpin

lemma insertAll {platform : Platform} {blobs : List (ℕ × Bytes)} :
    Meets (insertAll platform blobs) s (fun _ t=>t.Balanced) fun _ t=>t.Balanced := by
  induction blobs generalizing s with
  | nil => exact .pure h
  | cons first rest ih => exact .bind (h.insertShared.mono (fun _ t ht=>ih ht) fun _ _=>id)

lemma publishDelta {platform : Platform} {unique : List (ℕ × Bytes)} :
    Meets (publishDelta platform unique) s (fun _ t=>t.Balanced) fun _ t=>t.Balanced := by
  refine .bind (validateDelta_spec.mono (fun _ t ht=>?_) fun _ t ht=>?_)
  · rw [ht]
    exact h.insertAll
  · rw [ht.2]
    exact h

end

end Balanced

end CacheStore

end Cinnabar.BlobCache
