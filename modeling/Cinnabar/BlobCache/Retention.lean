import Cinnabar.BlobCache.Store
import Cinnabar.Library.Maps

/-! # What the store keeps -/

namespace Cinnabar.BlobCache

open Std List

namespace CacheStore

def body (store : CacheStore) (hash : ℕ) : Option Bytes :=
  (store.entries[hash]?).map (·.payload)

def pinCount (store : CacheStore) (hash : ℕ) : ℕ := store.pins.getD hash 0

/-- Bodies of `keep` stay, and new bodies have the digest they are filed under. -/
structure Retains (clientBlobHash : Bytes → ℕ) (keep : ℕ → Prop) (s t : CacheStore) : Prop where
  kept : ∀ {hash payload}, keep hash → s.body hash=some payload → t.body hash=some payload
  valid : ∀ {hash payload}, t.body hash=some payload → s.body hash=some payload ∨ clientBlobHash payload=hash

variable {clientBlobHash : Bytes → ℕ} {keep : ℕ → Prop} {limits : BlobCacheLimits}
  {s t u : CacheStore} {hash victim : ℕ} {payload : Bytes}

namespace Retains

lemma refl : Retains clientBlobHash keep s s := ⟨fun _ h=>h,Or.inl⟩

lemma of_body (h : t.body=s.body) : Retains clientBlobHash keep s t where
  kept _ hs := by rw [h]; exact hs
  valid ht := Or.inl (by rw [← h]; exact ht)

lemma trans (h : Retains clientBlobHash keep s t) (h' : Retains clientBlobHash keep t u) :
    Retains clientBlobHash keep s u where
  kept hkeep hs := h'.kept hkeep (h.kept hkeep hs)
  valid hu := (h'.valid hu).elim h.valid Or.inr

end Retains

lemma body_eq_none : s.body hash=none ↔ s.entries[hash]? = none := by
  simp [body]

lemma mem_pins_of_pinCount (h : 0 < s.pinCount hash) : hash ∈ s.pins := by
  by_contra hc
  rw [pinCount,TreeMap.getD_eq_fallback hc] at h
  exact absurd h (by decide)

section Trimming

@[simp] lemma pins_evict : (s.evict victim).pins=s.pins := rfl

lemma body_evict : (s.evict victim).body hash = if victim=hash then none else s.body hash := by
  simp only [body,evict,lookup_erase]
  split <;> rfl

lemma evictDown_spec (floor entryFloor : ℕ) (victims : List (ℕ × ℕ)) (s : CacheStore) :
    (evictDown floor entryFloor victims s).pins=s.pins ∧
      ∀ hash, (evictDown floor entryFloor victims s).body hash=s.body hash ∨
        ((evictDown floor entryFloor victims s).body hash=none ∧
          ∃ used, (used,hash) ∈ victims) := by
  induction victims generalizing s with
  | nil => exact ⟨rfl,fun _=>Or.inl rfl⟩
  | cons entry victims ih =>
    obtain ⟨used,victim⟩ := entry
    unfold evictDown
    split
    · exact ⟨rfl,fun _=>Or.inl rfl⟩
    · obtain ⟨hpins,hbody⟩ := ih (s.evict victim)
      refine ⟨by rw [hpins,pins_evict],fun hash=>?_⟩
      rcases hbody hash with h | ⟨h,used',hmem⟩
      · rw [body_evict] at h
        split at h
        · rename_i heq
          exact Or.inr ⟨h,used,by simp [heq]⟩
        · exact Or.inl h
      · exact Or.inr ⟨h,used',.tail _ hmem⟩

lemma mem_victims {used : ℕ} (h : (used,victim) ∈ s.victims hash) : victim≠hash ∧ victim ∉ s.pins := by
  unfold victims at h
  rw [mem_mergeSort,mem_map] at h
  obtain ⟨entry,hmem,heq⟩ := h
  cases heq
  simpa using (mem_filter.1 hmem).2

/-- A trim leaves the pins, the given body and every pinned body alone. -/
lemma trimIfNeeded_spec : (s.trimIfNeeded limits hash).pins=s.pins ∧
      ∀ other, (s.trimIfNeeded limits hash).body other=s.body other ∨
        ((s.trimIfNeeded limits hash).body other=none ∧ other≠hash ∧
          s.pinCount other=0) := by
  unfold trimIfNeeded
  dsimp only
  split
  · exact ⟨rfl,fun _=>Or.inl rfl⟩
  · obtain ⟨hpins,hbody⟩ := evictDown_spec (if limits.trimTriggerBytes < s.totalBytes then
        min limits.trimFloorBytes limits.trimTriggerBytes else s.totalBytes)
      (if maxClientBlobCacheEntries ≤ s.entries.size then maxClientBlobCacheEntries/2
        else s.entries.size) (s.victims hash) s
    refine ⟨hpins,fun other=>?_⟩
    rcases hbody other with h | ⟨h,used,hmem⟩
    · exact Or.inl h
    · obtain ⟨hne,hpin⟩ := mem_victims hmem
      refine Or.inr ⟨h,hne,?_⟩
      by_contra hcount
      exact hpin (mem_pins_of_pinCount (Nat.pos_of_ne_zero hcount))

lemma Retains.trimIfNeeded (hkeep : ∀ {other}, keep other → 0 < s.pinCount other) :
    Retains clientBlobHash keep s (s.trimIfNeeded limits hash) where
  kept hk hs := by
    rcases trimIfNeeded_spec.2 _ with h | ⟨-,-,hpin⟩
    · rw [h]; exact hs
    · exact absurd (hkeep hk) (by rw [hpin]; exact Nat.lt_irrefl 0)
  valid ht := by
    rcases trimIfNeeded_spec.2 _ with h | ⟨hnone,-,-⟩
    · exact Or.inl (by rw [← h]; exact ht)
    · rw [hnone] at ht
      cases ht

end Trimming

section Inserting

variable {m : StoreM PUnit}

lemma meets_addBytes {σ : Type} {a b : ℕ} {w : σ} {Q : ℕ → σ → Prop}
    {E : BlobCacheError → σ → Prop} (hQ : Q (a+b) w) (hE : E .byteCountOverflow w) :
    Meets (addBytes a b) w Q E := by
  unfold addBytes checkedAddUsize
  by_cases h : a+b≤usizeMax
  · rw [if_pos h]
    exact .pure hQ
  · rw [if_neg h]
    exact .throw hE

def Settled (clientBlobHash : Bytes → ℕ) (s t : CacheStore) : Prop :=
  t.pins=s.pins ∧ Retains clientBlobHash (fun other=>0 < s.pinCount other) s t

lemma Settled.refl : Settled clientBlobHash s s := ⟨rfl,.refl⟩

lemma Settled.trans (h : Settled clientBlobHash s t) (h' : Settled clientBlobHash t u) :
    Settled clientBlobHash s u := by
  refine ⟨h'.1.trans h.1,h.2.trans ⟨fun hk=>h'.2.kept ?_,h'.2.valid⟩⟩
  simpa only [pinCount,h.1] using hk

lemma settled_trimIfNeeded : Settled clientBlobHash s (s.trimIfNeeded limits hash) :=
  ⟨trimIfNeeded_spec.1,.trimIfNeeded id⟩

lemma body_trimIfNeeded : (s.trimIfNeeded limits hash).body hash=s.body hash := by
  have hspec : ∀ other, (s.trimIfNeeded limits hash).body other=s.body other ∨ _ := trimIfNeeded_spec.2
  rcases hspec hash with h | ⟨-,h,-⟩
  · exact h
  · exact absurd rfl h

lemma reserveEntry_spec : Meets (reserveEntry limits hash) s
      (fun _ t=>Settled clientBlobHash s t ∧ t.body hash=s.body hash)
      fun _ t=>Settled clientBlobHash s t := by
  refine .bind (.get (.ite (fun _=>?_) fun _=>.pure ⟨.refl,rfl⟩))
  refine .bind (.modified (.bind (.get (.ite (fun _=>?_) fun _=>?_))))
  · exact .throw settled_trimIfNeeded
  · exact .pure ⟨settled_trimIfNeeded,body_trimIfNeeded⟩

lemma pinnedWith_spec : Meets (s.pinnedWith hash payload) t (fun _ u=>u=t) fun _ u=>u=t := by
  unfold pinnedWith
  refine .ite (fun _=>.ite (fun _=>.throw rfl) fun _=>.pure rfl) fun _=>.pure rfl

/-- The body is stored, and nothing pinned gives way to it. -/
lemma insertAbsent_spec (hvalid : clientBlobHash payload=hash) (habsent : s.body hash=none) :
    Meets (insertAbsent limits hash payload) s (fun _ t=>Settled clientBlobHash s t ∧ t.body hash=some payload)
      fun _ t=>Settled clientBlobHash s t := by
  refine .bind (reserveEntry_spec.mono (fun _ t ⟨ht,hnone⟩=>?_) fun _ _=>id)
  refine .bind (.get (.bind (meets_addBytes ?_ ht)))
  refine .bind (pinnedWith_spec.mono (fun pinned t' htt'=>?_) fun _ t' htt'=>htt' ▸ ht)
  subst htt'
  set stored : CacheStore := { t' with
    clock := saturatingAdd t'.clock 1
    totalBytes := t'.totalBytes+payload.length
    pinnedBytes := pinned
    entries := t'.entries.insert hash ⟨payload,saturatingAdd t'.clock 1⟩ } with hstored
  have hbody : ∀ other, stored.body other = if hash=other then some payload else t'.body other := by
    intro other
    simp only [hstored,body,lookup_insert]
    split <;> rfl
  have hinsert : Settled clientBlobHash t' stored := by
    refine ⟨rfl,fun {other p} _ hp=>?_,fun {other p} hp=>?_⟩
    · rw [hbody]
      split
      · rename_i heq
        rw [← heq,hnone,habsent] at hp
        cases hp
      · exact hp
    · rw [hbody] at hp
      split at hp
      · rename_i heq
        cases hp
        exact Or.inr (hvalid.trans heq)
      · exact Or.inl hp
  refine ⟨ht.trans (hinsert.trans settled_trimIfNeeded),?_⟩
  rw [body_trimIfNeeded,hbody,if_pos rfl]

lemma insertShared_spec (hvalid : clientBlobHash payload=hash) : Meets (insertShared limits hash payload) s
      (fun _ t=>Settled clientBlobHash s t ∧ t.body hash=some payload)
      fun _ t=>Settled clientBlobHash s t := by
  refine .bind (.get ?_)
  cases hentry : s.entries[hash]? with
  | some existing =>
    refine .ite (fun _=>.throw .refl) fun heq=>.pure ⟨.refl,?_⟩
    rw [not_not] at heq
    simp [body,hentry,heq]
  | none => exact insertAbsent_spec hvalid (body_eq_none.2 hentry)

lemma admitBody_spec : Meets (admitBody clientBlobHash limits hash payload) s
      (fun _ t=>Settled clientBlobHash s t) fun _ t=>Settled clientBlobHash s t := by
  refine .ite (fun _=>.throw .refl) fun hvalid=>?_
  rw [not_not] at hvalid
  refine .bind (.get (.ite (fun _=>.pure .refl) fun _=>?_))
  exact .bind ((insertShared_spec hvalid).mono (fun _ _ h=>.pure h.1) fun _ _=>id)

end Inserting

section Touching

lemma body_touch {entry : CacheEntry} {used : ℕ} (h : s.entries[hash]? = some entry)
    (ht : t.entries=s.entries.insert hash { entry with lastUsed := used }) : t.body=s.body := by
  funext other
  rw [body,ht,lookup_insert]
  split
  · rename_i heq
    rw [← heq,body,h]
    rfl
  · rfl

lemma fetch_spec {Q : Option Bytes → CacheStore → Prop} {E : BlobCacheError → CacheStore → Prop}
    (h : ∀ t, t.pins=s.pins → t.body=s.body → Q (s.body hash) t) :
    Meets (fetch hash) s Q E := by
  refine .bind (.modified (.bind (.get ?_)))
  cases hentry : s.entries[hash]? with
  | none =>
    have hnone : s.tick.entries[hash]? = none := hentry
    rw [hnone]
    exact .pure (body_eq_none.2 hentry ▸ h s.tick rfl rfl)
  | some entry =>
    have hsome : s.tick.entries[hash]? = some entry := hentry
    rw [hsome]
    have hq := h { s.tick with
      entries := s.entries.insert hash { entry with lastUsed := s.tick.clock } } rfl
      (body_touch hentry rfl)
    rw [show s.body hash=some entry.payload by simp [body,hentry]] at hq
    exact .bind (.set (.pure hq))

end Touching

section Pinning

lemma pinCount_pin (victim : ℕ) : (s.pin victim).pinCount hash=s.pinCount hash + if victim=hash then 1 else 0 := by
  simp only [pin,pinCount,count_insert]
  split
  · rename_i heq
    rw [heq]
  · rfl

def pinsOf (shouldPin : Bool) (hashes : List ℕ) (hash : ℕ) : ℕ :=
  if shouldPin then hashes.count hash else 0

lemma fileHash_spec {filed : Classified} : Meets (fileHash filed hash) s (fun filed' t=>t.body=s.body ∧ t.pins=s.pins ∧
        filed'.held=filed.held ++ [hash].filter (fun other=>(s.body other).isSome) ∧
        filed'.missing=filed.missing ++ [hash].filter fun other=>(s.body other).isNone)
      fun _ _=>False := by
  refine .bind (.get ?_)
  cases hentry : s.entries[hash]? with
  | some entry =>
    refine .bind (.set (.pure ⟨body_touch hentry rfl,rfl,?_,?_⟩))
    · rw [filter_singleton,body,hentry]
      rfl
    · rw [filter_singleton,body,hentry]
      simp
  | none =>
    refine .pure ⟨rfl,rfl,?_,?_⟩
    · rw [filter_singleton,body,hentry]
      simp
    · rw [filter_singleton,body,hentry]
      rfl

lemma pinWhen_spec {shouldPin : Bool} : Meets (pinWhen shouldPin hash) s (fun _ t=>t.body=s.body ∧
        ∀ other, t.pinCount other=s.pinCount other+pinsOf shouldPin [hash] other)
      fun _ _=>False := by
  refine .ite (fun hpin=>.modified ⟨rfl,fun other=>?_⟩) fun hpin=>.pure ⟨rfl,fun other=>?_⟩
  · rw [pinCount_pin,pinsOf,if_pos hpin,count_singleton]
    simp
  · rw [pinsOf,if_neg hpin,Nat.add_zero]

lemma classifyHash_spec {shouldPin : Bool} {filed : Classified} :
    Meets (classifyHash shouldPin filed hash) s (fun filed' t=>t.body=s.body ∧
        (∀ other, t.pinCount other=s.pinCount other+pinsOf shouldPin [hash] other) ∧
        filed'.held=filed.held ++ [hash].filter (fun other=>(s.body other).isSome) ∧
        filed'.missing=filed.missing ++ [hash].filter fun other=>(s.body other).isNone)
      fun _ _=>False := by
  refine .bind (fileHash_spec.mono (fun filed' t ⟨hbody,hpins,hheld,hmissing⟩=>?_) fun _ _=>id)
  refine .bind (pinWhen_spec.mono (fun _ u ⟨hbody',hpins'⟩=>?_) fun _ _=>id)
  refine .pure ⟨hbody'.trans hbody,fun other=>?_,hheld,hmissing⟩
  rw [hpins',pinCount,hpins]
  rfl

lemma classify_spec {shouldPin : Bool} {hashes : List ℕ} : Meets (classify hashes shouldPin) s
      (fun filed t=>t.body=s.body ∧ (∀ other, t.pinCount other=s.pinCount other+pinsOf shouldPin hashes other) ∧
        filed.held=hashes.filter (fun other=>(s.body other).isSome) ∧
        filed.missing=hashes.filter fun other=>(s.body other).isNone)
      fun _ _=>False := by
  suffices h : ∀ (rest : List ℕ) (filed : Classified) (u : CacheStore), u.body=s.body →
      Meets (rest.foldlM (classifyHash shouldPin) filed) u (fun filed' t=>t.body=s.body ∧
          (∀ other, t.pinCount other=u.pinCount other+pinsOf shouldPin rest other) ∧
          filed'.held=filed.held++rest.filter (fun other=>(s.body other).isSome) ∧
          filed'.missing=filed.missing++rest.filter fun other=>(s.body other).isNone)
        fun _ _=>False from
    (h hashes {} s rfl).mono (fun _ _ ⟨hb,hp,hh,hm⟩=>⟨hb,hp,by simpa using hh,by simpa using hm⟩) fun _ _=>id
  intro rest
  induction rest with
  | nil =>
    intro filed u hu
    exact .pure ⟨hu,fun other=>by simp [pinsOf],by simp,by simp⟩
  | cons first rest ih =>
    intro filed u hu
    refine .bind (classifyHash_spec.mono (fun filed' t ⟨hb,hp,hh,hm⟩=>?_) fun _ _=>id)
    rw [hu] at hb hh hm
    refine (ih filed' t hb).mono (fun filed'' v ⟨hb',hp',hh',hm'⟩=>?_) fun _ _=>id
    refine ⟨hb',fun other=>?_,?_,?_⟩
    · rw [hp',hp,pinsOf,pinsOf,pinsOf]
      split
      · rw [count_singleton,count_cons]
        omega
      · rfl
    · rw [hh',hh,append_assoc,← filter_append]
      rfl
    · rw [hm',hm,append_assoc,← filter_append]
      rfl

lemma unpin_spec (s : CacheStore) (limits : BlobCacheLimits) (hash : ℕ) :
    (∀ other, (s.unpin limits hash).pinCount other=s.pinCount other - if hash=other then 1 else 0) ∧
      ∀ other, (s.unpin limits hash).body other=s.body other ∨
        ((s.unpin limits hash).body other=none ∧ other=hash ∧ s.pinCount hash≤1) := by
  unfold unpin
  cases hcount : s.pins[hash]? with
  | none =>
    refine ⟨fun other=>?_,fun _=>Or.inl rfl⟩
    dsimp only
    split
    · rename_i heq
      simp [← heq,pinCount,TreeMap.getD_eq_getD_getElem?,hcount]
    · rfl
  | some count =>
    have hpin : s.pinCount hash=count := by
      simp [pinCount,TreeMap.getD_eq_getD_getElem?,hcount]
    have hpins : ∀ {t : CacheStore}, t.pins=s.pins.erase hash → count-1=0 →
        ∀ other, t.pinCount other=s.pinCount other - if hash=other then 1 else 0 := by
      intro t ht hzero other
      rw [pinCount,ht,count_erase]
      split
      · rename_i heq
        rw [← heq,hpin,hzero]
      · rfl
    dsimp only
    split
    · rename_i hzero
      split
      · refine ⟨hpins rfl hzero,fun other=>?_⟩
        by_cases heq : hash=other
        · refine Or.inr ⟨?_,heq.symm,by omega⟩
          change (CacheStore.evict _ hash).body other=none
          rw [body_evict,if_pos heq]
        · left
          change (CacheStore.evict _ hash).body other=_
          rw [body_evict,if_neg heq]
          rfl
      · exact ⟨hpins rfl hzero,fun _=>Or.inl rfl⟩
    · refine ⟨fun other=>?_,fun _=>Or.inl rfl⟩
      simp only [pinCount,count_insert]
      split
      · rename_i heq
        rw [← heq,← hpin]
        rfl
      · rfl

/-- Released pins take with them only bodies nobody else pins. -/
lemma unpinAll_spec (hashes : List ℕ) : (∀ other, (s.unpinAll limits hashes).pinCount other =
      s.pinCount other-hashes.count other) ∧
      ∀ other, (s.unpinAll limits hashes).body other=s.body other ∨ ((s.unpinAll limits hashes).body other=none ∧
          s.pinCount other≤hashes.count other) := by
  unfold unpinAll
  induction hashes generalizing s with
  | nil => exact ⟨fun _=>rfl,fun _=>Or.inl rfl⟩
  | cons first hashes ih =>
    rw [foldl_cons]
    obtain ⟨hpins,hbody⟩ := ih (s := s.unpin limits first)
    obtain ⟨hpins',hbody'⟩ := unpin_spec s limits first
    refine ⟨fun other=>?_,fun other=>?_⟩
    · rw [hpins,hpins',count_cons]
      simp only [beq_iff_eq]
      omega
    · rw [count_cons]
      simp only [beq_iff_eq]
      rcases hbody other with h | ⟨h,hle⟩
      · rcases hbody' other with h' | ⟨h',heq,hle⟩
        · exact Or.inl (h.trans h')
        · refine Or.inr ⟨h.trans h',?_⟩
          rw [if_pos heq.symm,heq]
          omega
      · refine Or.inr ⟨h,?_⟩
        rw [hpins'] at hle
        omega

lemma Retains.unpinAll {hashes : List ℕ} (hkeep : ∀ {other}, keep other → hashes.count other < s.pinCount other) :
    Retains clientBlobHash keep s (s.unpinAll limits hashes) where
  kept hk hs := by
    rcases (unpinAll_spec hashes).2 _ with h | ⟨-,hle⟩
    · rw [h]; exact hs
    · exact absurd (hkeep hk) (Nat.not_lt.2 hle)
  valid ht := by
    rcases (unpinAll_spec hashes).2 _ with h | ⟨hnone,-⟩
    · exact Or.inl (by rw [← h]; exact ht)
    · rw [hnone] at ht
      cases ht

end Pinning

end CacheStore

end Cinnabar.BlobCache
