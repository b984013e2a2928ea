import Cinnabar.BlobCache.Balance

/-! # The store over whole runs -/

namespace Cinnabar.BlobCache

open Std List

variable (platform : Platform)

/-- One critical section of a user of the store. -/
inductive StoreOp where
  | insert (payload : Bytes)
  | get (hash : ℕ)
  | classify (hashes : List ℕ) (shouldPin : Bool)
  | unpinAll (hashes : List ℕ)
  | admitBody (hash : ℕ) (payload : Bytes)
  /-- The bodies of a miss response, each under its digest. -/
  | publish (payloads : List Bytes)
deriving DecidableEq

def StoreOp.releases : StoreOp → Bool
  | .unpinAll _ => true
  | _ => false

namespace CacheStore

def apply (store : CacheStore) : StoreOp → CacheStore
  | .insert payload =>
    storeAfter (insertVerified platform.limits (platform.clientBlobHash payload) payload) store
  | .get hash => storeAfter (fetch hash) store
  | .classify hashes shouldPin => storeAfter (BlobCache.classify hashes shouldPin) store
  | .unpinAll hashes => store.unpinAll platform.limits hashes
  | .admitBody hash payload =>
    storeAfter (admitBody platform.clientBlobHash platform.limits hash payload) store
  | .publish payloads =>
    storeAfter (publishDelta platform (payloads.map fun payload=>(platform.clientBlobHash payload,payload))) store

def run (ops : List StoreOp) : CacheStore := ops.foldl (apply platform) {}

/-- Every resident body has the digest it is filed under. -/
def Verified (clientBlobHash : Bytes → ℕ) (store : CacheStore) : Prop :=
  ∀ {hash payload}, store.body hash=some payload → clientBlobHash payload=hash

variable {platform} {limits : BlobCacheLimits} {s t : CacheStore} {hash : ℕ}

lemma balanced_apply (h : s.Balanced) (op : StoreOp) : (s.apply platform op).Balanced := by
  cases op with
  | insert payload => exact storeAfter_of h.insertShared
  | get hash => exact storeAfter_of h.fetch
  | classify hashes shouldPin => exact storeAfter_of h.classify
  | unpinAll hashes => exact h.unpinAll
  | admitBody hash payload => exact storeAfter_of h.admitBody
  | publish payloads => exact storeAfter_of h.publishDelta

/-- Only a release is not settled with the pins it finds. -/
lemma retains_apply (op : StoreOp) (hop : op.releases=false) :
    Retains platform.clientBlobHash (fun other=>0 < s.pinCount other) s
      (s.apply platform op) := by
  cases op with
  | insert payload =>
    exact (storeAfter_of (P := Settled platform.clientBlobHash s)
      ((insertShared_spec rfl).mono (fun _ _ h=>h.1) fun _ _=>id)).2
  | get hash =>
    exact storeAfter_of (P := Retains _ _ s) (fetch_spec fun t _ hbody=>.of_body hbody)
  | classify hashes shouldPin =>
    exact storeAfter_of (P := Retains _ _ s) (classify_spec.mono (fun _ _ h=>.of_body h.1) fun _ _=>False.elim)
  | unpinAll hashes => cases hop
  | admitBody hash payload =>
    exact (storeAfter_of (P := Settled platform.clientBlobHash s) admitBody_spec).2
  | publish payloads =>
    have hvalid : ∀ blob ∈ payloads.map fun payload=>(platform.clientBlobHash payload,payload),
        platform.clientBlobHash blob.2=blob.1 := by
      intro blob hblob
      obtain ⟨payload,-,rfl⟩ := mem_map.1 hblob
      rfl
    exact (storeAfter_of (P := Settled platform.clientBlobHash s)
      ((publishDelta_spec hvalid).mono (fun _ _ h=>h.1) fun _ _ h=>h.2)).2

lemma verified_apply (h : s.Verified platform.clientBlobHash) (op : StoreOp) :
    (s.apply platform op).Verified platform.clientBlobHash := by
  intro hash payload hbody
  cases hop : op.releases with
  | false => exact ((retains_apply op hop).valid hbody).elim (fun hold=>h hold) id
  | true =>
    cases op with
    | unpinAll hashes =>
      have hretains : Retains platform.clientBlobHash (fun _=>False) s
          (s.unpinAll platform.limits hashes) := .unpinAll False.elim
      exact (hretains.valid hbody).elim (fun hold=>h hold) id
    | _ => cases hop

lemma run_keeps {P : CacheStore → Prop} (hempty : P {})
    (hstep : ∀ s op, P s → P (s.apply platform op)) (ops : List StoreOp) : P (run platform ops) := by
  unfold run
  generalize ({} : CacheStore) = s at hempty
  induction ops generalizing s with
  | nil => exact hempty
  | cons op rest ih => exact ih _ (hstep s op hempty)

lemma evictDown_stops (floor entryFloor : ℕ) (victims : List (ℕ × ℕ)) (s : CacheStore) :
    ((evictDown floor entryFloor victims s).totalBytes≤floor ∧
        (evictDown floor entryFloor victims s).entries.size≤entryFloor) ∨
      ∀ used victim, (used,victim) ∈ victims →
        (evictDown floor entryFloor victims s).body victim=none := by
  induction victims generalizing s with
  | nil => exact .inr fun used victim h=>absurd h not_mem_nil
  | cons entry rest ih =>
    obtain ⟨used,first⟩ := entry
    unfold evictDown
    split
    · rename_i hfloors
      exact .inl hfloors
    · refine (ih (s.evict first)).imp id fun hrest used' victim hmem=>?_
      rcases mem_cons.1 hmem with heq | hmem
      · cases heq
        rcases (evictDown_spec floor entryFloor rest (s.evict first)).2 first with hsame | hgone
        · rw [hsame,body_evict,if_pos rfl]
        · exact hgone.1
      · exact hrest used' victim hmem

lemma mem_victims_of {victim : ℕ} {payload : Bytes} (hbody : s.body victim=some payload)
    (hne : victim≠hash) (hpin : victim ∉ s.pins) : ∃ used, (used,victim) ∈ s.victims hash := by
  obtain ⟨entry,hentry,-⟩ := Option.map_eq_some_iff.1 hbody
  refine ⟨entry.lastUsed,?_⟩
  unfold victims
  rw [mem_mergeSort,mem_map]
  refine ⟨(victim,entry),mem_filter.2 ⟨?_,?_⟩,rfl⟩
  · exact TreeMap.mem_toList_iff_getElem?_eq_some.2 hentry
  · simpa using ⟨hne,hpin⟩

structure Trimmed (limits : BlobCacheLimits) (hash : ℕ) (s t : CacheStore) : Prop where
  pins : t.pins=s.pins
  /-- Nothing pinned goes, and not the body itself. -/
  kept : ∀ {other payload}, other ∈ s.pins ∨ other=hash → s.body other=some payload → t.body other=some payload
  /-- The floors the pressure asked for are met, or nothing else is left to evict. -/
  stopped : ((limits.trimTriggerBytes < s.totalBytes →
        t.totalBytes ≤ min limits.trimFloorBytes limits.trimTriggerBytes) ∧
      (maxClientBlobCacheEntries ≤ s.entries.size → t.entries.size ≤ maxClientBlobCacheEntries/2)) ∨
    ∀ other, other ∈ t.entries → other ∈ s.pins ∨ other=hash

lemma body_isSome : (s.body hash).isSome ↔ hash ∈ s.entries := by
  rw [body,Option.isSome_map,TreeMap.mem_iff_isSome_getElem?]

lemma trimmed_trimIfNeeded : Trimmed limits hash s (s.trimIfNeeded limits hash) := by
  unfold trimIfNeeded
  dsimp only
  split
  · rename_i hcalm
    exact ⟨rfl,fun _ h=>h,.inl ⟨fun hbytes=>absurd hbytes hcalm.2, fun hentries=>absurd hentries hcalm.1⟩⟩
  · generalize hfloor : (if limits.trimTriggerBytes < s.totalBytes then
      min limits.trimFloorBytes limits.trimTriggerBytes else s.totalBytes) = floor
    generalize hentryFloor : (if maxClientBlobCacheEntries ≤ s.entries.size then
      maxClientBlobCacheEntries/2 else s.entries.size) = entryFloor
    obtain ⟨hpins,hbody⟩ := evictDown_spec floor entryFloor (s.victims hash) s
    refine ⟨hpins,fun {other payload} hkept hhas=>?_,?_⟩
    · rcases hbody other with hsame | ⟨-,used,hmem⟩
      · exact hsame.trans hhas
      · obtain ⟨hne,hpin⟩ := mem_victims hmem
        exact hkept.elim (fun h=>absurd h hpin) fun h=>absurd h hne
    · rcases evictDown_stops floor entryFloor (s.victims hash) s with ⟨hbytes,hentries⟩ | hgone
      · refine .inl ⟨fun hpressure=>?_,fun hpressure=>?_⟩
        · rw [if_pos hpressure] at hfloor
          rw [hfloor]
          exact hbytes
        · rw [if_pos hpressure] at hentryFloor
          rw [hentryFloor]
          exact hentries
      · refine .inr fun other hother=>?_
        by_contra hfree
        obtain ⟨hpin,hne⟩ := not_or.1 hfree
        obtain ⟨payload,hhas⟩ := Option.isSome_iff_exists.1 (body_isSome.2 hother)
        rcases hbody other with hsame | ⟨hnone,-⟩
        · obtain ⟨used,hmem⟩ := mem_victims_of (hsame.symm.trans hhas) hne hpin
          cases (hgone used other hmem).symm.trans hhas
        · cases hnone.symm.trans hhas

end CacheStore

/-- In every store any history of its users leaves, the byte counts are sums over the resident
bodies, each body has its digest and the entries are within their limit; no operation but a release
of pins takes a pinned body away, and a trim stops at its floors or with nothing left to evict. -/
theorem store_balances (platform : Platform) (ops : List StoreOp) : (CacheStore.run platform ops).Balanced ∧
      (CacheStore.run platform ops).Verified platform.clientBlobHash ∧
      (∀ op : StoreOp, op.releases=false → ∀ hash payload, hash ∈ (CacheStore.run platform ops).pins →
          (CacheStore.run platform ops).body hash=some payload →
            ((CacheStore.run platform ops).apply platform op).body hash=some payload) ∧
      ∀ store hash,
        CacheStore.Trimmed platform.limits hash store (store.trimIfNeeded platform.limits hash) := by
  have hbalanced : (CacheStore.run platform ops).Balanced :=
    CacheStore.run_keeps CacheStore.balanced_empty (fun s op h => CacheStore.balanced_apply h op) ops
  refine ⟨hbalanced,?_,fun op hop hash payload hpin hbody => ?_, fun store hash => CacheStore.trimmed_trimIfNeeded⟩
  · refine CacheStore.run_keeps (P := CacheStore.Verified platform.clientBlobHash) ?_
      (fun s op h => CacheStore.verified_apply h op) ops
    intro hash payload hbody
    simp [CacheStore.body] at hbody
  · exact (CacheStore.retains_apply op hop).kept (hbalanced.pinCount_pos hpin) hbody

end Cinnabar.BlobCache
