import Cinnabar.Ingest.Accounting

/-! # Ingress reservations -/

namespace Cinnabar.Ingest

open List

namespace OrderedCommitState

variable {S V O : Type} {s s' : OrderedCommitState S V O} {Known : ℕ → Prop} {kept kept' : List ℕ}

/-- A retained payload owns the light credit its admission needs. -/
def Credited (s : OrderedCommitState S V O) (n : ℕ) : Prop :=
  ∀ footprint, s.retainedIngressFootprint n=some footprint → footprint.heavy=true ∨ s.reservation n=some true

variable {n : ℕ} {footprint : Footprint}

lemma retained_eq {reserved : Bool} {slot : Slot S V O}
    (h : s.entries.lookup n=some ⟨footprint,.ingress reserved,slot⟩) :
    s.retainedIngressFootprint n=some footprint ∧ s.reservation n=some reserved := by
  unfold retainedIngressFootprint reservation
  rw [h]
  exact ⟨rfl,rfl⟩

lemma retained_congr (h : s'.entries.lookup n=s.entries.lookup n) :
    s'.retainedIngressFootprint n=s.retainedIngressFootprint n := by
  unfold retainedIngressFootprint
  rw [h]

lemma Accounted.entry (h : s.Accounted Known kept) (hn : n ∈ kept) :
    ∃ footprint reserved, s.entries.lookup n=some ⟨footprint,.ingress reserved,.waiting⟩ := by
  have hsome := (h.reserved n).1 hn
  cases hlook : s.entries.lookup n with
  | none =>
    rw [reservation_of_lookup_none hlook] at hsome
    cases hsome
  | some entry =>
    obtain ⟨footprint,reserved,rfl⟩ := h.waiting hlook hsome
    exact ⟨footprint,reserved,rfl⟩

/-- The account does not depend on the order of the retained payloads. -/
lemma Accounted.perm (h : s.Accounted Known kept) (hperm : kept.Perm kept') : s.Accounted Known kept' where
  __ := h
  reserved := fun n=>hperm.mem_iff.symm.trans (h.reserved n)
  nodup := hperm.nodup_iff.1 h.nodup
  ingress := h.ingress.trans hperm.length_eq
  ingressLight := h.ingressLight.trans (hperm.countP_eq _)

lemma countP_reserved (hn : n ∉ kept) (hother : ∀ m, m≠n → s'.reservation m=s.reservation m) :
    kept.countP (fun m=>s'.reservation m=some true) =
      kept.countP fun m=>s.reservation m=some true := by
  refine countP_congr fun m hm=>?_
  rw [hother m fun hmn=>hn (by rwa [← hmn])]

/-- Giving a retained payload its light credit. -/
lemma Accounted.credit (h : s.Accounted Known (n::kept))
    (hlook : s.entries.lookup n=some ⟨footprint,.ingress false,.waiting⟩)
    (hentries : s'.entries=s.entries.insert n ⟨footprint,.ingress true,.waiting⟩)
    (hworking : s'.Working Known) (hfinished : s'.Finished Known)
    (hpending : s'.pendingSubChunks=s.pendingSubChunks) (hingress : s'.ingress=s.ingress)
    (hlight : s'.ingressLight=s.ingressLight+1) : s'.Accounted Known (n::kept) := by
  have hself : s'.entries.lookup n=some ⟨footprint,.ingress true,.waiting⟩ := by
    rw [hentries,Finmap.lookup_insert]
  have hother : ∀ m, m≠n → s'.entries.lookup m=s.entries.lookup m := by
    intro m hm
    rw [hentries,Finmap.lookup_insert_of_ne _ hm]
  have hres : ∀ m, m≠n → s'.reservation m=s.reservation m := fun m hm =>
    reservation_congr (hother m hm)
  have hnew := (retained_eq hself).2
  have hold := (retained_eq hlook).2
  have hnotin : n ∉ kept := (nodup_cons.1 h.nodup).1
  refine ⟨hworking,hfinished,fun m=>?_,h.nodup,fun {m e} he hm=>?_,
    fun {m} hm hnone=>?_,fun {p} hp e he=>?_,hingress.trans h.ingress,?_⟩
  · by_cases hmn : m=n
    · rw [hmn,hnew]
      simp
    · rw [hres m hmn]
      exact h.reserved m
  · by_cases hmn : m=n
    · rw [hmn,hself] at he
      cases he
      exact ⟨footprint,true,rfl⟩
    · rw [hother m hmn] at he
      rw [hres m hmn] at hm
      exact h.waiting he hm
  · by_cases hmn : m=n
    · rw [hmn,hnew] at hnone
      cases hnone
    · rw [hother m hmn] at hm
      rw [hres m hmn] at hnone
      exact h.known hm hnone
  · rw [hpending] at hp
    by_cases hpn : p.sequence=n
    · have hpopped := h.popped (p := p) hp (by rw [hpn]; exact hlook)
      cases hpopped
    · rw [hother _ hpn] at he
      exact h.popped hp he
  · have hcount := countP_reserved hnotin hres
    rw [hlight,h.ingressLight,countP_cons,countP_cons,hcount]
    simp [hnew,hold]

structure Reserves (s s' : OrderedCommitState S V O) (retainedCommits n : ℕ) (credit : Bool) :
    Prop where
  footprint : ∀ m, s'.retainedIngressFootprint m=s.retainedIngressFootprint m
  credited : credit=true → s'.Credited n
  stays : ∀ m, s.Credited m → s'.Credited m
  room : 0 < s.lightCapacity retainedCommits → credit=true ∧
    ∀ footprint, s.retainedIngressFootprint n=some footprint → if footprint.heavy then s'=s
      else ∃ capacity, s'.retainedIngressLightCapacity n retainedCommits=some capacity ∧ 0 < capacity

lemma Accounted.reserve (h : s.Accounted Known kept) (hn : n ∈ kept)
    (retainedCommits : ℕ) : ∃ credit s', s.reserveIngressLight n retainedCommits =
      some (credit,s') ∧ s'.Accounted Known kept ∧ Reserves s s' retainedCommits n credit := by
  obtain ⟨footprint,reserved,hlook⟩ := h.entry hn
  obtain ⟨hfootprint,hreserved⟩ := retained_eq hlook
  have hcap : s.retainedIngressLightCapacity n retainedCommits =
      some (s.lightCapacityWithReservations retainedCommits (s.ingressLight-reserved.toNat)) := by
    unfold retainedIngressLightCapacity
    rw [hlook]
  unfold reserveIngressLight
  rw [hlook]
  dsimp only
  split_ifs with howned hfull
  · refine ⟨true,s,rfl,h,fun _=>rfl,fun _ f hf=>?_,fun _=>id,fun hroom=>⟨rfl,fun f hf=>?_⟩⟩
    · rw [hfootprint] at hf
      cases hf
      rw [hreserved]
      simpa using howned
    · rw [hfootprint] at hf
      split_ifs
      · rfl
      · refine ⟨_,hcap,?_⟩
        unfold lightCapacity lightCapacityWithReservations at hroom
        unfold lightCapacityWithReservations
        omega
  · refine ⟨false,s,rfl,h,fun _=>rfl,(fun hfalse=>nomatch hfalse),fun _=>id,fun hroom=>?_⟩
    rw [hfull] at hroom
    exact absurd hroom (lt_irrefl 0)
  · rw [Bool.or_eq_true,not_or,Bool.not_eq_true,Bool.not_eq_true] at howned
    obtain ⟨hlight,hunreserved⟩ := howned
    subst hunreserved
    obtain ⟨rest,hperm⟩ : ∃ rest, kept.Perm (n::rest) := ⟨kept.erase n,perm_cons_erase hn⟩
    have hself : (s.entries.insert n ⟨footprint,.ingress true,.waiting⟩).lookup n =
        some ⟨footprint,.ingress true,.waiting⟩ := Finmap.lookup_insert _
    have hother : ∀ m, m≠n → (s.entries.insert n ⟨footprint,.ingress true,.waiting⟩).lookup m =
        s.entries.lookup m := fun m hm=>Finmap.lookup_insert_of_ne _ hm
    generalize hs' : ({ s with
      ingressLight := s.ingressLight+1
      entries := s.entries.insert n ⟨footprint,.ingress true,.waiting⟩ } : OrderedCommitState S V O) = t
    have hentries : t.entries=s.entries.insert n ⟨footprint,.ingress true,.waiting⟩ := by
      rw [← hs']
    rw [← hentries] at hself hother
    have haccounted : t.Accounted Known (n::rest) := by
      refine (h.perm hperm).credit hlook hentries (h.working.congr ?_ ?_ ?_ ?_)
        (h.finished.congr ?_ ?_) ?_ ?_ ?_ <;> rw [← hs']
    have hsame : ∀ m, t.retainedIngressFootprint m=s.retainedIngressFootprint m := by
      intro m
      by_cases hmn : m=n
      · rw [hmn,hfootprint,(retained_eq hself).1]
      · exact retained_congr (hother m hmn)
    have hcredited : t.Credited n := fun _ _=>.inr (retained_eq hself).2
    refine ⟨true,t,rfl,haccounted.perm hperm.symm,hsame,fun _=>hcredited,fun m hm=>?_, fun hroom=>⟨rfl,fun f hf=>?_⟩⟩
    · by_cases hmn : m=n
      · rw [hmn]
        exact hcredited
      · intro f hf
        rw [hsame] at hf
        rw [reservation_congr (hother m hmn)]
        exact hm f hf
    · rw [hfootprint] at hf
      cases hf
      rw [hlight,if_neg Bool.false_ne_true]
      refine ⟨t.lightCapacityWithReservations retainedCommits (t.ingressLight-1),?_,?_⟩
      · unfold retainedIngressLightCapacity
        rw [hself]
        rfl
      · rw [← hs']
        exact hroom

/-- Recording a payload. -/
lemma Accounted.retain (h : s.Accounted Known kept) (hn : 0<n) (hnot : n ∉ kept)
    (hunknown : ¬Known n) (capacity : ℕ) (hroom : kept.length < capacity) (footprint : Footprint)
    (retainedCommits : ℕ) : ∃ credit s', s.retainIngress n footprint capacity retainedCommits =
      .ok (some (credit,s')) ∧ s'.Accounted Known (kept ++ [n]) ∧
      s'.retainedIngressFootprint n=some footprint ∧
      (∀ m ∈ kept, s'.retainedIngressFootprint m=s.retainedIngressFootprint m ∧
        (s.Credited m → s'.Credited m)) ∧ (credit=true → s'.Credited n) := by
  have hlook : s.entries.lookup n=none := by
    by_contra hsome
    have hfree := fun hnone=>hunknown (h.known (Option.isSome_iff_ne_none.2 hsome) hnone)
    exact hnot ((h.reserved n).2 (Option.isSome_iff_ne_none.2 hfree))
  have hvalid : s.validateSequence n = .ok () := by
    unfold validateSequence
    rw [if_neg]
    rw [Bool.or_eq_true,not_or,hlook]
    exact ⟨fun hfinished=>hunknown (h.finished.isFinished hn hfinished),Bool.false_ne_true⟩
  have hcapacity : ¬capacity ≤ s.ingress := by
    rw [h.ingress]
    exact not_le.2 hroom
  generalize ht : ({ s with ingress := s.ingress+1 }.insertEntry n footprint (.ingress false) :
    OrderedCommitState S V O) = t
  have hentries : t.entries=s.entries.insert n ⟨footprint,.ingress false,.waiting⟩ := by
    rw [← ht]
    rfl
  have hself : t.entries.lookup n=some ⟨footprint,.ingress false,.waiting⟩ := by
    rw [hentries,Finmap.lookup_insert]
  have hother : ∀ m, m≠n → t.entries.lookup m=s.entries.lookup m := by
    intro m hm
    rw [hentries,Finmap.lookup_insert_of_ne _ hm]
  have hres : ∀ m, m≠n → t.reservation m=s.reservation m := fun m hm =>
    reservation_congr (hother m hm)
  have hpending : t.pendingSubChunks=s.pendingSubChunks := by
    rw [← ht]
    rfl
  have haccounted : t.Accounted Known (n::kept) := by
    refine ⟨h.working.congr ?_ ?_ hpending ?_,h.finished.congr ?_ ?_,fun m=>?_,
      nodup_cons.2 ⟨hnot,h.nodup⟩,fun {m e} he hm=>?_,fun {m} hm hnone=>?_,
      fun {p} hp e he=>?_,?_,?_⟩
    all_goals try (rw [← ht]; rfl)
    · by_cases hmn : m=n
      · rw [hmn,(retained_eq hself).2]
        simp
      · rw [hres m hmn,mem_cons,← h.reserved m]
        simp [hmn]
    · by_cases hmn : m=n
      · rw [hmn,hself] at he
        cases he
        exact ⟨footprint,false,rfl⟩
      · rw [hother m hmn] at he
        rw [hres m hmn] at hm
        exact h.waiting he hm
    · by_cases hmn : m=n
      · rw [hmn,(retained_eq hself).2] at hnone
        cases hnone
      · rw [hother m hmn] at hm
        rw [hres m hmn] at hnone
        exact h.known hm hnone
    · rw [hpending] at hp
      have hpn : p.sequence≠n := by
        rintro rfl
        exact hunknown (h.working.pending hp)
      rw [hother _ hpn] at he
      exact h.popped hp he
    · have hingress : t.ingress=s.ingress+1 := by
        rw [← ht]
        rfl
      rw [hingress,h.ingress,length_cons]
    · have hlight : t.ingressLight=s.ingressLight := by
        rw [← ht]
        rfl
      have hcount := countP_reserved hnot hres
      rw [hlight,h.ingressLight,countP_cons,hcount]
      simp [(retained_eq hself).2]
  obtain ⟨credit,s',hreserve,hdone,hspec⟩ := haccounted.reserve (.head _) retainedCommits
  have hperm : (n::kept).Perm (kept ++ [n]) := (perm_append_singleton n kept).symm
  refine ⟨credit,s',?_,hdone.perm hperm,?_,fun m hm=>⟨?_,fun hcredited=>?_⟩,hspec.credited⟩
  · unfold retainIngress
    rw [hvalid]
    change (if capacity ≤ s.ingress then _ else _) = _
    rw [if_neg hcapacity,ht,hreserve]
  · rw [hspec.footprint,(retained_eq hself).1]
  · have hmn : m≠n := fun hmn=>hnot (by rwa [← hmn])
    rw [hspec.footprint,retained_congr (hother m hmn)]
  · have hmn : m≠n := fun hmn=>hnot (by rwa [← hmn])
    refine hspec.stays m fun f hf=>?_
    rw [retained_congr (hother m hmn)] at hf
    rw [hres m hmn]
    exact hcredited f hf

lemma Accounted.unretain (h : s.Accounted Known (n::kept)) : ∃ s', s.releaseIngress n=some s' ∧
    s'.Accounted Known kept ∧ ∀ m, m≠n → s'.retainedIngressFootprint m=s.retainedIngressFootprint m ∧
      s'.reservation m=s.reservation m := by
  obtain ⟨footprint,reserved,hlook⟩ := h.entry (.head _)
  have hold := (retained_eq hlook).2
  have hnotin : n ∉ kept := (nodup_cons.1 h.nodup).1
  have hrelease : s.releaseIngress n=some (s.release n) := by
    unfold releaseIngress cancelAdmission
    rw [hlook]
  obtain ⟨hfinished,hfrontier,happlying,hpending,hblocking,hrange⟩ := release_fields (s := s) n
  have hother : ∀ m, m≠n → (s.release n).entries.lookup m=s.entries.lookup m := by
    intro m hm
    rw [lookup_release,if_neg hm]
  have hself : (s.release n).entries.lookup n=none := by
    rw [lookup_release,if_pos rfl]
  have hres : ∀ m, m≠n → (s.release n).reservation m=s.reservation m := fun m hm =>
    reservation_congr (hother m hm)
  have hcounts : (s.release n).ingress=s.ingress-1 ∧ (s.release n).ingressLight=s.ingressLight-reserved.toNat := by
    unfold OrderedCommitState.release
    rw [hlook]
    exact ⟨rfl,rfl⟩
  refine ⟨s.release n,hrelease,⟨h.working.congr happlying hrange hpending hblocking,
    h.finished.congr hfinished hfrontier,fun m=>?_,(nodup_cons.1 h.nodup).2,
    fun {m e} he hm=>?_,fun {m} hm hnone=>?_,fun {p} hp e he=>?_,?_,?_⟩,
    fun m hm=>⟨retained_congr (hother m hm),hres m hm⟩⟩
  · by_cases hmn : m=n
    · rw [hmn,reservation_of_lookup_none hself]
      simp [hnotin]
    · rw [hres m hmn,← h.reserved m,mem_cons]
      simp [hmn]
  · have hmn : m≠n := by
      rintro rfl
      rw [hself] at he
      cases he
    rw [hother m hmn] at he
    rw [hres m hmn] at hm
    exact h.waiting he hm
  · have hmn : m≠n := by
      rintro rfl
      rw [hself] at hm
      cases hm
    rw [hother m hmn] at hm
    rw [hres m hmn] at hnone
    exact h.known hm hnone
  · rw [hpending] at hp
    rw [lookup_release] at he
    split_ifs at he
    exact h.popped hp he
  · rw [hcounts.1,h.ingress,length_cons,Nat.add_sub_cancel]
  · have hcount := countP_reserved hnotin hres
    rw [hcounts.2,h.ingressLight,countP_cons,hcount]
    cases reserved <;> simp [hold]

end OrderedCommitState

end Cinnabar.Ingest
