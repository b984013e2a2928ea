import Cinnabar.Ingest.Drain
import Cinnabar.Ingest.Reservations

/-! # One call of the drain -/

namespace Cinnabar.Ingest

open List

variable {E C S V O : Type} {c : Classes E C} {Known : ℕ → Prop}

/-- A retained payload that a later event may pass. -/
structure Clear (order : OrderedCommitState S V O) (e : WorldIngress E C) : Prop where
  marker : e.isFastTransferBarrier=false
  barrier : ∀ footprint, order.retainedIngressFootprint e.sequence=some footprint → footprint.barrier=false
  credited : order.Credited e.sequence

variable {queue : List ℕ} {e : WorldIngress E C}

lemma Clear.congr {order order' : OrderedCommitState S V O} (h : Clear order e)
    (hfootprint : order'.retainedIngressFootprint e.sequence=order.retainedIngressFootprint e.sequence)
    (hcredited : order.Credited e.sequence → order'.Credited e.sequence) : Clear order' e where
  marker := h.marker
  barrier := by
    rw [hfootprint]
    exact h.barrier
  credited := hcredited h.credited

/-- What the pass over `queue` leaves: `order` was the account when it began. -/
def Scanned.Leaves (Known : ℕ → Prop) (order order' : OrderedCommitState S V O)
    (queue retained : List (WorldIngress E C)) : Scanned E C → Prop
  | .blocked => retained=queue
  | .exhausted => retained=queue ∧ ∀ e ∈ queue, Clear order' e
  | .found x => ∃ before after, queue=before++x::after ∧ retained=before++after ∧ (∀ e ∈ before, Clear order' e) ∧
    (before ≠ [] → ∃ footprint, order.retainedIngressFootprint x.sequence=some footprint ∧
      bypassesTerrain footprint=true)

variable (st : WorldStream E S V O)

lemma reserveRetained_spec (h : st.order.Accounted Known queue) (he : e.sequence ∈ queue) :
    ∃ credit order', reserveRetained e (some st) =
      .ok (credit,some { st with order := order' }) ∧ order'.Accounted Known queue ∧
      st.order.Reserves order' st.retainedCommits e.sequence credit := by
  obtain ⟨credit,order',hreserve,haccounted,hspec⟩ := h.reserve he st.retainedCommits
  refine ⟨credit,order',?_,haccounted,hspec⟩
  unfold reserveRetained WorldStream.reserveIngressLight
  dsimp only
  rw [hreserve]
  rfl

lemma retainedFootprint_spec (h : st.order.Accounted Known queue) (he : e.sequence ∈ queue) :
    ∃ footprint, st.order.retainedIngressFootprint e.sequence=some footprint ∧
      retainedFootprint e (some st) = .ok (some footprint) := by
  obtain ⟨footprint,reserved,hlook⟩ := h.entry he
  have hfootprint := (OrderedCommitState.retained_eq hlook).1
  refine ⟨footprint,hfootprint,?_⟩
  unfold retainedFootprint
  dsimp only
  rw [hfootprint]

lemma releaseRetained_spec (h : st.order.Accounted Known (e.sequence::queue)) :
    ∃ order', releaseRetained e (some st) = .ok (some { st with order := order' }) ∧
      order'.Accounted Known queue ∧ ∀ m, m≠e.sequence →
        order'.retainedIngressFootprint m=st.order.retainedIngressFootprint m ∧
        order'.reservation m=st.order.reservation m := by
  obtain ⟨order',hrelease,haccounted,hother⟩ := h.unretain
  refine ⟨order',?_,haccounted,hother⟩
  unfold releaseRetained WorldStream.releaseIngress
  dsimp only
  rw [hrelease]
  rfl

lemma admitsRetained_spec (c : Classes E C) (h : st.order.Accounted Known queue)
    (he : e.sequence ∈ queue) (footprint : Footprint) :
    ∃ admitted, admitsRetained c e (some st) (some footprint) = .ok admitted := by
  obtain ⟨recorded,reserved,hlook⟩ := h.entry he
  unfold admitsRetained
  dsimp only
  split_ifs
  · exact ⟨_,rfl⟩
  · unfold OrderedCommitState.retainedIngressLightCapacity
    rw [hlook]
    exact ⟨_,rfl⟩

lemma admitsAt_spec (c : Classes E C) (h : st.order.Accounted Known queue)
    (he : e.sequence ∈ queue) (footprint : Footprint) (index : ℕ) :
    ∃ admitted, admitsAt c index e (some st) (some footprint) = .ok admitted ∧
      (admitted=true → 0 < index → bypassesTerrain footprint=true) := by
  obtain ⟨admitted,hadmitted⟩ := admitsRetained_spec st c h he footprint
  unfold admitsAt
  by_cases hfirst : (decide (index=0) || (some footprint).all bypassesTerrain) = true
  · rw [if_pos hfirst]
    refine ⟨admitted,hadmitted,fun _ hpos=>?_⟩
    rw [Bool.or_eq_true,decide_eq_true_eq] at hfirst
    exact hfirst.resolve_left hpos.ne'
  · rw [if_neg hfirst]
    exact ⟨false,rfl,fun hfalse=>nomatch hfalse⟩

lemma perm_sequences (passed rest : List (WorldIngress E C)) (e : WorldIngress E C) :
    ((passed++e::rest).map WorldIngress.sequence).Perm
      (e.sequence :: (passed++rest).map WorldIngress.sequence) := by
  exact perm_middle.map _

lemma scanRetained_spec (c : Classes E C) (deadline : ℕ) (now : ℕ → ℕ) (calls : ℕ)
    (passed rest : List (WorldIngress E C))
    (h : st.order.Accounted Known ((passed++rest).map WorldIngress.sequence))
    (hpassed : ∀ e ∈ passed, Clear st.order e) :
    ∃ scanned retained order', scanRetained c deadline now calls passed rest (some st) =
        .ok (scanned,retained,some { st with order := order' }) ∧
      order'.Accounted Known (retained.map WorldIngress.sequence) ∧
      scanned.Leaves Known st.order order' (passed++rest) retained := by
  induction rest generalizing passed st with
  | nil =>
    rw [append_nil] at h ⊢
    exact ⟨.exhausted,passed,st.order,rfl,h,rfl,hpassed⟩
  | cons e rest ih =>
    have he : e.sequence ∈ (passed++e::rest).map WorldIngress.sequence := mem_map_of_mem (mem_append_right _ (.head _))
    have hother : ∀ e' ∈ passed, e'.sequence≠e.sequence := by
      intro e' he' heq
      have hnodup := (h.perm (perm_sequences passed rest e)).nodup
      rw [nodup_cons] at hnodup
      exact hnodup.1 (by
        rw [← heq]
        exact mem_map_of_mem (mem_append_left _ he'))
    obtain ⟨credit,order₁,hreserve,h₁,hspec⟩ := reserveRetained_spec st h he
    have hclear : ∀ e' ∈ passed, Clear order₁ e' := fun e' he' =>
      (hpassed e' he').congr (hspec.footprint _) (hspec.stays _)
    obtain ⟨footprint,hfootprint,hrecorded⟩ := retainedFootprint_spec { st with order := order₁ } h₁ he
    unfold scanRetained
    by_cases hdeadline : deadline≤now (calls+passed.length)
    · rw [if_pos hdeadline]
      exact ⟨.blocked,_,st.order,rfl,h,rfl⟩
    · rw [if_neg hdeadline,hreserve]
      simp only [bind,Except.bind]
      cases credit with
      | false => exact ⟨.blocked,_,order₁,rfl,h₁,rfl⟩
      | true =>
        rw [if_neg (by simp),hrecorded]
        dsimp only
        by_cases hlater : (decide (0<passed.length) &&
            (e.isFastTransferBarrier || (some footprint).any (·.barrier))) = true
        · rw [if_pos hlater]
          exact ⟨.blocked,_,order₁,rfl,h₁,rfl⟩
        · rw [if_neg hlater]
          obtain ⟨out,hout,hbypass⟩ := admitsAt_spec { st with order := order₁ } c h₁ he footprint passed.length
          rw [hout]
          dsimp only
          cases out with
          | true =>
            obtain ⟨order₂,hrelease,h₂,hkept⟩ := releaseRetained_spec
              { st with order := order₁ } (h₁.perm (perm_sequences passed rest e))
            rw [if_pos rfl,hrelease]
            refine ⟨.found e,passed++rest,order₂,rfl,h₂,passed,rest,rfl,rfl,?_,?_⟩
            · intro e' he'
              obtain ⟨hfoot,hres⟩ := hkept _ (hother e' he')
              refine (hclear e' he').congr hfoot fun hcredited f hf=>?_
              rw [hfoot] at hf
              rw [hres]
              exact hcredited f hf
            · intro hne
              rw [← hspec.footprint]
              exact ⟨footprint,hfootprint,hbypass rfl (length_pos_iff.2 hne)⟩
          | false =>
            by_cases hbarrier : (e.isFastTransferBarrier ||
                (some footprint).any (·.barrier)) = true
            · rw [if_pos hbarrier]
              exact ⟨.blocked,_,order₁,rfl,h₁,rfl⟩
            · rw [if_neg hbarrier]
              rw [Bool.or_eq_true,not_or,Bool.not_eq_true,Bool.not_eq_true] at hbarrier
              have happend : passed++e::rest = (passed ++ [e]) ++ rest := by simp
              have hself : Clear order₁ e := by
                refine ⟨hbarrier.1,fun f hf=>?_,hspec.credited rfl⟩
                have hfooted : order₁.retainedIngressFootprint e.sequence=some footprint := hfootprint
                rw [hfooted] at hf
                cases hf
                simpa using hbarrier.2
              obtain ⟨scanned,retained,order',hscan,haccounted,hleaves⟩ :=
                ih { st with order := order₁ } (passed ++ [e]) (by rw [← happend]; exact h₁) fun e' he'=>by
                    rcases mem_append.1 he' with he' | he'
                    · exact hclear e' he'
                    · rw [mem_singleton.1 he']
                      exact hself
              refine ⟨scanned,retained,order',hscan,haccounted,?_⟩
              rw [← happend] at hleaves
              cases scanned with
              | blocked => exact hleaves
              | exhausted => exact hleaves
              | found x =>
                obtain ⟨before,after,hsplit,hretained,hall,hby⟩ := hleaves
                refine ⟨before,after,hsplit,hretained,hall,fun hne=>?_⟩
                obtain ⟨f,hf,hyes⟩ := hby hne
                exact ⟨f,(hspec.footprint _).symm.trans hf,hyes⟩

/-- What a call delivers of a queue of waiting events, keeping the account `order`. -/
structure Drained.Delivers (order : OrderedCommitState S V O) (queue : List (WorldIngress E C))
    (bypasses : WorldIngress E C → Prop) (out : Drained E C S V O) : Prop where
  nothing : out.result=none → out.pending++out.receiver=queue
  /-- The events handed out of turn pass only retained payloads that are clear. -/
  handed : ∀ {x}, out.result=some x → ∃ before after, queue=before++x::after ∧
    out.pending++out.receiver=before++after ∧ before <+: out.pending ∧
    (∀ e ∈ before, Clear order e) ∧ (before ≠ [] → bypasses x)

/-- Events not handed over yet. -/
structure Arriving (Known : ℕ → Prop) (queue : List (WorldIngress E C)) : Prop where
  nodup : (queue.map WorldIngress.sequence).Nodup
  unknown : ∀ e ∈ queue, 0<e.sequence ∧ ¬Known e.sequence

lemma receiveIngress_spec (c : Classes E C) (deadline : ℕ) (now : ℕ → ℕ) (calls : ℕ)
    {receiver pending : List (WorldIngress E C)}
    (h : st.order.Accounted Known (pending.map WorldIngress.sequence))
    (hclear : ∀ e ∈ pending, Clear st.order e) (hlen : pending.length≤worldEventCapacity)
    (hnew : Arriving Known (pending++receiver)) :
    ∃ out order', receiveIngress c deadline now calls receiver pending (some st) = .ok out ∧
      out.stream=some { st with order := order' } ∧
      order'.Accounted Known (out.pending.map WorldIngress.sequence) ∧
      out.pending.length≤worldEventCapacity ∧
      out.Delivers order' (pending++receiver) fun x =>
        x ∈ receiver ∧ bypassesTerrain (footprintOf c x st) = true := by
  -- handing out the event after the retained ones
  have hhand : ∀ {x rest}, receiver=x::rest → (pending ≠ [] → bypassesTerrain (footprintOf c x st) = true) →
      (Drained.mk (some x) rest pending (some st)).Delivers st.order (pending++receiver)
        fun x=>x ∈ receiver ∧ bypassesTerrain (footprintOf c x st) = true := by
    rintro x rest rfl hbypass
    refine ⟨fun hnone=>(nomatch hnone),fun hx=>?_⟩
    cases hx
    exact ⟨pending,rest,rfl,rfl,prefix_refl _,hclear,fun hne =>
      ⟨.head _,hbypass hne⟩⟩
  have hwait : (Drained.mk none receiver pending (some st)).Delivers st.order (pending++receiver)
      fun x=>x ∈ receiver ∧ bypassesTerrain (footprintOf c x st) = true :=
    ⟨fun _=>rfl,fun hx=>(nomatch hx)⟩
  induction receiver generalizing pending st calls with
  | nil =>
    unfold receiveIngress
    split_ifs <;> exact ⟨_,st.order,rfl,rfl,h,hlen,hwait⟩
  | cons x rest ih =>
    unfold receiveIngress
    by_cases hfull : pending.length<worldEventCapacity
    · rw [if_pos hfull]
      by_cases hdeadline : deadline≤now calls
      · rw [if_pos hdeadline]
        exact ⟨_,st.order,rfl,rfl,h,hlen,hwait⟩
      · rw [if_neg hdeadline]
        dsimp only
        by_cases hfirst : (pending.isEmpty && admits c x (some st) none) = true
        · rw [if_pos hfirst]
          rw [Bool.and_eq_true,List.isEmpty_iff] at hfirst
          exact ⟨_,st.order,rfl,rfl,h,hlen,hhand rfl fun hne=>absurd hfirst.1 hne⟩
        · rw [if_neg hfirst]
          by_cases hpass : (bypassesTerrain (footprintOf c x st) &&
              admits c x (some st) (some (footprintOf c x st))) = true
          · rw [if_pos hpass]
            rw [Bool.and_eq_true] at hpass
            exact ⟨_,st.order,rfl,rfl,h,hlen,hhand rfl fun _=>hpass.1⟩
          · rw [if_neg hpass]
            obtain ⟨hpos,hunknown⟩ := hnew.unknown x (by simp)
            have hnot : x.sequence ∉ pending.map WorldIngress.sequence := by
              have hnodup := hnew.nodup
              rw [map_append,map_cons] at hnodup
              intro hin
              exact (nodup_append.1 hnodup).2.2 _ hin _ (.head _) rfl
            obtain ⟨credit,order',hretain,haccounted,hfootprint,hkept,hcredited⟩ := h.retain
              hpos hnot hunknown worldEventCapacity (by simpa using hfull)
              (footprintOf c x st) st.retainedCommits
            have hretained : st.retainIngress x.sequence (footprintOf c x st) worldEventCapacity =
                .ok (credit,{ st with order := order' }) := by
              unfold WorldStream.retainIngress
              rw [hretain]
            rw [hretained]
            simp only [bind,Except.bind]
            have hmap : pending.map WorldIngress.sequence ++ [x.sequence] =
                (pending ++ [x]).map WorldIngress.sequence := by simp
            rw [hmap] at haccounted
            have hlen' : (pending ++ [x]).length≤worldEventCapacity := by
              rw [length_append,length_singleton]
              exact hfull
            have hsplit : pending++x::rest = (pending ++ [x]) ++ rest := by simp
            by_cases hstop : ((footprintOf c x st).barrier || !credit) = true
            · rw [if_pos hstop]
              exact ⟨_,order',rfl,rfl,haccounted,hlen',fun _=>hsplit.symm, fun hx=>(nomatch hx)⟩
            · rw [if_neg hstop]
              rw [Bool.or_eq_true,not_or,Bool.not_eq_true,Bool.not_eq_true, Bool.not_eq_false'] at hstop
              have hmarker : x.isFastTransferBarrier=false := by
                cases x with
                | event => rfl
                | levelChunk => rfl
                | fastTransferBarrier =>
                  have hbarrier := hstop.1
                  cases hbarrier
              have hclear' : ∀ e ∈ pending ++ [x], Clear order' e := by
                intro e he
                rcases mem_append.1 he with he | he
                · obtain ⟨hfoot,hstays⟩ := hkept e.sequence (mem_map_of_mem he)
                  exact (hclear e he).congr hfoot hstays
                · rw [mem_singleton.1 he]
                  refine ⟨hmarker,fun f hf=>?_,hcredited hstop.2⟩
                  rw [hfootprint] at hf
                  cases hf
                  exact hstop.1
              obtain ⟨out,order'',hout,hstream,haccounted',hlen'',hdelivers⟩ :=
                ih { st with order := order' } (calls+1) haccounted hclear' hlen' (by rw [← hsplit]; exact hnew)
                  (fun {y rest'} hrest hbypass=>⟨fun hnone=>(nomatch hnone),fun hy=>by
                    cases hy
                    exact ⟨pending ++ [x],rest',by rw [hrest],rfl,prefix_refl _,hclear',
                      fun hne=>⟨by rw [hrest]; exact .head _,hbypass hne⟩⟩⟩)
                  ⟨fun _=>rfl,fun hx=>(nomatch hx)⟩
              refine ⟨out,order'',hout,hstream,haccounted',hlen'',?_,fun hx=>?_⟩
              · rw [hsplit]
                exact hdelivers.nothing
              · rw [hsplit]
                obtain ⟨before,after,hqueue,hleft, hprefix,hall,hby⟩ := hdelivers.handed hx
                exact ⟨before,after,hqueue,hleft, hprefix,hall,fun hne =>
                  ⟨.tail _ (hby hne).1,(hby hne).2⟩⟩
    · rw [if_neg hfull]
      exact ⟨_,st.order,rfl,rfl,h,hlen,hwait⟩

end Cinnabar.Ingest
